import Mathlib.Data.List.Nodup

/-! Mappings as lists of entries; a key that is assigned again keeps its place. -/

namespace RExecOp.Assoc

variable {V W : Type}

def assign (key : String) (value : V) : List (String × V) → List (String × V)
  | [] => [(key, value)]
  | (other, old) :: rest =>
    if other = key then (key, value) :: rest else (other, old) :: assign key value rest

theorem lookup_assign (l : List (String × V)) (key other : String) (value : V) :
    (assign key value l).lookup other = if other = key then some value else l.lookup other := by
  induction l with
  | nil => grind [assign]
  | cons entry rest ih => grind [assign]

theorem mem_assign {l : List (String × V)} {key : String} {value : V} {entry : String × V}
    (inside : entry ∈ assign key value l) : entry = (key, value) ∨ entry ∈ l := by
  induction l with
  | nil => grind [assign]
  | cons first rest ih => grind [assign]

theorem keys_assign (l : List (String × V)) (key : String) (value : V) :
    (assign key value l).map Prod.fst =
      if key ∈ l.map Prod.fst then l.map Prod.fst else l.map Prod.fst ++ [key] := by
  induction l with
  | nil => rfl
  | cons entry rest ih => grind [assign]

theorem assign_map (f : V → W) (l : List (String × V)) (key : String) (value : V) :
    (assign key value l).map (fun entry => (entry.1, f entry.2)) =
      assign key (f value) (l.map fun entry => (entry.1, f entry.2)) := by
  induction l with
  | nil => rfl
  | cons entry rest ih => grind [assign]

theorem lookup_map (f : V → W) (l : List (String × V)) (key : String) :
    (l.map fun entry => (entry.1, f entry.2)).lookup key = (l.lookup key).map f := by
  induction l with
  | nil => rfl
  | cons entry rest ih => grind

theorem lookup_filter_ne (l : List (String × V)) (key other : String) :
    (l.filter (·.1 ≠ key)).lookup other = if other = key then none else l.lookup other := by
  induction l with
  | nil => grind
  | cons entry rest ih => grind

theorem mem_of_lookup {l : List (String × V)} {key : String} {value : V}
    (found : l.lookup key = some value) : (key, value) ∈ l := by
  obtain ⟨before, after, rfl, -⟩ := List.lookup_eq_some_iff.mp found
  exact List.mem_append_right _ List.mem_cons_self

theorem lookup_of_mem {l : List (String × V)} {key : String} {value : V}
    (distinct : (l.map Prod.fst).Nodup) (member : (key, value) ∈ l) :
    l.lookup key = some value := by
  obtain ⟨before, after, rfl⟩ := List.append_of_mem member
  refine List.lookup_eq_some_iff.mpr ⟨before, after, rfl, fun entry earlier => ?_⟩
  rw [List.map_append, List.map_cons] at distinct
  have apart := (List.nodup_append.mp distinct).2.2 entry.1 (List.mem_map_of_mem earlier) key
    List.mem_cons_self
  exact bne_iff_ne.mpr apart.symm

end RExecOp.Assoc
