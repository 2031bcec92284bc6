import Mathlib.Algebra.Ring.Nat
import Mathlib.Data.List.Sort
import Mathlib.Data.Rat.Defs
import Mathlib.Data.String.Basic
import RExecOp.Lib.Assoc

/-! Parsed JSON values, the language's `==` on them and the text that `json.dumps` writes with
sorted keys. -/

namespace RExecOp

variable {c : Char} {s t : List Char} {ok : Prop}

inductive Double where
  | finite (q : ℚ)
  | negZero
  | infinite (negative : Bool)
  | nan
  deriving DecidableEq

inductive Json where
  | null
  | bool (b : Bool)
  | int (n : Int)
  | float (x : Double)
  | str (s : String)
  | list (items : List Json)
  | dict (entries : List (String × Json))

variable {v w : Json} {xs ys : List (String × Json)}

namespace Json

inductive Magnitude where
  | finite (q : ℚ)
  | infinite (negative : Bool)
  deriving DecidableEq

def magnitude : Json → Option Magnitude
  | .bool b => some (.finite (if b then 1 else 0))
  | .int n => some (.finite n)
  | .float (.finite q) => some (.finite q)
  | .float .negZero => some (.finite 0)
  | .float (.infinite negative) => some (.infinite negative)
  | _ => none

def truthy : Json → Bool
  | .null => false
  | .bool b => b
  | .int n => n != 0
  | .float x => x != .finite 0 && x != .negZero
  | .str s => s != ""
  | .list items => !items.isEmpty
  | .dict entries => !entries.isEmpty

def orElse (first second : Json) : Json := if first.truthy then first else second

def get (entries : List (String × Json)) (key : String) : Json :=
  (entries.lookup key).getD .null

/-- The entries of a mapping, `none` for any other value. -/
def asDict : Json → Option (List (String × Json))
  | .dict entries => some entries
  | _ => none

@[elab_as_elim, induction_eliminator]
theorem holds {P : Json → Prop} (null : P .null) (bool : ∀ b, P (.bool b))
    (int : ∀ n, P (.int n)) (float : ∀ x, P (.float x)) (str : ∀ s, P (.str s))
    (list : ∀ items, (∀ item ∈ items, P item) → P (.list items))
    (dict : ∀ entries, (∀ entry ∈ entries, P entry.2) → P (.dict entries)) (v : Json) : P v :=
  @Json.rec P (fun items => ∀ item ∈ items, P item) (fun entries => ∀ entry ∈ entries, P entry.2)
    (fun entry => P entry.2) null bool int float str list dict
    (fun _ inside => absurd inside List.not_mem_nil)
    (fun _ _ first rest _ inside => (List.mem_cons.mp inside).elim (· ▸ first) (rest _))
    (fun _ inside => absurd inside List.not_mem_nil)
    (fun _ _ first rest _ inside => (List.mem_cons.mp inside).elim (· ▸ first) (rest _))
    (fun _ _ second => second) v

mutual

def eq : Json → Json → Bool
  | .null, .null => true
  | .str a, .str b => a == b
  | .list xs, .list ys => eqList xs ys
  | .dict xs, .dict ys => xs.length == ys.length && eqEntries xs ys
  | a, b => a.magnitude.isSome && a.magnitude == b.magnitude

def eqList : List Json → List Json → Bool
  | [], [] => true
  | x :: xs, y :: ys => eq x y && eqList xs ys
  | _, _ => false

def eqEntries : List (String × Json) → List (String × Json) → Bool
  | [], _ => true
  | (key, x) :: rest, ys =>
    (match ys.lookup key with
      | some y => eq x y
      | none => false) && eqEntries rest ys

end

mutual

def Proper : Json → Prop
  | .list items => ProperList items
  | .dict entries => (entries.map Prod.fst).Nodup ∧ ProperEntries entries
  | _ => True

def ProperList : List Json → Prop
  | [] => True
  | x :: xs => Proper x ∧ ProperList xs

def ProperEntries : List (String × Json) → Prop
  | [] => True
  | (_, x) :: rest => Proper x ∧ ProperEntries rest

end

/-- What a text shows of a value beside its magnitude. -/
inductive Kind where
  | null
  | bool
  | int
  | float
  | negativeZero
  | str
  | list
  | dict
  deriving DecidableEq

def kind : Json → Kind
  | .null => .null
  | .bool _ => .bool
  | .int _ => .int
  | .float .negZero => .negativeZero
  | .float _ => .float
  | .str _ => .str
  | .list _ => .list
  | .dict _ => .dict

-- Two values are alike when what stands at the same place in both has the same kind.

mutual

def alike : Json → Json → Bool
  | .list xs, .list ys => alikeList xs ys
  | .dict xs, .dict ys => alikeEntries xs ys
  | a, b => a.kind == b.kind

def alikeList : List Json → List Json → Bool
  | x :: xs, y :: ys => alike x y && alikeList xs ys
  | _, _ => true

def alikeEntries : List (String × Json) → List (String × Json) → Bool
  | [], _ => true
  | (key, x) :: rest, ys =>
    (match ys.lookup key with
      | some y => alike x y
      | none => true) && alikeEntries rest ys

end

section Members

attribute [local simp] eq eqList eqEntries alike alikeList alikeEntries Proper ProperList
  ProperEntries

theorem eqList_iff (xs ys : List Json) : eqList xs ys = true ↔ xs.Forall₂ (eq · ·) ys := by
  induction xs generalizing ys with
  | nil => cases ys <;> simp
  | cons x xs ih => cases ys <;> simp [ih]

theorem alikeList_iff {xs ys : List Json} {R : Json → Json → Prop} (same : xs.Forall₂ R ys) :
    alikeList xs ys = true ↔ xs.Forall₂ (alike · ·) ys := by
  induction same with
  | nil => simp
  | cons _ _ ih => simp [ih]

theorem eqEntries_iff (xs ys : List (String × Json)) :
    eqEntries xs ys = true ↔
      ∀ entry ∈ xs, ∃ y, ys.lookup entry.1 = some y ∧ eq entry.2 y = true := by
  induction xs with
  | nil => simp
  | cons entry xs ih =>
    obtain ⟨key, x⟩ := entry
    rw [eqEntries, Bool.and_eq_true, ih, List.forall_mem_cons]
    cases ys.lookup key <;> simp

theorem alikeEntries_iff (xs ys : List (String × Json)) :
    alikeEntries xs ys = true ↔
      ∀ entry ∈ xs, ∀ y, ys.lookup entry.1 = some y → alike entry.2 y = true := by
  induction xs with
  | nil => simp
  | cons entry xs ih =>
    obtain ⟨key, x⟩ := entry
    rw [alikeEntries, Bool.and_eq_true, ih, List.forall_mem_cons]
    cases ys.lookup key <;> simp

theorem properList_iff (xs : List Json) : ProperList xs ↔ ∀ x ∈ xs, x.Proper := by
  induction xs with
  | nil => simp
  | cons x xs ih => simp [ih]

theorem properEntries_iff (xs : List (String × Json)) :
    ProperEntries xs ↔ ∀ entry ∈ xs, entry.2.Proper := by
  induction xs with
  | nil => simp
  | cons entry xs ih => simp [ih]

end Members

def closes (c : Char) : Prop := c = ',' ∨ c = ']' ∨ c = '}'

def ofNumber (c : Char) : Prop := c.isDigit = true ∨ c = '-'

structure FloatText where
  text : Double → List Char
  /-- no float is written as an int is -/
  marked : ∀ x, ∃ c ∈ text x, ¬ ofNumber c
  opens : ∀ x, (Json.float x).magnitude = some (.finite 0) ∨
    (Json.float x).magnitude = some (.finite 1) → ∃ c rest, text x = c :: rest ∧ ofNumber c
  signed : text .negZero ≠ text (.finite 0)
  plain : ∀ x, ∀ c ∈ text x, ¬ closes c

def FloatText.coarse : FloatText where
  text
    | .finite _ => "0.0".toList
    | .negZero => "-0.0".toList
    | .infinite negative => if negative then "-Infinity".toList else "Infinity".toList
    | .nan => "NaN".toList
  marked x := by
    cases x with
    | finite q => exact ⟨'.', by simp, by simp [ofNumber]⟩
    | negZero => exact ⟨'.', by simp, by simp [ofNumber]⟩
    | infinite negative => exact ⟨'I', by cases negative <;> simp, by simp [ofNumber]⟩
    | nan => exact ⟨'N', by simp, by simp [ofNumber]⟩
  opens x small := by
    cases x with
    | finite q => exact ⟨'0', _, rfl, by simp [ofNumber]⟩
    | negZero => exact ⟨'-', _, rfl, by simp [ofNumber]⟩
    | infinite negative => simp [magnitude] at small
    | nan => simp [magnitude] at small
  signed := by decide
  plain x c inside := by
    rintro (rfl | rfl | rfl) <;> cases x with
      | infinite negative => cases negative <;> simp at inside
      | _ => simp at inside

def hex4 (n : Nat) : List Char :=
  [n / 4096 % 16, n / 256 % 16, n / 16 % 16, n % 16].map Nat.digitChar

def escape (c : Char) : List Char :=
  let n := c.toNat
  if c = '"' then ['\\', '"']
  else if c = '\\' then ['\\', '\\']
  else if c = '\n' then ['\\', 'n']
  else if c = '\r' then ['\\', 'r']
  else if c = '\t' then ['\\', 't']
  else if n = 12 then ['\\', 'f']
  else if n = 8 then ['\\', 'b']
  else if 32 ≤ n ∧ n ≤ 126 then [c]
  else if n < 65536 then '\\' :: 'u' :: hex4 n
  -- a character beyond the basic plane is written as its two surrogates
  else '\\' :: 'u' :: hex4 (55296 + (n - 65536) / 1024) ++
    '\\' :: 'u' :: hex4 (56320 + (n - 65536) % 1024)

def quote (s : String) : List Char := '"' :: s.toList.flatMap escape ++ ['"']

def commaSeparated : List (List Char) → List Char
  | [] => []
  | [text] => text
  | text :: next :: rest => text ++ ',' :: commaSeparated (next :: rest)

def byKey {α : Type} (first second : String × α) : Prop := first.1 ≤ second.1

instance {α : Type} : DecidableRel (byKey (α := α)) :=
  fun first second => inferInstanceAs (Decidable (first.1 ≤ second.1))

instance {α : Type} : Std.Total (byKey (α := α)) :=
  ⟨fun first second => le_total first.1 second.1⟩

instance {α : Type} : IsTrans (String × α) byKey := ⟨fun _ _ _ => le_trans⟩

section Dumps

variable (floats : FloatText)

mutual

def dumps : Json → List Char
  | .null => "null".toList
  | .bool b => if b then "true".toList else "false".toList
  | .int n => (toString n).toList
  | .float x => floats.text x
  | .str s => quote s
  | .list items => '[' :: (commaSeparated (dumpsList items) ++ [']'])
  | .dict entries =>
    let sorted := (dumpsEntries entries).insertionSort byKey
    '{' :: (commaSeparated (sorted.map fun entry => quote entry.1 ++ ':' :: entry.2) ++ ['}'])

def dumpsList : List Json → List (List Char)
  | [] => []
  | x :: xs => dumps x :: dumpsList xs

def dumpsEntries : List (String × Json) → List (String × List Char)
  | [] => []
  | (key, x) :: rest => (key, dumps x) :: dumpsEntries rest

end

attribute [local simp] dumps dumpsList dumpsEntries

theorem dumpsList_eq (items : List Json) : dumpsList floats items = items.map (dumps floats) := by
  induction items with
  | nil => rfl
  | cons x xs ih => simp [ih]

theorem dumpsEntries_eq (entries : List (String × Json)) :
    dumpsEntries floats entries = entries.map fun entry => (entry.1, dumps floats entry.2) := by
  induction entries with
  | nil => rfl
  | cons entry entries ih =>
    obtain ⟨key, x⟩ := entry
    simp [ih]

end Dumps

-- Two texts are told apart when they can be compared inside any longer text: in front
-- of what may follow a value they agree only if `ok`.

def Closing (rest : List Char) : Prop := ∀ c ∈ rest.head?, closes c

def Separates (s t : List Char) (ok : Prop) : Prop :=
  ∀ r r', Closing r → Closing r' → (s ++ r = t ++ r' ↔ ok ∧ r = r')

theorem closing_nil : Closing [] := fun _ none => nomatch none

theorem closing_cons (rest : List Char) (closing : closes c) : Closing (c :: rest) := by
  intro d first
  rw [List.head?_cons, Option.mem_some_iff] at first
  exact first ▸ closing

theorem Separates.eq_iff (apart : Separates s t ok) : s = t ↔ ok := by
  have whole := apart [] [] closing_nil closing_nil
  rwa [List.append_nil, List.append_nil, eq_self, and_true] at whole

theorem separates_self (s : List Char) (holds : ok) : Separates s s ok := by
  intro r r' _ _
  rw [List.append_cancel_left_eq, and_iff_right holds]

theorem Separates.after (apart : Separates s t ok) (front : List Char) :
    Separates (front ++ s) (front ++ t) ok := by
  intro r r' closed closed'
  rw [List.append_assoc, List.append_assoc, List.append_cancel_left_eq]
  exact apart r r' closed closed'

theorem takeWhile_closing {s r : List Char} (plain : ∀ c ∈ s, ¬ closes c) (closed : Closing r)
    [DecidablePred closes] : (s ++ r).takeWhile (fun c => ¬ closes c) = s := by
  rw [List.takeWhile_append_of_pos fun c inside => decide_eq_true (plain c inside)]
  cases r with
  | nil => rw [List.takeWhile_nil, List.append_nil]
  | cons c rest =>
    have closing : closes c := closed c rfl
    rw [List.takeWhile_cons_of_neg (by simpa using closing), List.append_nil]

theorem separates_plain (plain : ∀ c ∈ s, ¬ closes c) (plain' : ∀ c ∈ t, ¬ closes c) :
    Separates s t (s = t) := by
  classical
  intro r r' closed closed'
  constructor
  · intro same
    have texts : s = t := by
      rw [← takeWhile_closing plain closed, same, takeWhile_closing plain' closed']
    subst texts
    exact ⟨rfl, List.append_cancel_left same⟩
  · rintro ⟨rfl, rfl⟩
    rfl

theorem separates_commaSeparated {ι : Type} (l : List ι) {s t : ι → List Char} {ok : ι → Prop}
    (each : ∀ i ∈ l, Separates (s i) (t i) (ok i)) (closing : closes c) (r r' : List Char) :
    commaSeparated (l.map s) ++ c :: r = commaSeparated (l.map t) ++ c :: r' ↔
      (∀ i ∈ l, ok i) ∧ r = r' := by
  induction l with
  | nil => simp [commaSeparated]
  | cons i l ih =>
    have first := each i List.mem_cons_self
    have later := ih fun j inside => each j (List.mem_cons_of_mem i inside)
    cases l with
    | nil =>
      simp only [List.map_cons, List.map_nil, commaSeparated]
      rw [first _ _ (closing_cons r closing) (closing_cons r' closing), List.cons_inj_right,
        List.forall_mem_singleton]
    | cons j rest =>
      simp only [List.map_cons, commaSeparated, List.append_assoc, List.cons_append] at later ⊢
      rw [first _ _ (closing_cons _ (.inl rfl)) (closing_cons _ (.inl rfl)), List.cons_inj_right,
        later, List.forall_mem_cons (a := i), and_assoc]

section Numbers

variable (floats : FloatText)

theorem ofNumber_of_mem_int {n : Int} (inside : c ∈ (toString n).toList) : ofNumber c := by
  have digits : ∀ m : Nat, c ∈ m.repr.toList → ofNumber c := by
    intro m among
    rw [Nat.repr, String.toList_ofList] at among
    exact .inl (Nat.isDigit_of_mem_toDigits (by decide) (by decide) among)
  cases n with
  | ofNat m => exact digits m inside
  | negSucc m =>
    have parts : c ∈ "-".toList ++ (m + 1).repr.toList := by
      rw [← String.toList_append]
      exact inside
    rcases List.mem_append.mp parts with sign | among
    · exact .inr (by simpa using sign)
    · exact digits _ among

theorem not_closes_of_ofNumber (number : ofNumber c) : ¬ closes c := by
  rintro (rfl | rfl | rfl) <;> revert number <;> simp [ofNumber]

theorem not_closes_of_mem_dumps (number : v.magnitude.isSome = true) (inside : c ∈ dumps floats v) :
    ¬ closes c := by
  cases v with
  | bool b =>
    rintro (rfl | rfl | rfl) <;> cases b <;> simp [dumps] at inside
  | int n => exact not_closes_of_ofNumber (ofNumber_of_mem_int inside)
  | float x => exact floats.plain x c inside
  | _ => cases number

theorem dumps_bool_ne_int (b : Bool) (n : Int) :
    dumps floats (.bool b) ≠ dumps floats (.int n) := by
  intro same
  have first : (if b then 't' else 'f') ∈ (toString n).toList := by
    rw [dumps, dumps] at same
    rw [← same]
    cases b <;> simp
  have number := ofNumber_of_mem_int first
  revert number
  cases b <;> simp [ofNumber]

theorem dumps_bool_ne_float {b : Bool} {x : Double}
    (equal : (Json.bool b).magnitude = (Json.float x).magnitude) :
    dumps floats (.bool b) ≠ dumps floats (.float x) := by
  intro same
  have small : (Json.float x).magnitude = some (.finite 0) ∨
      (Json.float x).magnitude = some (.finite 1) := by
    rw [← equal]
    cases b <;> simp [magnitude]
  obtain ⟨c, rest, text, number⟩ := floats.opens x small
  rw [dumps, dumps, text] at same
  cases b
  · have first : c = 'f' := by simpa using (congrArg List.head? same).symm
    subst first
    simp [ofNumber] at number
  · have first : c = 't' := by simpa using (congrArg List.head? same).symm
    subst first
    simp [ofNumber] at number

theorem dumps_int_ne_float (n : Int) (x : Double) :
    dumps floats (.int n) ≠ dumps floats (.float x) := by
  intro same
  obtain ⟨c, inside, foreign⟩ := floats.marked x
  rw [dumps, dumps] at same
  exact foreign (ofNumber_of_mem_int (same ▸ inside))

theorem dumps_float_eq_iff {x y : Double} (number : (Json.float x).magnitude.isSome = true)
    (equal : (Json.float x).magnitude = (Json.float y).magnitude) :
    dumps floats (.float x) = dumps floats (.float y) ↔
      (Json.float x).kind = (Json.float y).kind := by
  have signed := floats.signed
  cases x <;> cases y <;> simp_all [magnitude, dumps, kind]
  exact fun same => signed same.symm

theorem dumps_number_eq_iff (number : v.magnitude.isSome = true)
    (equal : v.magnitude = w.magnitude) : dumps floats v = dumps floats w ↔ v.kind = w.kind := by
  have number' : w.magnitude.isSome = true := equal ▸ number
  cases v with
  | bool b =>
    cases w with
    | bool b' =>
      have same : b = b' := by
        cases b <;> cases b' <;> simp_all [magnitude]
      simp [same]
    | int n => exact iff_of_false (dumps_bool_ne_int floats b n) nofun
    | float x =>
      exact iff_of_false (dumps_bool_ne_float floats equal) (by cases x <;> simp [kind])
    | _ => cases number'
  | int n =>
    cases w with
    | bool b => exact iff_of_false (dumps_bool_ne_int floats b n).symm nofun
    | int m =>
      have same : n = m := by simpa [magnitude] using equal
      simp [same]
    | float x => exact iff_of_false (dumps_int_ne_float floats n x) (by cases x <;> simp [kind])
    | _ => cases number'
  | float x =>
    cases w with
    | bool b =>
      exact iff_of_false (dumps_bool_ne_float floats equal.symm).symm
        (by cases x <;> simp [kind])
    | int n =>
      exact iff_of_false (dumps_int_ne_float floats n x).symm (by cases x <;> simp [kind])
    | float y => exact dumps_float_eq_iff floats number equal
    | _ => cases number'
  | _ => cases number

end Numbers

section Texts

variable (floats : FloatText)

theorem separates_number (number : v.magnitude.isSome = true) (equal : v.magnitude = w.magnitude) :
    Separates (dumps floats v) (dumps floats w) (v.kind = w.kind) := by
  have apart := separates_plain (fun c => not_closes_of_mem_dumps floats number (c := c))
    (fun c => not_closes_of_mem_dumps floats (equal ▸ number) (c := c))
  rwa [dumps_number_eq_iff floats number equal] at apart

theorem separates_list {xs ys : List Json} (size : xs.length = ys.length)
    (each : ∀ pair ∈ xs.zip ys,
      Separates (dumps floats pair.1) (dumps floats pair.2) (alike pair.1 pair.2)) :
    Separates (dumps floats (.list xs)) (dumps floats (.list ys))
      (∀ pair ∈ xs.zip ys, alike pair.1 pair.2) := by
  intro r r' _ _
  have inner := separates_commaSeparated (xs.zip ys) each (c := ']') (.inr (.inl rfl)) r r'
  have firsts : (xs.zip ys).map (fun pair => dumps floats pair.1) = xs.map (dumps floats) := by
    conv_rhs => rw [← List.map_fst_zip size.le, List.map_map]
    rfl
  have seconds : (xs.zip ys).map (fun pair => dumps floats pair.2) = ys.map (dumps floats) := by
    conv_rhs => rw [← List.map_snd_zip size.ge, List.map_map]
    rfl
  rw [firsts, seconds] at inner
  simp only [dumps, dumpsList_eq, List.cons_append, List.append_assoc, List.nil_append,
    List.cons_inj_right]
  exact inner

theorem dumps_dict_map (l : List (String × Json)) (value : String × Json → Json) :
    dumps floats (.dict (l.map fun entry => (entry.1, value entry))) =
      '{' :: (commaSeparated ((l.insertionSort byKey).map fun entry =>
        quote entry.1 ++ ':' :: dumps floats (value entry)) ++ ['}']) := by
  have sorted := List.map_insertionSort byKey byKey
    (fun entry => (entry.1, dumps floats (value entry))) l fun _ _ _ _ => Iff.rfl
  rw [dumps, dumpsEntries_eq, List.map_map]
  simp only [Function.comp_def, ← sorted, List.map_map]

theorem length_commaSeparated {texts : List (List Char)} (some : texts ≠ []) :
    (commaSeparated texts).length + 1 = (texts.map fun text => text.length + 1).sum := by
  induction texts with
  | nil => exact absurd rfl some
  | cons text rest ih =>
    cases rest with
    | nil => simp [commaSeparated]
    | cons next rest =>
      have later := ih (List.cons_ne_nil next rest)
      rw [List.map_cons, List.sum_cons, ← later]
      simp only [commaSeparated, List.length_append, List.length_cons]
      omega

def entrySize (entry : String × Json) : Nat :=
  (quote entry.1).length + (dumps floats entry.2).length + 2

theorem length_dumps_dict {entries : List (String × Json)} (some : entries ≠ []) :
    (dumps floats (.dict entries)).length = (entries.map (entrySize floats)).sum + 1 := by
  have whole := dumps_dict_map floats entries Prod.snd
  rw [List.map_id'' (fun entry => rfl)] at whole
  have perm := List.perm_insertionSort byKey entries
  have sorted : (entries.insertionSort byKey).map (fun entry =>
      quote entry.1 ++ ':' :: dumps floats entry.2) ≠ [] := by
    rw [ne_eq, List.map_eq_nil_iff]
    exact fun none => some (List.nil_perm.mp (none ▸ perm))
  have listed := length_commaSeparated sorted
  rw [List.map_map, (perm.map _).sum_nat] at listed
  rw [whole, List.length_cons, List.length_append, List.length_singleton, listed]
  simp only [Function.comp_def, List.length_append, List.length_cons, ← Nat.add_assoc]
  rfl

theorem dumps_dict_perm (distinct : (xs.map Prod.fst).Nodup) (perm : xs.Perm ys) :
    dumps floats (.dict xs) = dumps floats (.dict ys) := by
  have same : (dumpsEntries floats xs).insertionSort byKey =
      (dumpsEntries floats ys).insertionSort byKey := by
    have keys : ((dumpsEntries floats xs).map Prod.fst).Nodup := by
      rwa [dumpsEntries_eq, List.map_map]
    have texts : (dumpsEntries floats xs).Perm (dumpsEntries floats ys) := by
      rw [dumpsEntries_eq, dumpsEntries_eq]
      exact perm.map _
    apply List.Perm.eq_of_pairwise ?_ (List.pairwise_insertionSort byKey _)
      (List.pairwise_insertionSort byKey _)
    · exact (List.perm_insertionSort _ _).trans (texts.trans (List.perm_insertionSort _ _).symm)
    · intro a b inside inside' below above
      have key : a.1 = b.1 := le_antisymm below above
      rw [List.mem_insertionSort] at inside inside'
      exact List.inj_on_of_nodup_map keys inside (texts.mem_iff.mpr inside') key
  rw [dumps, same, ← dumps]

theorem perm_of_lookup (distinct : (xs.map Prod.fst).Nodup) (size : xs.length = ys.length)
    (found : ∀ entry ∈ xs, (ys.lookup entry.1).isSome = true) :
    (xs.map fun entry => (entry.1, Json.get ys entry.1)).Perm ys := by
  have inside : (xs.map fun entry => (entry.1, Json.get ys entry.1)) ⊆ ys := by
    intro other among
    obtain ⟨entry, member, rfl⟩ := List.mem_map.mp among
    obtain ⟨y, lookup⟩ := Option.isSome_iff_exists.mp (found entry member)
    have value : Json.get ys entry.1 = y := by rw [Json.get, lookup, Option.getD_some]
    rw [value]
    exact Assoc.mem_of_lookup lookup
  have once : (xs.map fun entry => (entry.1, Json.get ys entry.1)).Nodup := by
    refine List.Nodup.of_map Prod.fst ?_
    rwa [List.map_map]
  exact (List.subperm_of_subset once inside).perm_of_length_le (by simp [size])

theorem separates_dict (distinct : (xs.map Prod.fst).Nodup) (size : xs.length = ys.length)
    (each : ∀ entry ∈ xs, ∃ y, ys.lookup entry.1 = some y ∧
      Separates (dumps floats entry.2) (dumps floats y) (alike entry.2 y)) :
    Separates (dumps floats (.dict xs)) (dumps floats (.dict ys))
      (alike (.dict xs) (.dict ys)) := by
  have found : ∀ entry ∈ xs, ys.lookup entry.1 = some (get ys entry.1) ∧
      Separates (dumps floats entry.2) (dumps floats (get ys entry.1))
        (alike entry.2 (get ys entry.1)) := by
    intro entry inside
    obtain ⟨y, lookup, apart⟩ := each entry inside
    rw [get, lookup, Option.getD_some]
    exact ⟨rfl, apart⟩
  have places : alike (.dict xs) (.dict ys) = true ↔
      ∀ entry ∈ xs, alike entry.2 (get ys entry.1) = true := by
    rw [alike, alikeEntries_iff]
    refine forall₂_congr fun entry inside => ?_
    rw [(found entry inside).1]
    exact ⟨fun all => all _ rfl, fun places y same => Option.some.inj same ▸ places⟩
  have perm := perm_of_lookup distinct size fun entry inside => by
    rw [(found entry inside).1, Option.isSome_some]
  have once : ((xs.map fun entry => (entry.1, get ys entry.1)).map Prod.fst).Nodup := by
    rwa [List.map_map]
  have first := dumps_dict_map floats xs Prod.snd
  rw [List.map_id'' (fun entry => rfl)] at first
  have second := dumps_dict_map floats xs fun entry => get ys entry.1
  rw [dumps_dict_perm floats once perm] at second
  rw [first, second, places]
  intro r r' _ _
  have sorted := separates_commaSeparated (xs.insertionSort byKey)
    (fun entry inside =>
      ((found entry ((List.mem_insertionSort _).mp inside)).2.after [':']).after (quote entry.1))
    (c := '}') (.inr (.inr rfl)) r r'
  simp only [List.mem_insertionSort] at sorted
  simp only [List.cons_append, List.append_assoc, List.nil_append, List.cons_inj_right]
  exact sorted

theorem eq_number (number : v.magnitude.isSome = true) (same : eq v w = true) :
    v.magnitude = w.magnitude ∧ (alike v w = true ↔ v.kind = w.kind) := by
  cases v <;> cases w <;> simp_all [eq, magnitude, alike]

theorem separates_dumps (v : Json) : ∀ w : Json, eq v w = true → v.Proper → w.Proper →
    Separates (dumps floats v) (dumps floats w) (alike v w) := by
  induction v with
  | null =>
    intro w same _ _
    cases w with
    | null => exact separates_self _ rfl
    | _ => simp [eq, magnitude] at same
  | bool b =>
    intro w same _ _
    obtain ⟨equal, places⟩ := eq_number (v := .bool b) rfl same
    rw [places]
    exact separates_number floats rfl equal
  | int n =>
    intro w same _ _
    obtain ⟨equal, places⟩ := eq_number (v := .int n) rfl same
    rw [places]
    exact separates_number floats rfl equal
  | float x =>
    intro w same _ _
    have number : (Json.float x).magnitude.isSome = true := by
      cases w <;> simp only [eq, Bool.and_eq_true] at same <;> exact same.1
    obtain ⟨equal, places⟩ := eq_number number same
    rw [places]
    exact separates_number floats number equal
  | str s =>
    intro w same _ _
    cases w with
    | str t =>
      have text : s = t := by simpa [eq] using same
      subst text
      exact separates_self _ (by simp [alike])
    | _ => simp [eq, magnitude] at same
  | list xs ih =>
    intro w same proper proper'
    cases w with
    | list ys =>
      rw [eq, eqList_iff] at same
      rw [Proper, properList_iff] at proper proper'
      have each := separates_list floats same.length_eq fun pair inside =>
        ih pair.1 (List.of_mem_zip inside).1 pair.2 ((List.forall₂_iff_zip.mp same).2 inside)
          (proper _ (List.of_mem_zip inside).1) (proper' _ (List.of_mem_zip inside).2)
      have places : alike (.list xs) (.list ys) = true ↔
          ∀ pair ∈ xs.zip ys, alike pair.1 pair.2 = true := by
        rw [alike, alikeList_iff same, List.forall₂_iff_zip, and_iff_right same.length_eq]
        exact ⟨fun all pair inside => all inside, fun all _ _ inside => all _ inside⟩
      rwa [← places] at each
    | _ => simp [eq, magnitude] at same
  | dict xs ih =>
    intro w same proper proper'
    cases w with
    | dict ys =>
      rw [eq, Bool.and_eq_true, beq_iff_eq, eqEntries_iff] at same
      rw [Proper, properEntries_iff] at proper proper'
      refine separates_dict floats proper.1 same.1 fun entry inside => ?_
      obtain ⟨y, lookup, equal⟩ := same.2 entry inside
      exact ⟨y, lookup, ih entry inside y equal (proper.2 entry inside)
        (proper'.2 _ (Assoc.mem_of_lookup lookup))⟩
    | _ => simp [eq, magnitude] at same

theorem dumps_eq_iff (same : eq v w = true) (proper : v.Proper) (proper' : w.Proper) :
    dumps floats v = dumps floats w ↔ alike v w = true :=
  (separates_dumps floats v w same proper proper').eq_iff

end Texts

end Json

end RExecOp
