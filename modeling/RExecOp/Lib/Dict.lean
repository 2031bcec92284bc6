import Mathlib.Data.List.AList
import Mathlib.Data.List.Sort
import Mathlib.Data.String.Basic

/-! Finite dictionaries: Mathlib's association lists with distinct keys, at a constant value
type, and the sorted walk over the keys. -/

namespace RExecOp

abbrev Dict (κ α : Type) := AList (fun _ : κ => α)

namespace Dict

variable {κ α : Type} [DecidableEq κ]

def get (d : Dict κ α) (k : κ) : Option α := AList.lookup k d

def set (d : Dict κ α) (k : κ) (a : α) : Dict κ α := AList.insert k a d

def remove (d : Dict κ α) (k : κ) : Dict κ α := AList.erase k d

def sortedKeys [LinearOrder κ] (d : Dict κ α) : List κ := d.keys.insertionSort (· ≤ ·)

def values [LinearOrder κ] (d : Dict κ α) : List α := d.sortedKeys.filterMap d.get

@[simp] theorem get_empty (k : κ) : get (∅ : Dict κ α) k = none :=
  AList.lookup_empty k

theorem get_set (d : Dict κ α) (k j : κ) (a : α) :
    (d.set k a).get j = if j = k then some a else d.get j := by
  by_cases same : j = k
  · rw [if_pos same, same]
    exact AList.lookup_insert d
  · rw [if_neg same]
    exact AList.lookup_insert_ne same

@[simp] theorem get_set_self (d : Dict κ α) (k : κ) (a : α) : (d.set k a).get k = some a := by
  rw [get_set, if_pos rfl]

theorem get_set_ne (d : Dict κ α) {k j : κ} (a : α) (other : j ≠ k) :
    (d.set k a).get j = d.get j := by
  rw [get_set, if_neg other]

theorem get_remove (d : Dict κ α) (k j : κ) :
    (d.remove k).get j = if j = k then none else d.get j := by
  by_cases same : j = k
  · rw [if_pos same, same]
    exact AList.lookup_erase k d
  · rw [if_neg same]
    exact AList.lookup_erase_ne same

@[simp] theorem get_remove_self (d : Dict κ α) (k : κ) : (d.remove k).get k = none := by
  rw [get_remove, if_pos rfl]

theorem get_remove_ne (d : Dict κ α) {k j : κ} (other : j ≠ k) :
    (d.remove k).get j = d.get j := by
  rw [get_remove, if_neg other]

theorem mem_keys_iff (d : Dict κ α) (k : κ) : k ∈ d.keys ↔ ∃ a, d.get k = some a := by
  rw [← AList.mem_keys, ← AList.lookup_isSome, Option.isSome_iff_exists]
  rfl

theorem mem_keys_set (d : Dict κ α) (k : κ) (a : α) : k ∈ (d.set k a).keys :=
  (mem_keys_iff _ _).mpr ⟨a, get_set_self d k a⟩

theorem keys_subset_set (d : Dict κ α) (k : κ) (a : α) : d.keys ⊆ (d.set k a).keys :=
  fun _ known => (AList.mem_insert _).mpr (.inr known)

theorem isNone_get_eq_false_iff {d : Dict κ α} {k : κ} : (d.get k).isNone = false ↔ k ∈ d.keys := by
  rw [Option.isNone_eq_false_iff, Option.isSome_iff_exists, mem_keys_iff]

variable [LinearOrder κ]

theorem mem_sortedKeys_iff (d : Dict κ α) (k : κ) :
    k ∈ d.sortedKeys ↔ ∃ a, d.get k = some a := by
  rw [sortedKeys, List.mem_insertionSort, mem_keys_iff]

omit [DecidableEq κ] in
theorem sortedKeys_nodup (d : Dict κ α) : d.sortedKeys.Nodup :=
  (List.perm_insertionSort (· ≤ ·) d.keys).nodup_iff.mpr d.keys_nodup

omit [DecidableEq κ] in
theorem sortedKeys_pairwise (d : Dict κ α) : d.sortedKeys.Pairwise (· < ·) := by
  have sorted : d.sortedKeys.Pairwise (· ≤ ·) := List.pairwise_insertionSort (· ≤ ·) d.keys
  exact (sorted.and d.sortedKeys_nodup).imp fun both => lt_of_le_of_ne both.1 both.2

theorem sortedKeys_eq {d : Dict κ α} {keys : List κ} (sorted : keys.Pairwise (· < ·))
    (members : ∀ k, k ∈ keys ↔ ∃ a, d.get k = some a) : d.sortedKeys = keys := by
  refine List.Pairwise.eq_of_mem_iff d.sortedKeys_pairwise sorted fun k => ?_
  rw [mem_sortedKeys_iff, members]

theorem mem_values_iff (d : Dict κ α) (a : α) : a ∈ d.values ↔ ∃ k, d.get k = some a := by
  rw [values, List.mem_filterMap]
  constructor
  · rintro ⟨k, -, found⟩
    exact ⟨k, found⟩
  · rintro ⟨k, found⟩
    exact ⟨k, (mem_sortedKeys_iff d k).mpr ⟨a, found⟩, found⟩

end Dict

end RExecOp
