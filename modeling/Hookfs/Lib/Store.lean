import Mathlib.Data.List.AList
import Mathlib.Algebra.BigOperators.Group.List.Basic
import Mathlib.Algebra.Group.Pi.Basic
import Mathlib.Tactic.Abel

/-!
# Finite maps with weighted totals

A store is an association list without repeated keys.  `total` adds up a
weight over its entries; inserting and erasing change it by one entry.
-/

namespace Hookfs.Lib

universe u v w

/-- A finite map, in order of insertion. -/
abbrev Store (Key : Type u) (Value : Type v) := AList fun _ : Key => Value

namespace Store

section Total

variable {Key : Type u} {Value : Type v} {Weight : Type w}
  [AddCommMonoid Weight]

/-- The sum of the weights of all entries. -/
def total (weight : Key → Value → Weight) (store : Store Key Value) :
    Weight :=
  (store.entries.map fun entry => weight entry.1 entry.2).sum

/-- A total of functions, at one argument. -/
theorem total_apply {Index : Type*} (weight : Key → Value → Index → Nat)
    (store : Store Key Value) (index : Index) :
    total weight store index =
      total (fun key value => weight key value index) store := by
  unfold total
  induction store.entries with
  | nil =>
      rfl
  | cons entry rest inductionHypothesis =>
      simp only [List.map_cons, List.sum_cons, Pi.add_apply,
        inductionHypothesis]

variable [DecidableEq Key]

/-- Taking an entry out lowers the total by its weight. -/
theorem total_erase_of_lookup (weight : Key → Value → Weight)
    {store : Store Key Value} {key : Key} {value : Value}
    (present : store.lookup key = some value) :
    total weight store = weight key value + total weight (store.erase key) := by
  have member : key ∈ store :=
    AList.lookup_isSome.mp (by rw [present]; rfl)
  obtain ⟨found, left, right, absent, split, erased⟩ :=
    List.exists_of_kerase (AList.mem_keys.mp member)
  have value_eq : found = value := by
    have lookup := present
    rw [AList.lookup, split, List.dlookup_append] at lookup
    simpa [List.dlookup_eq_none.mpr absent] using lookup
  subst value_eq
  have erasedEntries : (store.erase key).entries = left ++ right := erased
  unfold total
  rw [erasedEntries, split]
  simp only [List.map_append, List.map_cons, List.sum_append, List.sum_cons]
  abel

theorem total_erase_of_none (weight : Key → Value → Weight)
    {store : Store Key Value} {key : Key}
    (absent : store.lookup key = none) :
    total weight (store.erase key) = total weight store := by
  have outside : key ∉ store := AList.lookup_eq_none.mp absent
  have same : (store.erase key).entries = store.entries :=
    List.kerase_of_notMem_keys fun member =>
      outside (AList.mem_keys.mpr member)
  unfold total
  rw [same]

/-- Inserting replaces what the key had before. -/
theorem total_insert (weight : Key → Value → Weight)
    (store : Store Key Value) (key : Key) (value : Value) :
    total weight (store.insert key value) =
      weight key value + total weight (store.erase key) := by
  unfold total
  rw [AList.entries_insert]
  simp only [List.map_cons, List.sum_cons]
  rfl

theorem total_insert_of_none (weight : Key → Value → Weight)
    {store : Store Key Value} {key : Key} {value : Value}
    (absent : store.lookup key = none) :
    total weight (store.insert key value) =
      weight key value + total weight store := by
  rw [total_insert, total_erase_of_none weight absent]

/-- A total is positive as soon as one entry has a positive weight. -/
theorem total_pos_iff (weight : Key → Value → Nat)
    (store : Store Key Value) :
    0 < total weight store ↔
      ∃ key value, store.lookup key = some value ∧ 0 < weight key value := by
  unfold total
  rw [List.sum_pos_iff_exists_pos_nat]
  constructor
  · rintro ⟨amount, member, positive⟩
    obtain ⟨entry, entryMember, rfl⟩ := List.mem_map.mp member
    exact ⟨entry.1, entry.2, AList.mem_lookup_iff.mpr entryMember, positive⟩
  · rintro ⟨key, value, present, positive⟩
    refine ⟨weight key value, List.mem_map.mpr ?_, positive⟩
    exact ⟨⟨key, value⟩, AList.mem_lookup_iff.mp present, rfl⟩

end Total

section Decide

variable {Key : Type u} {Value : Type v} [DecidableEq Key]

/-- What holds of every lookup holds of every entry. -/
theorem forall_lookup_iff {store : Store Key Value}
    {holds : Key → Value → Prop} :
    (∀ key value, store.lookup key = some value → holds key value) ↔
      ∀ entry ∈ store.entries, holds entry.1 entry.2 := by
  constructor
  · intro all entry member
    exact all entry.1 entry.2
      (AList.mem_lookup_iff.mpr (by cases entry; exact member))
  · intro all key value present
    exact all ⟨key, value⟩ (AList.mem_lookup_iff.mp present)

instance decidableForallLookup {store : Store Key Value}
    {holds : Key → Value → Prop} [∀ key value, Decidable (holds key value)] :
    Decidable (∀ key value, store.lookup key = some value →
      holds key value) :=
  decidable_of_iff _ forall_lookup_iff.symm

end Decide

end Store

end Hookfs.Lib
