import Mathlib.Algebra.BigOperators.Group.List.Basic
import Mathlib.Tactic.Abel

/-!
# Lists that change in one place, and weighted sums over them
-/

namespace Hookfs.Lib

universe u v

variable {Entry : Type u}

/-- Looking into a list after replacing an entry that was there. -/
theorem getElem?_set_of_some {entries : List Entry} {index : Nat}
    {old : Entry} (present : entries[index]? = some old) (new : Entry)
    (other : Nat) :
    (entries.set index new)[other]? =
      if other = index then some new else entries[other]? := by
  have inside : index < entries.length :=
    (List.getElem?_eq_some_iff.mp present).1
  by_cases same : other = index
  · rw [if_pos same, same, List.getElem?_set_self inside]
  · rw [if_neg same, List.getElem?_set_ne (Ne.symm same)]

variable {Weight : Type v} [AddCommMonoid Weight]

/-- Replacing one entry exchanges its weight. -/
theorem sum_map_set (weight : Entry → Weight) :
    ∀ {entries : List Entry} {index : Nat} {old : Entry} (new : Entry),
      entries[index]? = some old →
        ((entries.set index new).map weight).sum + weight old =
          (entries.map weight).sum + weight new := by
  intro entries
  induction entries with
  | nil =>
      intro _ _ _ present
      cases present
  | cons head rest inductionHypothesis =>
      intro index old new present
      cases index with
      | zero =>
          simp only [List.getElem?_cons_zero, Option.some.injEq] at present
          subst present
          simp only [List.set_cons_zero, List.map_cons, List.sum_cons]
          abel
      | succ index =>
          rw [List.getElem?_cons_succ] at present
          simp only [List.set_cons_succ, List.map_cons, List.sum_cons]
          rw [add_assoc, inductionHypothesis new present, add_assoc]

end Hookfs.Lib
