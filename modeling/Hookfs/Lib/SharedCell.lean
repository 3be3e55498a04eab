import Mathlib.Data.Multiset.Basic
import Mathlib.Data.Multiset.AddSub

/-!
# A cell that several holders patch with the same value

Every holder saves the value it finds and writes the common patch; on release
it puts its saved value back if the patch is still there.  Whatever the order
of releases, exactly one of the saved values is the original one as long as
the patch is in place, so the cell is back at its original value when the
last holder has gone.
-/

namespace Hookfs.Lib

universe u

section SharedCell

variable {Value : Type u}

/-- Either the cell is at its original value and all saved values are the
patch, or the patch is in place and exactly one saved value is the
original. -/
def Balanced (patch original current : Value) (saved : Multiset Value) :
    Prop :=
  (current = original ∧ ∀ value ∈ saved, value = patch) ∨
    (current = patch ∧ ∃ others, saved = original ::ₘ others ∧
      ∀ value ∈ others, value = patch)

variable {patch original current value : Value} {saved : Multiset Value}

/-- A cell nobody holds is balanced at its original value, and only there. -/
theorem balanced_zero :
    Balanced patch original current 0 ↔ current = original := by
  constructor
  · rintro (⟨here, -⟩ | ⟨-, others, impossible, -⟩)
    · exact here
    · exact absurd impossible.symm (Multiset.cons_ne_zero)
  · intro here
    exact Or.inl ⟨here, by simp⟩

/-- A new holder saves the current value and writes the patch. -/
theorem Balanced.hold (balanced : Balanced patch original current saved) :
    Balanced patch original patch (current ::ₘ saved) := by
  rcases balanced with ⟨rfl, others⟩ | ⟨rfl, others, split, patched⟩
  · exact Or.inr ⟨rfl, saved, rfl, others⟩
  · refine Or.inr ⟨rfl, current ::ₘ others, ?_, ?_⟩
    · rw [split, Multiset.cons_swap]
    · intro value member
      rcases Multiset.mem_cons.mp member with rfl | later
      · rfl
      · exact patched value later

variable [DecidableEq Value]

/-- Put a saved value back if the patch is still in place. -/
def putBackSaved (patch current saved : Value) : Value :=
  if current = patch then saved else current

/-- A holder leaves. -/
theorem Balanced.release
    (balanced : Balanced patch original current (value ::ₘ saved)) :
    Balanced patch original (putBackSaved patch current value) saved := by
  unfold putBackSaved
  rcases balanced with ⟨rfl, all⟩ | ⟨rfl, others, split, patched⟩
  · have here : value = patch := all value (Multiset.mem_cons_self _ _)
    refine Or.inl ⟨?_, fun other member =>
      all other (Multiset.mem_cons_of_mem member)⟩
    split
    · rename_i same
      rw [here, same]
    · rfl
  · rw [if_pos rfl]
    by_cases own : value = original
    · subst own
      have same : saved = others := (Multiset.cons_inj_right _).mp split
      exact Or.inl ⟨rfl, same ▸ patched⟩
    · obtain ⟨rest, savedSplit, othersSplit⟩ : ∃ rest,
          saved = original ::ₘ rest ∧ others = value ::ₘ rest := by
        rcases Multiset.cons_eq_cons.mp split with
          ⟨same, -⟩ | ⟨-, rest, left, right⟩
        · exact absurd same own
        · exact ⟨rest, left, right⟩
      refine Or.inr ⟨?_, rest, savedSplit, ?_⟩
      · exact patched value (othersSplit ▸ Multiset.mem_cons_self _ _)
      · intro other member
        exact patched other
          (othersSplit ▸ Multiset.mem_cons_of_mem member)

/-- Several holders leave one after the other. -/
theorem Balanced.releaseAll {remaining : Multiset Value} :
    ∀ {leaving : List Value} {current : Value},
      Balanced patch original current (↑leaving + remaining) →
        Balanced patch original
          (leaving.foldl (putBackSaved patch) current) remaining := by
  intro leaving
  induction leaving with
  | nil =>
      intro current balanced
      simpa using balanced
  | cons value rest inductionHypothesis =>
      intro current balanced
      rw [List.foldl_cons]
      apply inductionHypothesis
      apply Balanced.release
      rwa [← Multiset.cons_coe, Multiset.cons_add] at balanced

/-- Holders that saved the patch itself leave no trace. -/
theorem foldl_putBackSaved_of_patch {leaving : List Value}
    (all : ∀ value ∈ leaving, value = patch) :
    leaving.foldl (putBackSaved patch) patch = patch := by
  induction leaving with
  | nil =>
      rfl
  | cons value rest inductionHypothesis =>
      rw [List.foldl_cons, putBackSaved, if_pos rfl,
        all value List.mem_cons_self]
      exact inductionHypothesis fun later member =>
        all later (List.mem_cons_of_mem _ member)

end SharedCell

end Hookfs.Lib
