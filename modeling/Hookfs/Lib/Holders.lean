import Mathlib.Algebra.Order.BigOperators.Group.List
import Mathlib.Algebra.Order.Group.Nat
import Hookfs.Lib.Store

/-!
# What parties hold along the way

Parties are at stages, and at a stage a party holds some of many numbered
things.  What all of them hold together changes by one party's share when
that party goes on.
-/

namespace Hookfs.Lib

universe u

/-- One of the thing with this number. -/
def oneOf (thing : Nat) : Nat → Nat :=
  fun other => if other = thing then 1 else 0

@[simp]
theorem oneOf_self (thing : Nat) : oneOf thing thing = 1 :=
  if_pos rfl

theorem oneOf_of_ne {thing other : Nat} (different : other ≠ thing) :
    oneOf thing other = 0 :=
  if_neg different

section Holders

variable {Stage : Type u}

/-- The stage of a party; nobody has heard of the others. -/
def stageOf (unknown : Stage) (stages : Store Nat Stage) (party : Nat) :
    Stage :=
  (stages.lookup party).getD unknown

/-- What all parties hold together. -/
def holding (share : Stage → Nat → Nat) (stages : Store Nat Stage) :
    Nat → Nat :=
  Store.total (fun _ stage => share stage) stages

variable {unknown : Stage} {stages : Store Nat Stage} {party : Nat}
  {share : Stage → Nat → Nat}

@[simp]
theorem stageOf_insert_self (next : Stage) :
    stageOf unknown (stages.insert party next) party = next := by
  unfold stageOf
  rw [AList.lookup_insert]
  rfl

theorem stageOf_insert_of_ne {other : Nat} (different : other ≠ party)
    (next : Stage) :
    stageOf unknown (stages.insert party next) other =
      stageOf unknown stages other := by
  unfold stageOf
  rw [AList.lookup_insert_ne different]

/-- A party's share, and what the others hold. -/
theorem holding_eq (nothing : share unknown = 0)
    (stages : Store Nat Stage) (party : Nat) :
    holding share stages =
      share (stageOf unknown stages party) +
        holding share (stages.erase party) := by
  unfold holding stageOf
  cases found : stages.lookup party with
  | none =>
      rw [Option.getD_none, nothing, zero_add,
        Store.total_erase_of_none _ found]
  | some stage =>
      rw [Option.getD_some]
      exact Store.total_erase_of_lookup _ found

/-- A party goes on: its share changes, and no other. -/
theorem holding_insert (nothing : share unknown = 0)
    (stages : Store Nat Stage) (party : Nat) (next : Stage) :
    holding share (stages.insert party next) +
        share (stageOf unknown stages party) =
      holding share stages + share next := by
  have others := holding_eq nothing stages party
  unfold holding at others ⊢
  rw [Store.total_insert, others]
  abel

theorem share_le_holding (nothing : share unknown = 0)
    (stages : Store Nat Stage) (party thing : Nat) :
    share (stageOf unknown stages party) thing ≤
      holding share stages thing := by
  rw [holding_eq nothing stages party]
  exact Nat.le_add_right _ _

/-- Two parties hold no more than all of them. -/
theorem shares_le_holding (nothing : share unknown = 0) {first second : Nat}
    (different : second ≠ first) (thing : Nat) :
    share (stageOf unknown stages first) thing +
        share (stageOf unknown stages second) thing ≤
      holding share stages thing := by
  have others := share_le_holding nothing (stages.erase first) second thing
  have same : stageOf unknown (stages.erase first) second =
      stageOf unknown stages second := by
    unfold stageOf
    rw [AList.lookup_erase_ne different]
  rw [same] at others
  rw [holding_eq nothing stages first]
  exact Nat.add_le_add_left others _

/-- Smaller shares, smaller sums. -/
theorem holding_mono {smaller : Stage → Nat → Nat} {thing : Nat}
    (less : ∀ stage, smaller stage thing ≤ share stage thing) :
    holding smaller stages thing ≤ holding share stages thing := by
  unfold holding
  rw [Store.total_apply, Store.total_apply]
  unfold Store.total
  exact List.sum_le_sum fun entry _ => less entry.2

/-- What is held, somebody holds. -/
theorem holding_pos_iff (nothing : share unknown = 0) {thing : Nat} :
    0 < holding share stages thing ↔
      ∃ party, 0 < share (stageOf unknown stages party) thing := by
  constructor
  · intro positive
    rw [holding, Store.total_apply, Store.total_pos_iff] at positive
    obtain ⟨party, stage, found, some⟩ := positive
    refine ⟨party, ?_⟩
    unfold stageOf
    rw [found, Option.getD_some]
    exact some
  · rintro ⟨party, some⟩
    exact Nat.lt_of_lt_of_le some
      (share_le_holding nothing stages party thing)

/-- Of a thing that there is once, only one party has any. -/
theorem party_unique (nothing : share unknown = 0) {first second thing : Nat}
    (once : holding share stages thing ≤ 1)
    (one : 0 < share (stageOf unknown stages first) thing)
    (other : 0 < share (stageOf unknown stages second) thing) :
    second = first := by
  by_contra different
  have both : share (stageOf unknown stages first) thing +
      share (stageOf unknown stages second) thing ≤
        holding share stages thing :=
    shares_le_holding nothing different thing
  omega

end Holders

end Hookfs.Lib
