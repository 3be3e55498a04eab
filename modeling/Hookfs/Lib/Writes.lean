import Mathlib.Logic.Function.Basic
import Mathlib.Data.List.Nodup

/-!
# Batches of writes to a total memory

A batch is a list of address/value pairs applied from left to right.  With
distinct addresses the order does not matter, and a batch whose values all
come from one memory brings that memory back.
-/

namespace Hookfs.Lib

universe u v

section Writes

variable {Address : Type u} {Value : Type v} [DecidableEq Address]

/-- Apply the writes from left to right. -/
def writeAll (writes : List (Address × Value)) (memory : Address → Value) :
    Address → Value :=
  writes.foldl
    (fun current write => Function.update current write.1 write.2) memory

@[simp]
theorem writeAll_cons (write : Address × Value)
    (rest : List (Address × Value)) (memory : Address → Value) :
    writeAll (write :: rest) memory =
      writeAll rest (Function.update memory write.1 write.2) := rfl

/-- A batch does not touch the addresses it does not name. -/
theorem writeAll_outside {address : Address} :
    ∀ (writes : List (Address × Value)) (memory : Address → Value),
      address ∉ writes.map Prod.fst →
        writeAll writes memory address = memory address := by
  intro writes
  induction writes with
  | nil =>
      intro _ _
      rfl
  | cons write rest inductionHypothesis =>
      intro memory outside
      have different : address ≠ write.1 := fun same =>
        outside (by simp [same])
      have later : address ∉ rest.map Prod.fst := fun member =>
        outside (List.mem_cons_of_mem _ member)
      rw [writeAll_cons, inductionHypothesis _ later,
        Function.update_of_ne different]

/-- With distinct addresses every named address ends at its own value. -/
theorem writeAll_inside {address : Address} {value : Value} :
    ∀ (writes : List (Address × Value)) (memory : Address → Value),
      (writes.map Prod.fst).Nodup → (address, value) ∈ writes →
        writeAll writes memory address = value := by
  intro writes
  induction writes with
  | nil =>
      intro _ _ member
      cases member
  | cons write rest inductionHypothesis =>
      intro memory distinct member
      rw [List.map_cons, List.nodup_cons] at distinct
      rw [writeAll_cons]
      rcases List.mem_cons.mp member with here | later
      · subst here
        rw [writeAll_outside rest _ distinct.1, Function.update_self]
      · exact inductionHypothesis _ distinct.2 later

/-- Writes that all carry `target`'s values lead to `target`, provided the
addresses they leave alone already agree with it. -/
theorem writeAll_eq_of_agree (target : Address → Value) :
    ∀ (writes : List (Address × Value)) (memory : Address → Value),
      (∀ write ∈ writes, write.2 = target write.1) →
      (∀ address, address ∉ writes.map Prod.fst →
        memory address = target address) →
        writeAll writes memory = target := by
  intro writes
  induction writes with
  | nil =>
      intro memory _ outside
      funext address
      exact outside address List.not_mem_nil
  | cons write rest inductionHypothesis =>
      intro memory agree outside
      rw [writeAll_cons]
      apply inductionHypothesis
      · intro later member
        exact agree later (List.mem_cons_of_mem _ member)
      · intro address absent
        by_cases same : address = write.1
        · subst same
          rw [Function.update_self]
          exact agree write List.mem_cons_self
        · rw [Function.update_of_ne same]
          exact outside address (by simpa [same] using absent)

end Writes

end Hookfs.Lib
