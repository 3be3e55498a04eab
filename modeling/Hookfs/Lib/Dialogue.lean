import Mathlib.Init

/-!
# Programs that ask

A program as the questions it asks of its surroundings, and what follows for
its runs when one kind of surroundings simulates another.
-/

namespace Hookfs.Lib

universe u v w x y z

/-- A program that is done, or asks and goes on with the answer. -/
inductive Dialogue (Op : Type u) (Answer : Op → Type v) (Value : Type w) where
  | done (value : Value)
  | ask (op : Op) (next : Answer op → Dialogue Op Answer Value)

namespace Dialogue

variable {Op : Type u} {Answer : Op → Type v} {Value Result : Type w}
  {State Low : Type x} {High : Type y} {Choice : Type z}

def bind (dialogue : Dialogue Op Answer Value)
    (after : Value → Dialogue Op Answer Result) : Dialogue Op Answer Result :=
  match dialogue with
  | .done value => after value
  | .ask op next => .ask op fun answer => (next answer).bind after

/-- The answers to a program, one after the other. -/
def run (serve : (op : Op) → State → Answer op × State) :
    Dialogue Op Answer Value → State → Value × State
  | .done value, state => (value, state)
  | .ask op next, state =>
      run serve (next (serve op state).1) (serve op state).2

@[simp]
theorem run_done (serve : (op : Op) → State → Answer op × State)
    (value : Value) (state : State) :
    (done value : Dialogue Op Answer Value).run serve state =
      (value, state) := rfl

@[simp]
theorem run_ask (serve : (op : Op) → State → Answer op × State) (op : Op)
    (next : Answer op → Dialogue Op Answer Value) (state : State) :
    (ask op next).run serve state =
      (next (serve op state).1).run serve (serve op state).2 := rfl

@[simp]
theorem run_bind (serve : (op : Op) → State → Answer op × State)
    (after : Value → Dialogue Op Answer Result)
    (dialogue : Dialogue Op Answer Value) (state : State) :
    (dialogue.bind after).run serve state =
      (after (dialogue.run serve state).1).run serve
        (dialogue.run serve state).2 := by
  induction dialogue generalizing state with
  | done value =>
      rfl
  | ask op next inductionHypothesis =>
      exact inductionHypothesis (serve op state).1 (serve op state).2

/-- As long as it is answered fairly, a program asks only what is allowed,
and its value meets a condition. -/
def Abides (fair : (op : Op) → Answer op → Prop) (allowed : Op → Prop)
    (meets : Value → Prop) : Dialogue Op Answer Value → Prop
  | .done value => meets value
  | .ask op next =>
      allowed op ∧
        ∀ answer, fair op answer → (next answer).Abides fair allowed meets

theorem Abides.bind {fair : (op : Op) → Answer op → Prop}
    {allowed : Op → Prop} {meets : Value → Prop} {ends : Result → Prop}
    {dialogue : Dialogue Op Answer Value}
    {after : Value → Dialogue Op Answer Result}
    (before : dialogue.Abides fair allowed meets)
    (later : ∀ value, meets value →
      (after value).Abides fair allowed ends) :
    (dialogue.bind after).Abides fair allowed ends := by
  induction dialogue with
  | done value =>
      exact later value before
  | ask op next inductionHypothesis =>
      exact ⟨before.1, fun answer just =>
        inductionHypothesis answer (before.2 answer just)⟩

/-! ## Scheduled surroundings

Some surroundings leave a choice open at each of their steps.  A schedule
makes all choices in advance, by the number of the step. -/

section Scheduled

/-- Surroundings that make their choices by a schedule. -/
def scheduled (clock : High → Nat)
    (serve : Choice → (op : Op) → High → Answer op × High)
    (schedule : Nat → Choice) (op : Op) (state : High) : Answer op × High :=
  serve (schedule (clock state)) op state

variable {clock : High → Nat}
  {serve : Choice → (op : Op) → High → Answer op × High}
  (later : ∀ choice op state, clock state ≤ clock (serve choice op state).2)
  (moves : ∀ op state, (∀ choice, clock state <
      clock (serve choice op state).2) ∨
    ∀ choice other, serve choice op state = serve other op state)

include later in
/-- Only the choices from now on matter. -/
theorem run_scheduled_congr {schedule other : Nat → Choice}
    (dialogue : Dialogue Op Answer Value) (state : High)
    (agree : ∀ step, clock state ≤ step → schedule step = other step) :
    dialogue.run (scheduled clock serve schedule) state =
      dialogue.run (scheduled clock serve other) state := by
  induction dialogue generalizing state with
  | done value =>
      rfl
  | ask op next inductionHypothesis =>
      have now : scheduled clock serve schedule op state =
          scheduled clock serve other op state := by
        unfold scheduled
        rw [agree (clock state) (Nat.le_refl _)]
      rw [run_ask, run_ask, now]
      refine inductionHypothesis _ _ fun step after => agree step ?_
      exact Nat.le_trans (later _ op state) after

include later moves in
/-- When each step of some surroundings is a step of others for some choice,
each run is one of theirs for some schedule. -/
theorem run_of_scheduled_simulation [Nonempty Choice]
    {concrete : (op : Op) → Low → Answer op × Low}
    {related : Low → High → Prop} {allowed : Op → Prop}
    {fair : (op : Op) → Answer op → Prop}
    (just : ∀ op low, fair op (concrete op low).1)
    (simulates : ∀ op low high, related low high → allowed op →
      ∃ choice, (concrete op low).1 = (serve choice op high).1 ∧
        related (concrete op low).2 (serve choice op high).2)
    (dialogue : Dialogue Op Answer Value) {meets : Value → Prop}
    (abides : dialogue.Abides fair allowed meets) :
    ∀ (low : Low) (high : High), related low high → ∃ schedule,
      (dialogue.run concrete low).1 =
          (dialogue.run (scheduled clock serve schedule) high).1 ∧
        related (dialogue.run concrete low).2
          (dialogue.run (scheduled clock serve schedule) high).2 := by
  induction dialogue with
  | done value =>
      intro low high first
      obtain ⟨choice⟩ := ‹Nonempty Choice›
      exact ⟨fun _ => choice, rfl, first⟩
  | ask op next inductionHypothesis =>
      intro low high first
      obtain ⟨choice, same, still⟩ := simulates op low high first abides.1
      obtain ⟨schedule, values, last⟩ := inductionHypothesis
        (concrete op low).1 (abides.2 _ (just op low)) (concrete op low).2
        (serve choice op high).2 still
      -- this step makes its own choice, the steps after it theirs
      let whole : Nat → Choice := fun step =>
        if step < clock (serve choice op high).2 then choice
        else schedule step
      have now : scheduled clock serve whole op high =
          serve choice op high := by
        rcases moves op high with ticks | unmoved
        · have early : whole (clock high) = choice := if_pos (ticks choice)
          unfold scheduled
          rw [early]
        · exact unmoved _ _
      have rest : (next (concrete op low).1).run
            (scheduled clock serve schedule) (serve choice op high).2 =
          (next (concrete op low).1).run (scheduled clock serve whole)
            (serve choice op high).2 :=
        run_scheduled_congr later _ _ fun step after =>
          (if_neg (Nat.not_lt.mpr after)).symm
      refine ⟨whole, ?_, ?_⟩
      · rw [run_ask, run_ask, now, ← same, ← rest]
        exact values
      · rw [run_ask, run_ask, now, ← same, ← rest]
        exact last

end Scheduled

end Dialogue

end Hookfs.Lib
