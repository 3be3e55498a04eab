import Mathlib.Data.List.Basic

/-!
# Runs of a deterministic step function

A run feeds a list of operations to a step function.  `Throughout` asks
something of every state on the way, both ends included; `EachStep` asks
something of every step, in the state before it.

When one step keeps a good state good exactly if it is admissible, a whole
run stays good exactly if all of its steps are admissible.
-/

namespace Hookfs.Lib

universe u v w x

section Runs

variable {State : Type u} {Op : Type v}

/-- The state a run ends in. -/
def run (step : State → Op → State) (start : State) (ops : List Op) :
    State :=
  ops.foldl step start

/-- Every state of the run is good, the first and the last included. -/
def Throughout (step : State → Op → State) (good : State → Prop) :
    State → List Op → Prop
  | state, [] => good state
  | state, op :: rest =>
      good state ∧ Throughout step good (step state op) rest

/-- Every step of the run is admissible in the state it is taken from. -/
def EachStep (step : State → Op → State)
    (admissible : State → Op → Prop) :
    State → List Op → Prop
  | _, [] => True
  | state, op :: rest =>
      admissible state op ∧
        EachStep step admissible (step state op) rest

variable {step : State → Op → State}

@[simp]
theorem run_cons (start : State) (op : Op) (rest : List Op) :
    run step start (op :: rest) = run step (step start op) rest := rfl

theorem Throughout.start {good : State → Prop} {start : State}
    {ops : List Op} (whole : Throughout step good start ops) :
    good start := by
  cases ops with
  | nil =>
      exact whole
  | cons op rest =>
      exact whole.1

theorem Throughout.mono {good better : State → Prop}
    (implies : ∀ state, good state → better state) :
    ∀ {ops : List Op} {start : State},
      Throughout step good start ops →
        Throughout step better start ops := by
  intro ops
  induction ops with
  | nil =>
      intro start whole
      exact implies start whole
  | cons op rest inductionHypothesis =>
      intro start whole
      exact ⟨implies start whole.1, inductionHypothesis whole.2⟩

/-- A run that stays good ends well. -/
theorem Throughout.run {good : State → Prop} :
    ∀ {ops : List Op} {start : State},
      Throughout step good start ops → good (run step start ops) := by
  intro ops
  induction ops with
  | nil =>
      intro start whole
      exact whole
  | cons op rest inductionHypothesis =>
      intro start whole
      exact inductionHypothesis whole.2

theorem run_append (start : State) (first second : List Op) :
    run step start (first ++ second) =
      run step (run step start first) second :=
  List.foldl_append

theorem eachStep_append {admissible : State → Op → Prop} :
    ∀ {first : List Op} {start : State} {second : List Op},
      EachStep step admissible start (first ++ second) ↔
        EachStep step admissible start first ∧
          EachStep step admissible (run step start first) second := by
  intro first
  induction first with
  | nil =>
      intro start second
      exact (true_and _).to_iff.symm
  | cons op rest inductionHypothesis =>
      intro start second
      rw [List.cons_append]
      refine (and_congr_right fun _ => inductionHypothesis).trans ?_
      exact and_assoc.symm

theorem eachStep_of_forall {allowed : Op → Prop} :
    ∀ {ops : List Op} {start : State}, (∀ op ∈ ops, allowed op) →
      EachStep step (fun _ op => allowed op) start ops := by
  intro ops
  induction ops with
  | nil =>
      intro _ _
      trivial
  | cons op rest inductionHypothesis =>
      intro start all
      obtain ⟨here, others⟩ := List.forall_mem_cons.mp all
      exact ⟨here, inductionHypothesis others⟩

theorem EachStep.and {left right : State → Op → Prop} :
    ∀ {ops : List Op} {start : State},
      EachStep step left start ops → EachStep step right start ops →
        EachStep step (fun state op => left state op ∧ right state op)
          start ops := by
  intro ops
  induction ops with
  | nil =>
      intro _ _ _
      trivial
  | cons op rest inductionHypothesis =>
      intro start first second
      exact ⟨⟨first.1, second.1⟩, inductionHypothesis first.2 second.2⟩

/-- Two conditions on steps that agree under an invariant agree on whole
runs; the invariant has to survive the steps that meet them. -/
theorem eachStep_iff (base : State → Prop) {left right : State → Op → Prop}
    (keeps : ∀ state op, base state → right state op →
      base (step state op))
    (same : ∀ state op, base state → (left state op ↔ right state op)) :
    ∀ (ops : List Op) (start : State), base start →
      (EachStep step left start ops ↔ EachStep step right start ops) := by
  intro ops
  induction ops with
  | nil =>
      intro _ _
      exact Iff.rfl
  | cons op rest inductionHypothesis =>
      intro start first
      have here := same start op first
      constructor
      · intro whole
        obtain ⟨holds, later⟩ := whole
        have next := keeps start op first (here.mp holds)
        exact ⟨here.mp holds, (inductionHypothesis _ next).mp later⟩
      · intro whole
        obtain ⟨holds, later⟩ := whole
        have next := keeps start op first holds
        exact ⟨here.mpr holds, (inductionHypothesis _ next).mpr later⟩

/-- A run stays good throughout exactly when each of its prefixes ends in a
good state. -/
theorem throughout_iff_prefixes (good : State → Prop) :
    ∀ (ops : List Op) (start : State),
      Throughout step good start ops ↔
        ∀ initial suffix, ops = initial ++ suffix →
          good (run step start initial) := by
  intro ops
  induction ops with
  | nil =>
      intro start
      constructor
      · intro whole initial suffix split
        obtain ⟨rfl, rfl⟩ := List.append_eq_nil_iff.mp split.symm
        exact whole
      · intro prefixes
        exact prefixes [] [] rfl
  | cons op rest inductionHypothesis =>
      intro start
      constructor
      · intro whole initial suffix split
        obtain ⟨first, later⟩ := whole
        cases initial with
        | nil =>
            exact first
        | cons head tail =>
            rw [List.cons_append] at split
            injection split with headEqual tailEqual
            subst headEqual
            exact (inductionHypothesis _).mp later tail suffix tailEqual
      · intro prefixes
        refine ⟨prefixes [] (op :: rest) rfl, ?_⟩
        rw [inductionHypothesis]
        intro initial suffix split
        exact prefixes (op :: initial) suffix (by rw [split]; rfl)

/-- The invariant rule: admissible steps that keep the invariant keep it
along the whole run. -/
theorem throughout_of_eachStep {good : State → Prop}
    {admissible : State → Op → Prop}
    (keeps : ∀ state op, good state → admissible state op →
      good (step state op)) :
    ∀ (ops : List Op) (start : State),
      good start → EachStep step admissible start ops →
        Throughout step good start ops := by
  intro ops
  induction ops with
  | nil =>
      intro _ first _
      exact first
  | cons op rest inductionHypothesis =>
      intro start first allowed
      have next := keeps start op first allowed.1
      exact ⟨first, inductionHypothesis _ next allowed.2⟩

/-- What a good state admits is admissible along a run of good states. -/
theorem Throughout.eachStep {good : State → Prop}
    {admissible : State → Op → Prop}
    (admits : ∀ state op, good state → admissible state op) :
    ∀ {ops : List Op} {start : State},
      Throughout step good start ops → EachStep step admissible start ops := by
  intro ops
  induction ops with
  | nil =>
      intro _ _
      trivial
  | cons op rest inductionHypothesis =>
      intro start whole
      exact ⟨admits start op whole.1, inductionHypothesis whole.2⟩

/-- An invariant that every step keeps holds throughout every run. -/
theorem throughout_of_step {good : State → Prop}
    (keeps : ∀ state op, good state → good (step state op)) :
    ∀ (ops : List Op) (start : State),
      good start → Throughout step good start ops := by
  intro ops
  induction ops with
  | nil =>
      intro _ first
      exact first
  | cons op rest inductionHypothesis =>
      intro start first
      exact ⟨first, inductionHypothesis _ (keeps start op first)⟩

/-- A run of allowed operations ends in a good state. -/
theorem run_of_allowed (good : State → Prop) {allowed : Op → Prop}
    (keeps : ∀ state op, good state → allowed op → good (step state op))
    {ops : List Op} (all : ∀ op ∈ ops, allowed op) {start : State}
    (first : good start) : good (run step start ops) := by
  induction ops generalizing start with
  | nil =>
      exact first
  | cons op rest inductionHypothesis =>
      apply inductionHypothesis
      · intro later member
        exact all later (List.mem_cons_of_mem _ member)
      · exact keeps start op first (all op List.mem_cons_self)

/-- When admissibility decides exactly whether an allowed step keeps a good
state good, the admissible runs are exactly the runs that stay good.  `base`
is an invariant of the good states, which the step argument may use. -/
theorem throughout_iff_eachStep (base : State → Prop)
    (allowed : Op → Prop) {good : State → Prop}
    {admissible : State → Op → Prop}
    (baseStep : ∀ state op, base state → good state → allowed op →
      base (step state op))
    (decides : ∀ state op, base state → good state → allowed op →
      (good (step state op) ↔ admissible state op)) :
    ∀ (ops : List Op) (start : State),
      (∀ op ∈ ops, allowed op) → base start → good start →
        (Throughout step good start ops ↔
          EachStep step admissible start ops) := by
  intro ops
  induction ops with
  | nil =>
      intro _ _ _ first
      simp only [Throughout, EachStep, iff_true]
      exact first
  | cons op rest inductionHypothesis =>
      intro start all invariant first
      obtain ⟨permitted, others⟩ := List.forall_mem_cons.mp all
      have here := decides start op invariant first permitted
      have later := inductionHypothesis (step start op) others
        (baseStep start op invariant first permitted)
      constructor
      · intro given
        obtain ⟨_, whole⟩ := given
        exact ⟨here.mp whole.start, (later whole.start).mp whole⟩
      · intro given
        obtain ⟨admitted, whole⟩ := given
        exact ⟨first, (later (here.mpr admitted)).mpr whole⟩

end Runs

/-! ## Runs that answer -/

section Answers

variable {Concrete : Type u} {Abstract : Type v} {Op : Type w} {Reply : Type x}

/-- The replies of a run, in order, and the state it ends in. -/
def serveAll {State : Type u} (step : State → Op → Reply × State) :
    State → List Op → List Reply × State
  | state, [] => ([], state)
  | state, op :: rest =>
      let later := serveAll step (step state op).2 rest
      ((step state op).1 :: later.1, later.2)

/-- The simulation rule: when related states answer every operation alike
and stay related, related runs answer alike and end related. -/
theorem serveAll_of_simulation {concrete : Concrete → Op → Reply × Concrete}
    {abstract : Abstract → Op → Reply × Abstract}
    {related : Concrete → Abstract → Prop}
    (simulates : ∀ low high op, related low high →
      (concrete low op).1 = (abstract high op).1 ∧
        related (concrete low op).2 (abstract high op).2) :
    ∀ (ops : List Op) (low : Concrete) (high : Abstract), related low high →
      (serveAll concrete low ops).1 = (serveAll abstract high ops).1 ∧
        related (serveAll concrete low ops).2
          (serveAll abstract high ops).2 := by
  intro ops
  induction ops with
  | nil =>
      intro _ _ first
      exact ⟨rfl, first⟩
  | cons op rest inductionHypothesis =>
      intro low high first
      obtain ⟨sameReply, next⟩ := simulates low high op first
      obtain ⟨sameReplies, last⟩ := inductionHypothesis
        (concrete low op).2 (abstract high op).2 next
      refine ⟨?_, last⟩
      simp only [serveAll]
      rw [sameReply, sameReplies]

/-- The same for operations that are admissible where they are asked. -/
theorem serveAll_of_simulation_of_eachStep
    {concrete : Concrete → Op → Reply × Concrete}
    {abstract : Abstract → Op → Reply × Abstract}
    {related : Concrete → Abstract → Prop}
    {admissible : Concrete → Op → Prop}
    (simulates : ∀ low high op, related low high → admissible low op →
      (concrete low op).1 = (abstract high op).1 ∧
        related (concrete low op).2 (abstract high op).2) :
    ∀ (ops : List Op) (low : Concrete) (high : Abstract), related low high →
      EachStep (fun state op => (concrete state op).2) admissible low ops →
      (serveAll concrete low ops).1 = (serveAll abstract high ops).1 ∧
        related (serveAll concrete low ops).2
          (serveAll abstract high ops).2 := by
  intro ops
  induction ops with
  | nil =>
      intro _ _ first _
      exact ⟨rfl, first⟩
  | cons op rest inductionHypothesis =>
      intro low high first allowed
      obtain ⟨sameReply, next⟩ := simulates low high op first allowed.1
      obtain ⟨sameReplies, last⟩ := inductionHypothesis
        (concrete low op).2 (abstract high op).2 next allowed.2
      refine ⟨?_, last⟩
      simp only [serveAll]
      rw [sameReply, sameReplies]

end Answers

end Hookfs.Lib
