import Hookfs.Lib.Runs
import Hookfs.Lib.Sums
import Hookfs.Install.Installer

/-!
# The single active installation

The two globals of `dispatch`, each under its own lock, and every thread that
installs or drops a guard, down to its next atomic step.  Patching a module
touches neither global; only whether it succeeds decides how its thread goes
on.

`ACTIVE` is held from a successful `try_activate` to the `deactivate` of the
same thread, and a rescan callback is registered only in between, while the
guard is live.
-/

namespace Hookfs.Install

open Hookfs.Lib

/-! ## The globals -/

/-- `Active`: the published engine, by number, and the token of its
installation. -/
structure Active where
  engine : Nat
  id : Nat
  deriving DecidableEq, Repr

/-- `ACTIVE`, `NEXT_INSTALL_ID` and `RESCAN`.  A callback is known by the
installer its closure holds. -/
structure Dispatch where
  active : Option Active
  nextInstallId : Nat
  rescan : Option Nat
  deriving DecidableEq, Repr

namespace Dispatch

def initial : Dispatch := ⟨none, 1, none⟩

/-- `fetch_add` wraps around. -/
def tryActivate (engine : Nat) (globals : Dispatch) : Option Nat × Dispatch :=
  match globals.active with
  | some _ => (none, globals)
  | none =>
      (some globals.nextInstallId,
        { globals with
          active := some ⟨engine, globals.nextInstallId⟩
          nextInstallId := wrappingAdd globals.nextInstallId 1 })

def deactivate (id : Nat) (globals : Dispatch) : Dispatch :=
  if globals.active.any (·.id = id) then { globals with active := none }
  else globals

def setRescan (callback : Nat) (globals : Dispatch) : Dispatch :=
  { globals with rescan := some callback }

def clearRescan (globals : Dispatch) : Dispatch :=
  { globals with rescan := none }

/-- `try_activate` succeeds exactly when nothing is active. -/
theorem tryActivate_isSome_iff (engine : Nat) (globals : Dispatch) :
    (globals.tryActivate engine).1.isSome ↔ globals.active = none := by
  unfold tryActivate
  cases globals.active with
  | none =>
      simp
  | some active =>
      simp

/-- Only the token that is active can be deactivated. -/
theorem active_of_deactivate_ne {id : Nat} {globals : Dispatch}
    (changed : (globals.deactivate id).active ≠ globals.active) :
    ∃ active, globals.active = some active ∧ active.id = id := by
  unfold deactivate at changed
  split at changed
  · rename_i matched
    rw [Option.any_eq_true] at matched
    obtain ⟨active, here, same⟩ := matched
    exact ⟨active, here, of_decide_eq_true same⟩
  · exact absurd rfl changed

end Dispatch

/-! ## The threads -/

/-- An installation that got its token, and where its thread has got to. -/
structure Holder where
  engine : Nat
  id : Nat
  autoRescan : Bool
  stage : Stage
  deriving DecidableEq, Repr

/-- The thread has not run `deactivate` yet. -/
def Stage.unfinished : Stage → Bool
  | .released | .freed => false
  | _ => true

/-- The installation has a token and its thread has not given it back. -/
def Holder.Unfinished (holder : Holder) : Prop :=
  holder.stage.unfinished = true

instance (holder : Holder) : Decidable holder.Unfinished :=
  inferInstanceAs (Decidable (_ = _))

theorem Holder.unfinished_of_stage {holder : Holder} {stage : Stage}
    (here : holder.stage = stage) (goesOn : stage.unfinished = true) :
    holder.Unfinished := by
  unfold Holder.Unfinished
  rw [here]
  exact goesOn

/-- The globals and all installations so far, by number. -/
structure Activation where
  globals : Dispatch
  holders : List Holder
  deriving DecidableEq, Repr

inductive ActivationStep where
  | tryActivate (engine : Nat) (autoRescan : Bool)
  | patchModule (index : Nat) (succeeds : Bool)
  | finishModules (index : Nat)
  | setRescan (index : Nat)
  | clearRescan (index : Nat)
  | uninstallAll (index : Nat)
  | deactivate (index : Nat)
  | deactivateStale (id : Nat)

namespace Activation

def initial : Activation := ⟨.initial, []⟩

/-- No unfinished installation has this token. -/
def Stale (state : Activation) (id : Nat) : Prop :=
  ∀ holder ∈ state.holders, holder.Unfinished → holder.id ≠ id

instance (state : Activation) (id : Nat) : Decidable (state.Stale id) :=
  inferInstanceAs (Decidable (∀ holder ∈ state.holders, _ → _))

/-- A thread at one of the expected stages goes on to the next, with its own
change to the globals; elsewhere the step is not enabled. -/
def advance (state : Activation) (index : Nat)
    (next : Holder → Option Stage) (effect : Holder → Dispatch → Dispatch) :
    Activation :=
  match state.holders[index]? with
  | none => state
  | some holder =>
      match next holder with
      | none => state
      | some stage =>
          { globals := effect holder state.globals
            holders := state.holders.set index { holder with stage := stage } }

def step (state : Activation) : ActivationStep → Activation
  | .tryActivate engine autoRescan =>
      match state.globals.tryActivate engine with
      | (none, _) => state
      | (some id, globals) =>
          { globals := globals
            holders := state.holders ++
              [⟨engine, id, autoRescan, .installing⟩] }
  | .patchModule index succeeds =>
      state.advance index
        (fun holder =>
          if holder.stage = .installing then
            some (if succeeds then .installing else .aborting)
          else none)
        fun _ globals => globals
  | .finishModules index =>
      state.advance index
        (fun holder =>
          if holder.stage = .installing then
            some (if holder.autoRescan then .publishing else .installed)
          else none)
        fun _ globals => globals
  | .setRescan index =>
      state.advance index
        (fun holder =>
          if holder.stage = .publishing then some .installed else none)
        fun _ globals => globals.setRescan index
  | .clearRescan index =>
      state.advance index
        (fun holder =>
          if holder.stage = .installed then some .dropping else none)
        fun _ globals => globals.clearRescan
  | .uninstallAll index =>
      state.advance index
        (fun holder =>
          if holder.stage = .aborting ∨ holder.stage = .dropping then
            some .uninstalled
          else none)
        fun _ globals => globals
  | .deactivate index =>
      state.advance index
        (fun holder =>
          if holder.stage = .uninstalled then some .released else none)
        fun holder globals => globals.deactivate holder.id
  | .deactivateStale id =>
      if state.Stale id then
        { state with globals := state.globals.deactivate id }
      else state

/-! ## The invariant -/

/-- `ACTIVE` is the one unfinished installation, a registered callback is
that of a live guard, and the tokens are counted from one, modulo the width
of a word. -/
structure Sole (state : Activation) : Prop where
  owner : ∀ active, state.globals.active = some active →
    ∃ (index : Nat) (holder : Holder),
      state.holders[index]? = some holder ∧
        holder.Unfinished ∧ active = ⟨holder.engine, holder.id⟩
  held : ∀ (index : Nat) (holder : Holder), state.holders[index]? = some holder →
    holder.Unfinished →
      state.globals.active = some ⟨holder.engine, holder.id⟩
  alone : ∀ (index other : Nat) (left right : Holder),
    state.holders[index]? = some left → left.Unfinished →
    state.holders[other]? = some right → right.Unfinished → index = other
  registered : ∀ index : Nat, state.globals.rescan = some index →
    ∃ holder, state.holders[index]? = some holder ∧
      holder.stage = .installed
  tokens : state.holders.map (·.id) =
    (List.range state.holders.length).map fun count => (count + 1) % 2 ^ 64
  counter : state.globals.nextInstallId =
    (state.holders.length + 1) % 2 ^ 64

theorem sole_initial : initial.Sole where
  owner := by
    intro active here
    cases here
  held := by
    intro index holder present
    simp [initial] at present
  alone := by
    intro index other left right present
    simp [initial] at present
  registered := by
    intro index here
    cases here
  tokens := rfl
  counter := rfl

variable {state : Activation}

/-- A thread's own step: it stays unfinished and leaves `ACTIVE` alone, or it
finishes and clears it. -/
theorem Sole.replace {index : Nat} {holder : Holder} {stage : Stage}
    {globals : Dispatch} (sole : state.Sole)
    (present : state.holders[index]? = some holder)
    (unfinished : holder.Unfinished)
    (active : globals.active =
      if stage.unfinished then state.globals.active else none)
    (counter : globals.nextInstallId = state.globals.nextInstallId)
    (rescan : ∀ other, globals.rescan = some other →
      (other = index ∧ stage = .installed) ∨
        (other ≠ index ∧ state.globals.rescan = some other)) :
    Sole ⟨globals, state.holders.set index { holder with stage := stage }⟩ where
  owner := by
    intro found here
    have both := here
    rw [active] at both
    split at both
    · rename_i goesOn
      have mine := sole.held index holder present unfinished
      rw [mine, Option.some.injEq] at both
      refine ⟨index, { holder with stage := stage }, ?_, goesOn, both.symm⟩
      rw [getElem?_set_of_some present, if_pos rfl]
    · cases both
  held := by
    intro other found here goesOn
    rw [getElem?_set_of_some present] at here
    split at here
    · injection here with same
      subst same
      have kept : stage.unfinished = true := goesOn
      rw [active, if_pos kept]
      exact sole.held index holder present unfinished
    · rename_i different
      exact absurd (sole.alone other index found holder here goesOn present
        unfinished) different
  alone := by
    intro first second left right firstHere leftGoesOn secondHere rightGoesOn
    -- whoever is unfinished now was unfinished before
    have before : ∀ (there : Nat) (found : Holder),
        (state.holders.set index { holder with stage := stage })[there]? =
          some found → found.Unfinished → there = index := by
      intro there found here goesOn
      rw [getElem?_set_of_some present] at here
      split at here
      · rename_i same
        exact same
      · exact sole.alone there index found holder here goesOn present
          unfinished
    rw [before first left firstHere leftGoesOn,
      before second right secondHere rightGoesOn]
  registered := by
    intro other here
    rcases rescan other here with ⟨rfl, live⟩ | ⟨different, old⟩
    · refine ⟨{ holder with stage := stage }, ?_, live⟩
      rw [getElem?_set_of_some present, if_pos rfl]
    · obtain ⟨found, there, live⟩ := sole.registered other old
      refine ⟨found, ?_, live⟩
      rw [getElem?_set_of_some present, if_neg different]
      exact there
  tokens := by
    obtain ⟨inside, same⟩ := List.getElem?_eq_some_iff.mp present
    rw [List.length_set, ← sole.tokens, List.map_set]
    apply List.ext_getElem?
    intro other
    have old : (state.holders.map (·.id))[index]? = some holder.id := by
      rw [List.getElem?_map, present]
      rfl
    rw [getElem?_set_of_some old]
    split
    · rename_i equal
      rw [equal, old]
    · rfl
  counter := by
    rw [List.length_set, counter]
    exact sole.counter

/-- A thread that is not at `installed` has no callback registered. -/
theorem Sole.unregistered {index other : Nat} {holder : Holder}
    (sole : state.Sole) (present : state.holders[index]? = some holder)
    (elsewhere : holder.stage ≠ .installed)
    (registered : state.globals.rescan = some other) : other ≠ index := by
  rintro rfl
  obtain ⟨found, here, live⟩ := sole.registered other registered
  rw [present, Option.some.injEq] at here
  rw [here] at elsewhere
  exact elsewhere live

theorem Sole.tryActivate (sole : state.Sole) (engine : Nat)
    (autoRescan : Bool) :
    (state.step (.tryActivate engine autoRescan)).Sole := by
  unfold step Dispatch.tryActivate
  cases free : state.globals.active with
  | some active =>
      exact sole
  | none =>
      -- nothing is active, so every earlier installation has finished
      have finished : ∀ (index : Nat) (holder : Holder),
          state.holders[index]? = some holder → ¬ holder.Unfinished := by
        intro index holder present unfinished
        have held := sole.held index holder present unfinished
        rw [free] at held
        cases held
      obtain ⟨fresh, freshEq⟩ : ∃ fresh : Holder, fresh =
          ⟨engine, state.globals.nextInstallId, autoRescan, .installing⟩ :=
        ⟨_, rfl⟩
      simp only [← freshEq]
      have unfinished : fresh.Unfinished := by
        rw [freshEq]
        rfl
      have placed : ∀ (index : Nat) (holder : Holder),
          (state.holders ++ [fresh])[index]? = some holder →
            holder.Unfinished →
              index = state.holders.length ∧ holder = fresh := by
        intro index holder present goesOn
        by_cases old : index < state.holders.length
        · rw [List.getElem?_append_left old] at present
          exact absurd goesOn (finished index holder present)
        · rw [List.getElem?_append_right (by omega),
            List.getElem?_singleton] at present
          split at present
          · injection present with same
            exact ⟨by omega, same.symm⟩
          · cases present
      have last : (state.holders ++ [fresh])[state.holders.length]? =
          some fresh := List.getElem?_concat_length
      refine ⟨?_, ?_, ?_, ?_, ?_, ?_⟩
      · intro active here
        injection here with same
        refine ⟨state.holders.length, fresh, last, unfinished, ?_⟩
        rw [← same, freshEq]
      · intro index holder present goesOn
        rw [(placed index holder present goesOn).2, freshEq]
      · intro index other left right leftHere leftGoesOn rightHere rightGoesOn
        rw [(placed index left leftHere leftGoesOn).1,
          (placed other right rightHere rightGoesOn).1]
      · intro index here
        obtain ⟨holder, present, live⟩ := sole.registered index here
        have goesOn := Holder.unfinished_of_stage live rfl
        exact absurd goesOn (finished index holder present)
      · have token : fresh.id = (state.holders.length + 1) % 2 ^ 64 := by
          rw [freshEq]
          exact sole.counter
        rw [List.map_append, sole.tokens, List.length_append,
          List.length_singleton, List.range_succ, List.map_append,
          List.map_singleton, List.map_singleton, token]
      · have counter := sole.counter
        simp only [List.length_append, List.length_singleton, wrappingAdd]
        omega

theorem Sole.stale {id : Nat} (sole : state.Sole) (stale : state.Stale id) :
    state.globals.deactivate id = state.globals := by
  unfold Dispatch.deactivate
  rw [if_neg]
  intro matched
  rw [Option.any_eq_true] at matched
  obtain ⟨active, here, same⟩ := matched
  obtain ⟨index, holder, present, unfinished, owned⟩ :=
    sole.owner active here
  apply stale holder (List.mem_of_getElem? present) unfinished
  rw [owned] at same
  simpa using same

/-- A step of a thread that is enabled at some of its stages. -/
theorem Sole.advance {index : Nat} {enabled : Holder → Prop}
    [DecidablePred enabled] {next : Holder → Stage}
    {effect : Holder → Dispatch → Dispatch} (sole : state.Sole)
    (keeps : ∀ holder, state.holders[index]? = some holder →
      enabled holder →
        Sole ⟨effect holder state.globals,
          state.holders.set index { holder with stage := next holder }⟩) :
    (state.advance index
      (fun holder => if enabled holder then some (next holder) else none)
      effect).Sole := by
  unfold Activation.advance
  split
  · exact sole
  · rename_i holder present
    by_cases here : enabled holder
    · simp only [if_pos here]
      exact keeps holder present here
    · simp only [if_neg here]
      exact sole

/-- A step that touches no global, of a thread without a callback. -/
theorem Sole.quiet {index : Nat} {holder : Holder} {stage : Stage}
    (sole : state.Sole) (present : state.holders[index]? = some holder)
    (unfinished : holder.stage.unfinished = true)
    (goesOn : stage.unfinished = true)
    (elsewhere : holder.stage ≠ .installed) :
    Sole ⟨state.globals,
      state.holders.set index { holder with stage := stage }⟩ := by
  apply sole.replace present unfinished
  · rw [if_pos goesOn]
  · rfl
  · intro other here
    exact Or.inr ⟨sole.unregistered present elsewhere here, here⟩

theorem Sole.step (sole : state.Sole) (op : ActivationStep) :
    (state.step op).Sole := by
  cases op with
  | tryActivate engine autoRescan =>
      exact sole.tryActivate engine autoRescan
  | patchModule index succeeds =>
      simp only [Activation.step]
      apply sole.advance
      intro holder present here
      apply sole.quiet present
      · rw [here]
        rfl
      · cases succeeds <;> rfl
      · rw [here]
        decide
  | finishModules index =>
      simp only [Activation.step]
      apply sole.advance
      intro holder present here
      apply sole.quiet present
      · rw [here]
        rfl
      · cases holder.autoRescan <;> rfl
      · rw [here]
        decide
  | setRescan index =>
      simp only [Activation.step]
      apply sole.advance
      intro holder present here
      apply sole.replace present
      · exact Holder.unfinished_of_stage here rfl
      · rfl
      · rfl
      · intro other registered
        injection registered with same
        exact Or.inl ⟨same.symm, rfl⟩
  | clearRescan index =>
      simp only [Activation.step]
      apply sole.advance
      intro holder present here
      apply sole.replace present
      · exact Holder.unfinished_of_stage here rfl
      · rfl
      · rfl
      · intro other registered
        cases registered
  | uninstallAll index =>
      simp only [Activation.step]
      apply sole.advance
      intro holder present here
      apply sole.quiet present
      · rcases here with here | here <;> rw [here] <;> rfl
      · rfl
      · rcases here with here | here <;> rw [here] <;> decide
  | deactivate index =>
      simp only [Activation.step]
      apply sole.advance
      intro holder present here
      have unfinished := Holder.unfinished_of_stage here rfl
      have cleared : state.globals.deactivate holder.id =
          { state.globals with active := none } := by
        unfold Dispatch.deactivate
        rw [sole.held index holder present unfinished]
        simp
      rw [cleared]
      apply sole.replace present unfinished
      · rfl
      · rfl
      · intro other registered
        have elsewhere : holder.stage ≠ .installed := by
          rw [here]
          decide
        exact Or.inr ⟨sole.unregistered present elsewhere registered,
          registered⟩
  | deactivateStale id =>
      simp only [Activation.step]
      split
      · rename_i stale
        rw [sole.stale stale]
        exact sole
      · exact sole

/-! ## Every interleaving -/

theorem sole_run (ops : List ActivationStep) :
    (run step initial ops).Sole := by
  have prefixes := (throughout_iff_prefixes Sole ops initial).mp
    (throughout_of_step (fun _ op sole => Sole.step sole op) ops initial
      sole_initial)
  exact prefixes ops [] (List.append_nil ops).symm

theorem Sole.nodup_tokens (sole : state.Sole)
    (few : state.holders.length < 2 ^ 64) :
    (state.holders.map (·.id)).Nodup := by
  rw [sole.tokens]
  apply List.Nodup.map_on _ List.nodup_range
  intro left leftMember right rightMember same
  rw [List.mem_range] at leftMember rightMember
  omega

/-- Whatever the interleaving: `ACTIVE` is empty or the one installation that
is under way, tokens differ, `deactivate` clears only the token it is given,
`try_activate` succeeds exactly when nothing is active, and a registered
callback is that of the active installation. -/
theorem single_active_installation (ops : List ActivationStep) :
    let state := run step initial ops
    (∀ (index other : Nat) (left right : Holder),
      state.holders[index]? = some left → left.Unfinished →
      state.holders[other]? = some right → right.Unfinished →
        index = other) ∧
    (∀ active : Active, state.globals.active = some active ↔
      ∃ (index : Nat) (holder : Holder),
        state.holders[index]? = some holder ∧ holder.Unfinished ∧
          active = ⟨holder.engine, holder.id⟩) ∧
    (state.holders.length < 2 ^ 64 → (state.holders.map (·.id)).Nodup) ∧
    (∀ id : Nat, (state.globals.deactivate id).active ≠
      state.globals.active →
        ∃ active, state.globals.active = some active ∧ active.id = id) ∧
    (∀ engine : Nat, (state.globals.tryActivate engine).1.isSome ↔
      state.globals.active = none) ∧
    (∀ index : Nat, state.globals.rescan = some index →
      ∃ holder : Holder, state.holders[index]? = some holder ∧
        holder.Unfinished ∧
          state.globals.active = some ⟨holder.engine, holder.id⟩) := by
  intro state
  have sole : state.Sole := sole_run ops
  refine ⟨sole.alone, ?_, sole.nodup_tokens, ?_, ?_, ?_⟩
  · intro active
    constructor
    · exact sole.owner active
    · rintro ⟨index, holder, present, unfinished, rfl⟩
      exact sole.held index holder present unfinished
  · intro id changed
    exact Dispatch.active_of_deactivate_ne changed
  · intro engine
    exact Dispatch.tryActivate_isSome_iff engine state.globals
  · intro index registered
    obtain ⟨holder, present, live⟩ := sole.registered index registered
    have unfinished := Holder.unfinished_of_stage live rfl
    exact ⟨holder, present, unfinished,
      sole.held index holder present unfinished⟩

end Activation

end Hookfs.Install
