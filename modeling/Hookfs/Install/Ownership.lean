import Mathlib.Algebra.Order.Group.Multiset
import Hookfs.Lib.SharedCell
import Hookfs.Lib.Sums
import Hookfs.Install.Installer

/-!
# Who owns a patched slot

All installations write the same shim into a slot, so a compare-exchange
cannot tell their guards apart.  Seen slot by slot this is a shared cell:
whatever the interleaving, every slot is back at its original value when the
last installer has gone.

That an installation's slots stay patched while its guard lives needs more:
no guard of another installation may hold the slot's original value when the
live installation patches it.  A rescan that outlives its `InstallGuard` can
break this.
-/

namespace Hookfs.Install

open Hookfs.Lib Hookfs.Plthook

/-! ## The shim of a slot -/

/-- Every import slot carries one symbol, given by its address. -/
def Follows (layout : Nat → Option Symbol) (module : Module) : Prop :=
  ∀ imports, module.imports = .ok imports →
    ∀ slot ∈ imports, slot.symbol = layout slot.address

/-- The shim of the symbol imported at `address`. -/
def shimAt (hooks : Hooks) (layout : Nat → Option Symbol)
    (address : Nat) : Nat :=
  match layout address with
  | some (.name name) => hooks.shimAddress name
  | _ => 0

/-- The modules offered to a step are loaded, hold their slots and follow the
layout. -/
def Step.Placed (sys : Sys) (layout : Nat → Option Symbol) : Step → Prop
  | .installModule _ module | .rescanModule _ module =>
      module.WellPlaced sys ∧ Follows layout module
  | _ => True

theorem targetPointer_eq_shimAt {sys : Sys} {hooks : Hooks}
    {layout : Nat → Option Symbol} {machine : Machine}
    {imports : List ImportSlot} {autoRescan : Bool} {address pointer : Nat}
    (follows : ∀ slot ∈ imports, slot.symbol = layout slot.address)
    (target : targetPointer sys machine imports
      (hooks.buildReplacements autoRescan) address = some pointer) :
    pointer = shimAt hooks layout address := by
  rw [targetPointer, Option.map_eq_some_iff] at target
  obtain ⟨replacement, found, rfl⟩ := target
  have member := List.mem_of_find?_eq_some found
  have resolves := List.find?_some found
  obtain ⟨name, -, rfl⟩ := List.mem_map.mp member
  obtain ⟨slot, slotMember, here⟩ := List.any_eq_true.mp resolves
  simp only [resolvesHere, Bool.and_eq_true, decide_eq_true_eq] at here
  obtain ⟨rfl, matched⟩ := here
  have symbol : slot.symbol = some (.name name) := by
    unfold ImportSlot.matchReplacement at matched
    cases imported : slot.symbol with
    | none =>
        simp [imported] at matched
    | some symbol =>
        cases symbol with
        | ordinal index =>
            simp [imported, Symbol.matches] at matched
        | name other =>
            by_cases same : other = name
            · rw [same]
            · simp [imported, Symbol.matches, same] at matched
  rw [follows slot slotMember] at symbol
  simp [shimAt, symbol]

/-! ## Guards seen from one slot -/

/-- A guard that has not been restored. -/
structure LiveGuard (sys : Sys) (hooks : Hooks)
    (layout : Nat → Option Symbol) (guard : HookGuard) : Prop where
  active : guard.active = true
  distinct : (guard.hooks.map (·.slot)).Nodup
  shims : ∀ hook ∈ guard.hooks,
    hook.replacement = shimAt hooks layout hook.slot
  loaded : sys.moduleStillLoaded guard.moduleBase = true
  inside : ∀ hook ∈ guard.hooks,
    sys.slotBelongsToModule hook.slot guard.moduleBase = true

/-- The value a guard saved for `address`, if it patched it. -/
def savedBy (address : Nat) (guard : HookGuard) : Option Nat :=
  (guard.hooks.find? (·.slot = address)).map (·.priorValue)

/-- The values a list of guards saved for `address`, in order. -/
def savedAt (address : Nat) (guards : List HookGuard) : List Nat :=
  guards.filterMap (savedBy address)

theorem mem_savedAt {address saved : Nat} {guards : List HookGuard}
    (member : saved ∈ savedAt address guards) :
    ∃ guard ∈ guards, ∃ hook ∈ guard.hooks,
      hook.slot = address ∧ hook.priorValue = saved := by
  obtain ⟨guard, guardMember, found⟩ := List.mem_filterMap.mp member
  obtain ⟨hook, search, rfl⟩ := Option.map_eq_some_iff.mp found
  exact ⟨guard, guardMember, hook, List.mem_of_find?_eq_some search,
    by simpa using List.find?_some search, rfl⟩

theorem savedAt_ne_nil {guards : List HookGuard} {guard : HookGuard}
    (guardMember : guard ∈ guards) {hook : InstalledHook}
    (member : hook ∈ guard.hooks) :
    savedAt hook.slot guards ≠ [] := by
  intro empty
  rw [savedAt, List.filterMap_eq_nil_iff] at empty
  have absent := empty guard guardMember
  rw [savedBy, Option.map_eq_none_iff, List.find?_eq_none] at absent
  exact absent hook member (by simp)

section Restore

variable {sys : Sys} {hooks : Hooks} {layout : Nat → Option Symbol}

theorem takeBack_eq_putBackSaved {guard : HookGuard}
    (live : LiveGuard sys hooks layout guard) (memory : Nat → Nat)
    (address : Nat) :
    takeBack guard.hooks memory address =
      (savedBy address guard).elim (memory address)
        (putBackSaved (shimAt hooks layout address) (memory address)) := by
  unfold takeBack savedBy putBackSaved
  cases search : guard.hooks.find? (·.slot = address) with
  | none =>
      rfl
  | some hook =>
      have here : hook.slot = address := by
        simpa using List.find?_some search
      have shim := live.shims hook (List.mem_of_find?_eq_some search)
      rw [here] at shim
      simp [shim]

theorem dropGuard_slot (never : sys.NeverFails) {guard : HookGuard}
    (live : LiveGuard sys hooks layout guard) (machine : Machine) :
    (dropGuard sys machine guard).slot =
      takeBack guard.hooks machine.slot := by
  obtain ⟨outcome, calls, restored⟩ := HookGuard.restore_of_active never
    live.active live.loaded live.distinct live.inside machine
  simp only [dropGuard, restored]

theorem uninstallGuard_eq (never : sys.NeverFails) {guard : HookGuard}
    (live : LiveGuard sys hooks layout guard) (machine : Machine) :
    uninstallGuard sys machine guard = dropGuard sys machine guard := by
  obtain ⟨outcome, calls, restored⟩ := HookGuard.restore_of_active never
    live.active live.loaded live.distinct live.inside machine
  simp only [uninstallGuard, dropGuard, restored,
    HookGuard.restore_of_inactive]

/-- Dropping guards one after the other, seen from one slot. -/
theorem foldl_dropGuard_slot (never : sys.NeverFails) (address : Nat) :
    ∀ (guards : List HookGuard) (machine : Machine),
      (∀ guard ∈ guards, LiveGuard sys hooks layout guard) →
        (guards.foldl (dropGuard sys) machine).slot address =
          (savedAt address guards).foldl
            (putBackSaved (shimAt hooks layout address))
            (machine.slot address)
  | [], machine, _ => rfl
  | guard :: rest, machine, live => by
      have here := live guard List.mem_cons_self
      rw [List.foldl_cons, foldl_dropGuard_slot never address rest _
        (fun later member => live later (List.mem_cons_of_mem _ member)),
        dropGuard_slot never here, takeBack_eq_putBackSaved here]
      unfold savedAt
      cases saved : savedBy address guard with
      | none =>
          rw [List.filterMap_cons_none saved]
          rfl
      | some value =>
          rw [List.filterMap_cons_some saved]
          rfl

theorem foldl_uninstallGuard (never : sys.NeverFails) :
    ∀ (guards : List HookGuard) (machine : Machine),
      (∀ guard ∈ guards, LiveGuard sys hooks layout guard) →
        guards.foldl (uninstallGuard sys) machine =
          guards.foldl (dropGuard sys) machine
  | [], _, _ => rfl
  | guard :: rest, machine, live => by
      rw [List.foldl_cons, List.foldl_cons,
        uninstallGuard_eq never (live guard List.mem_cons_self)]
      exact foldl_uninstallGuard never rest _
        fun later member => live later (List.mem_cons_of_mem _ member)

end Restore

/-- What a new guard did at one address: nothing, or it saved the value found
and left the shim. -/
theorem install_at {sys : Sys} (never : sys.NeverFails) {hooks : Hooks}
    {layout : Nat → Option Symbol} {module : Module}
    (placed : module.WellPlaced sys) (follows : Follows layout module)
    {autoRescan : Bool} {machine after : Machine} {guard : HookGuard}
    (outcome : install sys module (hooks.buildReplacements autoRescan)
      machine = (.ok guard, after)) :
    LiveGuard sys hooks layout guard ∧
      ∀ address,
        (savedBy address guard = none ∧
            after.slot address = machine.slot address) ∨
          (savedBy address guard = some (machine.slot address) ∧
            after.slot address = shimAt hooks layout address ∧
            ∃ imports, module.imports = .ok imports ∧
              (targetPointer sys machine imports
                (hooks.buildReplacements autoRescan) address).isSome) := by
  obtain ⟨imports, parsed⟩ := parsed_of_install_ok outcome
  have exactly := install_ok never parsed (congrArg Prod.fst outcome)
  rw [outcome] at exactly
  have follow := follows imports parsed
  refine ⟨⟨exactly.live, exactly.slotsOnce, ?_, ?_, ?_⟩, ?_⟩
  · intro hook member
    exact targetPointer_eq_shimAt follow (exactly.replaced hook member)
  · rw [exactly.base]
    exact placed.1
  · intro hook member
    obtain ⟨slot, slotMember, here⟩ := slot_of_targetPointer
      ((exactly.recorded hook.slot).mp (List.mem_map_of_mem member))
    rw [exactly.base, ← here]
    exact placed.2 imports parsed slot slotMember
  · intro address
    cases search : guard.hooks.find? (·.slot = address) with
    | none =>
        left
        have absent : targetPointer sys machine imports
            (hooks.buildReplacements autoRescan) address = none := by
          rw [← Option.not_isSome_iff_eq_none]
          intro held
          obtain ⟨hook, member, here⟩ :=
            List.mem_map.mp ((exactly.recorded address).mpr held)
          exact List.find?_eq_none.mp search hook member (by simpa using here)
        refine ⟨by simp [savedBy, search], ?_⟩
        rw [exactly.written, absent, Option.getD_none]
    | some hook =>
        right
        have here : hook.slot = address := by
          simpa using List.find?_some search
        have member := List.mem_of_find?_eq_some search
        have target := exactly.replaced hook member
        rw [here] at target
        refine ⟨?_, ?_, imports, parsed, by simp [target]⟩
        · simp [savedBy, search, exactly.found hook member, here]
        · rw [exactly.written, target, Option.getD_some]
          exact targetPointer_eq_shimAt follow target

/-! ## What a step does to the slots and the guards -/

namespace Stage

/-- The installation is under way or its guard is live. -/
def holds : Stage → Bool
  | .installing | .publishing | .installed => true
  | _ => false

end Stage

namespace State

/-- All values saved for `address`, over every installer. -/
def saved (address : Nat) (state : State) : Multiset Nat :=
  (state.installers.map fun installer =>
    (↑(savedAt address installer.guards) : Multiset Nat)).sum

/-- Slots and guards stay as they are, and no installer comes to life again;
a new one has no guards. -/
structure Quiet (state next : State) : Prop where
  slots : next.machine.slot = state.machine.slot
  same : ∀ address, next.saved address = state.saved address
  entries : ∀ (id : Nat) (installer : Installer),
    next.installers[id]? = some installer → installer.guards = [] ∨
      ∃ old : Installer, state.installers[id]? = some old ∧
        old.guards = installer.guards ∧
        (installer.stage.holds = true → old.stage.holds = true)

/-- One installer gets a new guard. -/
structure Patched (sys : Sys) (hooks : Hooks) (state next : State)
    (id : Nat) (module : Module) (old new : Installer)
    (guard : HookGuard) : Prop where
  present : state.installers[id]? = some old
  installers : next.installers = state.installers.set id new
  guards : new.guards = old.guards ++ [guard]
  stage : new.stage = old.stage
  outcome : ∃ machine, next.machine = machine ∧
    install sys module (hooks.buildReplacements old.autoRescan)
      state.machine = (.ok guard, machine)

/-- One installer that is on its way out loses all of its guards. -/
structure Released (sys : Sys) (state next : State) (old new : Installer)
    (id : Nat) : Prop where
  present : state.installers[id]? = some old
  installers : next.installers = state.installers.set id new
  guards : new.guards = []
  stage : new.stage.holds = false
  machine : next.machine = old.guards.foldl (dropGuard sys) state.machine

end State

namespace State

variable {sys : Sys} {hooks : Hooks} {state : State}

theorem Quiet.refl (state : State) : Quiet state state where
  slots := rfl
  same := fun _ => rfl
  entries := fun _ installer present =>
    Or.inr ⟨installer, present, rfl, id⟩

/-- Changing anything but the guards of one installer is quiet. -/
theorem quiet_put {next : State} {id : Nat} {old new : Installer}
    (present : state.installers[id]? = some old)
    (slots : next.machine.slot = state.machine.slot)
    (installers : next.installers = state.installers.set id new)
    (guards : new.guards = old.guards)
    (stage : new.stage.holds = true → old.stage.holds = true) :
    Quiet state next where
  slots := slots
  same := by
    intro address
    have sums := sum_map_set (fun installer : Installer =>
      (↑(savedAt address installer.guards) : Multiset Nat)) new present
    rw [← installers, guards] at sums
    exact add_right_cancel sums
  entries := by
    intro other installer otherPresent
    rw [installers] at otherPresent
    by_cases same : id = other
    · subst same
      rw [List.getElem?_set_self
        (List.getElem?_eq_some_iff.mp present).1,
        Option.some.injEq] at otherPresent
      subst otherPresent
      exact Or.inr ⟨old, present, guards.symm, stage⟩
    · rw [List.getElem?_set_ne same] at otherPresent
      exact Or.inr ⟨installer, otherPresent, rfl, fun holding => holding⟩

theorem quiet_tryActivate (autoRescan : Bool) :
    Quiet state (state.tryActivate autoRescan) := by
  unfold tryActivate
  split
  · exact Quiet.refl state
  · refine ⟨rfl, ?_, ?_⟩
    · intro address
      simp [saved, savedAt]
    · intro id installer present
      by_cases old : id < state.installers.length
      · rw [List.getElem?_append_left old] at present
        exact Or.inr ⟨installer, present, rfl, fun holding => holding⟩
      · rw [List.getElem?_append_right (Nat.le_of_not_lt old)] at present
        have new := List.mem_of_getElem? present
        rw [List.mem_singleton.mp new]
        exact Or.inl rfl

theorem quiet_advance (id : Nat) (expected next : Stage)
    (holding : next.holds = true → expected.holds = true) :
    Quiet state (state.advance id expected next) := by
  unfold advance
  split
  · exact Quiet.refl state
  · rename_i installer present
    split
    · rename_i here
      exact quiet_put present rfl rfl rfl (by rwa [here])
    · exact Quiet.refl state

/-- All guards that installers still collect are live. -/
def AllLive (sys : Sys) (hooks : Hooks) (layout : Nat → Option Symbol)
    (state : State) : Prop :=
  ∀ installer ∈ state.installers, ∀ guard ∈ installer.guards,
    LiveGuard sys hooks layout guard

/-- A step leaves slots and guards alone, adds one guard, or takes all guards
of one installer back. -/
theorem step_cases {layout : Nat → Option Symbol} (never : sys.NeverFails)
    (live : state.AllLive sys hooks layout) (op : Step) :
    Quiet state (state.step sys hooks op) ∨
      (∃ id module old new guard,
        (op = .installModule id module ∨ op = .rescanModule id module) ∧
          Patched sys hooks state (state.step sys hooks op) id module old
            new guard) ∨
      ∃ id old new,
        Released sys state (state.step sys hooks op) old new id := by
  cases op with
  | tryActivate autoRescan =>
      exact Or.inl (quiet_tryActivate autoRescan)
  | installModule id module =>
      simp only [step, installModule]
      split
      · exact Or.inl (Quiet.refl state)
      · rename_i installer present
        split
        · split
          · rename_i guard machine outcome
            exact Or.inr (Or.inl ⟨id, module, installer, _, guard,
              Or.inl rfl, present, rfl, rfl, rfl, machine, rfl, outcome⟩)
          · rename_i error machine outcome
            have unchanged :=
              install_error never (congrArg Prod.fst outcome)
            rw [outcome] at unchanged
            exact Or.inl (quiet_put present
              (congrArg Machine.slot unchanged) rfl rfl
              (fun holding => absurd holding Bool.false_ne_true))
        · exact Or.inl (Quiet.refl state)
  | finishModules id =>
      simp only [step]
      split
      · exact Or.inl (Quiet.refl state)
      · refine Or.inl (quiet_advance id .installing _ fun _ => rfl)
  | setRescan id =>
      simp only [step]
      split
      · exact Or.inl (Quiet.refl state)
      · rename_i installer present
        split
        · rename_i here
          exact Or.inl (quiet_put present rfl rfl rfl
            (fun _ => by rw [here]; rfl))
        · exact Or.inl (Quiet.refl state)
  | triggerRescan =>
      simp only [step]
      split
      · exact Or.inl (Quiet.refl state)
      · exact Or.inl ⟨rfl, fun _ => rfl, (Quiet.refl state).entries⟩
  | rescanModule id module =>
      simp only [step, rescanModule]
      split
      · exact Or.inl (Quiet.refl state)
      · rename_i installer present
        split
        · split
          · exact Or.inl (Quiet.refl state)
          · split
            · rename_i guard machine outcome
              exact Or.inr (Or.inl ⟨id, module, installer, _, guard,
                Or.inr rfl, present, rfl, rfl, rfl, machine, rfl, outcome⟩)
            · rename_i error machine outcome
              have unchanged :=
                install_error never (congrArg Prod.fst outcome)
              rw [outcome] at unchanged
              exact Or.inl (quiet_put present
                (congrArg Machine.slot unchanged) rfl rfl
                (fun holding => holding))
        · exact Or.inl (Quiet.refl state)
  | endRescan id =>
      exact Or.inl ⟨rfl, fun _ => rfl, (Quiet.refl state).entries⟩
  | clearRescan id =>
      simp only [step]
      split
      · exact Or.inl (Quiet.refl state)
      · rename_i installer present
        split
        · exact Or.inl (quiet_put present rfl rfl rfl
            (fun holding => absurd holding Bool.false_ne_true))
        · exact Or.inl (Quiet.refl state)
  | uninstallAll id =>
      simp only [step, uninstallAll]
      split
      · exact Or.inl (Quiet.refl state)
      · rename_i installer present
        have own := live installer (List.mem_of_getElem? present)
        split
        · refine Or.inr (Or.inr ⟨id, installer, _, present, rfl, rfl, rfl,
            ?_⟩)
          exact foldl_uninstallGuard never installer.guards state.machine own
        · exact Or.inl (Quiet.refl state)
  | deactivate id =>
      simp only [step, deactivate]
      split
      · exact Or.inl (Quiet.refl state)
      · rename_i installer present
        split
        · exact Or.inl (quiet_put present rfl rfl rfl
            (fun holding => absurd holding Bool.false_ne_true))
        · exact Or.inl (Quiet.refl state)
  | dropLast id =>
      simp only [step, dropLast]
      split
      · exact Or.inl (Quiet.refl state)
      · rename_i installer present
        split
        · exact Or.inr (Or.inr ⟨id, installer, _, present, rfl, rfl, rfl,
            rfl⟩)
        · exact Or.inl (Quiet.refl state)

/-! ## Every slot comes back -/

/-- Every guard is live and every slot is balanced between its shim and its
original value. -/
structure Sound (sys : Sys) (hooks : Hooks) (layout : Nat → Option Symbol)
    (original : Nat → Nat) (state : State) : Prop where
  live : state.AllLive sys hooks layout
  balanced : ∀ address,
    Balanced (shimAt hooks layout address) (original address)
      (state.machine.slot address) (state.saved address)

variable {layout : Nat → Option Symbol} {original : Nat → Nat}

theorem Sound.quiet {next : State}
    (sound : state.Sound sys hooks layout original)
    (quiet : Quiet state next) : next.Sound sys hooks layout original where
  live := by
    intro installer member guard guardMember
    obtain ⟨id, present⟩ := List.mem_iff_getElem?.mp member
    rcases quiet.entries id installer present with
      empty | ⟨old, oldPresent, same, -⟩
    · simp [empty] at guardMember
    · exact sound.live old (List.mem_of_getElem? oldPresent) guard
        (same ▸ guardMember)
  balanced := by
    intro address
    rw [quiet.slots, quiet.same]
    exact sound.balanced address

/-- The values saved after one installer got another list of guards. -/
theorem saved_set {next : State} {id : Nat} {old new : Installer}
    (present : state.installers[id]? = some old)
    (installers : next.installers = state.installers.set id new)
    (address : Nat) :
    next.saved address + ↑(savedAt address old.guards) =
      state.saved address + ↑(savedAt address new.guards) := by
  have sums := sum_map_set (fun installer : Installer =>
    (↑(savedAt address installer.guards) : Multiset Nat)) new present
  rwa [← installers] at sums

theorem Sound.patched {next : State} {id : Nat} {module : Module}
    {old new : Installer} {guard : HookGuard} (never : sys.NeverFails)
    (sound : state.Sound sys hooks layout original)
    (placed : module.WellPlaced sys) (follows : Follows layout module)
    (patched : Patched sys hooks state next id module old new guard) :
    next.Sound sys hooks layout original := by
  obtain ⟨machine, machineEq, outcome⟩ := patched.outcome
  obtain ⟨guardLive, effect⟩ :=
    install_at never placed follows outcome
  refine ⟨?_, ?_⟩
  · intro installer member other otherMember
    rw [patched.installers] at member
    rcases List.mem_or_eq_of_mem_set member with kept | rfl
    · exact sound.live installer kept other otherMember
    · rw [patched.guards] at otherMember
      rcases List.mem_append.mp otherMember with older | newest
      · exact sound.live old (List.mem_of_getElem? patched.present) other
          older
      · rwa [List.mem_singleton.mp newest]
  · intro address
    have total := saved_set patched.present patched.installers address
    rw [patched.guards, savedAt, savedAt, List.filterMap_append,
      ← Multiset.coe_add, ← add_assoc, add_right_comm] at total
    have total := add_right_cancel total
    rw [machineEq]
    rcases effect address with ⟨none, kept⟩ | ⟨saved, written, -⟩
    · rw [total, kept]
      simpa [none] using sound.balanced address
    · rw [total, written]
      have held := (sound.balanced address).hold
      rw [← Multiset.singleton_add, add_comm] at held
      simpa [saved] using held

theorem Sound.released {next : State} {id : Nat} {old new : Installer}
    (never : sys.NeverFails)
    (sound : state.Sound sys hooks layout original)
    (released : Released sys state next old new id) :
    next.Sound sys hooks layout original := by
  have own := sound.live old (List.mem_of_getElem? released.present)
  refine ⟨?_, ?_⟩
  · intro installer member other otherMember
    rw [released.installers] at member
    rcases List.mem_or_eq_of_mem_set member with kept | rfl
    · exact sound.live installer kept other otherMember
    · simp [released.guards] at otherMember
  · intro address
    have total := saved_set released.present released.installers address
    rw [released.guards] at total
    simp only [savedAt, List.filterMap_nil, Multiset.coe_nil,
      add_zero] at total
    rw [released.machine, foldl_dropGuard_slot never address old.guards
      state.machine own]
    apply Balanced.releaseAll
    rw [savedAt, add_comm, total]
    exact sound.balanced address

theorem sound_step (never : sys.NeverFails)
    (sound : state.Sound sys hooks layout original) (op : Step)
    (placed : op.Placed sys layout) :
    (state.step sys hooks op).Sound sys hooks layout original := by
  rcases step_cases never sound.live op with quiet |
    ⟨id, module, old, new, guard, which, patched⟩ | ⟨id, old, new, released⟩
  · exact sound.quiet quiet
  · have modulePlaced :
        module.WellPlaced sys ∧ Follows layout module := by
      rcases which with rfl | rfl
      · exact placed
      · exact placed
    exact sound.patched never modulePlaced.1 modulePlaced.2 patched
  · exact sound.released never released

/-! ## Freed installers hold nothing -/

/-- An installer whose last `Arc` is gone has no guards, and nobody can reach
it any more. -/
def Retired (state : State) : Prop :=
  ∀ (id : Nat) (installer : Installer),
    state.installers[id]? = some installer → installer.stage = .freed →
      installer.guards = [] ∧ id ∉ state.running ∧
        state.callback ≠ some id

/-- Changing one installer that is not freed keeps the others retired. -/
theorem retired_put {next : State} {id : Nat} {new : Installer}
    (retired : state.Retired)
    (installers : next.installers = state.installers.set id new)
    (running : next.running = state.running)
    (callback : next.callback = state.callback ∨ next.callback = none ∨
      next.callback = some id)
    (fresh : new.stage = .freed → new.guards = [] ∧
      id ∉ next.running ∧ next.callback ≠ some id) :
    next.Retired := by
  intro other installer present freed
  rw [installers] at present
  by_cases same : id = other
  · subst same
    have here : installer = new := by
      rw [List.getElem?_set] at present
      simp only [if_true] at present
      split at present
      · exact (Option.some.inj present).symm
      · cases present
    subst here
    exact fresh freed
  · rw [List.getElem?_set_ne same] at present
    obtain ⟨guards, idle, unreachable⟩ :=
      retired other installer present freed
    refine ⟨guards, running ▸ idle, ?_⟩
    rcases callback with kept | cleared | published
    · rwa [kept]
    · simp [cleared]
    · rw [published]
      exact fun equal => same (Option.some.inj equal)

/-- A new installer is not freed. -/
theorem retired_tryActivate (retired : state.Retired) (autoRescan : Bool) :
    (state.step sys hooks (.tryActivate autoRescan)).Retired := by
  simp only [step, tryActivate]
  split
  · exact retired
  · intro id installer present freed
    by_cases old : id < state.installers.length
    · rw [List.getElem?_append_left old] at present
      exact retired id installer present freed
    · rw [List.getElem?_append_right (Nat.le_of_not_lt old)] at present
      have new := List.mem_of_getElem? present
      rw [List.mem_singleton.mp new] at freed
      cases freed

/-- Only an installer that is published can be reached by a loader call. -/
theorem retired_triggerRescan (retired : state.Retired) :
    (state.step sys hooks .triggerRescan).Retired := by
  simp only [step]
  split
  · exact retired
  · rename_i id published
    intro other installer present freed
    obtain ⟨guards, idle, unreachable⟩ :=
      retired other installer present freed
    refine ⟨guards, ?_, unreachable⟩
    intro member
    rcases List.mem_cons.mp member with rfl | older
    · exact unreachable published
    · exact idle older

/-- A rescan that goes on keeps its installer from being freed. -/
theorem retired_rescanModule (retired : state.Retired) (id : Nat)
    (module : Module) :
    (state.step sys hooks (.rescanModule id module)).Retired := by
  simp only [step, rescanModule]
  split
  · exact retired
  · rename_i installer present
    split
    · rename_i enabled
      have alive : installer.stage ≠ .freed := by
        intro freed
        obtain ⟨-, idle, -⟩ := retired id installer present freed
        rcases enabled with running | installed
        · exact idle running
        · rw [freed] at installed
          cases installed
      split
      · exact retired
      · split
        · exact retired_put retired rfl rfl (Or.inl rfl)
            (fun freed => absurd freed alive)
        · exact retired_put retired rfl rfl (Or.inl rfl)
            (fun freed => absurd freed alive)
    · exact retired

theorem retired_step (retired : state.Retired) (op : Step) :
    (state.step sys hooks op).Retired := by
  cases op with
  | tryActivate autoRescan =>
      exact retired_tryActivate retired autoRescan
  | installModule id module =>
      simp only [step, installModule]
      split
      · exact retired
      · rename_i installer present
        split
        · rename_i here
          split
          · exact retired_put retired rfl rfl (Or.inl rfl)
              (fun freed => by simp [here] at freed)
          · exact retired_put retired rfl rfl (Or.inl rfl)
              (fun freed => by cases freed)
        · exact retired
  | finishModules id =>
      simp only [step]
      split
      · exact retired
      · rename_i installer present
        simp only [advance, present]
        split
        · refine retired_put retired rfl rfl (Or.inl rfl) fun freed => ?_
          cases auto : installer.autoRescan <;> simp [auto] at freed
        · exact retired
  | setRescan id =>
      simp only [step]
      split
      · exact retired
      · split
        · exact retired_put retired rfl rfl (Or.inr (Or.inr rfl))
            (fun freed => by cases freed)
        · exact retired
  | triggerRescan =>
      exact retired_triggerRescan retired
  | rescanModule id module =>
      exact retired_rescanModule retired id module
  | endRescan id =>
      intro other installer present freed
      obtain ⟨guards, idle, unreachable⟩ :=
        retired other installer present freed
      exact ⟨guards, fun member => idle (List.mem_of_mem_erase member),
        unreachable⟩
  | clearRescan id =>
      simp only [step]
      split
      · exact retired
      · split
        · exact retired_put retired rfl rfl (Or.inr (Or.inl rfl))
            (fun freed => by cases freed)
        · exact retired
  | uninstallAll id =>
      simp only [step, uninstallAll]
      split
      · exact retired
      · split
        · exact retired_put retired rfl rfl (Or.inl rfl)
            (fun freed => by cases freed)
        · exact retired
  | deactivate id =>
      simp only [step, deactivate]
      split
      · exact retired
      · split
        · exact retired_put retired rfl rfl (Or.inl rfl)
            (fun freed => by cases freed)
        · exact retired
  | dropLast id =>
      simp only [step, dropLast]
      split
      · exact retired
      · split
        · rename_i enabled
          exact retired_put retired rfl rfl (Or.inl rfl)
            (fun _ => ⟨rfl, enabled.2.2, enabled.2.1⟩)
        · exact retired

/-- Once every installer is freed, every slot holds its original value. -/
def Settled (original : Nat → Nat) (state : State) : Prop :=
  (∀ installer ∈ state.installers, installer.stage = .freed) →
    state.machine.slot = original

theorem settled_of_sound (sound : state.Sound sys hooks layout original)
    (retired : state.Retired) : state.Settled original := by
  intro allFreed
  funext address
  have nothing : state.saved address = 0 := by
    unfold saved
    apply List.sum_eq_zero
    intro weight member
    obtain ⟨installer, installerMember, rfl⟩ := List.mem_map.mp member
    obtain ⟨id, present⟩ := List.mem_iff_getElem?.mp installerMember
    have empty := (retired id installer present
      (allFreed installer installerMember)).1
    simp [empty, savedAt]
  have balanced := sound.balanced address
  rw [nothing] at balanced
  exact balanced_zero.mp balanced

/-! ## The slots of a live installation -/

/-- The slots of an installation whose guard is live still hold the shim. -/
def Owned (state : State) : Prop :=
  ∀ installer ∈ state.installers, installer.stage = .installed →
    ∀ guard ∈ installer.guards, ∀ hook ∈ guard.hooks,
      state.machine.slot hook.slot = hook.replacement

instance (state : State) : Decidable state.Owned :=
  inferInstanceAs (Decidable (∀ installer ∈ state.installers,
    installer.stage = .installed → ∀ guard ∈ installer.guards,
      ∀ hook ∈ guard.hooks,
        state.machine.slot hook.slot = hook.replacement))

/-- The step does not make a live installation patch a slot whose original
value an unrestored guard of another installation holds. -/
def Clean (sys : Sys) (hooks : Hooks) (state : State) : Step → Prop
  | .installModule id module | .rescanModule id module =>
      ∀ installer : Installer, state.installers[id]? = some installer →
        installer.stage.holds = true →
        ∀ imports, module.imports = .ok imports →
        ∀ address, (targetPointer sys state.machine imports
          (hooks.buildReplacements installer.autoRescan) address).isSome →
        ∀ (other : Nat) (foreign : Installer), other ≠ id →
          state.installers[other]? = some foreign →
          ∀ guard ∈ foreign.guards, ∀ hook ∈ guard.hooks,
            hook.slot = address → hook.priorValue = hook.replacement
  | _ => True

/-- Where a live installation has patched a slot, the shim is in place and
the guards of the others have saved nothing but the shim. -/
def Held (hooks : Hooks) (layout : Nat → Option Symbol) (state : State) :
    Prop :=
  ∀ (id : Nat) (installer : Installer),
    state.installers[id]? = some installer →
    installer.stage.holds = true →
    ∀ address, savedAt address installer.guards ≠ [] →
      state.machine.slot address = shimAt hooks layout address ∧
        ∀ (other : Nat) (foreign : Installer), other ≠ id →
          state.installers[other]? = some foreign →
          ∀ value ∈ savedAt address foreign.guards,
            value = shimAt hooks layout address

theorem owned_of_held (live : state.AllLive sys hooks layout)
    (held : state.Held hooks layout) : state.Owned := by
  intro installer member installed guard guardMember hook hookMember
  obtain ⟨id, present⟩ := List.mem_iff_getElem?.mp member
  have shim := (live installer member guard guardMember).shims hook
    hookMember
  rw [shim]
  exact (held id installer present (by rw [installed]; rfl) hook.slot
    (savedAt_ne_nil guardMember hookMember)).1

theorem Held.quiet {next : State} (held : state.Held hooks layout)
    (quiet : Quiet state next) : next.Held hooks layout := by
  intro id installer present holding address touched
  rcases quiet.entries id installer present with
    empty | ⟨old, oldPresent, same, wasHolding⟩
  · simp [empty, savedAt] at touched
  · obtain ⟨shim, others⟩ := held id old oldPresent (wasHolding holding)
      address (same ▸ touched)
    rw [quiet.slots]
    refine ⟨shim, ?_⟩
    intro other foreign different foreignPresent value member
    rcases quiet.entries other foreign foreignPresent with
      foreignEmpty | ⟨oldForeign, oldForeignPresent, foreignSame, -⟩
    · simp [foreignEmpty, savedAt] at member
    · exact others other oldForeign different oldForeignPresent value
        (foreignSame ▸ member)

theorem Held.released {next : State} {id : Nat} {old new : Installer}
    (never : sys.NeverFails) (live : state.AllLive sys hooks layout)
    (held : state.Held hooks layout)
    (released : Released sys state next old new id) :
    next.Held hooks layout := by
  have inRange := (List.getElem?_eq_some_iff.mp released.present).1
  have own := live old (List.mem_of_getElem? released.present)
  intro holder installer present holding address touched
  rw [released.installers] at present
  have different : id ≠ holder := by
    rintro rfl
    rw [List.getElem?_set_self inRange, Option.some.injEq] at present
    rw [← present, released.stage] at holding
    exact Bool.false_ne_true holding
  rw [List.getElem?_set_ne different] at present
  obtain ⟨shim, others⟩ := held holder installer present holding address
    touched
  refine ⟨?_, ?_⟩
  · -- the departing guards saved only the shim here
    rw [released.machine, foldl_dropGuard_slot never address old.guards
      state.machine own, shim]
    exact foldl_putBackSaved_of_patch
      (others id old different released.present)
  · intro other foreign otherDifferent foreignPresent value member
    rw [released.installers] at foreignPresent
    by_cases same : id = other
    · subst same
      rw [List.getElem?_set_self inRange, Option.some.injEq]
        at foreignPresent
      rw [← foreignPresent, released.guards] at member
      simp [savedAt] at member
    · rw [List.getElem?_set_ne same] at foreignPresent
      exact others other foreign otherDifferent foreignPresent value member

theorem Held.patched {next : State} {id : Nat} {module : Module}
    {old new : Installer} {guard : HookGuard} (never : sys.NeverFails)
    (live : state.AllLive sys hooks layout)
    (held : state.Held hooks layout) (placed : module.WellPlaced sys)
    (follows : Follows layout module)
    (patched : Patched sys hooks state next id module old new guard)
    (clean : Clean sys hooks state (.installModule id module)) :
    next.Held hooks layout := by
  obtain ⟨machine, machineEq, outcome⟩ := patched.outcome
  obtain ⟨-, effect⟩ := install_at never placed follows outcome
  have inRange := (List.getElem?_eq_some_iff.mp patched.present).1
  have grown (address : Nat) : savedAt address new.guards =
      savedAt address old.guards ++ savedAt address [guard] := by
    rw [patched.guards, savedAt, List.filterMap_append]
    rfl
  intro holder installer present holding address touched
  rw [patched.installers] at present
  rw [machineEq]
  by_cases same : id = holder
  · subst same
    rw [List.getElem?_set_self inRange, Option.some.injEq] at present
    subst present
    rw [patched.stage] at holding
    rcases effect address with ⟨none, kept⟩ |
      ⟨saved, written, imports, parsed, target⟩
    · have before : savedAt address old.guards ≠ [] := by
        rw [grown] at touched
        simpa [savedAt, none] using touched
      obtain ⟨shim, others⟩ :=
        held id old patched.present holding address before
      rw [kept]
      refine ⟨shim, ?_⟩
      intro other foreign different foreignPresent
      rw [patched.installers, List.getElem?_set_ne (Ne.symm different)]
        at foreignPresent
      exact others other foreign different foreignPresent
    · refine ⟨written, ?_⟩
      intro other foreign different foreignPresent value member
      rw [patched.installers, List.getElem?_set_ne (Ne.symm different)]
        at foreignPresent
      obtain ⟨otherGuard, guardMember, hook, hookMember, here, rfl⟩ :=
        mem_savedAt member
      have foreignLive := live foreign
        (List.mem_of_getElem? foreignPresent) otherGuard guardMember
      rw [clean old patched.present holding imports parsed address target
        other foreign different foreignPresent otherGuard guardMember hook
        hookMember here, foreignLive.shims hook hookMember, here]
  · rw [List.getElem?_set_ne same] at present
    obtain ⟨shim, others⟩ := held holder installer present holding address
      touched
    refine ⟨?_, ?_⟩
    · rcases effect address with ⟨-, kept⟩ | ⟨-, written, -⟩
      · rw [kept, shim]
      · exact written
    · intro other foreign different foreignPresent value member
      rw [patched.installers] at foreignPresent
      by_cases patchedOne : id = other
      · subst patchedOne
        rw [List.getElem?_set_self inRange, Option.some.injEq]
          at foreignPresent
        rw [← foreignPresent, grown] at member
        rcases List.mem_append.mp member with older | newest
        · exact others id old different patched.present value older
        · rcases effect address with ⟨none, -⟩ | ⟨saved, -⟩
          · simp [savedAt, none] at newest
          · rw [← shim]
            simpa [savedAt, saved] using newest
      · rw [List.getElem?_set_ne patchedOne] at foreignPresent
        exact others other foreign different foreignPresent value member

theorem held_step (never : sys.NeverFails)
    (live : state.AllLive sys hooks layout)
    (held : state.Held hooks layout) (op : Step)
    (placed : op.Placed sys layout) (clean : Clean sys hooks state op) :
    (state.step sys hooks op).Held hooks layout := by
  rcases step_cases never live op with quiet |
    ⟨id, module, old, new, guard, which, patched⟩ | ⟨id, old, new, released⟩
  · exact held.quiet quiet
  · rcases which with rfl | rfl
    · exact held.patched never live placed.1 placed.2 patched clean
    · exact held.patched never live placed.1 placed.2 patched clean
  · exact held.released never live released

/-! ## Whole runs -/

theorem sound_initial (machine : Machine) :
    (initial machine).Sound sys hooks layout machine.slot := by
  refine ⟨?_, ?_⟩
  · intro installer member
    simp [initial] at member
  · intro address
    exact balanced_zero.mpr rfl

theorem retired_initial (machine : Machine) :
    (initial machine).Retired := by
  intro id installer present
  simp [initial] at present

theorem held_initial (machine : Machine) :
    (initial machine).Held hooks layout := by
  intro id installer present
  simp [initial] at present

end State

/-- From no installation on, whatever the interleaving: when every installer
is freed every slot holds its original value; and if no step makes a live
installation patch a slot whose original value a guard of another
installation still holds, every slot of an installation with a live guard
keeps its shim. -/
theorem ownership_of_clean_steps (sys : Sys) (never : sys.NeverFails)
    (hooks : Hooks) (layout : Nat → Option Symbol) (machine : Machine)
    (ops : List Step) (placed : ∀ op ∈ ops, op.Placed sys layout) :
    Throughout (State.step sys hooks) (State.Settled machine.slot)
        (State.initial machine) ops ∧
      (EachStep (State.step sys hooks) (State.Clean sys hooks)
          (State.initial machine) ops →
        Throughout (State.step sys hooks) State.Owned
          (State.initial machine) ops) := by
  have start : (State.initial machine).Sound sys hooks layout
      machine.slot := State.sound_initial machine
  have places : EachStep (State.step sys hooks)
      (fun _ op => op.Placed sys layout) (State.initial machine) ops :=
    eachStep_of_forall placed
  refine ⟨?_, ?_⟩
  · have whole := throughout_of_eachStep
      (fun (state : State) op
        (good : state.Sound sys hooks layout machine.slot ∧
          state.Retired) allowed =>
        And.intro (State.sound_step never good.1 op allowed)
          (State.retired_step good.2 op))
      ops (State.initial machine)
      ⟨start, State.retired_initial machine⟩ places
    exact whole.mono fun state good =>
      State.settled_of_sound good.1 good.2
  · intro clean
    have whole := throughout_of_eachStep
      (fun (state : State) op
        (good : state.Sound sys hooks layout machine.slot ∧
          state.Held hooks layout)
        (allowed : op.Placed sys layout ∧
          State.Clean sys hooks state op) =>
        And.intro (State.sound_step never good.1 op allowed.1)
          (State.held_step never good.1.live good.2 op allowed.1
            allowed.2))
      ops (State.initial machine)
      ⟨start, State.held_initial machine⟩ (places.and clean)
    exact whole.mono fun state good =>
      State.owned_of_held good.1.live good.2

/-! ## A rescan that outlives its guard -/

/-- The one hooked symbol of the examples below, with its shim. -/
def openHooks : Hooks where
  all := [['o']]
  isLoader := fun _ => false
  library := none
  shimAddress := fun _ => 100

/-- A module with one slot. -/
def openModule (base : Nat) : Module where
  name := ['m']
  base := base
  imports := .ok [{
    library := ['c']
    symbol := some (.name ['o'])
    address := base
    kind := .standard
    authenticated := false }]

/-- Installation `0` is dropped while a rescan of it runs; the rescan then
patches a module, installation `1` patches the same module and returns, and
the end of the rescan drops the last `Arc` of installation `0`. -/
def staleRescan : List Step :=
  [.tryActivate true, .installModule 0 (openModule 0x1000),
    .finishModules 0, .setRescan 0, .triggerRescan, .clearRescan 0,
    .uninstallAll 0, .deactivate 0,
    .rescanModule 0 (openModule 0x2000),
    .tryActivate true, .installModule 1 (openModule 0x2000),
    .finishModules 1, .setRescan 1,
    .endRescan 0, .dropLast 0]

theorem openModule_placed (base : Nat) :
    (openModule base).WellPlaced quietSys ∧
      Follows (fun _ => some (.name ['o'])) (openModule base) := by
  refine ⟨⟨rfl, fun _ _ _ _ => rfl⟩, ?_⟩
  intro imports parsed slot member
  simp only [openModule, Except.ok.injEq] at parsed
  subst parsed
  rw [List.mem_singleton.mp member]

theorem staleRescan_placed (op : Step) (member : op ∈ staleRescan) :
    op.Placed quietSys fun _ => some (.name ['o']) := by
  simp only [staleRescan, List.mem_cons, List.not_mem_nil,
    or_false] at member
  rcases member with rfl | rfl | rfl | rfl | rfl | rfl | rfl | rfl | rfl |
    rfl | rfl | rfl | rfl | rfl | rfl
  all_goals first | exact openModule_placed _ | trivial

theorem ownership_of_clean_steps_installed :
    Throughout (State.step quietSys openHooks) State.Owned
      (State.initial ⟨fun _ => 7, fun _ => 1, 0⟩) (staleRescan.take 8) :=
  (ownership_of_clean_steps quietSys (fun _ => rfl) openHooks
    (fun _ => some (.name ['o'])) ⟨fun _ => 7, fun _ => 1, 0⟩
    (staleRescan.take 8)
    (fun op member =>
      staleRescan_placed op (List.mem_of_mem_take member))).2 (by
    refine ⟨trivial, ?_, trivial, trivial, trivial, trivial, trivial,
      trivial, trivial⟩
    intro installer present holding imports parsed address target other
      foreign different foreignPresent
    have only : (State.step quietSys openHooks
        (State.initial ⟨fun _ => 7, fun _ => 1, 0⟩)
        (.tryActivate true)).installers.length = 1 := rfl
    have bound := (List.getElem?_eq_some_iff.mp foreignPresent).1
    omega)

/-- The slot of the second installation is back at its original value while
its guard is live. -/
theorem ownership_lost_to_stale_rescan :
    ¬ ∀ (sys : Sys), sys.NeverFails → ∀ (hooks : Hooks)
      (layout : Nat → Option Symbol) (machine : Machine) (ops : List Step),
      (∀ op ∈ ops, op.Placed sys layout) →
        Throughout (State.step sys hooks) State.Owned
          (State.initial machine) ops := by
  intro always
  have whole := always quietSys (fun _ => rfl) openHooks
    (fun _ => some (.name ['o'])) ⟨fun _ => 7, fun _ => 1, 0⟩ staleRescan
    staleRescan_placed
  have final := (throughout_iff_prefixes State.Owned staleRescan _).mp whole
    staleRescan [] (List.append_nil _).symm
  exact absurd final (by decide)

end Hookfs.Install
