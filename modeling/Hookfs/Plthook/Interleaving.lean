import Hookfs.Lib.Runs
import Hookfs.Plthook.Install

/-!
# Guards over a shared memory

Installs, restores and foreign writes may come in any order.  A guard only
ever takes back its own pointer, to the value its own install had found, and
does so at most once.  Guards that are restored in the reverse order of their
installation leave no trace.
-/

namespace Hookfs.Plthook

open Hookfs.Lib

/-- A guard, with the slot values its install had found kept beside it. -/
structure Installed where
  guard : HookGuard
  found : Nat → Nat

/-- The process and its guards, in the order of their installation. -/
structure Process where
  machine : Machine
  installed : List Installed

inductive Action where
  | install (module : Module) (replacements : List Replacement)
  | uninstall (index : Nat)
  | drop (index : Nat)
  | foreignWrite (slot value : Nat)

namespace Action

/-- The installed modules are loaded and hold their slots. -/
def WellPlaced (sys : Sys) : Action → Prop
  | .install module _ => module.WellPlaced sys
  | _ => True

/-- The action ends the life of the guard at `index`. -/
def Restores (index : Nat) (action : Action) : Prop :=
  action = .uninstall index ∨ action = .drop index

end Action

namespace Process

/-- Run `restore` on one guard and keep the guard. -/
def restoreAt (sys : Sys) (index : Nat) (process : Process) : Process :=
  match process.installed[index]? with
  | none => process
  | some entry =>
      let (_, guard, machine) := entry.guard.restore sys process.machine
      { machine := machine
        installed := process.installed.set index
          { entry with guard := guard } }

def step (sys : Sys) (process : Process) : Action → Process
  | .install module replacements =>
      match install sys module replacements process.machine with
      | (.error _, machine) => { process with machine := machine }
      | (.ok guard, machine) =>
          { machine := machine
            installed := process.installed ++
              [⟨guard, process.machine.slot⟩] }
  -- `uninstall` consumes the guard, so its `Drop` runs right after it
  | .uninstall index => (process.restoreAt sys index).restoreAt sys index
  | .drop index => process.restoreAt sys index
  | .foreignWrite slot value =>
      { process with
        machine := { process.machine with
          slot := Function.update process.machine.slot slot value } }

end Process

/-! ## Soundness of the recorded guards -/

/-- What every recorded guard satisfies. -/
structure Installed.Sound (sys : Sys) (entry : Installed) : Prop where
  distinct : (entry.guard.hooks.map (·.slot)).Nodup
  found : ∀ hook ∈ entry.guard.hooks,
    hook.priorValue = entry.found hook.slot
  loaded : sys.moduleStillLoaded entry.guard.moduleBase = true
  inside : ∀ hook ∈ entry.guard.hooks,
    sys.slotBelongsToModule hook.slot entry.guard.moduleBase = true

/-- Spending a guard keeps it sound. -/
theorem Installed.Sound.spend {sys : Sys} {entry : Installed}
    (sound : entry.Sound sys) :
    Installed.Sound sys
      { entry with guard := { entry.guard with active := false } } :=
  ⟨sound.distinct, sound.found, sound.loaded, sound.inside⟩

/-- The memory is the one the guard's install left behind. -/
def Installed.Patches (entry : Installed) (memory : Nat → Nat) : Prop :=
  (∀ hook ∈ entry.guard.hooks, memory hook.slot = hook.replacement) ∧
    ∀ address, address ∉ entry.guard.hooks.map (·.slot) →
      memory address = entry.found address

/-- Taking back a patch that is still in place gives the memory found. -/
theorem takeBack_of_patches {sys : Sys} {entry : Installed}
    (sound : entry.Sound sys) {memory : Nat → Nat}
    (patches : entry.Patches memory) :
    takeBack entry.guard.hooks memory = entry.found := by
  funext address
  by_cases member : address ∈ entry.guard.hooks.map (·.slot)
  · obtain ⟨hook, hookMember, rfl⟩ := List.mem_map.mp member
    rw [takeBack_inside sound.distinct hookMember,
      if_pos (patches.1 hook hookMember), sound.found hook hookMember]
  · rw [takeBack_outside member, patches.2 address member]

namespace Process

variable {sys : Sys} {process : Process}

def Sound (sys : Sys) (process : Process) : Prop :=
  ∀ entry ∈ process.installed, entry.Sound sys

/-- An install either fails and changes nothing, or adds one sound, active
guard whose patches are in place. -/
theorem step_install (never : sys.NeverFails) (module : Module)
    (placed : module.WellPlaced sys) (replacements : List Replacement) :
    process.step sys (.install module replacements) = process ∨
      ∃ entry machine,
        process.step sys (.install module replacements) =
            ⟨machine, process.installed ++ [entry]⟩ ∧
          entry.Sound sys ∧ entry.guard.active = true ∧
          entry.found = process.machine.slot ∧
          entry.Patches machine.slot ∧
          machine.protection = process.machine.protection := by
  rcases outcome : install sys module replacements process.machine with
    ⟨result, machine⟩
  cases result with
  | error error =>
      left
      have unchanged := install_error never (congrArg Prod.fst outcome)
      rw [outcome] at unchanged
      simp only [step, outcome]
      rw [show machine = process.machine from unchanged]
  | ok guard =>
      right
      obtain ⟨imports, parsed⟩ := parsed_of_install_ok outcome
      have exactly := install_ok never parsed (congrArg Prod.fst outcome)
      rw [outcome] at exactly
      refine ⟨⟨guard, process.machine.slot⟩, machine, ?_, ?_,
        exactly.live, rfl, ⟨?_, ?_⟩, exactly.protections⟩
      · simp only [step, outcome]
      · refine ⟨exactly.slotsOnce, exactly.found, ?_, ?_⟩
        · rw [exactly.base]
          exact placed.1
        · intro hook member
          have held := (exactly.recorded hook.slot).mp
            (List.mem_map_of_mem member)
          obtain ⟨slot, slotMember, address⟩ := slot_of_targetPointer held
          rw [exactly.base, ← address]
          exact placed.2 imports parsed slot slotMember
      · intro hook member
        rw [exactly.written, exactly.replaced hook member,
          Option.getD_some]
      · intro address outside
        have absent : targetPointer sys process.machine imports
            replacements address = none := by
          rw [← Option.not_isSome_iff_eq_none]
          exact fun held => outside ((exactly.recorded address).mpr held)
        rw [exactly.written, absent, Option.getD_none]

/-- Restoring the guard at `index`: the memory it takes back, and the guard
spent in its place. -/
theorem restoreAt_of_active (never : sys.NeverFails) {index : Nat}
    {entry : Installed} (present : process.installed[index]? = some entry)
    (sound : entry.Sound sys) (active : entry.guard.active = true) :
    ∃ calls,
      process.restoreAt sys index =
        ⟨⟨takeBack entry.guard.hooks process.machine.slot,
            process.machine.protection, calls⟩,
          process.installed.set index
            { entry with guard := { entry.guard with active := false } }⟩ := by
  obtain ⟨outcome, calls, restored⟩ := HookGuard.restore_of_active never
    active sound.loaded sound.distinct sound.inside process.machine
  refine ⟨calls, ?_⟩
  simp only [restoreAt, present, restored]

/-- A spent guard does nothing. -/
theorem restoreAt_of_spent {index : Nat} {entry : Installed}
    (present : process.installed[index]? = some entry)
    (spent : entry.guard.active = false) :
    process.restoreAt sys index = process := by
  simp only [restoreAt, present, HookGuard.restore_of_inactive spent]
  obtain ⟨bound, rfl⟩ := List.getElem?_eq_some_iff.mp present
  rw [show ({ guard := process.installed[index].guard
              found := process.installed[index].found } : Installed) =
    process.installed[index] from rfl, List.set_getElem_self]

theorem restoreAt_of_missing {index : Nat}
    (missing : process.installed[index]? = none) :
    process.restoreAt sys index = process := by
  simp only [restoreAt, missing]

/-- A restore, seen from outside: nothing for a missing or spent guard, one
take-back for an active one, and the guard is spent. -/
theorem restoreAt_cases (never : sys.NeverFails) (sound : process.Sound sys)
    (index : Nat) :
    (process.restoreAt sys index = process ∧
        ∀ entry, process.installed[index]? = some entry →
          entry.guard.active = false) ∨
      ∃ entry calls,
        process.installed[index]? = some entry ∧
          entry.guard.active = true ∧
          process.restoreAt sys index =
            ⟨⟨takeBack entry.guard.hooks process.machine.slot,
                process.machine.protection, calls⟩,
              process.installed.set index
                { entry with
                  guard := { entry.guard with active := false } }⟩ := by
  cases present : process.installed[index]? with
  | none =>
      exact Or.inl ⟨restoreAt_of_missing present, by simp⟩
  | some entry =>
      cases active : entry.guard.active with
      | false =>
          refine Or.inl ⟨restoreAt_of_spent present active, ?_⟩
          intro other same
          rwa [← Option.some.inj same]
      | true =>
          have entrySound := sound entry (List.mem_of_getElem? present)
          obtain ⟨calls, restored⟩ :=
            restoreAt_of_active never present entrySound active
          exact Or.inr ⟨entry, calls, rfl, active, restored⟩

theorem sound_restoreAt (never : sys.NeverFails)
    (sound : process.Sound sys) (index : Nat) :
    (process.restoreAt sys index).Sound sys := by
  rcases restoreAt_cases never sound index with
    ⟨same, -⟩ | ⟨entry, calls, present, -, restored⟩
  · rwa [same]
  · rw [restored]
    intro other member
    rcases List.mem_or_eq_of_mem_set member with old | new
    · exact sound other old
    · rw [new]
      exact (sound entry (List.mem_of_getElem? present)).spend

theorem sound_step (never : sys.NeverFails) (sound : process.Sound sys)
    (action : Action) (placed : action.WellPlaced sys) :
    (process.step sys action).Sound sys := by
  cases action with
  | install module replacements =>
      rcases step_install never module placed replacements with
        same | ⟨entry, machine, next, entrySound, -⟩
      · rwa [same]
      · rw [next]
        intro other member
        rcases List.mem_append.mp member with old | new
        · exact sound other old
        · rw [List.mem_singleton.mp new]
          exact entrySound
  | uninstall index =>
      exact sound_restoreAt never (sound_restoreAt never sound index) index
  | drop index =>
      exact sound_restoreAt never sound index
  | foreignWrite slot value =>
      exact sound

theorem sound_run (never : sys.NeverFails) {actions : List Action}
    (placed : ∀ action ∈ actions, action.WellPlaced sys)
    (sound : process.Sound sys) :
    (run (step sys) process actions).Sound sys :=
  run_of_allowed (Sound sys) (fun _ action before allowed =>
    sound_step never before action allowed) placed sound

/-! ## A guard restores at most once -/

/-- The guard at `index` has been restored. -/
def SpentAt (index : Nat) (process : Process) : Prop :=
  ∃ entry, process.installed[index]? = some entry ∧
    entry.guard.active = false

theorem spentAt_restoreAt_self (never : sys.NeverFails)
    (sound : process.Sound sys) {index : Nat}
    (bound : index < process.installed.length) :
    (process.restoreAt sys index).SpentAt index := by
  rcases restoreAt_cases never sound index with
    ⟨same, spent⟩ | ⟨entry, calls, present, -, restored⟩
  · rw [same]
    have present := List.getElem?_eq_getElem bound
    exact ⟨_, present, spent _ present⟩
  · rw [restored]
    exact ⟨_, List.getElem?_set_self bound, rfl⟩

theorem spentAt_restoreAt (never : sys.NeverFails)
    (sound : process.Sound sys) {index other : Nat}
    (spent : process.SpentAt index) :
    (process.restoreAt sys other).SpentAt index := by
  by_cases same : index = other
  · subst same
    obtain ⟨entry, present, -⟩ := spent
    exact spentAt_restoreAt_self never sound
      (List.getElem?_eq_some_iff.mp present).1
  · rcases restoreAt_cases never sound other with
      ⟨unchanged, -⟩ | ⟨entry, calls, -, -, restored⟩
    · rwa [unchanged]
    · rw [restored]
      obtain ⟨kept, present, inactive⟩ := spent
      refine ⟨kept, ?_, inactive⟩
      rw [List.getElem?_set_ne (Ne.symm same)]
      exact present

theorem spentAt_step (never : sys.NeverFails) (sound : process.Sound sys)
    {index : Nat} (spent : process.SpentAt index) (action : Action)
    (placed : action.WellPlaced sys) :
    (process.step sys action).SpentAt index := by
  cases action with
  | install module replacements =>
      rcases step_install never module placed replacements with
        same | ⟨entry, machine, next, -⟩
      · rwa [same]
      · obtain ⟨kept, present, inactive⟩ := spent
        rw [next]
        refine ⟨kept, ?_, inactive⟩
        rw [List.getElem?_append_left
          (List.getElem?_eq_some_iff.mp present).1]
        exact present
  | uninstall other =>
      exact spentAt_restoreAt never (sound_restoreAt never sound other)
        (spentAt_restoreAt never sound spent)
  | drop other =>
      exact spentAt_restoreAt never sound spent
  | foreignWrite slot value =>
      exact spent

/-- A restored guard stays restored along every run. -/
theorem spentAt_run (never : sys.NeverFails) (sound : process.Sound sys)
    {index : Nat} (spent : process.SpentAt index) {actions : List Action}
    (placed : ∀ action ∈ actions, action.WellPlaced sys) :
    (run (step sys) process actions).SpentAt index :=
  (run_of_allowed
    (fun state : Process => state.Sound sys ∧ state.SpentAt index)
    (fun _ action before allowed =>
      ⟨sound_step never before.1 action allowed,
        spentAt_step never before.1 before.2 action allowed⟩)
    placed ⟨sound, spent⟩).2

/-- Ending the life of a guard is one restore, also when `uninstall` is
followed by the guard's `Drop`. -/
theorem step_of_restores (never : sys.NeverFails)
    (sound : process.Sound sys) {index : Nat}
    (bound : index < process.installed.length) {action : Action}
    (restores : action.Restores index) :
    process.step sys action = process.restoreAt sys index := by
  rcases restores with rfl | rfl
  · obtain ⟨entry, present, spent⟩ :=
      spentAt_restoreAt_self never sound bound
    exact restoreAt_of_spent present spent
  · rfl

theorem step_of_spent (never : sys.NeverFails) (sound : process.Sound sys)
    {index : Nat} (spent : process.SpentAt index) {action : Action}
    (restores : action.Restores index) :
    process.step sys action = process := by
  obtain ⟨entry, present, inactive⟩ := spent
  rw [step_of_restores never sound
    (List.getElem?_eq_some_iff.mp present).1 restores]
  exact restoreAt_of_spent present inactive

/-! ## Nested guards -/

/-- The actions install and restore in last-in-first-out order, `stack` being
the guards still to be restored, and leave none behind.  A failed install
pushes nothing; foreign writes are excluded. -/
def nested (sys : Sys) : Process → List Nat → List Action → Bool
  | _, stack, [] => stack.isEmpty
  | process, stack, .install module replacements :: rest =>
      let next := process.step sys (.install module replacements)
      let pushed :=
        if next.installed.length = process.installed.length then stack
        else process.installed.length :: stack
      nested sys next pushed rest
  | process, top :: stack, .uninstall index :: rest =>
      index = top &&
        nested sys (process.step sys (.uninstall index)) stack rest
  | process, top :: stack, .drop index :: rest =>
      index = top &&
        nested sys (process.step sys (.drop index)) stack rest
  | _, _, _ => false

/-- The open guards lie on top of each other: each one's patches are in
place over the memory it found, down to `base`. -/
def Stacked (process : Process) (base : Nat → Nat) :
    (Nat → Nat) → List Nat → Prop
  | memory, [] => memory = base
  | memory, index :: stack =>
      index ∉ stack ∧
        ∃ entry, process.installed[index]? = some entry ∧
          entry.guard.active = true ∧ entry.Patches memory ∧
          Stacked process base entry.found stack

/-- Only the guards on the stack matter. -/
theorem Stacked.congr {base : Nat → Nat} {other : Process} :
    ∀ {stack : List Nat} {memory : Nat → Nat},
      (∀ index ∈ stack, ∀ entry,
        process.installed[index]? = some entry →
          other.installed[index]? = some entry) →
      process.Stacked base memory stack → other.Stacked base memory stack
  | [], _, _, bottom => bottom
  | index :: stack, memory, keeps, stacked => by
      obtain ⟨fresh, entry, present, active, patches, below⟩ := stacked
      refine ⟨fresh, entry, keeps index List.mem_cons_self entry present,
        active, patches, ?_⟩
      exact Stacked.congr
        (fun later member =>
          keeps later (List.mem_cons_of_mem _ member)) below

theorem Stacked.lt_length {base : Nat → Nat} :
    ∀ {stack : List Nat} {memory : Nat → Nat},
      process.Stacked base memory stack →
        ∀ index ∈ stack, index < process.installed.length
  | [], _, _, _, member => by
      simp at member
  | top :: stack, _, stacked, index, member => by
      obtain ⟨-, entry, present, -, -, below⟩ := stacked
      rcases List.mem_cons.mp member with rfl | later
      · exact (List.getElem?_eq_some_iff.mp present).1
      · exact Stacked.lt_length below index later

/-- An install puts its guard on top of the stack. -/
theorem Stacked.install {base memory : Nat → Nat} {stack : List Nat}
    {entry : Installed} {machine : Machine}
    (stacked : process.Stacked base process.machine.slot stack)
    (active : entry.guard.active = true)
    (found : entry.found = process.machine.slot)
    (patches : entry.Patches memory) :
    Stacked ⟨machine, process.installed ++ [entry]⟩ base memory
      (process.installed.length :: stack) := by
  refine ⟨fun member => Nat.lt_irrefl _ (stacked.lt_length _ member), entry,
    by simp, active, patches, ?_⟩
  rw [found]
  apply Stacked.congr _ stacked
  intro index _ kept present
  rw [List.getElem?_append_left (List.getElem?_eq_some_iff.mp present).1]
  exact present

/-- A restore of the top guard gives back the memory below it. -/
theorem Stacked.restore (never : sys.NeverFails) (sound : process.Sound sys)
    {base : Nat → Nat} {top : Nat} {stack : List Nat}
    (stacked : process.Stacked base process.machine.slot (top :: stack)) :
    (process.restoreAt sys top).Stacked base
        (process.restoreAt sys top).machine.slot stack ∧
      (process.restoreAt sys top).machine.protection =
        process.machine.protection := by
  obtain ⟨fresh, entry, present, active, patches, below⟩ := stacked
  have entrySound := sound entry (List.mem_of_getElem? present)
  obtain ⟨calls, restored⟩ :=
    restoreAt_of_active never present entrySound active
  rw [restored]
  refine ⟨?_, rfl⟩
  simp only [takeBack_of_patches entrySound patches]
  apply Stacked.congr _ below
  intro index member kept keptPresent
  have different : top ≠ index := fun same => fresh (same ▸ member)
  rw [List.getElem?_set_ne different]
  exact keptPresent

/-- A nested run gives back the memory below its stack and changes no
protection. -/
theorem run_of_nested (never : sys.NeverFails) (base : Nat → Nat) :
    ∀ (actions : List Action) (process : Process) (stack : List Nat),
      (∀ action ∈ actions, action.WellPlaced sys) → process.Sound sys →
      nested sys process stack actions = true →
      process.Stacked base process.machine.slot stack →
        (run (step sys) process actions).machine.slot = base ∧
          (run (step sys) process actions).machine.protection =
            process.machine.protection
  | [], process, stack, _, _, lifo, stacked => by
      have empty : stack = [] := by
        simpa [nested] using lifo
      subst empty
      exact ⟨stacked, rfl⟩
  | .install module replacements :: rest, process, stack, placed, sound,
      lifo, stacked => by
      have here := placed _ List.mem_cons_self
      have nextSound := sound_step never sound _ here
      have later : ∀ action ∈ rest, action.WellPlaced sys :=
        fun action member => placed action (List.mem_cons_of_mem _ member)
      simp only [nested] at lifo
      rw [run_cons]
      rcases step_install never module here replacements with
        same | ⟨entry, machine, next, -, active, found, patches,
          protections⟩
      · rw [same] at lifo ⊢
        exact run_of_nested never base rest process stack later sound
          (by simpa using lifo) stacked
      · rw [next] at lifo nextSound ⊢
        have outcome := run_of_nested never base rest _ _ later nextSound
          (by simpa using lifo)
          (stacked.install active found patches)
        exact ⟨outcome.1, outcome.2.trans protections⟩
  | .uninstall index :: rest, process, [], _, _, lifo, _ => by
      simp [nested] at lifo
  | .drop index :: rest, process, [], _, _, lifo, _ => by
      simp [nested] at lifo
  | .uninstall index :: rest, process, top :: stack, placed, sound, lifo,
      stacked => by
      simp only [nested, Bool.and_eq_true, decide_eq_true_eq] at lifo
      obtain ⟨rfl, lifo⟩ := lifo
      rw [run_cons]
      have once := step_of_restores never sound
        (stacked.lt_length _ List.mem_cons_self)
        (Or.inl rfl : (Action.uninstall index).Restores index)
      rw [once] at lifo ⊢
      obtain ⟨below, protections⟩ := stacked.restore never sound
      have outcome := run_of_nested never base rest _ stack
        (fun action member => placed action (List.mem_cons_of_mem _ member))
        (sound_restoreAt never sound index) lifo below
      exact ⟨outcome.1, outcome.2.trans protections⟩
  | .drop index :: rest, process, top :: stack, placed, sound, lifo,
      stacked => by
      simp only [nested, Bool.and_eq_true, decide_eq_true_eq] at lifo
      obtain ⟨rfl, lifo⟩ := lifo
      rw [run_cons]
      obtain ⟨below, protections⟩ := stacked.restore never sound
      have outcome := run_of_nested never base rest _ stack
        (fun action member => placed action (List.mem_cons_of_mem _ member))
        (sound_restoreAt never sound index) lifo below
      exact ⟨outcome.1, outcome.2.trans protections⟩
  | .foreignWrite slot value :: rest, process, stack, _, _, lifo, _ => by
      simp [nested] at lifo

end Process

/-! ## The contract of installs and restores -/

/-- What ending a guard's life does to the machine: a spent guard writes
nothing; an active one writes the value its install had found back into each
slot that still holds its replacement, and nothing else. -/
structure RestoresOwn (entry : Installed) (before after : Machine) :
    Prop where
  spent : entry.guard.active = false → after = before
  own : entry.guard.active = true → ∀ hook ∈ entry.guard.hooks,
    after.slot hook.slot =
      if before.slot hook.slot = hook.replacement then
        entry.found hook.slot
      else before.slot hook.slot
  others : ∀ address, address ∉ entry.guard.hooks.map (·.slot) →
    after.slot address = before.slot address
  protections : after.protection = before.protection

theorem restoresOwn_of_restores {sys : Sys} (never : sys.NeverFails)
    {process : Process} (sound : process.Sound sys) {index : Nat}
    {entry : Installed} (present : process.installed[index]? = some entry)
    {action : Action} (restores : action.Restores index) :
    RestoresOwn entry process.machine (process.step sys action).machine := by
  have entrySound := sound entry (List.mem_of_getElem? present)
  rw [Process.step_of_restores never sound
    (List.getElem?_eq_some_iff.mp present).1 restores]
  cases active : entry.guard.active with
  | false =>
      rw [Process.restoreAt_of_spent present active]
      exact ⟨fun _ => rfl, by simp [active], fun _ _ => rfl, rfl⟩
  | true =>
      obtain ⟨calls, restored⟩ :=
        Process.restoreAt_of_active never present entrySound active
      rw [restored]
      refine ⟨by simp [active], fun _ hook member => ?_,
        fun address outside => takeBack_outside outside _, rfl⟩
      rw [← entrySound.found hook member]
      exact takeBack_inside entrySound.distinct member _

/-- The transaction contract when no protection call fails: a failed install
writes nothing; a successful one patches exactly the resolved slots; along
every run a guard takes back only its own pointers and only once; and a
nested run leaves no trace. -/
theorem install_restore_contract (sys : Sys) (never : sys.NeverFails) :
    (∀ module replacements machine error,
      (install sys module replacements machine).1 = .error error →
        (install sys module replacements machine).2 = machine) ∧
    (∀ module imports replacements machine guard,
      module.imports = .ok imports →
      (install sys module replacements machine).1 = .ok guard →
        InstallsExactly sys module imports replacements machine guard
          (install sys module replacements machine).2) ∧
    (∀ (start : Machine) (earlier later : List Action),
      (∀ action ∈ earlier ++ later, action.WellPlaced sys) →
      ∀ index entry first again,
        (run (Process.step sys) ⟨start, []⟩ earlier).installed[index]? =
          some entry →
        Action.Restores index first → Action.Restores index again →
          let before := run (Process.step sys) ⟨start, []⟩ earlier
          let after := before.step sys first
          let final := run (Process.step sys) after later
          RestoresOwn entry before.machine after.machine ∧
            final.step sys again = final) ∧
    (∀ (start : Machine) (earlier inner : List Action),
      (∀ action ∈ earlier ++ inner, action.WellPlaced sys) →
      Process.nested sys (run (Process.step sys) ⟨start, []⟩ earlier) []
        inner = true →
        let before := run (Process.step sys) ⟨start, []⟩ earlier
        let after := run (Process.step sys) before inner
        after.machine.slot = before.machine.slot ∧
          after.machine.protection = before.machine.protection) := by
  have startSound (start : Machine) : Process.Sound sys ⟨start, []⟩ := by
    intro entry member
    simp at member
  refine ⟨?_, ?_, ?_, ?_⟩
  · intro module replacements machine error failed
    exact install_error never failed
  · intro module imports replacements machine guard parsed succeeded
    exact install_ok never parsed succeeded
  · intro start earlier later placed index entry first again present
      restores restoresAgain before after final
    obtain ⟨placedEarlier, placedLater⟩ :=
      List.forall_mem_append.mp placed
    have sound : before.Sound sys :=
      Process.sound_run never placedEarlier (startSound start)
    have bound := (List.getElem?_eq_some_iff.mp present).1
    have once : after = before.restoreAt sys index :=
      Process.step_of_restores never sound bound restores
    have afterSound : after.Sound sys := by
      rw [once]
      exact Process.sound_restoreAt never sound index
    have spent : after.SpentAt index := by
      rw [once]
      exact Process.spentAt_restoreAt_self never sound bound
    refine ⟨restoresOwn_of_restores never sound present restores, ?_⟩
    exact Process.step_of_spent never
      (Process.sound_run never placedLater afterSound)
      (Process.spentAt_run never afterSound spent placedLater)
      restoresAgain
  · intro start earlier inner placed lifo before after
    obtain ⟨placedEarlier, placedInner⟩ :=
      List.forall_mem_append.mp placed
    exact Process.run_of_nested never before.machine.slot inner before []
      placedInner (Process.sound_run never placedEarlier (startSound start))
      lifo rfl

/-- A platform on which every protection call succeeds. -/
def quietSys : Sys where
  pageSize := 4096
  raised := fun _ => 3
  fails := fun _ => false
  osError := fun _ => 0
  moduleStillLoaded := fun _ => true
  slotBelongsToModule := fun _ _ => true
  resolveOriginal := fun _ _ _ value => some value

/-- A module with one slot. -/
def readModule : Module where
  name := ['m']
  base := 0x1000
  imports := .ok [{
    library := ['c']
    symbol := some (.name ['r'])
    address := 0x1008
    kind := .standard
    authenticated := false }]

/-- Two guards on the same slot, restored in reverse order. -/
def nestedActions : List Action :=
  [.install readModule [⟨none, .name ['r'], 100, true⟩],
    .install readModule [⟨none, .name ['r'], 200, true⟩],
    .drop 1, .uninstall 0]

theorem install_restore_contract_nested :
    (run (Process.step quietSys) ⟨⟨fun _ => 7, fun _ => 1, 0⟩, []⟩
        (nestedActions.take 2)).machine.slot 0x1008 = 200 ∧
      (run (Process.step quietSys) ⟨⟨fun _ => 7, fun _ => 1, 0⟩, []⟩
        nestedActions).machine.slot = fun _ => 7 :=
  ⟨by decide,
    ((install_restore_contract quietSys (fun _ => rfl)).2.2.2
      ⟨fun _ => 7, fun _ => 1, 0⟩ [] nestedActions
      (by
        intro action member
        simp only [nestedActions, List.nil_append, List.mem_cons,
          List.not_mem_nil, or_false] at member
        rcases member with rfl | rfl | rfl | rfl
        · exact ⟨rfl, fun _ _ _ _ => rfl⟩
        · exact ⟨rfl, fun _ _ _ _ => rfl⟩
        · trivial
        · trivial)
      (by decide)).1⟩

end Hookfs.Plthook
