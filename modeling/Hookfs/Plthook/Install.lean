import Hookfs.Plthook.Transaction

/-!
# What one install and one restore do

The double loop of `install` collects, for every slot address, the pointer of
the first replacement that matches an import there and whose original
resolves.  When no protection call fails, the transaction writes exactly
these pointers, and a restore takes back exactly those still in place.
-/

namespace Hookfs.Plthook

open Hookfs.Lib

/-! ## The specification of the pending list -/

/-- The import lies at `address`, the replacement matches it and its original
resolves. -/
def resolvesHere (sys : Sys) (machine : Machine) (address : Nat)
    (replacement : Replacement) (slot : ImportSlot) : Bool :=
  slot.address = address &&
    match slot.matchReplacement replacement with
    | none => false
    | some symbol =>
        (sys.resolveOriginal slot.kind slot.library symbol
          (machine.slot address)).isSome

/-- Some import at `address` takes the replacement. -/
def resolvesAt (sys : Sys) (machine : Machine) (imports : List ImportSlot)
    (address : Nat) (replacement : Replacement) : Bool :=
  imports.any (resolvesHere sys machine address replacement)

/-- The pointer `install` is to write at `address`: that of the first
replacement in list order that resolves there. -/
def targetPointer (sys : Sys) (machine : Machine)
    (imports : List ImportSlot) (replacements : List Replacement)
    (address : Nat) : Option Nat :=
  (replacements.find? (resolvesAt sys machine imports address)).map
    (·.replacement)

/-- The pointer a pending list holds for `address`. -/
def pointerAt (pending : List PendingHook) (address : Nat) : Option Nat :=
  (pending.find? (·.slot = address)).map (·.replacement)

@[simp]
theorem pointerAt_nil (address : Nat) : pointerAt [] address = none := rfl

theorem pointerAt_append_singleton (pending : List PendingHook)
    (hook : PendingHook) (address : Nat) :
    pointerAt (pending ++ [hook]) address =
      (pointerAt pending address).or
        (if hook.slot = address then some hook.replacement else none) := by
  unfold pointerAt
  rw [List.find?_append, Option.map_or]
  by_cases same : hook.slot = address
  · simp [same]
  · simp [same]

theorem pointerAt_isSome_iff (pending : List PendingHook) (address : Nat) :
    (pointerAt pending address).isSome ↔
      address ∈ pending.map (·.slot) := by
  simp [pointerAt]

theorem pointerAt_of_mem {pending : List PendingHook}
    (distinct : (pending.map (·.slot)).Nodup) {hook : PendingHook}
    (member : hook ∈ pending) :
    pointerAt pending hook.slot = some hook.replacement := by
  induction pending with
  | nil =>
      simp at member
  | cons head rest inductionHypothesis =>
      rw [List.map_cons, List.nodup_cons] at distinct
      rcases List.mem_cons.mp member with rfl | later
      · simp [pointerAt]
      · have different : head.slot ≠ hook.slot := fun same =>
          distinct.1 (same ▸ List.mem_map_of_mem later)
        have found := inductionHypothesis distinct.2 later
        simpa [pointerAt, different] using found

theorem nodup_append_slot {pending : List PendingHook}
    (distinct : (pending.map (·.slot)).Nodup) {hook : PendingHook}
    (free : ∀ other ∈ pending, other.slot ≠ hook.slot) :
    ((pending ++ [hook]).map (·.slot)).Nodup := by
  rw [List.map_append, List.nodup_append]
  refine ⟨distinct, List.nodup_singleton _, ?_⟩
  intro left leftMember right rightMember same
  obtain ⟨other, member, rfl⟩ := List.mem_map.mp leftMember
  rw [List.map_singleton, List.mem_singleton] at rightMember
  exact free other member (same.trans rightMember)

section Pending

variable {sys : Sys} {machine : Machine} {moduleName : Text}

theorem resolvesHere_of_unmatched {replacement : Replacement}
    {slot : ImportSlot}
    (unmatched : slot.matchReplacement replacement = none)
    (address : Nat) :
    resolvesHere sys machine address replacement slot = false := by
  simp [resolvesHere, unmatched]

theorem resolvesHere_of_match {replacement : Replacement}
    {slot : ImportSlot} {symbol : Symbol}
    (found : slot.matchReplacement replacement = some symbol)
    (address : Nat) :
    resolvesHere sys machine address replacement slot =
      (decide (slot.address = address) &&
        (sys.resolveOriginal slot.kind slot.library symbol
          (machine.slot slot.address)).isSome) := by
  by_cases same : slot.address = address
  · subst same
    simp [resolvesHere, found]
  · simp [resolvesHere, same]

theorem resolvesAt_cons (slot : ImportSlot) (rest : List ImportSlot)
    (address : Nat) (replacement : Replacement) :
    resolvesAt sys machine (slot :: rest) address replacement =
      (resolvesHere sys machine address replacement slot ||
        resolvesAt sys machine rest address replacement) := rfl

/-- The inner loop adds the replacement's pointer at every address where it
resolves and nothing is pending yet. -/
theorem pendImports_pointerAt {replacement : Replacement} :
    ∀ {imports : List ImportSlot} {matched : Bool}
      {pending next : List PendingHook} {anyMatched : Bool},
      pendImports sys machine moduleName replacement imports matched
          pending = .ok (anyMatched, next) →
      (pending.map (·.slot)).Nodup →
        (next.map (·.slot)).Nodup ∧
          ∀ address, pointerAt next address =
            (pointerAt pending address).or
              (if resolvesAt sys machine imports address replacement then
                some replacement.replacement else none) := by
  intro imports
  induction imports with
  | nil =>
      intro matched pending next anyMatched outcome distinct
      simp only [pendImports, Except.ok.injEq, Prod.mk.injEq] at outcome
      obtain ⟨_, rfl⟩ := outcome
      refine ⟨distinct, fun address => ?_⟩
      simp [resolvesAt]
  | cons slot rest inductionHypothesis =>
      intro matched pending next anyMatched outcome distinct
      simp only [pendImports] at outcome
      split at outcome
      · -- the import does not match
        rename_i unmatched
        obtain ⟨nextDistinct, pointers⟩ :=
          inductionHypothesis outcome distinct
        refine ⟨nextDistinct, fun address => ?_⟩
        rw [pointers, resolvesAt_cons,
          resolvesHere_of_unmatched unmatched, Bool.false_or]
      · rename_i symbol found
        split at outcome
        · cases outcome
        · split at outcome
          · -- the slot is pending already
            rename_i _ taken
            obtain ⟨nextDistinct, pointers⟩ :=
              inductionHypothesis outcome distinct
            refine ⟨nextDistinct, fun address => ?_⟩
            rw [pointers, resolvesAt_cons, resolvesHere_of_match found]
            by_cases same : slot.address = address
            · obtain ⟨pointer, held⟩ := Option.isSome_iff_exists.mp
                ((pointerAt_isSome_iff pending address).mpr
                  (by simpa [same] using taken))
              simp [held]
            · simp [same]
          · rename_i _ free
            split at outcome
            · -- a new pending hook
              rename_i original resolved
              obtain ⟨nextDistinct, pointers⟩ :=
                inductionHypothesis outcome
                  (nodup_append_slot distinct (by simpa using free))
              refine ⟨nextDistinct, fun address => ?_⟩
              rw [pointers, pointerAt_append_singleton, resolvesAt_cons,
                resolvesHere_of_match found, resolved, Option.or_assoc]
              by_cases same : slot.address = address
              · simp [same]
              · simp [same]
            · -- the original does not resolve
              rename_i unresolved
              split at outcome
              · cases outcome
              · obtain ⟨nextDistinct, pointers⟩ :=
                  inductionHypothesis outcome distinct
                refine ⟨nextDistinct, fun address => ?_⟩
                rw [pointers, resolvesAt_cons,
                  resolvesHere_of_match found, unresolved]
                simp

/-- The outer loop leaves, at every address, the pointer of the first
replacement that resolves there. -/
theorem pendAll_pointerAt {imports : List ImportSlot} :
    ∀ {replacements : List Replacement} {pending next : List PendingHook},
      pendAll sys machine moduleName imports replacements pending =
          .ok next →
      (pending.map (·.slot)).Nodup →
        (next.map (·.slot)).Nodup ∧
          ∀ address, pointerAt next address =
            (pointerAt pending address).or
              (targetPointer sys machine imports replacements address) := by
  intro replacements
  induction replacements with
  | nil =>
      intro pending next outcome distinct
      simp only [pendAll, Except.ok.injEq] at outcome
      subst outcome
      exact ⟨distinct, fun address => by simp [targetPointer]⟩
  | cons replacement rest inductionHypothesis =>
      intro pending next outcome distinct
      simp only [pendAll] at outcome
      split at outcome
      · cases outcome
      · rename_i matched middle inner
        split at outcome
        · cases outcome
        · obtain ⟨middleDistinct, middlePointers⟩ :=
            pendImports_pointerAt inner distinct
          obtain ⟨nextDistinct, pointers⟩ :=
            inductionHypothesis outcome middleDistinct
          refine ⟨nextDistinct, fun address => ?_⟩
          rw [pointers, middlePointers, Option.or_assoc]
          congr 1
          unfold targetPointer
          rw [List.find?_cons]
          cases resolvesAt sys machine imports address replacement with
          | false =>
              simp
          | true =>
              simp

end Pending

/-! ## Installing without a failing call -/

/-- No protection call ever fails. -/
def Sys.NeverFails (sys : Sys) : Prop :=
  ∀ call, sys.fails call = false

/-- The same system, where every slot is taken to belong to its module. -/
def Sys.unchecked (sys : Sys) : Sys :=
  { sys with slotBelongsToModule := fun _ _ => true }

/-- The module is loaded and its import slots lie inside it. -/
def Module.WellPlaced (sys : Sys) (module : Module) : Prop :=
  sys.moduleStillLoaded module.base = true ∧
    ∀ imports, module.imports = .ok imports →
      ∀ slot ∈ imports,
        sys.slotBelongsToModule slot.address module.base = true

/-- A successful install: the recorded slots are distinct and are exactly
those some replacement resolves at; each holds the pointer of the first such
replacement and its guard entry the value found there.  Everything else is
unchanged. -/
structure InstallsExactly (sys : Sys) (module : Module)
    (imports : List ImportSlot) (replacements : List Replacement)
    (before : Machine) (guard : HookGuard) (after : Machine) : Prop where
  slotsOnce : (guard.hooks.map (·.slot)).Nodup
  recorded : ∀ address,
    address ∈ guard.hooks.map (·.slot) ↔
      (targetPointer sys before imports replacements address).isSome
  replaced : ∀ hook ∈ guard.hooks,
    targetPointer sys before imports replacements hook.slot =
      some hook.replacement
  found : ∀ hook ∈ guard.hooks, hook.priorValue = before.slot hook.slot
  written : ∀ address,
    after.slot address =
      (targetPointer sys before imports replacements address).getD
        (before.slot address)
  protections : after.protection = before.protection
  base : guard.moduleBase = module.base
  live : guard.active = true

section Install

variable {sys : Sys} {module : Module} {imports : List ImportSlot}
  {replacements : List Replacement} {machine : Machine}

/-- The patches of a pending list. -/
def patchesOf (pending : List PendingHook) : List (Nat × Nat) :=
  pending.map fun hook => (hook.slot, hook.replacement)

theorem patchesOf_slots (pending : List PendingHook) :
    (patchesOf pending).map Prod.fst = pending.map (·.slot) := by
  simp [patchesOf]

/-- Writing the patches of a pending list, seen at one address. -/
theorem writeAll_patchesOf (pending : List PendingHook)
    (distinct : (pending.map (·.slot)).Nodup) (memory : Nat → Nat)
    (address : Nat) :
    writeAll (patchesOf pending) memory address =
      (pointerAt pending address).getD (memory address) := by
  by_cases member : address ∈ pending.map (·.slot)
  · obtain ⟨hook, hookMember, rfl⟩ := List.mem_map.mp member
    rw [pointerAt_of_mem distinct hookMember, Option.getD_some]
    apply writeAll_inside
    · rwa [patchesOf_slots]
    · exact List.mem_map.mpr ⟨hook, hookMember, rfl⟩
  · have absent : pointerAt pending address = none := by
      rw [← Option.not_isSome_iff_eq_none]
      exact fun held =>
        member ((pointerAt_isSome_iff pending address).mp held)
    rw [absent, Option.getD_none]
    apply writeAll_outside
    rwa [patchesOf_slots]

/-- The guard entries of a pending list. -/
def hooksOf (memory : Nat → Nat) (pending : List PendingHook) :
    List InstalledHook :=
  pending.map fun hook => InstalledHook.ofPending hook (memory hook.slot)

theorem zipWith_ofPending (memory : Nat → Nat)
    (pending : List PendingHook) :
    pending.zipWith InstalledHook.ofPending
        ((patchesOf pending).map fun patch => memory patch.1) =
      hooksOf memory pending := by
  induction pending with
  | nil =>
      rfl
  | cons hook rest inductionHypothesis =>
      simp only [patchesOf, List.map_cons, List.zipWith_cons_cons,
        hooksOf] at inductionHypothesis ⊢
      rw [inductionHypothesis]

/-- An install that does not fail pends its hooks and writes all of them. -/
theorem install_cases (never : sys.NeverFails) :
    (∃ error, install sys module replacements machine =
      (.error error, machine)) ∨
    ∃ imports pending calls,
      module.imports = .ok imports ∧
        pendAll sys machine module.name imports replacements [] =
          .ok pending ∧
        install sys module replacements machine =
          (.ok ⟨module.base, hooksOf machine.slot pending, true⟩,
            { slot := writeAll (patchesOf pending) machine.slot
              protection := machine.protection
              calls := calls }) := by
  unfold install
  cases parsed : module.imports with
  | error error =>
      exact Or.inl ⟨error, rfl⟩
  | ok imports =>
      cases pended :
          pendAll sys machine module.name imports replacements [] with
      | error error =>
          left
          refine ⟨error, ?_⟩
          simp only [pended]
      | ok pending =>
          right
          cases pending with
          | nil =>
              refine ⟨imports, [], machine.calls, rfl, pended, ?_⟩
              simp only [pended]
              rfl
          | cons hook rest =>
              have distinct :=
                (pendAll_pointerAt pended (by simp)).1
              rw [← patchesOf_slots] at distinct
              obtain ⟨calls, applied⟩ := apply_of_clear distinct
                (Sys.clear_of_never never machine.calls _)
              refine ⟨imports, hook :: rest, calls, rfl, pended, ?_⟩
              simp only [pended]
              rw [show ((hook :: rest).map fun hook =>
                (hook.slot, hook.replacement)) =
                  patchesOf (hook :: rest) from rfl, applied]
              simp only [zipWith_ofPending]

theorem parsed_of_install_ok {guard : HookGuard} {after : Machine}
    (outcome : install sys module replacements machine =
      (.ok guard, after)) :
    ∃ imports, module.imports = .ok imports := by
  cases parsed : module.imports with
  | error error =>
      simp [install, parsed] at outcome
  | ok imports =>
      exact ⟨imports, rfl⟩

theorem install_error (never : sys.NeverFails) {error : Error}
    (failed : (install sys module replacements machine).1 =
      .error error) :
    (install sys module replacements machine).2 = machine := by
  rcases install_cases never with ⟨_, outcome⟩ |
    ⟨imports, pending, calls, -, -, outcome⟩
  · rw [outcome]
  · rw [outcome] at failed
    cases failed

theorem install_ok (never : sys.NeverFails) {guard : HookGuard}
    (parsed : module.imports = .ok imports)
    (succeeded : (install sys module replacements machine).1 =
      .ok guard) :
    InstallsExactly sys module imports replacements machine guard
      (install sys module replacements machine).2 := by
  rcases install_cases never with ⟨error, outcome⟩ |
    ⟨parsedImports, pending, calls, alsoParsed, pended, outcome⟩
  · rw [outcome] at succeeded
    cases succeeded
  rw [parsed, Except.ok.injEq] at alsoParsed
  subst alsoParsed
  obtain ⟨distinct, pointers⟩ := pendAll_pointerAt pended (by simp)
  simp only [pointerAt_nil, Option.none_or] at pointers
  rw [outcome] at succeeded ⊢
  simp only [Except.ok.injEq] at succeeded
  subst succeeded
  have slots : (hooksOf machine.slot pending).map (·.slot) =
      pending.map (·.slot) := by
    simp [hooksOf, InstalledHook.ofPending]
  refine ⟨?_, ?_, ?_, ?_, ?_, rfl, rfl, rfl⟩
  · rwa [slots]
  · intro address
    rw [slots, ← pointers, pointerAt_isSome_iff]
  · intro hook member
    obtain ⟨pendingHook, pendingMember, rfl⟩ := List.mem_map.mp member
    rw [← pointers]
    exact pointerAt_of_mem distinct pendingMember
  · intro hook member
    obtain ⟨pendingHook, -, rfl⟩ := List.mem_map.mp member
    rfl
  · intro address
    rw [← pointers]
    exact writeAll_patchesOf pending distinct machine.slot address

/-- Every recorded slot is the address of an import of the module. -/
theorem slot_of_targetPointer {address : Nat}
    (held : (targetPointer sys machine imports replacements
      address).isSome) :
    ∃ slot ∈ imports, slot.address = address := by
  rw [targetPointer, Option.isSome_map, List.find?_isSome] at held
  obtain ⟨replacement, -, resolves⟩ := held
  obtain ⟨slot, member, here⟩ := List.any_eq_true.mp resolves
  refine ⟨slot, member, ?_⟩
  simp only [resolvesHere, Bool.and_eq_true, decide_eq_true_eq] at here
  exact here.1

theorem slot_of_mem_zipWith {pending : List PendingHook} {priors : List Nat}
    {hook : InstalledHook}
    (member : hook ∈ pending.zipWith InstalledHook.ofPending priors) :
    ∃ pended ∈ pending, hook.slot = pended.slot := by
  rw [← List.map_uncurry_zip_eq_zipWith] at member
  obtain ⟨pair, pairMember, rfl⟩ := List.mem_map.mp member
  exact ⟨pair.1, (List.of_mem_zip pairMember).1, rfl⟩

/-- Whatever the system calls answer, a guard records slots that are imports
of the module. -/
theorem hooks_of_install {guard : HookGuard} {after : Machine}
    (parsed : module.imports = .ok imports)
    (outcome : install sys module replacements machine =
      (.ok guard, after)) :
    guard.moduleBase = module.base ∧
      ∀ hook ∈ guard.hooks, ∃ slot ∈ imports, slot.address = hook.slot := by
  unfold install at outcome
  rw [parsed] at outcome
  cases pended : pendAll sys machine module.name imports replacements [] with
  | error error =>
      simp only [pended] at outcome
      cases outcome
  | ok pending =>
      have pointers := (pendAll_pointerAt pended (by simp)).2
      simp only [pointerAt_nil, Option.none_or] at pointers
      have recorded : ∀ hook ∈ pending,
          ∃ slot ∈ imports, slot.address = hook.slot := by
        intro hook member
        apply slot_of_targetPointer
        rw [← pointers, pointerAt_isSome_iff]
        exact List.mem_map_of_mem member
      cases pending with
      | nil =>
          simp only [pended] at outcome
          obtain ⟨same, _⟩ := Prod.mk.inj outcome
          rw [← Except.ok.inj same]
          exact ⟨rfl, nofun⟩
      | cons first rest =>
          simp only [pended] at outcome
          split at outcome
          · cases outcome
          · rename_i priors _ _
            obtain ⟨same, _⟩ := Prod.mk.inj outcome
            rw [← Except.ok.inj same]
            refine ⟨rfl, ?_⟩
            intro hook member
            obtain ⟨pendingHook, pendingMember, slot⟩ :=
              slot_of_mem_zipWith member
            rw [slot]
            exact recorded pendingHook pendingMember

end Install

/-! ## Restoring without a failing call -/

/-- Memory after a restore: a recorded slot that still holds the replacement
goes back to the value found, every other address keeps its value. -/
def takeBack (hooks : List InstalledHook) (memory : Nat → Nat)
    (address : Nat) : Nat :=
  match hooks.find? (·.slot = address) with
  | none => memory address
  | some hook =>
      if memory address = hook.replacement then hook.priorValue
      else memory address

theorem takeBack_outside {hooks : List InstalledHook} {address : Nat}
    (outside : address ∉ hooks.map (·.slot)) (memory : Nat → Nat) :
    takeBack hooks memory address = memory address := by
  have absent : hooks.find? (·.slot = address) = none := by
    rw [List.find?_eq_none]
    intro hook member here
    rw [decide_eq_true_eq] at here
    exact outside (List.mem_map.mpr ⟨hook, member, here⟩)
  simp [takeBack, absent]

theorem takeBack_inside {hooks : List InstalledHook}
    (distinct : (hooks.map (·.slot)).Nodup) {hook : InstalledHook}
    (member : hook ∈ hooks) (memory : Nat → Nat) :
    takeBack hooks memory hook.slot =
      if memory hook.slot = hook.replacement then hook.priorValue
      else memory hook.slot := by
  induction hooks with
  | nil =>
      simp at member
  | cons head rest inductionHypothesis =>
      rw [List.map_cons, List.nodup_cons] at distinct
      rcases List.mem_cons.mp member with rfl | later
      · simp [takeBack]
      · have different : head.slot ≠ hook.slot := fun same =>
          distinct.1 (same ▸ List.mem_map_of_mem later)
        have found := inductionHypothesis distinct.2 later
        simpa [takeBack, different] using found

/-- One exchange and then the rest takes back the whole list. -/
theorem takeBack_cons (hook : InstalledHook) (rest : List InstalledHook)
    (distinct : ((hook :: rest).map (·.slot)).Nodup)
    (memory : Nat → Nat) :
    takeBack rest (Function.update memory hook.slot
        (if memory hook.slot = hook.replacement then hook.priorValue
          else memory hook.slot)) =
      takeBack (hook :: rest) memory := by
  rw [List.map_cons, List.nodup_cons] at distinct
  funext address
  by_cases same : hook.slot = address
  · subst same
    rw [takeBack_outside distinct.1, Function.update_self]
    simp [takeBack]
  · have kept : Function.update memory hook.slot
        (if memory hook.slot = hook.replacement then hook.priorValue
          else memory hook.slot) address = memory address :=
      Function.update_of_ne (Ne.symm same) _ _
    simp [takeBack, same, kept]

namespace HookGuard

variable {sys : Sys}

theorem exchangeLoop_machine {moduleBase : Nat} :
    ∀ (hooks : List InstalledHook) (firstError : Option Error)
      (machine : Machine),
      (hooks.map (·.slot)).Nodup →
      (∀ hook ∈ hooks,
        sys.slotBelongsToModule hook.slot moduleBase = true) →
        (exchangeLoop sys moduleBase hooks firstError machine).2 =
          { machine with slot := takeBack hooks machine.slot } := by
  intro hooks
  induction hooks with
  | nil =>
      intro firstError machine distinct inside
      rfl
  | cons hook rest inductionHypothesis =>
      intro firstError machine distinct inside
      have restDistinct : (rest.map (·.slot)).Nodup :=
        (List.nodup_cons.mp distinct).2
      have restInside : ∀ later ∈ rest,
          sys.slotBelongsToModule later.slot moduleBase = true :=
        fun later member => inside later (List.mem_cons_of_mem _ member)
      rw [← takeBack_cons hook rest distinct]
      simp only [exchangeLoop, inside hook List.mem_cons_self, if_true,
        Machine.slotCompareExchange]
      by_cases held : machine.slot hook.slot = hook.replacement
      · simp only [held, if_true]
        rw [inductionHypothesis _ _ restDistinct restInside]
      · simp only [held, if_false, Function.update_eq_self]
        split
        · rw [inductionHypothesis _ _ restDistinct restInside]
        · rw [inductionHypothesis _ _ restDistinct restInside]

theorem restore_of_inactive {guard : HookGuard}
    (inactive : guard.active = false) (machine : Machine) :
    guard.restore sys machine = (.ok (), guard, machine) := by
  simp [restore, inactive]

theorem restoreLoop_unchecked :
    ∀ (pages : List (Nat × Nat)) (firstError : Option Error)
      (machine : Machine),
      PageProtector.restoreLoop sys.unchecked pages firstError machine =
        PageProtector.restoreLoop sys pages firstError machine := by
  intro pages
  induction pages with
  | nil =>
      intro firstError machine
      rfl
  | cons entry rest inductionHypothesis =>
      intro firstError machine
      have same : sys.unchecked.restoreProtection entry.1 entry.2 machine =
          sys.restoreProtection entry.1 entry.2 machine := rfl
      simp only [PageProtector.restoreLoop, same, inductionHypothesis]

theorem capture_unchecked :
    ∀ (pages : List Nat) (done : List (Nat × Nat)) (machine : Machine),
      PageProtector.capture sys.unchecked pages done machine =
        PageProtector.capture sys pages done machine := by
  intro pages
  induction pages with
  | nil =>
      intro done machine
      rfl
  | cons page rest inductionHypothesis =>
      intro done machine
      have same : sys.unchecked.makeWritable page machine =
          sys.makeWritable page machine := rfl
      simp only [PageProtector.capture, same, inductionHypothesis,
        restoreLoop_unchecked]

theorem exchangeLoop_unchecked {moduleBase : Nat} :
    ∀ (hooks : List InstalledHook) (firstError : Option Error)
      (machine : Machine),
      (∀ hook ∈ hooks,
        sys.slotBelongsToModule hook.slot moduleBase = true) →
        exchangeLoop sys moduleBase hooks firstError machine =
          exchangeLoop sys.unchecked moduleBase hooks firstError machine := by
  intro hooks
  induction hooks with
  | nil =>
      intro firstError machine inside
      rfl
  | cons hook rest inductionHypothesis =>
      intro firstError machine inside
      have later := fun firstError machine =>
        inductionHypothesis firstError machine
          fun other member => inside other (List.mem_cons_of_mem hook member)
      have here : sys.unchecked.slotBelongsToModule hook.slot moduleBase =
          true := rfl
      simp only [exchangeLoop, inside hook List.mem_cons_self, here, if_true,
        later]

/-- A restore skips no hook whose slot is recognized. -/
theorem restore_unchecked {guard : HookGuard}
    (inside : ∀ hook ∈ guard.hooks,
      sys.slotBelongsToModule hook.slot guard.moduleBase = true)
    (machine : Machine) :
    guard.restore sys machine = guard.restore sys.unchecked machine := by
  have opened : ∀ slots machine,
      PageProtector.makeWritable sys.unchecked slots machine =
        PageProtector.makeWritable sys slots machine :=
    fun _ _ => capture_unchecked _ _ _
  have closed : ∀ (protector : PageProtector) machine,
      protector.restore sys.unchecked machine =
        protector.restore sys machine := by
    intro protector machine
    unfold PageProtector.restore
    rw [restoreLoop_unchecked]
  have loaded : sys.unchecked.moduleStillLoaded = sys.moduleStillLoaded :=
    rfl
  unfold restore
  simp only [opened, closed, loaded,
    exchangeLoop_unchecked guard.hooks none _ inside]

/-- Restoring an active guard of a loaded module takes its hooks back, leaves
the protections alone and spends the guard. -/
theorem restore_of_active (never : sys.NeverFails) {guard : HookGuard}
    (active : guard.active = true)
    (loaded : sys.moduleStillLoaded guard.moduleBase = true)
    (distinct : (guard.hooks.map (·.slot)).Nodup)
    (inside : ∀ hook ∈ guard.hooks,
      sys.slotBelongsToModule hook.slot guard.moduleBase = true)
    (machine : Machine) :
    ∃ outcome calls,
      guard.restore sys machine =
        (outcome, { guard with active := false },
          { slot := takeBack guard.hooks machine.slot
            protection := machine.protection
            calls := calls }) := by
  by_cases empty : guard.hooks = []
  · refine ⟨.ok (), machine.calls, ?_⟩
    simp only [restore, active, empty, List.isEmpty_nil, if_true]
    rfl
  · have nonempty : guard.hooks.isEmpty = false := by
      simpa using empty
    simp only [restore, active, nonempty, loaded, if_true,
      Bool.false_eq_true, if_false]
    rw [PageProtector.makeWritable_of_clear sys _ machine
      (Sys.clear_of_never never _ _)]
    simp only [exchangeLoop_machine guard.hooks none _ distinct inside]
    rw [PageProtector.restore_of_clear sys machine.protection _ _ rfl
      (Sys.clear_of_never never _ _)]
    exact ⟨_, _, rfl⟩

end HookGuard

end Hookfs.Plthook
