import Hookfs.Lib.Writes
import Hookfs.Plthook.Protection

/-!
# The patch transaction under one failing protection call

Three things can happen to `apply`: a capture fails and nothing is written;
no call fails and every slot is written; a restore fails after the swap.  In
the last case the slots are written back, but the second capture takes the
raised protection of the stuck page for its original one.
-/

namespace Hookfs.Plthook

open Hookfs.Lib

/-! ## The swap loop -/

theorem swapAll_machine :
    ∀ (patches : List (Nat × Nat)) (machine : Machine),
      (swapAll patches machine).2 =
        { machine with slot := writeAll patches machine.slot }
  | [], _ => rfl
  | (slot, new) :: rest, machine => by
      simp only [swapAll, Machine.slotSwap, swapAll_machine rest,
        writeAll_cons]

theorem swapAll_priors :
    ∀ (patches : List (Nat × Nat)) (machine : Machine),
      (patches.map Prod.fst).Nodup →
        (swapAll patches machine).1 =
          patches.map fun patch => machine.slot patch.1
  | [], _, _ => rfl
  | (slot, new) :: rest, machine, distinct => by
      rw [List.map_cons, List.nodup_cons] at distinct
      simp only [swapAll, Machine.slotSwap, List.map_cons]
      rw [swapAll_priors rest _ distinct.2]
      congr 1
      apply List.map_congr_left
      intro patch member
      have named : patch.1 ∈ rest.map Prod.fst :=
        List.mem_map_of_mem member
      have different : patch.1 ≠ slot := fun same =>
        distinct.1 (same ▸ named)
      exact Function.update_of_ne different _ _

/-- The undo batch of a transaction carries the values found before it. -/
theorem zip_slots_priors (patches : List (Nat × Nat)) (memory : Nat → Nat) :
    (patches.map Prod.fst).zip
        (patches.map fun patch => memory patch.1) =
      patches.map fun patch => (patch.1, memory patch.1) := by
  rw [List.zip_map']

/-- Undoing a batch gives back the memory it was applied to. -/
theorem writeAll_undo (patches : List (Nat × Nat)) (memory : Nat → Nat) :
    writeAll (patches.map fun patch => (patch.1, memory patch.1))
        (writeAll patches memory) = memory := by
  apply writeAll_eq_of_agree
  · intro write member
    obtain ⟨patch, _, rfl⟩ := List.mem_map.mp member
    rfl
  · intro address absent
    apply writeAll_outside
    intro member
    apply absent
    rw [List.map_map]
    exact member

/-! ## Opening and closing the pages of a batch -/

namespace PageProtector

variable (sys : Sys) (slots : List Nat)

theorem makeWritable_of_clear (machine : Machine)
    (clear : sys.Clear machine.calls (pagesOf sys.pageSize slots).length) :
    makeWritable sys slots machine =
      (.ok ⟨tagged machine.protection (pagesOf sys.pageSize slots)⟩,
        { machine with
          protection := raiseAll sys (pagesOf sys.pageSize slots)
            machine.protection
          calls := machine.calls +
            (pagesOf sys.pageSize slots).length }) := by
  have unraised : machine.protection = raiseAll sys [] machine.protection := by
    funext page
    simp [raiseAll]
  exact capture_of_clear sys machine.protection
    (pagesOf sys.pageSize slots) [] machine
    (by simpa using nodup_pagesOf sys.pageSize slots) unraised clear

theorem makeWritable_of_failure (single : sys.SingleFailure)
    (machine : Machine)
    (blocked :
      ¬ sys.Clear machine.calls (pagesOf sys.pageSize slots).length) :
    ∃ error after,
      makeWritable sys slots machine = (.error error, after) ∧
        after.slot = machine.slot ∧
        after.protection = machine.protection := by
  have unraised : machine.protection = raiseAll sys [] machine.protection := by
    funext page
    simp [raiseAll]
  exact capture_of_failure sys single machine.protection
    (pagesOf sys.pageSize slots) [] machine
    (by simpa using nodup_pagesOf sys.pageSize slots) unraised blocked

theorem restore_machine (captured : Nat → Nat) (pages : List Nat)
    (machine : Machine) :
    (restore sys ⟨tagged captured pages⟩ machine).2 =
      { machine with
        protection := putBack captured
          (answered sys machine.calls pages.reverse) machine.protection
        calls := machine.calls + pages.length } := by
  have reversed : (tagged captured pages).reverse =
      tagged captured pages.reverse := by
    simp [tagged]
  have loop := restoreLoop_machine sys captured pages.reverse none machine
  rw [List.length_reverse] at loop
  rw [← loop]
  simp only [restore, reversed]
  split <;> simp_all

theorem restore_ok_iff (captured : Nat → Nat) (pages : List Nat)
    (machine : Machine) :
    (restore sys ⟨tagged captured pages⟩ machine).1 = .ok () ↔
      sys.Clear machine.calls pages.length := by
  have loop := restoreLoop_error_none sys (tagged captured pages).reverse
    none machine
  simp only [List.length_reverse, tagged, List.length_map,
    true_and] at loop
  rw [← loop]
  simp only [restore, tagged]
  split <;> simp_all

/-- A restore with a failing call reports an error and puts back the pages
whose call was answered. -/
theorem restore_of_failure (captured : Nat → Nat) (pages : List Nat)
    (machine : Machine)
    (blocked : ¬ sys.Clear machine.calls pages.length) :
    ∃ error,
      restore sys ⟨tagged captured pages⟩ machine =
        (.error error,
          { machine with
            protection := putBack captured
              (answered sys machine.calls pages.reverse) machine.protection
            calls := machine.calls + pages.length }) := by
  have failed : (restore sys ⟨tagged captured pages⟩ machine).1 ≠ .ok () :=
    fun success =>
      blocked ((restore_ok_iff sys captured pages machine).mp success)
  cases outcome : (restore sys ⟨tagged captured pages⟩ machine).1 with
  | ok value =>
      exact absurd outcome failed
  | error error =>
      exact ⟨error, Prod.ext outcome (restore_machine sys captured pages
        machine)⟩

/-- With no failing call a restore puts every captured page back. -/
theorem restore_of_clear (captured : Nat → Nat) (pages : List Nat)
    (machine : Machine)
    (shape : machine.protection = raiseAll sys pages captured)
    (clear : sys.Clear machine.calls pages.length) :
    restore sys ⟨tagged captured pages⟩ machine =
      (.ok (),
        { machine with
          protection := captured
          calls := machine.calls + pages.length }) := by
  apply Prod.ext
  · exact (restore_ok_iff sys captured pages machine).mpr clear
  · rw [restore_machine]
    have reversedClear : sys.Clear machine.calls pages.reverse.length := by
      rwa [List.length_reverse]
    have order : putBack captured pages.reverse =
        putBack captured pages := by
      funext protection page
      simp [putBack]
    rw [answered_of_clear reversedClear, order, shape, putBack_raiseAll]

end PageProtector
/-! ## The three outcomes of `apply` -/

section Apply

variable {sys : Sys} {patches : List (Nat × Nat)} {machine : Machine}

/-- The pages a batch of patches opens. -/
def patchPages (sys : Sys) (patches : List (Nat × Nat)) : List Nat :=
  pagesOf sys.pageSize (patches.map Prod.fst)

/-- A failed capture leaves slots and protections alone. -/
theorem apply_of_capture_failure (single : sys.SingleFailure)
    (blocked : ¬ sys.Clear machine.calls (patchPages sys patches).length) :
    ∃ error after,
      apply sys patches machine = (.error error, after) ∧
        after.slot = machine.slot ∧
        after.protection = machine.protection := by
  obtain ⟨error, after, failed, slots, protections⟩ :=
    PageProtector.makeWritable_of_failure sys (patches.map Prod.fst) single
      machine blocked
  refine ⟨error, after, ?_, slots, protections⟩
  simp only [apply, failed]

/-- With no failing call the batch is written and the pages are closed. -/
theorem apply_of_clear (distinct : (patches.map Prod.fst).Nodup)
    (clear : sys.Clear machine.calls
      ((patchPages sys patches).length + (patchPages sys patches).length)) :
    ∃ calls,
      apply sys patches machine =
        (.ok (patches.map fun patch => machine.slot patch.1),
          { slot := writeAll patches machine.slot
            protection := machine.protection
            calls := calls }) := by
  obtain ⟨opening, closing⟩ := Sys.clear_add.mp clear
  refine ⟨machine.calls + (patchPages sys patches).length +
    (patchPages sys patches).length, ?_⟩
  simp only [apply, PageProtector.makeWritable_of_clear sys _ machine opening,
    swapAll_machine, swapAll_priors patches _ distinct]
  rw [PageProtector.restore_of_clear sys machine.protection _ _ rfl closing]
  rfl

/-- The state left by a restore that failed somewhere: the answered pages are
back, the others raised. -/
def afterRestore (sys : Sys) (patches : List (Nat × Nat))
    (machine : Machine) : Nat → Nat :=
  PageProtector.putBack machine.protection
    (PageProtector.answered sys
      (machine.calls + (patchPages sys patches).length)
      (patchPages sys patches).reverse)
    (PageProtector.raiseAll sys (patchPages sys patches)
      machine.protection)

/-- The rollback writes every slot back and leaves the protections exactly as
it found them. -/
theorem apply_of_rollback (distinct : (patches.map Prod.fst).Nodup)
    (opening : sys.Clear machine.calls (patchPages sys patches).length)
    (closing : ¬ sys.Clear (machine.calls +
      (patchPages sys patches).length) (patchPages sys patches).length)
    (reopening : ∀ first count,
      machine.calls + (patchPages sys patches).length +
        (patchPages sys patches).length ≤ first → sys.Clear first count) :
    ∃ error calls,
      apply sys patches machine =
        (.error error,
          { slot := machine.slot
            protection := afterRestore sys patches machine
            calls := calls }) := by
  obtain ⟨error, closed⟩ := PageProtector.restore_of_failure sys
    machine.protection (patchPages sys patches)
    ⟨writeAll patches machine.slot,
      PageProtector.raiseAll sys (patchPages sys patches)
        machine.protection,
      machine.calls + (patchPages sys patches).length⟩ closing
  refine ⟨error, machine.calls + (patchPages sys patches).length +
    (patchPages sys patches).length + (patchPages sys patches).length +
    (patchPages sys patches).length, ?_⟩
  simp only [patchPages] at closed
  simp only [apply, PageProtector.makeWritable_of_clear sys _ machine
    opening, swapAll_machine, swapAll_priors patches _ distinct, closed]
  rw [PageProtector.makeWritable_of_clear sys _ _
    (reopening _ _ (Nat.le_refl _))]
  simp only [zip_slots_priors, writeAll_undo]
  rw [PageProtector.restore_of_clear sys _ _ _ rfl
    (reopening _ _ (Nat.le_add_right _ _))]
  rfl

/-- Exactly the page whose restore failed is still raised. -/
theorem afterRestore_of_single (single : sys.SingleFailure)
    {position stuck : Nat}
    (present : (patchPages sys patches).reverse[position]? = some stuck)
    (failure : sys.fails (machine.calls + (patchPages sys patches).length +
      position) = true) :
    afterRestore sys patches machine =
      Function.update machine.protection stuck
        (sys.raised (machine.protection stuck)) := by
  have distinctPages : (patchPages sys patches).reverse.Nodup :=
    List.nodup_reverse.mpr (nodup_pagesOf _ _)
  have answeredPages := PageProtector.mem_answered_of_single single
    distinctPages present failure
  have stuckMember : stuck ∈ patchPages sys patches :=
    List.mem_reverse.mp (List.mem_of_getElem? present)
  funext page
  simp only [afterRestore, PageProtector.putBack, answeredPages,
    List.mem_reverse]
  by_cases same : page = stuck
  · subst same
    simp [PageProtector.raiseAll, stuckMember]
  · by_cases member : page ∈ patchPages sys patches
    · simp [same, member]
    · simp [same, member, PageProtector.raiseAll]

/-- A restore fails after the swap: the slots are written back, and the page
whose restore failed keeps its raised protection. -/
theorem apply_of_restore_failure (single : sys.SingleFailure)
    (distinct : (patches.map Prod.fst).Nodup) {position stuck : Nat}
    (present : (patchPages sys patches).reverse[position]? = some stuck)
    (failure : sys.fails (machine.calls + (patchPages sys patches).length +
      position) = true) :
    ∃ error calls,
      apply sys patches machine =
        (.error error,
          { slot := machine.slot
            protection := Function.update machine.protection stuck
              (sys.raised (machine.protection stuck))
            calls := calls }) := by
  have inRange : position < (patchPages sys patches).length := by
    rw [← List.length_reverse]
    exact (List.getElem?_eq_some_iff.mp present).1
  rw [← afterRestore_of_single single present failure]
  apply apply_of_rollback distinct
  · exact single.clear_of_le failure (by omega)
  · exact Sys.Clear.not_clear_iff.mpr ⟨position, inRange, failure⟩
  · intro first count later
    exact single.clear_of_lt failure (by omega) count

/-! ## Atomicity -/

/-- All or nothing: an error leaves every slot and every protection as it
was; success writes exactly the patched slots and changes no protection. -/
def Atomic (patches : List (Nat × Nat)) (before : Machine)
    (outcome : Except Error (List Nat) × Machine) : Prop :=
  match outcome.1 with
  | .error _ =>
      outcome.2.slot = before.slot ∧
        outcome.2.protection = before.protection
  | .ok _ =>
      (∀ patch ∈ patches, outcome.2.slot patch.1 = patch.2) ∧
        (∀ slot, slot ∉ patches.map Prod.fst →
          outcome.2.slot slot = before.slot slot) ∧
        outcome.2.protection = before.protection

/-- No restore of the first closing phase fails on a page that
`make_writable` changed.  The restores run over the pages backwards, after
one capture per page. -/
def ClosesCleanly (sys : Sys) (patches : List (Nat × Nat))
    (machine : Machine) : Prop :=
  ∀ position page,
    (patchPages sys patches).reverse[position]? = some page →
    sys.fails (machine.calls + (patchPages sys patches).length +
      position) = true →
    sys.raised (machine.protection page) = machine.protection page

/-- Every restore of the first closing phase is answered, or one is not. -/
theorem closing_cases (sys : Sys) (patches : List (Nat × Nat))
    (machine : Machine) :
    sys.Clear (machine.calls + (patchPages sys patches).length)
        (patchPages sys patches).length ∨
      ∃ position stuck,
        (patchPages sys patches).reverse[position]? = some stuck ∧
          sys.fails (machine.calls + (patchPages sys patches).length +
            position) = true := by
  by_cases clear : sys.Clear (machine.calls +
      (patchPages sys patches).length) (patchPages sys patches).length
  · exact Or.inl clear
  · obtain ⟨position, bound, failure⟩ :=
      Sys.Clear.not_clear_iff.mp clear
    have inRange : position < (patchPages sys patches).reverse.length := by
      rwa [List.length_reverse]
    exact Or.inr ⟨position, _, List.getElem?_eq_getElem inRange, failure⟩

/-- Under at most one failing protection call, `apply` is atomic exactly when
that call is not the closing restore of a page whose protection had been
changed. -/
theorem apply_atomic_iff (sys : Sys) (patches : List (Nat × Nat))
    (machine : Machine) (single : sys.SingleFailure)
    (distinct : (patches.map Prod.fst).Nodup) :
    Atomic patches machine (apply sys patches machine) ↔
      ClosesCleanly sys patches machine := by
  by_cases opening :
      sys.Clear machine.calls (patchPages sys patches).length
  · rcases closing_cases sys patches machine with
      closing | ⟨position, stuck, present, failure⟩
    · -- no call fails
      obtain ⟨calls, outcome⟩ := apply_of_clear distinct
        (Sys.clear_add.mpr ⟨opening, closing⟩)
      rw [outcome]
      refine ⟨fun _ => ?_, fun _ => ⟨?_, ?_, rfl⟩⟩
      · intro position page present failure
        have inRange :=
          (List.getElem?_eq_some_iff.mp present).1
        rw [List.length_reverse] at inRange
        rw [closing position inRange] at failure
        exact absurd failure Bool.false_ne_true
      · intro patch member
        exact writeAll_inside patches machine.slot distinct member
      · intro slot outside
        exact writeAll_outside patches machine.slot outside
    · -- a closing restore fails
      obtain ⟨error, calls, outcome⟩ :=
        apply_of_restore_failure single distinct present failure
      rw [outcome]
      constructor
      · rintro ⟨-, unchanged⟩ other page otherPresent otherFailure
        have sameCall := single _ _ failure otherFailure
        have samePosition : position = other := by omega
        subst samePosition
        rw [present, Option.some.injEq] at otherPresent
        subst otherPresent
        have here := congrFun unchanged stuck
        simpa using here
      · intro clean
        refine ⟨rfl, ?_⟩
        rw [clean position stuck present failure]
        exact Function.update_eq_self stuck machine.protection
  · -- a capture fails
    obtain ⟨error, after, outcome, slots, protections⟩ :=
      apply_of_capture_failure single opening
    rw [outcome]
    refine ⟨fun _ => ?_, fun _ => ⟨slots, protections⟩⟩
    intro position page present failure
    obtain ⟨offset, bound, earlier⟩ :=
      Sys.Clear.not_clear_iff.mp opening
    have sameCall := single _ _ earlier failure
    omega

/-- One slot, one page, and the second protection call fails. -/
def stuckSys : Sys where
  pageSize := 4096
  raised := fun _ => 3
  fails := fun call => call = 1
  osError := fun _ => 13
  moduleStillLoaded := fun _ => true
  slotBelongsToModule := fun _ _ => true
  resolveOriginal := fun _ _ _ value => some value

/-- Every page is readable only and every slot holds `7`. -/
def stuckMachine : Machine where
  slot := fun _ => 7
  protection := fun _ => 1
  calls := 0

theorem stuckSys_single : stuckSys.SingleFailure := by
  intro left right leftFails rightFails
  simp only [stuckSys, decide_eq_true_eq] at leftFails rightFails
  omega

theorem apply_atomic_iff_opening_failure :
    Atomic [(0x1000, 8)] { stuckMachine with calls := 1 }
      (apply stuckSys [(0x1000, 8)] { stuckMachine with calls := 1 }) :=
  (apply_atomic_iff stuckSys [(0x1000, 8)] { stuckMachine with calls := 1 }
    stuckSys_single (by decide)).mpr (by
      intro position page _ failure
      simp only [stuckSys, decide_eq_true_eq] at failure
      have pages : (patchPages stuckSys [(0x1000, 8)]).length = 1 := by
        decide
      simp only [stuckSys] at pages
      omega)

/-- The failing restore leaves its page writable after an error. -/
theorem apply_not_atomic :
    ¬ ∀ (sys : Sys) (patches : List (Nat × Nat)) (machine : Machine),
      patches ≠ [] → (patches.map Prod.fst).Nodup → sys.SingleFailure →
        Atomic patches machine (apply sys patches machine) := by
  intro always
  have atomic := always stuckSys [(0x1000, 8)] stuckMachine (by decide)
    (by decide) stuckSys_single
  have protections := congrFun atomic.2 0x1000
  exact absurd protections (by decide)

end Apply

end Hookfs.Plthook
