import Hookfs.Plthook.Slot

/-!
# What capturing and restoring page protections does

Capturing a list of distinct pages either raises all of them or, on a
failing call, puts everything back.  A restore puts back the pages whose
call was answered and leaves the others raised.
-/

namespace Hookfs.Plthook

open Hookfs.Lib

namespace Sys

/-- None of the `count` protection calls from number `first` on fails. -/
def Clear (sys : Sys) (first count : Nat) : Prop :=
  ∀ offset, offset < count → sys.fails (first + offset) = false

/-- At most one protection call ever fails. -/
def SingleFailure (sys : Sys) : Prop :=
  ∀ left right, sys.fails left = true → sys.fails right = true →
    left = right

theorem clear_succ {sys : Sys} {first count : Nat} :
    sys.Clear first (count + 1) ↔
      sys.fails first = false ∧ sys.Clear (first + 1) count := by
  constructor
  · intro clear
    refine ⟨clear 0 (Nat.succ_pos count), ?_⟩
    intro offset bound
    have later := clear (offset + 1) (Nat.succ_lt_succ bound)
    rwa [show first + (offset + 1) = first + 1 + offset by omega] at later
  · rintro ⟨here, later⟩ offset bound
    cases offset with
    | zero =>
        exact here
    | succ previous =>
        have next := later previous (Nat.lt_of_succ_lt_succ bound)
        rwa [show first + 1 + previous = first + (previous + 1) by omega]
          at next

theorem clear_add {sys : Sys} {first count more : Nat} :
    sys.Clear first (count + more) ↔
      sys.Clear first count ∧ sys.Clear (first + count) more := by
  constructor
  · intro clear
    refine ⟨fun offset bound => clear offset (by omega), ?_⟩
    intro offset bound
    rw [Nat.add_assoc]
    exact clear (count + offset) (by omega)
  · rintro ⟨early, late⟩ offset bound
    by_cases before : offset < count
    · exact early offset before
    · have shifted := late (offset - count) (by omega)
      rwa [show first + count + (offset - count) = first + offset by
        omega] at shifted

theorem Clear.zero (sys : Sys) (first : Nat) : sys.Clear first 0 :=
  fun _ bound => absurd bound (Nat.not_lt_zero _)

/-- After the only failure every later call succeeds. -/
theorem SingleFailure.clear_of_lt {sys : Sys}
    (single : sys.SingleFailure) {failed first : Nat}
    (failure : sys.fails failed = true) (later : failed < first)
    (count : Nat) : sys.Clear first count := by
  intro offset _
  by_contra other
  have equal := single failed (first + offset) failure
    (by simpa using other)
  omega

/-- Before the only failure every call succeeds. -/
theorem SingleFailure.clear_of_le {sys : Sys}
    (single : sys.SingleFailure) {failed first count : Nat}
    (failure : sys.fails failed = true) (earlier : first + count ≤ failed) :
    sys.Clear first count := by
  intro offset bound
  by_contra other
  have equal := single failed (first + offset) failure
    (by simpa using other)
  omega

theorem clear_of_never {sys : Sys} (never : ∀ call, sys.fails call = false)
    (first count : Nat) : sys.Clear first count :=
  fun offset _ => never (first + offset)

theorem Clear.not_clear_iff {sys : Sys} {first count : Nat} :
    ¬ sys.Clear first count ↔
      ∃ offset, offset < count ∧ sys.fails (first + offset) = true := by
  simp [Clear]

end Sys

namespace PageProtector

/-- The pages of `pages` raised, the rest as they were. -/
def raiseAll (sys : Sys) (pages : List Nat) (protection : Nat → Nat) :
    Nat → Nat :=
  fun page =>
    if page ∈ pages then sys.raised (protection page) else protection page

/-- The pages whose restore call is answered, calls numbered from `call`. -/
def answered (sys : Sys) : Nat → List Nat → List Nat
  | _, [] => []
  | call, page :: rest =>
      if sys.fails call then answered sys (call + 1) rest
      else page :: answered sys (call + 1) rest

/-- The pages of `pages` back at `captured`, the rest as they were. -/
def putBack (captured : Nat → Nat) (pages : List Nat)
    (protection : Nat → Nat) : Nat → Nat :=
  fun page => if page ∈ pages then captured page else protection page

/-- Pages tagged with the protection they were captured with. -/
def tagged (captured : Nat → Nat) (pages : List Nat) : List (Nat × Nat) :=
  pages.map fun page => (page, captured page)

@[simp]
theorem putBack_nil (captured protection : Nat → Nat) :
    putBack captured [] protection = protection := by
  funext page
  simp [putBack]

theorem putBack_cons (captured protection : Nat → Nat) (page : Nat)
    (pages : List Nat) :
    putBack captured pages
        (Function.update protection page (captured page)) =
      putBack captured (page :: pages) protection := by
  funext queried
  unfold putBack
  by_cases later : queried ∈ pages
  · simp [later]
  · by_cases same : queried = page
    · subst same
      simp [later]
    · simp [later, same]

theorem restoreLoop_machine (sys : Sys) (captured : Nat → Nat) :
    ∀ (pages : List Nat) (firstError : Option Error) (machine : Machine),
      (restoreLoop sys (tagged captured pages) firstError machine).2 =
        { machine with
          protection := putBack captured
            (answered sys machine.calls pages) machine.protection
          calls := machine.calls + pages.length } := by
  intro pages
  induction pages with
  | nil =>
      intro firstError machine
      simp [restoreLoop, tagged, answered]
  | cons page rest inductionHypothesis =>
      intro firstError machine
      simp only [tagged, List.map_cons, restoreLoop,
        Sys.restoreProtection, answered]
      by_cases failed : sys.fails machine.calls = true
      · simp only [failed, if_true]
        rw [show rest.map (fun page => (page, captured page)) =
          tagged captured rest from rfl, inductionHypothesis]
        simp only [List.length_cons]
        congr 1
        omega
      · simp only [failed, Bool.false_eq_true, if_false]
        rw [show rest.map (fun page => (page, captured page)) =
          tagged captured rest from rfl, inductionHypothesis]
        simp only [List.length_cons, putBack_cons]
        congr 1
        omega

theorem restoreLoop_error_none (sys : Sys) :
    ∀ (entries : List (Nat × Nat)) (firstError : Option Error)
      (machine : Machine),
      (restoreLoop sys entries firstError machine).1 = none ↔
        firstError = none ∧ sys.Clear machine.calls entries.length := by
  intro entries
  induction entries with
  | nil =>
      intro firstError machine
      simp [restoreLoop, Sys.Clear.zero]
  | cons entry rest inductionHypothesis =>
      intro firstError machine
      simp only [restoreLoop, Sys.restoreProtection, List.length_cons,
        Sys.clear_succ]
      by_cases failed : sys.fails machine.calls = true
      · simp [failed, inductionHypothesis]
      · simp [failed, inductionHypothesis]

theorem answered_of_clear {sys : Sys} :
    ∀ {pages : List Nat} {call : Nat},
      sys.Clear call pages.length → answered sys call pages = pages := by
  intro pages
  induction pages with
  | nil =>
      intro call clear
      rfl
  | cons page rest inductionHypothesis =>
      intro call clear
      obtain ⟨here, later⟩ := Sys.clear_succ.mp clear
      simp only [answered, here, Bool.false_eq_true, if_false]
      rw [inductionHypothesis later]

/-- With one failure, at the restore of the page at `position`, exactly that
page keeps its raised protection. -/
theorem mem_answered_of_single {sys : Sys} (single : sys.SingleFailure) :
    ∀ {pages : List Nat} {call position stuck : Nat},
      pages.Nodup → pages[position]? = some stuck →
      sys.fails (call + position) = true →
      ∀ page, page ∈ answered sys call pages ↔
        page ∈ pages ∧ page ≠ stuck := by
  intro pages
  induction pages with
  | nil =>
      intro call position stuck nodup present
      cases present
  | cons head rest inductionHypothesis =>
      intro call position stuck nodup present failure page
      have headAbsent : head ∉ rest := (List.nodup_cons.mp nodup).1
      cases position with
      | zero =>
          simp only [List.getElem?_cons_zero, Option.some.injEq] at present
          subst present
          have headFails : sys.fails call = true := failure
          have later : sys.Clear (call + 1) rest.length :=
            single.clear_of_lt headFails (Nat.lt_succ_self call) _
          simp only [answered, headFails, if_true, answered_of_clear later,
            List.mem_cons]
          constructor
          · intro member
            exact ⟨Or.inr member, fun same => headAbsent (same ▸ member)⟩
          · intro given
            exact given.1.resolve_left given.2
      | succ position =>
          have headAnswered : sys.fails call = false := by
            by_contra other
            have equal := single call (call + (position + 1))
              (by simpa using other) failure
            omega
          have restFails : sys.fails (call + 1 + position) = true := by
            rwa [show call + 1 + position = call + (position + 1) by omega]
          have stuckLater : rest[position]? = some stuck := by
            simpa using present
          have headNeStuck : head ≠ stuck := by
            intro same
            exact headAbsent (same ▸ List.mem_of_getElem? stuckLater)
          simp only [answered, headAnswered, Bool.false_eq_true, if_false,
            List.mem_cons]
          rw [inductionHypothesis (List.nodup_cons.mp nodup).2 stuckLater
            restFails page]
          constructor
          · intro kept
            rcases kept with same | later
            · exact ⟨Or.inl same, same ▸ headNeStuck⟩
            · exact ⟨Or.inr later.1, later.2⟩
          · intro given
            rcases given.1 with same | member
            · exact Or.inl same
            · exact Or.inr ⟨member, given.2⟩

/-- Putting every raised page back at what it was captured with undoes the
raising. -/
theorem putBack_raiseAll (sys : Sys) (captured : Nat → Nat)
    (pages : List Nat) :
    putBack captured pages (raiseAll sys pages captured) = captured := by
  funext page
  unfold putBack raiseAll
  by_cases member : page ∈ pages
  · simp [member]
  · simp [member]

private theorem raiseAll_snoc (sys : Sys) (captured : Nat → Nat)
    {pages : List Nat} {page : Nat} (fresh : page ∉ pages) :
    Function.update (raiseAll sys pages captured) page
        (sys.raised (raiseAll sys pages captured page)) =
      raiseAll sys (pages ++ [page]) captured := by
  funext queried
  by_cases same : queried = page
  · subst same
    simp [raiseAll, fresh]
  · simp [raiseAll, same]

private theorem tagged_snoc (captured : Nat → Nat) (pages : List Nat)
    (page : Nat) :
    tagged captured pages ++ [(page, captured page)] =
      tagged captured (pages ++ [page]) := by
  simp [tagged]

/-- With no failing call every page is captured and raised. -/
theorem capture_of_clear (sys : Sys) (captured : Nat → Nat) :
    ∀ (pages done : List Nat) (machine : Machine),
      (done ++ pages).Nodup →
      machine.protection = raiseAll sys done captured →
      sys.Clear machine.calls pages.length →
      capture sys pages (tagged captured done) machine =
        (.ok ⟨tagged captured (done ++ pages)⟩,
          { machine with
            protection := raiseAll sys (done ++ pages) captured
            calls := machine.calls + pages.length }) := by
  intro pages
  induction pages with
  | nil =>
      intro done machine nodup shape clear
      simp [capture, ← shape]
  | cons page rest inductionHypothesis =>
      intro done machine nodup shape clear
      obtain ⟨here, later⟩ := Sys.clear_succ.mp clear
      have fresh : page ∉ done := fun member =>
        (List.nodup_append.mp nodup).2.2 page member page
          (List.mem_cons_self) rfl
      have found : machine.protection page = captured page := by
        simp [shape, raiseAll, fresh]
      have regrouped : done ++ page :: rest = (done ++ [page]) ++ rest := by
        simp
      simp only [capture, Sys.makeWritable, here, Bool.false_eq_true,
        if_false, found, tagged_snoc]
      rw [regrouped] at nodup
      rw [inductionHypothesis (done ++ [page]) _ nodup ?_ later]
      · rw [← regrouped]
        simp only [List.length_cons]
        congr 2
        omega
      · rw [← found, shape]
        exact raiseAll_snoc sys captured fresh

/-- The only failing call falls into the capture: everything is put back. -/
theorem capture_of_failure (sys : Sys) (single : sys.SingleFailure)
    (captured : Nat → Nat) :
    ∀ (pages done : List Nat) (machine : Machine),
      (done ++ pages).Nodup →
      machine.protection = raiseAll sys done captured →
      ¬ sys.Clear machine.calls pages.length →
      ∃ error after,
        capture sys pages (tagged captured done) machine =
            (.error error, after) ∧
          after.slot = machine.slot ∧ after.protection = captured := by
  intro pages
  induction pages with
  | nil =>
      intro done machine nodup shape blocked
      exact absurd (Sys.Clear.zero sys machine.calls) blocked
  | cons page rest inductionHypothesis =>
      intro done machine nodup shape blocked
      have fresh : page ∉ done := fun member =>
        (List.nodup_append.mp nodup).2.2 page member page
          (List.mem_cons_self) rfl
      have found : machine.protection page = captured page := by
        simp [shape, raiseAll, fresh]
      by_cases failed : sys.fails machine.calls = true
      · simp only [capture, Sys.makeWritable, failed, if_true]
        refine ⟨_, _, rfl, ?_, ?_⟩
        · rw [show (tagged captured done).reverse =
            tagged captured done.reverse by simp [tagged],
            restoreLoop_machine]
        · rw [show (tagged captured done).reverse =
            tagged captured done.reverse by simp [tagged],
            restoreLoop_machine]
          have later : sys.Clear (machine.calls + 1) done.reverse.length :=
            single.clear_of_lt failed (Nat.lt_succ_self _) _
          simp only [answered_of_clear later, shape]
          funext queried
          by_cases member : queried ∈ done
          · simp [putBack, member]
          · simp [putBack, raiseAll, member]
      · have here : sys.fails machine.calls = false := by
          simpa using failed
        have laterBlocked : ¬ sys.Clear (machine.calls + 1) rest.length :=
          fun clear => blocked (Sys.clear_succ.mpr ⟨here, clear⟩)
        have regrouped :
            done ++ page :: rest = (done ++ [page]) ++ rest := by
          simp
        simp only [capture, Sys.makeWritable, here, Bool.false_eq_true,
          if_false, found, tagged_snoc]
        rw [regrouped] at nodup
        have shapeNext :
            Function.update machine.protection page
                (sys.raised (captured page)) =
              raiseAll sys (done ++ [page]) captured := by
          rw [← found, shape]
          exact raiseAll_snoc sys captured fresh
        exact inductionHypothesis (done ++ [page])
          { machine with
            protection := Function.update machine.protection page
              (sys.raised (captured page))
            calls := machine.calls + 1 } nodup shapeNext laterBlocked

end PageProtector

/-! ## The pages of a batch -/

theorem nodup_spanLoop (pageSize last : Nat) :
    ∀ (fuel page : Nat) (pages : List Nat),
      pages.Nodup → (spanLoop pageSize last fuel page pages).Nodup := by
  intro fuel
  induction fuel with
  | zero =>
      intro page pages nodup
      exact nodup
  | succ fuel inductionHypothesis =>
      intro page pages nodup
      have recordedNodup :
          (if page ∈ pages then pages else pages ++ [page]).Nodup := by
        split
        · exact nodup
        · rename_i fresh
          exact List.nodup_append.mpr
            ⟨nodup, List.nodup_singleton page, by
              intro left member right single same
              rw [List.mem_singleton] at single
              exact fresh (single ▸ same ▸ member)⟩
      simp only [spanLoop]
      split
      · exact recordedNodup
      · exact inductionHypothesis _ _ recordedNodup

theorem nodup_pagesOf (pageSize : Nat) (slots : List Nat) :
    (pagesOf pageSize slots).Nodup := by
  suffices general : ∀ pages : List Nat, pages.Nodup →
      (slots.foldl (fun pages slot => spanPages pageSize slot pages)
        pages).Nodup from general [] List.nodup_nil
  induction slots with
  | nil =>
      intro pages nodup
      exact nodup
  | cons slot rest inductionHypothesis =>
      intro pages nodup
      exact inductionHypothesis _ (nodup_spanLoop _ _ _ _ _ nodup)

end Hookfs.Plthook
