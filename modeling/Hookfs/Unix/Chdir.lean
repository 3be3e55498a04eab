import Hookfs.Lib.Runs
import Hookfs.Unix.FailClosed

/-!
# The virtual working directory

What one `chdir` makes of the engine, when a failed one leaves it alone, and
what every sequence of `chdir`s keeps: the virtual working directory is a
directory of the namespace, and no relative path leads out of it.
-/

namespace Hookfs.Unix

open Hookfs.Lib Hookfs.Vfs Hookfs.Posix Hookfs.Router

variable {Ambient State Stream : Type}

/-! ## One call -/

section OneCall

variable {machine : Machine Ambient State Stream} {path : CStr}
  {process : Process State Stream} {engine : Engine Stream}

/-- What a `chdir` can do: leave the engine as it is, forget its virtual
directory and ask the kernel, or set it to a directory of the provider's. -/
theorem shimChdir_cases (machine : Machine Ambient State Stream)
    (path : CStr) (active : process.engine = some engine) :
    (shimChdir machine path process).process.engine = some engine ∨
      (Arrives path process engine .real ∧
        shimChdir machine path process = pass machine (.path (.chdir path))
          (process.withEngine { engine with cwd := none })) ∨
      ∃ target report next, Arrives path process engine (.virtual target) ∧
        machine.provider.metadata machine.ambient target process.vfs =
          (some (.ok report), next) ∧
        report.isDir = true ∧
        shimChdir machine path process = succeed 0 .nothing
          ((process.withVfs next).withEngine
            { engine with cwd := some target }) := by
  cases inside : process.inHook with
  | true =>
      left
      simp only [shimChdir, inside, if_true]
      exact active
  | false =>
      cases read : decodeCstr path with
      | none =>
          left
          simp only [shimChdir, inside, read]
          exact active
      | some decoded =>
          have route : process.route decoded =
              some (engine, engine.classify decoded) := by
            rw [Process.route, active, Option.map_some]
          have arrives : ∀ route, engine.classify decoded = route →
              Arrives path process engine route := by
            rintro route rfl
            exact ⟨inside, active, by rw [read, Option.map_some]⟩
          cases kind : engine.classify decoded with
          | real =>
              right; left
              refine ⟨arrives _ kind, ?_⟩
              simp only [shimChdir, inside, read, route, kind]
              rfl
          | rejected =>
              left
              simp only [shimChdir, inside, read, route, kind]
              exact active
          | virtual target =>
              simp only [shimChdir, inside, read, route, kind,
                Bool.false_eq_true, if_false]
              split
              · rename_i report next answered
                split
                · rename_i directory
                  exact .inr (.inr ⟨target, report, next, arrives _ kind,
                    answered, directory, rfl⟩)
                · exact .inl active
              · exact .inl active

/-- If the `chdir` fails, the engine still has its virtual directory, and
every path means what it meant. -/
def FailureKeeps (machine : Machine Ambient State Stream) (path : CStr)
    (process : Process State Stream) (engine : Engine Stream) : Prop :=
  (shimChdir machine path process).reply.ret = -1 →
    ∃ next, (shimChdir machine path process).process.engine = some next ∧
      next.cwd = engine.cwd ∧
      ∀ decoded, next.classify decoded = engine.classify decoded

/-- The shim forgets the virtual directory before it asks the kernel, which
may refuse. -/
theorem failed_chdir_keeps_iff (active : process.engine = some engine) :
    FailureKeeps machine path process engine ↔
      ¬ (engine.cwd.isSome ∧ Arrives path process engine .real ∧
        (machine.os (.original (.path (.chdir path)))).ret = -1) := by
  constructor
  · rintro keeps ⟨set, arrives, refused⟩
    have result : shimChdir machine path process =
        pass machine (.path (.chdir path))
          (process.withEngine { engine with cwd := none }) := by
      obtain ⟨decoded, read, route⟩ := arrives.route_eq
      simp only [shimChdir, arrives.outside, read, route]
      rfl
    rw [FailureKeeps, result] at keeps
    obtain ⟨next, same, kept, -⟩ := keeps refused
    cases same
    rw [← kept] at set
    cases set
  · intro safe failed
    rcases shimChdir_cases machine path active with
      same | ⟨arrives, left⟩ | ⟨target, report, next, -, -, -, entered⟩
    · exact ⟨engine, same, rfl, fun _ => rfl⟩
    · rw [left] at failed ⊢
      have unset : engine.cwd = none := by
        rw [← Option.not_isSome_iff_eq_none]
        exact fun set => safe ⟨set, arrives, failed⟩
      refine ⟨{ engine with cwd := none }, rfl, unset.symm, ?_⟩
      have same : { engine with cwd := none } = engine := by
        rw [← unset]
      intro decoded
      rw [same]
    · rw [entered] at failed
      cases failed

end OneCall

/-- An engine at `/v` whose virtual directory is `/v`. -/
def insideEngine : Engine Memory.MemoryFs.Stream :=
  { Engine.new (.fromRoot "/v".toList) true with cwd := some "/v".toList }

def insideProcess : Process Memory.MemoryFs Memory.MemoryFs.Stream :=
  idleProcess.withEngine insideEngine

/-- A libc that refuses everything with `ENOENT`. -/
def refusingMachine :
    Machine Memory.Ambient Memory.MemoryFs Memory.MemoryFs.Stream :=
  { idleMachine with os := fun _ => ⟨-1, some Errno.ENOENT, .nothing⟩ }

/-- `chdir("/x")`, with the calling thread inside of a hook. -/
theorem failed_chdir_keeps_iff_hooked :
    FailureKeeps refusingMachine (some [47, 120])
      { insideProcess with inHook := true } insideEngine := by
  refine (failed_chdir_keeps_iff rfl).mpr ?_
  rintro ⟨-, arrives, -⟩
  exact absurd arrives.outside (by decide)

/-- `chdir("/x")` fails, and `a` is no longer `/v/a`. -/
theorem failed_chdir_loses_directory :
    ¬ FailureKeeps refusingMachine (some [47, 120]) insideProcess
      insideEngine := by
  intro keeps
  have failed : (shimChdir refusingMachine (some [47, 120])
      insideProcess).reply.ret = -1 := by decide
  have left : (shimChdir refusingMachine (some [47, 120])
      insideProcess).process.engine =
        some { insideEngine with cwd := none } := rfl
  obtain ⟨next, same, -, means⟩ := keeps failed
  rw [left] at same
  cases same
  exact absurd (means "a".toList) (by decide)

/-! ## Every sequence of calls -/

/-- A `chdir` with all that surrounds it. -/
structure ChdirCall (Ambient State Stream : Type) where
  machine : Machine Ambient State Stream
  path : CStr

def ChdirCall.step (process : Process State Stream)
    (call : ChdirCall Ambient State Stream) : Process State Stream :=
  (shimChdir call.machine call.path process).process

/-- A call of the run set the virtual directory, and at that moment the
provider reported it as a directory. -/
def EnteredBy (start : Process State Stream)
    (calls : List (ChdirCall Ambient State Stream)) (cwd : Text) : Prop :=
  ∃ before call after report next engine,
    calls = before ++ call :: after ∧
    call.machine.provider.metadata call.machine.ambient cwd
        (run ChdirCall.step start before).vfs = (some (.ok report), next) ∧
    report.isDir = true ∧
    (run ChdirCall.step start (before ++ [call])).engine = some engine ∧
    engine.cwd = some cwd

/-- The virtual directory is unset, or a safe absolute path inside the
namespace that the run has entered. -/
structure Anchored (root : Text) (start : Process State Stream)
    (calls : List (ChdirCall Ambient State Stream))
    (engine : Engine Stream) : Prop where
  nspace : engine.nspace = .fromRoot root
  absolute : ∀ cwd, engine.cwd = some cwd → isAbsolute cwd = true
  safe : ∀ cwd, engine.cwd = some cwd → isLexicallySafe cwd = true
  within : ∀ cwd, engine.cwd = some cwd → Within root cwd
  entered : ∀ cwd, engine.cwd = some cwd → EnteredBy start calls cwd

section Runs

variable {root : Text} {start : Process State Stream}
  {calls : List (ChdirCall Ambient State Stream)} {engine : Engine Stream}

theorem resolve_relative {decoded : Text}
    (relative : isAbsolute decoded = false) :
    engine.resolve decoded = engine.cwd.map fun cwd => join cwd decoded := by
  rw [Engine.resolve, relative, if_neg Bool.false_ne_true]

/-- A path is real unless it resolves into the namespace. -/
theorem classify_eq_real_iff {decoded : Text} :
    engine.classify decoded = .real ↔
      ∀ absolute, engine.resolve decoded = some absolute →
        engine.nspace.isVirtual absolute = false := by
  unfold Engine.classify
  cases engine.resolve decoded with
  | none =>
      exact iff_of_true rfl fun _ => nofun
  | some absolute =>
      cases member : engine.nspace.isVirtual absolute with
      | true =>
          have kept : ¬ ∀ other, some absolute = some other →
              engine.nspace.isVirtual other = false := by
            intro free
            rw [free absolute rfl] at member
            cases member
          refine iff_of_false ?_ kept
          simp only [member, Bool.not_true, Bool.false_eq_true, if_false]
          split
          · exact Route.noConfusion
          · exact Route.noConfusion
      | false =>
          simp [member]

theorem classify_virtual {decoded target : Text}
    (virtual : engine.classify decoded = .virtual target) :
    engine.resolve decoded = some target ∧
      engine.nspace.isVirtual target = true ∧
      isLexicallySafe target = true := by
  unfold Engine.classify at virtual
  cases resolved : engine.resolve decoded with
  | none =>
      rw [resolved] at virtual
      cases virtual
  | some absolute =>
      simp only [resolved] at virtual
      split at virtual
      · cases virtual
      · rename_i member
        split at virtual
        · rename_i sound
          cases virtual
          exact ⟨rfl, by simpa using member, sound⟩
        · cases virtual

theorem isAbsolute_join {base path : Text}
    (absolute : isAbsolute base = true) :
    isAbsolute (join base path) = true := by
  obtain ⟨rest, rfl⟩ := exists_eq_sep_cons absolute
  unfold join
  split
  · assumption
  · split
    · rfl
    · rfl

/-- Below a directory of the namespace everything is in the namespace; only
the root directory's own key, which ends in a separator, is no prefix of the
keys below it. -/
theorem within_join {cwd path : Text} (proper : normalizeKeyStr root ≠ ['/'])
    (absolute : isAbsolute cwd = true) (inside : Within root cwd)
    (relative : isAbsolute path = false) :
    Within root (join cwd path) := by
  have joined : normalizeKeyStr (join cwd path) =
      render '/' (parts cwd ++ parts path) := by
    rw [normalizeKeyStr_of_absolute (isAbsolute_join absolute),
      parts_join cwd relative]
  unfold Within at inside ⊢
  rw [joined]
  rw [normalizeKeyStr_of_absolute absolute] at inside
  generalize normalizeKeyStr root = key at proper inside ⊢
  by_cases top : parts cwd = []
  · -- the directory is `/`, so the root's key is empty
    rw [top, List.nil_append]
    rw [top] at inside
    have empty : key = [] := by
      rcases inside with same | ⟨rest, longer⟩
      · exact absurd same.symm proper
      · cases key with
        | nil =>
            rfl
        | cons char later =>
            have short := congrArg List.length longer
            simp [render] at short
    subst empty
    right
    cases parts path with
    | nil =>
        exact ⟨[], rfl⟩
    | cons part others =>
        exact ⟨part ++ body '/' others, body_cons part others⟩
  · have nonempty : parts cwd ++ parts path ≠ [] :=
      List.append_ne_nil_of_left_ne_nil top _
    rw [render_of_ne_nil top] at inside
    rw [render_of_ne_nil nonempty, body_append]
    rcases inside with same | ⟨rest, longer⟩
    · rw [same]
      cases parts path with
      | nil =>
          exact .inl (List.append_nil key)
      | cons part others =>
          exact .inr ⟨part ++ body '/' others, by rw [body_cons]⟩
    · right
      refine ⟨rest ++ body '/' (parts path), ?_⟩
      rw [longer, List.append_assoc, List.cons_append]

/-- What one more call does to the directory a run has entered. -/
theorem EnteredBy.append {cwd : Text} (entered : EnteredBy start calls cwd)
    (call : ChdirCall Ambient State Stream) :
    EnteredBy start (calls ++ [call]) cwd := by
  obtain ⟨before, setter, after, report, next, engine, rfl, rest⟩ := entered
  exact ⟨before, setter, after ++ [call], report, next, engine, by simp,
    rest⟩

theorem Anchored.unchanged (anchored : Anchored root start calls engine)
    (call : ChdirCall Ambient State Stream) :
    Anchored root start (calls ++ [call]) engine where
  nspace := anchored.nspace
  absolute := anchored.absolute
  safe := anchored.safe
  within := anchored.within
  entered cwd set := (anchored.entered cwd set).append call

/-- What an anchored engine resolves to is absolute. -/
theorem Anchored.isAbsolute_resolve
    (anchored : Anchored root start calls engine) {decoded target : Text}
    (resolved : engine.resolve decoded = some target) :
    isAbsolute target = true := by
  unfold Engine.resolve at resolved
  split at resolved
  · rename_i already
    cases resolved
    exact already
  · obtain ⟨cwd, set, rfl⟩ := Option.map_eq_some_iff.mp resolved
    exact isAbsolute_join (anchored.absolute cwd set)

/-- One call keeps the engine anchored. -/
theorem Anchored.step (anchored : Anchored root start calls engine)
    (active : (run ChdirCall.step start calls).engine = some engine)
    (call : ChdirCall Ambient State Stream) :
    ∃ next, (run ChdirCall.step start (calls ++ [call])).engine =
        some next ∧
      Anchored root start (calls ++ [call]) next := by
  have last : run ChdirCall.step start (calls ++ [call]) =
      (shimChdir call.machine call.path
        (run ChdirCall.step start calls)).process := by
    simp [run, ChdirCall.step]
  rw [last]
  rcases shimChdir_cases call.machine call.path
    active with same | ⟨-, left⟩ |
      ⟨target, report, next, arrives, answered, directory, entered⟩
  · exact ⟨engine, same, anchored.unchanged call⟩
  · refine ⟨{ engine with cwd := none }, by rw [left]; rfl, ?_⟩
    exact
      { nspace := anchored.nspace
        absolute := fun _ set => by cases set
        safe := fun _ set => by cases set
        within := fun _ set => by cases set
        entered := fun _ set => by cases set }
  · have now : (shimChdir call.machine call.path
        (run ChdirCall.step start calls)).process.engine =
          some { engine with cwd := some target } := by
      rw [entered]
      rfl
    obtain ⟨decoded, -, virtual⟩ :=
      Option.map_eq_some_iff.mp arrives.classified
    obtain ⟨resolved, member, sound⟩ := classify_virtual virtual
    rw [anchored.nspace] at member
    refine ⟨{ engine with cwd := some target }, now, ?_⟩
    exact
      { nspace := anchored.nspace
        absolute := fun cwd set => by
          cases set
          exact anchored.isAbsolute_resolve resolved
        safe := fun cwd set => by
          cases set
          exact sound
        within := fun cwd set => by
          cases set
          exact (isVirtual_fromRoot target).mp member
        entered := fun cwd set => by
          cases set
          exact ⟨calls, call, [], report, next, _, rfl, answered, directory,
            last ▸ now, rfl⟩ }

theorem anchored_fresh (allowWrites : Bool) :
    Anchored root start ([] : List (ChdirCall Ambient State Stream))
      (.new (.fromRoot root) allowWrites) where
  nspace := rfl
  absolute _ set := by cases set
  safe _ set := by cases set
  within _ set := by cases set
  entered _ set := by cases set

theorem anchored_run (allowWrites : Bool)
    (begins : start.engine = some (.new (.fromRoot root) allowWrites))
    (calls : List (ChdirCall Ambient State Stream)) :
    ∃ next, (run ChdirCall.step start calls).engine = some next ∧
      Anchored root start calls next := by
  induction calls using List.reverseRecOn with
  | nil =>
      exact ⟨_, begins, anchored_fresh allowWrites⟩
  | append_singleton calls call inductionHypothesis =>
      obtain ⟨next, active, held⟩ := inductionHypothesis
      exact held.step active call

/-- While a virtual directory is set, no relative path is real. -/
theorem Anchored.relative_unreal
    (anchored : Anchored root start calls engine)
    (proper : normalizeKeyStr root ≠ ['/']) {cwd decoded : Text}
    (set : engine.cwd = some cwd) (relative : isAbsolute decoded = false) :
    engine.classify decoded ≠ .real := by
  have resolved : engine.resolve decoded = some (join cwd decoded) := by
    rw [resolve_relative relative, set, Option.map_some]
  have within := within_join proper (anchored.absolute cwd set)
    (anchored.within cwd set) relative
  intro real
  have missed := classify_eq_real_iff.mp real _ resolved
  rw [anchored.nspace, (isVirtual_fromRoot _).mpr within] at missed
  cases missed

end Runs

/-- From a fresh engine over a prefix namespace other than `/`, after any
sequence of `chdir`s, with any provider and any answers of the kernel: the
virtual directory is an entered, safe, absolute path of the namespace; while
it is set, relative paths never mean the disk; and a path that means the
virtual side has a key at or below the root. -/
theorem virtual_cwd_stays_in_namespace (root : Text)
    (proper : normalizeKeyStr root ≠ ['/']) (allowWrites : Bool)
    (fresh : Process State Stream)
    (calls : List (ChdirCall Ambient State Stream)) :
    let start := fresh.withEngine (.new (.fromRoot root) allowWrites)
    ∃ engine, (run ChdirCall.step start calls).engine = some engine ∧
      (∀ cwd, engine.cwd = some cwd →
        isAbsolute cwd = true ∧ isLexicallySafe cwd = true ∧
          Within root cwd ∧ EnteredBy start calls cwd ∧
          ∀ decoded, isAbsolute decoded = false →
            engine.classify decoded ≠ .real) ∧
      ∀ decoded target, engine.classify decoded = .virtual target →
        Within root target := by
  intro start
  have begins : start.engine =
      some (.new (.fromRoot root) allowWrites) := rfl
  obtain ⟨engine, active, anchored⟩ := anchored_run allowWrites begins calls
  refine ⟨engine, active, ?_, ?_⟩
  · intro cwd set
    exact ⟨anchored.absolute cwd set, anchored.safe cwd set,
      anchored.within cwd set, anchored.entered cwd set,
      fun decoded => anchored.relative_unreal proper set⟩
  · intro decoded target virtual
    obtain ⟨-, member, -⟩ := classify_virtual virtual
    rw [anchored.nspace] at member
    exact (isVirtual_fromRoot target).mp member

/-- `chdir("/v")` and `chdir("d")`. -/
theorem virtual_cwd_stays_in_namespace_nested :
    ∃ engine, (run ChdirCall.step
        ((idleProcess.withVfs
          ((Memory.MemoryFs.withCapacity 8).createDir "/v/d".toList).2).withEngine
            (.new (.fromRoot "/v".toList) true))
        [⟨idleMachine, some [47, 118]⟩, ⟨idleMachine, some [100]⟩]).engine =
          some engine ∧ engine.classify "x".toList ≠ .real := by
  obtain ⟨engine, active, held, -⟩ := virtual_cwd_stays_in_namespace
    "/v".toList (by decide) true
    (idleProcess.withVfs
      ((Memory.MemoryFs.withCapacity 8).createDir "/v/d".toList).2)
    [⟨idleMachine, some [47, 118]⟩, ⟨idleMachine, some [100]⟩]
  refine ⟨engine, active, ?_⟩
  have set : (run ChdirCall.step
      ((idleProcess.withVfs
        ((Memory.MemoryFs.withCapacity 8).createDir "/v/d".toList).2).withEngine
          (.new (.fromRoot "/v".toList) true))
      [⟨idleMachine, some [47, 118]⟩, ⟨idleMachine, some [100]⟩]).engine.bind
        (·.cwd) = some "/v/d".toList := by decide
  rw [active] at set
  exact (held "/v/d".toList set).2.2.2.2 "x".toList (by decide)

end Hookfs.Unix
