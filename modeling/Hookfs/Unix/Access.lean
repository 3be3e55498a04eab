import Hookfs.Unix.Owners

/-!
# What `access` promises

`access` asks the engine whether writes are allowed and the provider whether
something is there; `open` also meets the kind of the node.  They agree but
for read-only files of an engine that allows writes.
-/

namespace Hookfs.Unix

open Hookfs.Lib Hookfs.Vfs Hookfs.Posix Hookfs.Router Hookfs.Memory

open MemoryFs (Stream)

section Access

variable {around : Surroundings} {session : Session}
  {engine : Engine Stream} {path : CStr} {target : Text}

/-- `access` says that the path is there and may be used so. -/
def Accessible (around : Surroundings) (session : Session) (path : CStr)
    (mode : Flags) : Prop :=
  (shim around.machine (.path (.access path mode)) session).reply.ret = 0

/-- `open` hands out a descriptor. -/
def Opened (around : Surroundings) (session : Session) (path : CStr)
    (sym : OpenSym) (flags perm : Flags) : Prop :=
  (shim around.machine (.path (.open sym path flags perm))
    session).reply.ret ≠ -1

/-- Nothing is at a key, or a file. -/
def FileOrNothing (key : Text) (fs : MemoryFs) : Prop :=
  ∀ name, fs.entries.lookup key ≠ some (.dir name)

/-- A mounted source is at a key. -/
def ReadOnlyFile (key : Text) (fs : MemoryFs) : Prop :=
  ∃ source name mtime, fs.entries.lookup key =
    some (.file source name mtime)

theorem accessible_iff (mode : Flags)
    (arrives : Arrives path session engine (.virtual target)) :
    Accessible around session path mode ↔
      (session.vfs.entries.lookup (normalizeKeyStr target)).isSome = true ∧
        (mode &&& W_OK ≠ 0 → engine.allowWrites = true) := by
  have served : shim around.machine (.path (.access path mode)) session =
      if (session.vfs.metadata target).map (·.toBool) ≠ some true then
        fail (-1) Errno.ENOENT (session.withVfs session.vfs)
      else if mode &&& W_OK ≠ 0 ∧ !engine.allowWrites then
        fail (-1) Errno.EROFS (session.withVfs session.vfs)
      else succeed 0 .nothing (session.withVfs session.vfs) := by
    have asked : Arrives (PathCall.access path mode).path session engine
        (.virtual target) := arrives
    change accessCommon around.machine (.access path mode) mode session = _
    unfold accessCommon
    rw [routed_virtual asked]
    rfl
  unfold Accessible
  rw [served]
  unfold MemoryFs.metadata
  cases session.vfs.entries.lookup (normalizeKeyStr target) with
  | none =>
      simp [fail]
  | some node =>
      simp only [Option.map_some, Except.toBool, ne_eq, not_true_eq_false,
        if_false, Option.isSome_some, true_and]
      split
      · rename_i denied
        have refused : engine.allowWrites = false := by
          simpa using denied.2
        refine iff_of_false (by simp [fail]) fun allows => ?_
        rw [allows denied.1] at refused
        cases refused
      · rename_i granted
        refine iff_of_true rfl fun write => ?_
        by_contra denies
        exact granted ⟨write, by simp [denies]⟩

theorem opened_iff (carrier : 0 ≤ (around.os .carrier).ret) (sym : OpenSym)
    (flags perm : Flags)
    (arrives : Arrives path session engine (.virtual target)) :
    Opened around session path sym flags perm ↔
      Permits engine (openOptions flags) ∧
        ∃ stream, (openTree around.ambient.now target (openOptions flags)
          session.vfs).1 = some (.ok stream) := by
  have asked : Arrives (OpenCall.open sym path flags perm).call.path session
      engine (.virtual target) := arrives
  have opens := @opens_iff around _ _ _ _ asked
  constructor
  · intro opened
    obtain ⟨opts, given, permits, -, stream, found⟩ := opens.mp opened
    cases given
    exact ⟨permits, stream, found⟩
  · rintro ⟨permits, stream, found⟩
    exact opens.mpr
      ⟨openOptions flags, rfl, permits, Int.not_lt.mpr carrier, stream, found⟩

/-- Reading needs a node, as nothing but a directory cannot be read. -/
theorem openTree_reads (plain : FileOrNothing (normalizeKeyStr target)
    session.vfs) {flags : Flags} (reads : wantsWrite flags = false)
    (now : Time) :
    (∃ stream, (openTree now target (openOptions flags) session.vfs).1 =
        some (.ok stream)) ↔
      (session.vfs.entries.lookup (normalizeKeyStr target)).isSome = true := by
  have unwritten : (openOptions flags).write = false := reads
  unfold openTree
  rw [unwritten, MemoryFs.open_eq, MemoryFs.openAt]
  simp only [Bool.false_eq_true, if_false]
  cases found : session.vfs.entries.lookup (normalizeKeyStr target) with
  | none =>
      simp
  | some node =>
      cases node with
      | dir name =>
          exact absurd found (plain name)
      | file source name mtime =>
          simp
      | memFile file name =>
          simp

/-- `O_EXCL` without `O_CREAT` asks for nothing. -/
theorem createNew_eq_false {flags : Flags} (keeps : flags &&& O_CREAT = 0) :
    (openOptions flags).createNew = false := by
  apply decide_eq_false
  intro both
  have bit : flags &&& (O_CREAT ||| O_EXCL) &&& O_CREAT = O_CREAT := by
    rw [both]
    decide
  have inner : (O_CREAT ||| O_EXCL) &&& O_CREAT = O_CREAT := by
    decide
  rw [BitVec.and_assoc, inner, keeps] at bit
  exact absurd bit (by decide)

/-- Writing without `O_CREAT` needs a writable file. -/
theorem openTree_writes (sound : Owned session)
    (plain : FileOrNothing (normalizeKeyStr target) session.vfs)
    {flags : Flags} (writes : wantsWrite flags = true)
    (keeps : flags &&& O_CREAT = 0) (now : Time) :
    (∃ stream, (openTree now target (openOptions flags) session.vfs).1 =
        some (.ok stream)) ↔
      (session.vfs.entries.lookup (normalizeKeyStr target)).isSome = true ∧
        ¬ ReadOnlyFile (normalizeKeyStr target) session.vfs := by
  have written : (openOptions flags).write = true := writes
  have shares := createNew_eq_false keeps
  have needs : (openOptions flags).creates = false := by
    unfold OpenOptions.creates
    rw [shares, Bool.or_false]
    exact decide_eq_false (not_not.mpr keeps)
  unfold openTree ReadOnlyFile
  rw [written, if_pos rfl, MemoryFs.openWrite_eq]
  cases found : session.vfs.entries.lookup (normalizeKeyStr target) with
  | none =>
      unfold MemoryFs.openWriteAt
      rw [found]
      simp [needs]
  | some node =>
      cases node with
      | dir name =>
          exact absurd found (plain name)
      | file source name mtime =>
          unfold MemoryFs.openWriteAt
          rw [found]
          simp
      | memFile file name =>
          rw [MemoryFs.openWriteAt_existing sound.within found shares]
          simp

/-- `F_OK` and `R_OK` predict `open` for reading; `W_OK` predicts `open` for
writing unless writes are allowed and the file is a read-only one. -/
theorem access_predicts_open_iff (start : SoundSession)
    (around : Surroundings) (engine : Engine Stream) (path : CStr)
    (target : Text)
    (arrives : Arrives path start.session engine (.virtual target))
    (plain : FileOrNothing (normalizeKeyStr target) start.session.vfs)
    (carrier : 0 ≤ (around.os .carrier).ret) :
    (∀ mode sym flags perm, mode &&& W_OK = 0 → wantsWrite flags = false →
      (Accessible around start.session path mode ↔
        Opened around start.session path sym flags perm)) ∧
    ((∀ mode sym flags perm, mode &&& W_OK ≠ 0 → wantsWrite flags = true →
      flags &&& O_CREAT = 0 →
      (Accessible around start.session path mode ↔
        Opened around start.session path sym flags perm)) ↔
      ¬(engine.allowWrites = true ∧
        ReadOnlyFile (normalizeKeyStr target) start.session.vfs)) := by
  constructor
  · intro mode sym flags perm unasked reads
    rw [accessible_iff mode arrives, opened_iff carrier sym flags perm arrives,
      openTree_reads plain reads]
    have unwritten : (openOptions flags).write = false := reads
    unfold Permits
    simp [unasked, unwritten]
  · have write {flags : Flags} (writes : wantsWrite flags = true) :
        Permits engine (openOptions flags) ↔ engine.allowWrites = true :=
      ⟨fun permits => permits writes, fun allows _ => allows⟩
    constructor
    · rintro agrees ⟨allows, source, name, mtime, found⟩
      have asked := agrees W_OK .open O_WRONLY 0 (by decide) (by decide)
        (by decide)
      rw [accessible_iff W_OK arrives, opened_iff carrier _ _ _ arrives,
        openTree_writes start.sound plain (by decide) (by decide)] at asked
      have there : (start.session.vfs.entries.lookup
          (normalizeKeyStr target)).isSome = true := by
        rw [found]
        rfl
      obtain ⟨-, -, writable⟩ := asked.mp ⟨there, fun _ => allows⟩
      exact writable ⟨source, name, mtime, found⟩
    · intro safe mode sym flags perm asked writes keeps
      rw [accessible_iff mode arrives, opened_iff carrier _ _ _ arrives,
        openTree_writes start.sound plain writes keeps, write writes]
      constructor
      · rintro ⟨there, allows⟩
        exact ⟨allows asked, there, fun file => safe ⟨allows asked, file⟩⟩
      · rintro ⟨allows, there, -⟩
        exact ⟨there, fun _ => allows⟩

end Access

/-- A tree with the read-only file `/v/r`, behind `/v`, with writes. -/
def mountedSession : SoundSession :=
  .install 64 (by decide) [.insertFile "/v/r".toList ⟨0, 3⟩ none]
    (.fromRoot "/v".toList) true false

/-- `/v/r`. -/
def mountedPath : CStr := some [47, 118, 47, 114]

/-- A path where nothing is. -/
theorem access_predicts_open_iff_absent :
    (∀ mode sym flags perm, mode &&& W_OK = 0 → wantsWrite flags = false →
      (Accessible idle mountedSession.session (some [47, 118, 47, 120]) mode ↔
        Opened idle mountedSession.session (some [47, 118, 47, 120]) sym flags
          perm)) ∧
    ((∀ mode sym flags perm, mode &&& W_OK ≠ 0 → wantsWrite flags = true →
      flags &&& O_CREAT = 0 →
      (Accessible idle mountedSession.session (some [47, 118, 47, 120]) mode ↔
        Opened idle mountedSession.session (some [47, 118, 47, 120]) sym flags
          perm)) ↔
      ¬((Engine.new (.fromRoot "/v".toList) true :
          Engine Stream).allowWrites = true ∧
        ReadOnlyFile (normalizeKeyStr "/v/x".toList)
          mountedSession.session.vfs)) := by
  apply access_predicts_open_iff
  · refine ⟨rfl, rfl, ?_⟩
    decide
  · have absent : mountedSession.session.vfs.entries.lookup
        (normalizeKeyStr "/v/x".toList) = none := by decide
    intro name
    rw [absent]
    exact nofun
  · decide

/-- `access("/v/r", W_OK)` returns 0, and `open("/v/r", O_WRONLY)` fails. -/
theorem access_promises_write :
    Arrives mountedPath mountedSession.session
        (.new (.fromRoot "/v".toList) true) (.virtual "/v/r".toList) ∧
      Accessible idle mountedSession.session mountedPath W_OK ∧
      ¬ Opened idle mountedSession.session mountedPath .open O_WRONLY 0 := by
  refine ⟨⟨rfl, rfl, ?_⟩, ?_, ?_⟩
  · decide
  · unfold Accessible
    decide
  · unfold Opened
    decide

end Hookfs.Unix
