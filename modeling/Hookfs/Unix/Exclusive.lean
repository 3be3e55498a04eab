import Hookfs.Lib.Runs
import Hookfs.Unix.Owners

/-!
# Exclusive creation

When an open with `O_CREAT | O_EXCL`, or an `fopen` with `x`, is exclusive as
a single call, and what races of such calls on one path come to, with the
callers taking turns between the tree's lock, the file and the carrier.
-/

namespace Hookfs.Unix

open Hookfs.Lib Hookfs.Vfs Hookfs.Posix Hookfs.Router Hookfs.Memory

open MemoryFs (Stream)

/-! ## One call -/

/-- A new, empty, writable file is at the key. -/
def MakesNew (key : Text) (before after : MemoryFs) : Prop :=
  ∃ file name, after.entries.lookup key = some (.memFile file name) ∧
    before.files.lookup file = none ∧ after.fileData file = some []

/-- A writable file is at the key. -/
def WritableFile (key : Text) (fs : MemoryFs) : Prop :=
  ∃ file name, fs.entries.lookup key = some (.memFile file name)

/-- The call creates what is not there, and fails with `EEXIST` where
something is. -/
structure CreatesExclusively (around : Surroundings) (opening : OpenCall)
    (path : Text) (session : Session) : Prop where
  fresh : (shim around.machine (.path opening.call) session).reply.ret ≠
      opening.failure →
    session.vfs.entries.lookup (normalizeKeyStr path) = none ∧
      MakesNew (normalizeKeyStr path) session.vfs
        (shim around.machine (.path opening.call) session).process.vfs
  refuses : session.vfs.entries.lookup (normalizeKeyStr path) ≠ none →
    (shim around.machine (.path opening.call) session).reply.ret =
        opening.failure ∧
      (shim around.machine (.path opening.call) session).reply.errno =
        some Errno.EEXIST ∧
      (shim around.machine (.path opening.call) session).process = session

section OneCall

variable {around : Surroundings} {opening : OpenCall} {opts : OpenOptions}
  {engine : Engine Stream} {path : Text} {session : Session}

theorem creates_of_createNew (exclusive : opts.createNew = true) :
    opts.creates = true := by
  unfold OpenOptions.creates
  rw [exclusive, Bool.or_true]

/-- The file that an open has made has a second `Arc`, so it outlives any
stream that is dropped. -/
theorem makesNew_drop {fs after : MemoryFs} {key : Text} {file : Nat}
    {name : Text} {content : MemFile}
    (placed : after.entries.lookup key = some (.memFile file name))
    (new : fs.files.lookup file = none)
    (made : after.files.lookup file = some content)
    (empty : content.data = []) (shared : 1 < content.strong)
    (dropped : Stream) : MakesNew key fs (dropped.drop after) := by
  cases dropped with
  | source origin pos =>
      refine ⟨file, name, placed, new, ?_⟩
      change after.fileData file = some []
      rw [MemoryFs.fileData, made, Option.map_some, empty]
  | memory other pos =>
      refine ⟨file, name, ?_, new, ?_⟩
      · change (after.dropFile other).entries.lookup key = _
        rw [MemoryFs.entries_dropFile]
        exact placed
      · change (after.dropFile other).fileData file = some []
        by_cases same : other = file
        · subst same
          have kept := MemoryFs.sameContent_dropFile made shared
          rw [kept.bytes, MemoryFs.fileData, made, Option.map_some, empty]
        · rw [MemoryFs.fileData_dropFile_ne (Ne.symm same),
            MemoryFs.fileData, made, Option.map_some, empty]

/-- An open that makes a file, up to the stream it replaces. -/
theorem makesNew_openTree (sound : Owned session)
    (creates : opts.creates = true) (write : opts.write = true)
    (absent : session.vfs.entries.lookup (normalizeKeyStr path) = none)
    {now : Time} {after : MemoryFs}
    (replaced : Replaces engine (openTree now path opts session.vfs).2
      after) : MakesNew (normalizeKeyStr path) session.vfs after := by
  have within := sound.within
  have fills := MemoryFs.fills_fillAncestors path
  rw [openTree, write, if_pos rfl, MemoryFs.openWrite_eq,
    MemoryFs.openWriteAt_absent within absent creates] at replaced
  obtain ⟨content, made, empty, shared⟩ := MemoryFs.emptied_withNew within now
    (normalizeKeyStr path) (finalComponent path)
    (MemoryFs.fillAncestors path) opts
  have placed : ((session.vfs.withNew now (normalizeKeyStr path)
      (finalComponent path) (MemoryFs.fillAncestors path)).emptied now opts
        session.vfs.nextFile).entries.lookup (normalizeKeyStr path) =
      some (.memFile session.vfs.nextFile (finalComponent path)) := by
    rw [MemoryFs.entries_emptied]
    exact fills _ _ _ (AList.lookup_insert _)
  have new := sound.fresh session.vfs.nextFile (Nat.le_refl _)
  rcases replaced with rfl | ⟨handle, old, -, rfl⟩
  · refine ⟨_, _, placed, new, ?_⟩
    rw [MemoryFs.fileData, made, Option.map_some, empty]
  · exact makesNew_drop placed new made empty shared old.stream.inner

/-- What the provider makes of an exclusive open where something is. -/
theorem openTree_present {fs : MemoryFs}
    (exclusive : opts.createNew = true) (now : Time)
    (present : fs.entries.lookup (normalizeKeyStr path) ≠ none) :
    (opts.write = true ∧ WritableFile (normalizeKeyStr path) fs ∧
      openTree now path opts fs =
        (some (.error (.custom .alreadyExists "file already exists")), fs)) ∨
    (¬(opts.write = true ∧ WritableFile (normalizeKeyStr path) fs) ∧
      ((∃ stream, (openTree now path opts fs).1 = some (.ok stream)) ∨
        declinedErrno (openTree now path opts fs).1 ≠ Errno.EEXIST)) := by
  unfold openTree WritableFile
  cases write : opts.write with
  | true =>
      rw [if_pos rfl, MemoryFs.openWrite_eq, MemoryFs.openWriteAt]
      cases found : fs.entries.lookup (normalizeKeyStr path) with
      | none =>
          exact absurd found present
      | some node =>
          cases node with
          | dir name =>
              right
              simp [declinedErrno, MemoryFs.isDirectory, ioToErrno,
                ioToErrno.ofKind, Errno.EACCES, Errno.EEXIST]
          | file source name mtime =>
              right
              simp [declinedErrno, readOnly, ioToErrno,
                ioToErrno.ofKind, Errno.EACCES, Errno.EEXIST]
          | memFile file name =>
              left
              simp [exclusive]
  | false =>
      right
      rw [if_neg Bool.false_ne_true, MemoryFs.open_eq, MemoryFs.openAt]
      cases found : fs.entries.lookup (normalizeKeyStr path) with
      | none =>
          exact absurd found present
      | some node =>
          cases node with
          | dir name =>
              simp [declinedErrno, MemoryFs.isDirectory, ioToErrno,
                ioToErrno.ofKind, Errno.EACCES, Errno.EEXIST]
          | file source name mtime =>
              simp
          | memFile file name =>
              simp

section Law

variable (asked : opening.options = some opts)
  (exclusive : opts.createNew = true) (allows : engine.allowWrites = true)
  (arrives : Arrives opening.call.path session engine (.virtual path))
include asked exclusive allows arrives

/-- Where something is, the call fails with `EEXIST` only if it asks for
write access to a writable file. -/
theorem writableFile_of_eexist
    (present : session.vfs.entries.lookup (normalizeKeyStr path) ≠ none)
    (failed : (shim around.machine (.path opening.call) session).reply.ret =
      opening.failure)
    (errno : (shim around.machine (.path opening.call) session).reply.errno =
      some Errno.EEXIST) :
    opts.write = true ∧ WritableFile (normalizeKeyStr path) session.vfs := by
  rcases openTree_present exclusive around.ambient.now present with
    ⟨write, writable, -⟩ | ⟨-, outcome⟩
  · exact ⟨write, writable⟩
  · cases opens_shim around arrives with
    | invalid given _ _ =>
        rw [asked] at given
        cases given
    | denied others given write denies _ _ =>
        rw [allows] at denies
        cases denies
    | declined others given permits closed _ reason after =>
        rw [asked] at given
        cases given
        rcases outcome with ⟨stream, opened⟩ | different
        · exact absurd opened (closed stream)
        · rw [reason] at errno
          exact absurd (Option.some.inj errno) different
    | refused others given permits stream opened refused _ reason after =>
        exact absurd errno reason
    | granted others given permits stream opened granted succeeded after =>
        exact absurd failed succeeded

omit allows in
theorem createsExclusively_of_absent (sound : Owned session)
    (absent : session.vfs.entries.lookup (normalizeKeyStr path) = none) :
    CreatesExclusively around opening path session where
  fresh succeeded := by
    refine ⟨absent, ?_⟩
    cases opens_shim around arrives with
    | invalid given failed _ =>
        exact absurd failed succeeded
    | denied others given write denies failed _ =>
        exact absurd failed succeeded
    | declined others given permits closed failed reason after =>
        exact absurd failed succeeded
    | refused others given permits stream opened refused failed _ after =>
        exact absurd failed succeeded
    | granted others given permits stream opened granted _ after =>
        rw [asked] at given
        cases given
        cases write : opts.write with
        | true =>
            exact makesNew_openTree sound (creates_of_createNew exclusive)
              write absent after
        | false =>
            have missing : (openTree around.ambient.now path opts
                session.vfs).1 = none := by
              rw [openTree, write, if_neg Bool.false_ne_true,
                MemoryFs.open_eq, MemoryFs.openAt, absent]
            rw [missing] at opened
            cases opened
  refuses present := absurd absent present

theorem createsExclusively_of_writable (write : opts.write = true)
    (writable : WritableFile (normalizeKeyStr path) session.vfs) :
    CreatesExclusively around opening path session := by
  obtain ⟨file, name, found⟩ := writable
  have present : session.vfs.entries.lookup (normalizeKeyStr path) ≠
      none := by
    rw [found]
    exact nofun
  have refused : openTree around.ambient.now path opts session.vfs =
      (some (.error (.custom .alreadyExists "file already exists")),
        session.vfs) := by
    rcases openTree_present exclusive around.ambient.now present with
      ⟨-, -, same⟩ | ⟨other, -⟩
    · exact same
    · exact absurd ⟨write, file, name, found⟩ other
  have result : (shim around.machine (.path opening.call) session).reply.ret =
        opening.failure ∧
      (shim around.machine (.path opening.call) session).reply.errno =
        some Errno.EEXIST ∧
      (shim around.machine (.path opening.call) session).process =
        session := by
    cases opens_shim around arrives with
    | invalid given _ _ =>
        rw [asked] at given
        cases given
    | denied others given write denies _ _ =>
        rw [allows] at denies
        cases denies
    | declined others given permits closed failed reason after =>
        rw [asked] at given
        cases given
        rw [refused] at reason after
        exact ⟨failed, reason, after⟩
    | refused others given permits stream opened _ _ _ _ =>
        rw [asked] at given
        cases given
        rw [refused] at opened
        cases opened
    | granted others given permits stream opened _ _ _ =>
        rw [asked] at given
        cases given
        rw [refused] at opened
        cases opened
  exact ⟨fun succeeded => absurd result.1 succeeded, fun _ => result⟩

/-- An exclusive open keeps its promise where nothing is, and where it asks
for write access to a writable file. -/
theorem createsExclusively_iff (sound : Owned session) :
    CreatesExclusively around opening path session ↔
      session.vfs.entries.lookup (normalizeKeyStr path) = none ∨
        opts.write = true ∧
          WritableFile (normalizeKeyStr path) session.vfs := by
  constructor
  · intro law
    by_cases present : session.vfs.entries.lookup (normalizeKeyStr path) =
        none
    · exact .inl present
    · obtain ⟨failed, errno, -⟩ := law.refuses present
      exact .inr (writableFile_of_eexist asked exclusive allows arrives
        present failed errno)
  · rintro (absent | ⟨write, writable⟩)
    · exact createsExclusively_of_absent asked exclusive arrives sound absent
    · exact createsExclusively_of_writable asked exclusive allows arrives
        write writable

end Law

end OneCall

end Hookfs.Unix
