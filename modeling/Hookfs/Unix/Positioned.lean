import Hookfs.Unix.Vectored

/-!
# `pread` and `pwrite`

A positioned transfer moves the cursor, transfers, and moves the cursor back
whatever came of it; so it does what a seek and a transfer do, and leaves the
cursor where it was.
-/

namespace Hookfs.Unix

open Hookfs.Lib Hookfs.Vfs Hookfs.Router Hookfs.Memory

open MemoryFs (Stream)

/-! ## Transfers -/

/-- An operation that leaves the stream as it was, but for its cursor. -/
def MovesOnly {Value : Type}
    (operate : OpenStream Stream → MemoryFs →
      Except IoError Value × OpenStream Stream × MemoryFs) : Prop :=
  ∀ stream fs, ∃ pos, (operate stream fs).2.1 = moved stream pos

section Transfers

variable (around : Surroundings) {Value : Type}
  {operate : OpenStream Stream → MemoryFs →
    Except IoError Value × OpenStream Stream × MemoryFs}

theorem seek_start_eq {offset : Nat} (word : offset ≤ wordMax)
    (stream : OpenStream Stream) (fs : MemoryFs) :
    stream.seek around.machine.provider around.machine.ambient
        (.start offset) fs =
      (.ok offset, moved stream offset, fs) := by
  have reached : stream.inner.seek (.start offset) fs =
      (.ok offset, stream.inner.moveTo offset) := by
    have aimed : seekTo (stream.inner.size fs) stream.inner.position
        (.start offset) = .ok offset := by
      unfold seekTo
      simp only [Int.toNat_natCast]
      rw [if_neg (by omega), if_pos word]
    unfold Stream.seek
    rw [aimed]
  simp only [OpenStream.seek, OpenStream.both, Surroundings.machine,
    MemoryFs.provider, reached]
  rfl

/-- What a positioned operation does, with the cursor back in its place. -/
theorem positioned_eq (moves : MovesOnly operate) {offset : Nat}
    (word : offset ≤ wordMax) {stream : OpenStream Stream}
    (cursor : stream.inner.position ≤ wordMax) (fs : MemoryFs) :
    positioned around.machine offset operate stream fs =
      ((operate (moved stream offset) fs).1, stream,
        (operate (moved stream offset) fs).2.2) := by
  have saved : stream.streamPosition around.machine.provider
      around.machine.ambient fs =
        (.ok stream.inner.position, stream, fs) := by
    cases stream with
    | read inner =>
        rfl
    | write inner =>
        rfl
  obtain ⟨pos, there⟩ := moves (moved stream offset) fs
  unfold positioned
  simp only [saved, seek_start_eq around word, there,
    seek_start_eq around cursor, moved_moved, moved_position]

theorem movesOnly_both
    {method : Stream → MemoryFs → Except IoError Value × Stream × MemoryFs}
    (moves : ∀ stream fs, ∃ pos,
      (method stream fs).2.1 = stream.moveTo pos) :
    MovesOnly (OpenStream.both method) := by
  intro stream fs
  obtain ⟨pos, there⟩ := moves stream.inner fs
  refine ⟨pos, ?_⟩
  simp only [OpenStream.both, there]
  rfl

theorem movesOnly_readBytes (len : Nat) :
    MovesOnly (OpenStream.readBytes around.machine.provider
      around.machine.ambient len) := by
  apply movesOnly_both
  intro stream fs
  change ∃ pos, (stream.read around.ambient.physical len fs).2 =
    stream.moveTo pos
  cases stream with
  | source origin pos =>
      unfold Stream.read
      simp only
      split
      · exact ⟨pos, rfl⟩
      · split
        · exact ⟨pos, rfl⟩
        · exact ⟨_, rfl⟩
  | memory id pos =>
      unfold Stream.read
      simp only
      split
      · exact ⟨pos, rfl⟩
      · exact ⟨_, rfl⟩

theorem movesOnly_writeBytes (data : List UInt8) :
    MovesOnly (OpenStream.writeBytes around.machine.provider
      around.machine.ambient data) := by
  intro stream fs
  cases stream with
  | read inner =>
      exact ⟨inner.position, (moved_position (.read inner)).symm⟩
  | write inner =>
      apply movesOnly_both
      intro inner fs
      change ∃ pos, (inner.write around.ambient.now data fs).2.1 =
        inner.moveTo pos
      cases inner with
      | source origin pos =>
          exact ⟨pos, rfl⟩
      | memory id pos =>
          simp only [Stream.write, MemoryFs.writeHandle]
          split
          · exact ⟨pos, rfl⟩
          · exact ⟨_, rfl⟩

end Transfers

/-! ## The calls -/

/-- A positioned call did what a seek and a plain call did, and left the
descriptor as it was before. -/
structure SamePositioned (fd : Int) (before : Session)
    (call plain : Result MemoryFs Stream) : Prop where
  reply : call.reply = plain.reply
  stream : streamAt fd call.process = streamAt fd before
  bytes : ∀ id, (call.process.vfs.files.lookup id).map MemFile.data =
    (plain.process.vfs.files.lookup id).map MemFile.data
  used : call.process.vfs.volume.used = plain.process.vfs.volume.used

/-- The session after `lseek(fd, offset, SEEK_SET)`. -/
def soughtTo (around : Surroundings) (sym : LseekSym) (fd offset : Int)
    (session : Session) : Session :=
  (shim around.machine (.fd (.lseek sym fd offset 0)) session).process

section Calls

variable {around : Surroundings} {session : Session}
  {engine : Engine Stream} {fd : Int} {file : OpenFile Stream}
  (outside : session.inHook = false)
  (active : session.engine = some engine)
  (registered : engine.registry.getFile (fdKey fd) = some file)
  {offset : Int} (start : 0 ≤ offset) (small : offset < 2 ^ 63)
include outside active registered start small

theorem soughtTo_eq (sym : LseekSym) :
    soughtTo around sym fd offset session =
      keepStream fd engine file (moved file.stream offset.toNat) session.vfs
        session := by
  have aimed : seekFrom 0 offset = some (.start offset.toNat) := by
    unfold seekFrom
    rw [if_pos rfl, if_neg (by omega)]
  change (shimLseek around.machine sym fd offset 0 session).process = _
  unfold shimLseek
  rw [withFile_hit outside active registered]
  simp only [aimed, seek_start_eq around
    (show offset.toNat ≤ wordMax by unfold wordMax; omega)]
  rfl

omit active registered start small in
/-- A call on a descriptor whose stream has just been written back. -/
theorem withFile_keepStream {call : FdCall}
    {served : Engine Stream → OpenFile Stream → Session →
      Result MemoryFs Stream} (stream : OpenStream Stream) (vfs : MemoryFs) :
    withFile around.machine call fd served
        (keepStream fd engine file stream vfs session) =
      served { engine with
          registry := engine.registry.putFile (fdKey fd)
            { file with stream := stream } }
        { file with stream := stream }
        (keepStream fd engine file stream vfs session) := by
  apply withFile_hit
  · exact outside
  · rfl
  · exact AList.lookup_insert _

variable (cursor : file.stream.inner.position ≤ wordMax)
include cursor

theorem pread_same (sym : LseekSym) (buf : Sink) :
    SamePositioned fd session
      (shim around.machine (.fd (.pread fd buf offset)) session)
      (shim around.machine (.fd (.read fd buf))
        (soughtTo around sym fd offset session)) := by
  have word : offset.toNat ≤ wordMax := by
    unfold wordMax
    omega
  rw [soughtTo_eq outside active registered start small sym]
  change SamePositioned fd session
    (shimPread around.machine fd buf offset session)
    (shimRead around.machine fd buf _)
  unfold shimPread shimRead
  rw [withFile_hit outside active registered,
    withFile_keepStream outside]
  simp only
  by_cases empty : buf.len = 0
  · rw [if_pos empty, if_pos empty]
    exact ⟨rfl, rfl, fun _ => rfl, rfl⟩
  · rw [if_neg empty, if_neg empty]
    by_cases null : buf.base = 0
    · rw [if_pos null, if_pos null]
      exact ⟨rfl, rfl, fun _ => rfl, rfl⟩
    · rw [if_neg null, if_neg null, if_neg (by omega)]
      have read := positioned_eq around
        (movesOnly_readBytes around buf.len) word cursor
          session.vfs
      simp only [read]
      refine ⟨rfl, ?_, fun _ => rfl, rfl⟩
      rw [streamAt_answerStream]
      exact (streamAt_registered active registered).symm

theorem pwrite_same (sym : LseekSym) (buf : Source) :
    SamePositioned fd session
      (shim around.machine (.fd (.pwrite fd buf offset)) session)
      (shim around.machine (.fd (.write fd buf))
        (soughtTo around sym fd offset session)) := by
  have word : offset.toNat ≤ wordMax := by
    unfold wordMax
    omega
  rw [soughtTo_eq outside active registered start small sym]
  change SamePositioned fd session
    (shimPwrite around.machine fd buf offset session)
    (shimWrite around.machine fd buf _)
  unfold shimPwrite shimWrite withWritable
  rw [withFile_hit outside active registered,
    withFile_keepStream outside]
  simp only
  cases file.writable with
  | false =>
      exact ⟨rfl, rfl, fun _ => rfl, rfl⟩
  | true =>
      simp only [Bool.not_true, Bool.false_eq_true, if_false]
      by_cases empty : buf.count = 0
      · rw [if_pos empty, if_pos empty]
        exact ⟨rfl, rfl, fun _ => rfl, rfl⟩
      · rw [if_neg empty, if_neg empty]
        cases buf with
        | null count =>
            exact ⟨rfl, rfl, fun _ => rfl, rfl⟩
        | bytes data =>
            have wrote := positioned_eq around
              (movesOnly_writeBytes around data) word cursor
                session.vfs
            simp only [wrote]
            rw [if_neg (by omega)]
            refine ⟨rfl, ?_, fun _ => rfl, rfl⟩
            rw [streamAt_answerStream]
            exact (streamAt_registered active registered).symm

end Calls

/-- `pread` and `pwrite` are a seek and a transfer, and leave the cursor where
it was. -/
theorem positioned_calls_keep_cursor (around : Surroundings)
    (session : Session) (engine : Engine Stream) (fd : Int)
    (file : OpenFile Stream) (outside : session.inHook = false)
    (active : session.engine = some engine)
    (registered : engine.registry.getFile (fdKey fd) = some file)
    (cursor : file.stream.inner.position ≤ wordMax)
    (offset : Int) (start : 0 ≤ offset) (small : offset < 2 ^ 63)
    (sym : LseekSym) :
    (∀ buf : Sink,
      SamePositioned fd session
        (shim around.machine (.fd (.pread fd buf offset)) session)
        (shim around.machine (.fd (.read fd buf))
          (soughtTo around sym fd offset session))) ∧
    ∀ buf : Source,
      SamePositioned fd session
        (shim around.machine (.fd (.pwrite fd buf offset)) session)
        (shim around.machine (.fd (.write fd buf))
          (soughtTo around sym fd offset session)) := by
  constructor
  · intro buf
    exact pread_same outside active registered start small cursor sym buf
  · intro buf
    exact pwrite_same outside active registered start small cursor sym buf

/-- An empty file, and a write that the capacity cuts short. -/
theorem positioned_calls_keep_cursor_opened :
    SamePositioned 7 openedBoth.session
        (shim idle.machine (.fd (.pread 7 ⟨1, 2⟩ 0)) openedBoth.session)
        (shim idle.machine (.fd (.read 7 ⟨1, 2⟩))
          (soughtTo idle .lseek 7 0 openedBoth.session)) ∧
      SamePositioned 7 openedBoth.session
        (shim idle.machine (.fd (.pwrite 7 (.bytes [1, 2, 3]) 2))
          openedBoth.session)
        (shim idle.machine (.fd (.write 7 (.bytes [1, 2, 3])))
          (soughtTo idle .lseek 7 2 openedBoth.session)) := by
  have kept (offset : Int) (start : 0 ≤ offset) (small : offset < 2 ^ 63) :=
    positioned_calls_keep_cursor idle openedBoth.session openedEngine 7
      ⟨.write (.memory 0 0), "/v/a".toList, true⟩ rfl rfl rfl (by decide)
      offset start small .lseek
  exact ⟨(kept 0 (by decide) (by decide)).1 ⟨1, 2⟩,
    (kept 2 (by decide) (by decide)).2 (.bytes [1, 2, 3])⟩

end Hookfs.Unix
