import Hookfs.Memory.Accounting
import Hookfs.Memory.Provider
import Hookfs.Unix.Shims

/-!
# A process over an in-memory tree

Sequences of hooked calls and cookie callbacks over `MemoryFs`, the `Arc`s
that the open descriptors and cookies hold, and what calls on descriptors
without write access can do: move cursors, and drop what they close.
-/

namespace Hookfs.Unix

open Hookfs.Lib Hookfs.Vfs Hookfs.Router Hookfs.Memory

open MemoryFs (Stream)

/-- What surrounds one call. -/
structure Surroundings where
  ambient : Memory.Ambient
  os : LibcCall → Reply
  hasher : Text → Nat

/-- The machine with the in-memory provider. -/
def Surroundings.machine (around : Surroundings) :
    Machine Memory.Ambient MemoryFs Stream where
  provider := MemoryFs.provider
  ambient := around.ambient
  os := around.os
  hasher := around.hasher

/-- A hooked call, or what libc does to a virtual `FILE*`. -/
inductive Event where
  | call (around : Surroundings) (call : Call)
  | cookie (around : Surroundings) (call : CookieCall)

/-- A process over an in-memory tree. -/
abbrev Session := Process MemoryFs Stream

namespace Session

def step (session : Session) : Event → Session
  | .call around call => (shim around.machine call session).process
  | .cookie around call => (cookieCall around.machine call session).process

/-! ## Held files -/

def registryHolds (registry : Registry Stream) : Nat → Nat :=
  Store.total (fun _ file => file.stream.inner.holds) registry.files

def engineHolds (session : Session) : Nat → Nat :=
  match session.engine with
  | none => 0
  | some engine => registryHolds engine.registry

def cookieHolds (session : Session) : Nat → Nat :=
  Store.total (fun _ state => state.stream.inner.holds) session.cookies

/-- The `Arc`s that the session holds. -/
def holds (session : Session) : Nat → Nat :=
  session.engineHolds + session.cookieHolds

end Session

section Holds

variable {session : Session} {engine : Engine Stream}
  {file : OpenFile Stream} {fd : Int}

theorem holds_of_active (active : session.engine = some engine) :
    session.holds =
      Session.registryHolds engine.registry + session.cookieHolds := by
  unfold Session.holds Session.engineHolds
  rw [active]

theorem registryHolds_of_hit {registry : Registry Stream}
    (hit : registry.getFile (fdKey fd) = some file) :
    Session.registryHolds registry = file.stream.inner.holds +
      Session.registryHolds (registry.removeFile (fdKey fd)) :=
  Store.total_erase_of_lookup _ hit

theorem registryHolds_putFile (registry : Registry Stream) :
    Session.registryHolds (registry.putFile (fdKey fd) file) =
      file.stream.inner.holds +
        Session.registryHolds (registry.removeFile (fdKey fd)) :=
  Store.total_insert _ _ _ _

/-- Moving a cursor holds the same files. -/
theorem holds_keepStream {stream : OpenStream Stream} (fs : MemoryFs)
    (active : session.engine = some engine)
    (hit : engine.registry.getFile (fdKey fd) = some file)
    (same : stream.inner.holds = file.stream.inner.holds) :
    Session.holds (keepStream fd engine file stream fs session) =
      session.holds := by
  rw [holds_of_active active, registryHolds_of_hit hit, ← same]
  rw [holds_of_active rfl, registryHolds_putFile]
  rfl

def closedFd (fd : Int) (engine : Engine Stream) (fs : MemoryFs)
    (session : Session) : Session :=
  (session.withEngine { engine with
    registry := engine.registry.removeFile (fdKey fd) }).withVfs fs

theorem holds_closedFd (fs : MemoryFs)
    (active : session.engine = some engine)
    (hit : engine.registry.getFile (fdKey fd) = some file) :
    session.holds = Session.holds (closedFd fd engine fs session) +
      file.stream.inner.holds := by
  have after : Session.holds (closedFd fd engine fs session) =
      Session.registryHolds (engine.registry.removeFile (fdKey fd)) +
        session.cookieHolds := rfl
  rw [after, holds_of_active active, registryHolds_of_hit hit]
  abel

theorem holds_keepCookie {cookie : Nat} {state : CookieState Stream}
    {stream : OpenStream Stream} (fs : MemoryFs)
    (hit : session.cookies.lookup cookie = some state)
    (same : stream.inner.holds = state.stream.inner.holds) :
    Session.holds (keepCookie cookie state stream fs session) =
      session.holds := by
  have kept : Session.cookieHolds (keepCookie cookie state stream fs session) =
      session.cookieHolds := by
    unfold Session.cookieHolds keepCookie
    rw [Store.total_erase_of_lookup _ hit, Store.total_insert, same]
  unfold Session.holds
  rw [kept]
  rfl

def closedCookie (cookie : Nat) (fs : MemoryFs) (session : Session) :
    Session :=
  { session with cookies := session.cookies.erase cookie, vfs := fs }

theorem holds_closedCookie {cookie : Nat} {state : CookieState Stream}
    (fs : MemoryFs) (hit : session.cookies.lookup cookie = some state) :
    session.holds = Session.holds (closedCookie cookie fs session) +
      state.stream.inner.holds := by
  have before : session.cookieHolds = state.stream.inner.holds +
      Session.cookieHolds (closedCookie cookie fs session) :=
    Store.total_erase_of_lookup _ hit
  unfold Session.holds
  rw [before]
  change _ = session.engineHolds + _ + _
  abel

/-- A new cookie; one that was there is forgotten. -/
theorem cookieHolds_insert (session : Session) (cookie : Nat)
    (state : CookieState Stream) (file : Nat) :
    Session.cookieHolds { session with
        cookies := session.cookies.insert cookie state } file ≤
      session.cookieHolds file + state.stream.inner.holds file := by
  have held : Session.cookieHolds { session with
      cookies := session.cookies.insert cookie state } =
        state.stream.inner.holds +
          Store.total (fun _ state => state.stream.inner.holds)
            (session.cookies.erase cookie) :=
    Store.total_insert _ _ _ _
  have fewer : Store.total (fun _ (state : CookieState Stream) =>
      state.stream.inner.holds) (session.cookies.erase cookie) file ≤
        session.cookieHolds file := by
    unfold Session.cookieHolds
    cases found : session.cookies.lookup cookie with
    | none =>
        rw [Store.total_erase_of_none _ found]
    | some old =>
        rw [Store.total_erase_of_lookup _ found]
        exact Nat.le_add_left _ _
  rw [held, Pi.add_apply]
  omega

end Holds

/-! ## Operations that only read -/

section Reads

variable {Value : Type}

/-- An operation on a stream that leaves the tree alone and keeps hold of the
stream's file. -/
def Reads (operate : OpenStream Stream → MemoryFs →
    Value × OpenStream Stream × MemoryFs) : Prop :=
  ∀ stream fs, (operate stream fs).2.2 = fs ∧
    (operate stream fs).2.1.inner.holds = stream.inner.holds

@[simp]
theorem inner_replace (opened : OpenStream Stream) (stream : Stream) :
    (opened.replace stream).inner = stream := by
  cases opened with
  | read _ =>
      rfl
  | write _ =>
      rfl

theorem reads_both {method : Stream → MemoryFs → Value × Stream × MemoryFs}
    (reads : ∀ stream fs, (method stream fs).2.2 = fs ∧
      (method stream fs).2.1.holds = stream.holds) :
    Reads (OpenStream.both method) := by
  intro opened fs
  have inner := reads opened.inner fs
  constructor
  · exact inner.1
  · simp only [OpenStream.both, inner_replace]
    exact inner.2

variable (ambient : Memory.Ambient)

theorem reads_readBytes (len : Nat) :
    Reads (OpenStream.readBytes MemoryFs.provider ambient len) :=
  reads_both fun stream fs =>
    ⟨rfl, MemoryFs.holds_read ambient.physical len fs stream⟩

theorem reads_seek (target : SeekFrom) :
    Reads (OpenStream.seek MemoryFs.provider ambient target) :=
  reads_both fun stream fs =>
    ⟨rfl, MemoryFs.holds_seek target fs stream⟩

theorem reads_streamPosition :
    Reads (OpenStream.streamPosition MemoryFs.provider ambient) :=
  reads_both fun _ _ => ⟨rfl, rfl⟩

theorem reads_size : Reads (OpenStream.size MemoryFs.provider ambient) :=
  reads_both fun _ _ => ⟨rfl, rfl⟩

theorem reads_flush : Reads (OpenStream.flush MemoryFs.provider ambient) := by
  intro opened fs
  cases opened with
  | read stream =>
      exact ⟨rfl, rfl⟩
  | write stream =>
      exact ⟨rfl, rfl⟩

variable (around : Surroundings)

theorem reads_positioned (offset : Nat)
    {operate : OpenStream Stream → MemoryFs →
      Except IoError Value × OpenStream Stream × MemoryFs}
    (reads : Reads operate) :
    Reads (positioned around.machine offset operate) := by
  intro stream fs
  have asked := reads_streamPosition around.ambient stream fs
  unfold positioned
  simp only [Surroundings.machine]
  split
  · next error moved next result =>
    rw [result] at asked
    exact asked
  · next saved moved next result =>
    rw [result] at asked
    obtain ⟨same, held⟩ := asked
    subst same
    have back := reads_seek around.ambient (.start saved)
    have sought := reads_seek around.ambient (.start offset) moved next
    split
    · next error there same located =>
      rw [located] at sought
      obtain ⟨equal, still⟩ := sought
      subst equal
      have final := back there same
      exact ⟨final.1, final.2.trans (still.trans held)⟩
    · next pos there same located =>
      rw [located] at sought
      obtain ⟨equal, still⟩ := sought
      subst equal
      have operated := reads there same
      have final := back (operate there same).2.1 (operate there same).2.2
      exact ⟨final.1.trans operated.1,
        final.2.trans (operated.2.trans (still.trans held))⟩

theorem reads_readvLoop (sinks : List Sink)
    (pieces : List (Nat × List UInt8)) (total : Nat) :
    Reads (readvLoop around.machine sinks pieces total) := by
  induction sinks generalizing pieces total with
  | nil =>
      intro stream fs
      exact ⟨rfl, rfl⟩
  | cons sink rest inductionHypothesis =>
      intro stream fs
      unfold readvLoop
      split
      · exact inductionHypothesis pieces total stream fs
      · have read := reads_readBytes around.ambient sink.len stream fs
        simp only [Surroundings.machine] at read ⊢
        split
        · next bytes moved next result =>
          rw [result] at read
          obtain ⟨same, held⟩ := read
          subst same
          split
          · exact ⟨rfl, held⟩
          · split
            · exact ⟨rfl, held⟩
            · have later := inductionHypothesis
                (pieces ++ [(sink.base, bytes)]) (total + bytes.length)
                moved next
              exact ⟨later.1, later.2.trans held⟩
        · next error moved next result =>
          rw [result] at read
          split
          · exact read
          · exact read

end Reads

/-! ## Calls without write access -/

/-- A property of sessions that survives moving a cursor and closing a
descriptor or a cookie. -/
structure KeptByReading (good : Session → Prop) : Prop where
  moved : ∀ {session : Session} {engine : Engine Stream} {fd : Int}
    {file : OpenFile Stream} {stream : OpenStream Stream}, good session →
    session.engine = some engine →
    engine.registry.getFile (fdKey fd) = some file →
    stream.inner.holds = file.stream.inner.holds →
      good (keepStream fd engine file stream session.vfs session)
  closed : ∀ {session : Session} {engine : Engine Stream} {fd : Int}
    {file : OpenFile Stream}, good session →
    session.engine = some engine →
    engine.registry.getFile (fdKey fd) = some file →
      good (closedFd fd engine (file.stream.inner.drop session.vfs) session)
  cookieMoved : ∀ {session : Session} {cookie : Nat}
    {state : CookieState Stream} {stream : OpenStream Stream}, good session →
    session.cookies.lookup cookie = some state →
    stream.inner.holds = state.stream.inner.holds →
      good (keepCookie cookie state stream session.vfs session)
  cookieClosed : ∀ {session : Session} {cookie : Nat}
    {state : CookieState Stream}, good session →
    session.cookies.lookup cookie = some state →
      good (closedCookie cookie (state.stream.inner.drop session.vfs) session)

/-- The handle is not registered with write access. -/
def LockedHandle (handle : Nat) (session : Session) : Prop :=
  ∀ engine file, session.engine = some engine →
    engine.registry.getFile handle = some file → file.writable = false

/-- The cookie was not opened with write access. -/
def LockedCookie (cookie : Nat) (session : Session) : Prop :=
  ∀ state, session.cookies.lookup cookie = some state →
    state.writable = false

/-- A call that may change a file. -/
def FdCall.Writes : FdCall → Prop
  | .write _ _ => True
  | .writev _ _ _ => True
  | .pwrite _ _ _ => True
  | .ftruncate _ _ _ => True
  | _ => False

/-- A callback that may change a file. -/
def CookieCall.Writes : CookieCall → Prop
  | .write _ _ => True
  | _ => False

section Keeps

variable {good : Session → Prop} (kept : KeptByReading good)
  (around : Surroundings) {session : Session} (here : good session)
include kept here

theorem answerStream_keeps {engine : Engine Stream} {fd : Int}
    {file : OpenFile Stream}
    {outcome : Reply × OpenStream Stream × MemoryFs}
    (active : session.engine = some engine)
    (hit : engine.registry.getFile (fdKey fd) = some file)
    (reads : outcome.2.2 = session.vfs ∧
      outcome.2.1.inner.holds = file.stream.inner.holds) :
    good (answerStream fd engine file session outcome).process := by
  unfold answerStream
  rw [reads.1]
  exact kept.moved here active hit reads.2

theorem answerCookie_keeps {cookie : Nat} {state : CookieState Stream}
    {outcome : Reply × OpenStream Stream × MemoryFs}
    (hit : session.cookies.lookup cookie = some state)
    (reads : outcome.2.2 = session.vfs ∧
      outcome.2.1.inner.holds = state.stream.inner.holds) :
    good (answerCookie cookie state session outcome).process := by
  unfold answerCookie
  rw [reads.1]
  exact kept.cookieMoved here hit reads.2

omit kept in
/-- The writing shims stop at a descriptor without write access. -/
theorem withWritable_keeps {call : FdCall} {fd : Int}
    {served : Engine Stream → OpenFile Stream → Session →
      Result MemoryFs Stream}
    (locked : LockedHandle (fdKey fd) session) :
    good (withWritable around.machine call fd served session).process := by
  refine withFile_keeps here fun engine file active hit => ?_
  rw [locked engine file active hit]
  exact here

/-- What the writing calls keep, all calls on descriptors keep. -/
theorem shimFd_frame {call : FdCall}
    (writes : call.Writes →
      good (shimFd around.machine call session).process) :
    good (shimFd around.machine call session).process := by
  cases call with
  | read fd buf =>
      refine withFile_keeps here fun engine file active hit => ?_
      split
      · exact here
      · split
        · exact here
        · exact answerStream_keeps kept here active hit
            (reads_readBytes around.ambient buf.len file.stream session.vfs)
  | readv fd iov iovcnt =>
      refine withFile_keeps here fun engine file active hit => ?_
      split
      · exact here
      · split
        · exact here
        · exact answerStream_keeps kept here active hit
            (reads_readvLoop around _ [] 0 file.stream session.vfs)
  | pread fd buf offset =>
      refine withFile_keeps here fun engine file active hit => ?_
      split
      · exact here
      · split
        · exact here
        · split
          · exact here
          · exact answerStream_keeps kept here active hit
              (reads_positioned around offset.toNat
                (reads_readBytes around.ambient buf.len)
                file.stream session.vfs)
  | lseek sym fd offset whence =>
      refine withFile_keeps here fun engine file active hit => ?_
      split
      · exact here
      · exact answerStream_keeps kept here active hit
          (reads_seek around.ambient _ file.stream session.vfs)
  | write fd buf =>
      exact writes trivial
  | writev fd iov iovcnt =>
      exact writes trivial
  | pwrite fd buf offset =>
      exact writes trivial
  | ftruncate sym fd length =>
      exact writes trivial
  | fsync fd =>
      refine withFile_keeps here fun engine file active hit => ?_
      exact answerStream_keeps kept here active hit
        (reads_flush around.ambient file.stream session.vfs)
  | fchmod fd mode =>
      simp only [shimFd, shimFchmod]
      split
      · exact here
      · split
        · exact here
        · split
          · exact here
          · exact here
  | fstat sym fd buf =>
      refine withFile_keeps here fun engine file active hit => ?_
      exact answerStream_keeps kept here active hit
        (reads_size around.ambient file.stream session.vfs)
  | fstatvfs fd buf =>
      refine withFile_keeps here fun engine file active hit => ?_
      exact here
  | fdopendir fd =>
      exact withFile_keeps here fun engine file active hit => here
  | sendfile outFd inFd offset count =>
      exact withFile_keeps here fun engine file active hit => here
  | close fd =>
      exact withFile_keeps here fun engine file active hit =>
        kept.closed here active hit

theorem shimFd_keeps {call : FdCall}
    (locked : ∀ fd ∈ call.fds, LockedHandle (fdKey fd) session) :
    good (shimFd around.machine call session).process := by
  apply shimFd_frame kept around here
  intro writes
  cases call with
  | write fd buf =>
      exact withWritable_keeps around here (locked fd List.mem_cons_self)
  | writev fd iov iovcnt =>
      exact withWritable_keeps around here (locked fd List.mem_cons_self)
  | pwrite fd buf offset =>
      exact withWritable_keeps around here (locked fd List.mem_cons_self)
  | ftruncate sym fd length =>
      exact withWritable_keeps around here (locked fd List.mem_cons_self)
  | _ =>
      exact writes.elim

/-- What a writing callback keeps, all callbacks keep. -/
theorem cookieCall_frame {call : CookieCall}
    (writes : call.Writes →
      good (cookieCall around.machine call session).process) :
    good (cookieCall around.machine call session).process := by
  cases call with
  | read cookie buf =>
      refine withCookie_keeps here fun state hit => ?_
      split
      · exact here
      · split
        · exact here
        · exact answerCookie_keeps kept here hit
            (reads_readBytes around.ambient buf.len state.stream session.vfs)
  | write cookie buf =>
      exact writes trivial
  | seek cookie offset whence =>
      refine withCookie_keeps here fun state hit => ?_
      split
      · exact here
      · exact answerCookie_keeps kept here hit
          (reads_seek around.ambient _ state.stream session.vfs)
  | close cookie =>
      simp only [cookieCall, cookieCloseState]
      split
      · exact here
      · next state hit =>
        exact kept.cookieClosed here hit

theorem cookieCall_keeps {call : CookieCall}
    (locked : LockedCookie call.file session) :
    good (cookieCall around.machine call session).process := by
  apply cookieCall_frame kept around here
  intro writes
  cases call with
  | write cookie buf =>
      simp only [cookieCall]
      split
      · exact here
      · next state hit =>
        rw [locked state hit]
        exact here
  | _ =>
      exact writes.elim

end Keeps

end Hookfs.Unix
