import Hookfs.Memory.Held
import Hookfs.Unix.Opens
import Hookfs.Unix.ReadOnly

/-!
# The owners of files along a session

Whatever a process does with its in-memory tree, and whether or not it may
write, every file that the tree, a descriptor or a cookie refers to has an
`Arc` for it.
-/

namespace Hookfs.Unix

open Hookfs.Lib Hookfs.Vfs Hookfs.Posix Hookfs.Router Hookfs.Memory

open MemoryFs (Stream)

/-! ## Operations on streams -/

section Streams

variable {Value : Type} {kept : MemoryFs → (Nat → Nat) → Prop}

/-- An operation on a stream that keeps hold of the stream's file, and the
owners of all files accounted for. -/
def Conserves (kept : MemoryFs → (Nat → Nat) → Prop)
    (operate : OpenStream Stream → MemoryFs →
      Value × OpenStream Stream × MemoryFs) : Prop :=
  ∀ stream fs outside, kept fs outside →
    kept (operate stream fs).2.2 outside ∧
      (operate stream fs).2.1.inner.holds = stream.inner.holds

theorem Reads.conserves {operate : OpenStream Stream → MemoryFs →
    Value × OpenStream Stream × MemoryFs} (reads : Reads operate) :
    Conserves kept operate := by
  intro stream fs outside held
  obtain ⟨same, holds⟩ := reads stream fs
  rw [same]
  exact ⟨held, holds⟩

theorem conserves_both
    {method : Stream → MemoryFs → Value × Stream × MemoryFs}
    (conserves : ∀ stream fs outside, kept fs outside →
      kept (method stream fs).2.2 outside ∧
        (method stream fs).2.1.holds = stream.holds) :
    Conserves kept (OpenStream.both method) := by
  intro opened fs outside held
  have inner := conserves opened.inner fs outside held
  constructor
  · exact inner.1
  · simp only [OpenStream.both, inner_replace]
    exact inner.2

variable (ambient : Memory.Ambient)

theorem conserves_writeBytes (accounts : MemoryFs.Accounts kept)
    (data : List UInt8) :
    Conserves kept (OpenStream.writeBytes MemoryFs.provider ambient data) := by
  intro opened fs outside held
  cases opened with
  | read stream =>
      exact ⟨held, rfl⟩
  | write stream =>
      apply conserves_both (fun inner tree others here => ?_)
        (.write stream) fs outside held
      cases inner with
      | source origin pos =>
          exact ⟨here, rfl⟩
      | memory file pos =>
          exact ⟨accounts.writeHandle here ambient.now file pos
            data, MemoryFs.holds_writeHandle ambient.now file pos data tree⟩

theorem conserves_setLen (accounts : MemoryFs.Accounts kept) (len : Nat) :
    Conserves kept (OpenStream.setLen MemoryFs.provider ambient len) := by
  intro opened fs outside held
  cases opened with
  | read stream =>
      exact ⟨held, rfl⟩
  | write stream =>
      apply conserves_both (fun inner tree others here => ?_)
        (.write stream) fs outside held
      cases inner with
      | source origin pos =>
          exact ⟨here, rfl⟩
      | memory file pos =>
          exact ⟨accounts.setFileLen ambient.now file len here, rfl⟩

variable (around : Surroundings)

theorem conserves_positioned (offset : Nat)
    {operate : OpenStream Stream → MemoryFs →
      Except IoError Value × OpenStream Stream × MemoryFs}
    (conserves : Conserves kept operate) :
    Conserves kept (positioned around.machine offset operate) := by
  intro stream fs outside held
  have asked := (reads_streamPosition around.ambient).conserves stream fs
    outside held
  unfold positioned
  simp only [Surroundings.machine]
  split
  · next error moved next result =>
    rw [result] at asked
    exact asked
  · next saved moved next result =>
    rw [result] at asked
    have back : Conserves kept (OpenStream.seek MemoryFs.provider
        around.ambient (.start saved)) :=
      (reads_seek around.ambient (.start saved)).conserves
    have sought := (reads_seek around.ambient (.start offset)).conserves
      moved next outside asked.1
    split
    · next error there same located =>
      rw [located] at sought
      have final := back there same outside sought.1
      exact ⟨final.1, final.2.trans (sought.2.trans asked.2)⟩
    · next pos there same located =>
      rw [located] at sought
      have operated := conserves there same outside sought.1
      have final := back (operate there same).2.1 (operate there same).2.2
        outside operated.1
      exact ⟨final.1,
        final.2.trans (operated.2.trans (sought.2.trans asked.2))⟩

theorem conserves_writevLoop (accounts : MemoryFs.Accounts kept)
    (sources : List Source) (total : Nat) :
    Conserves kept (writevLoop around.machine sources total) := by
  induction sources generalizing total with
  | nil =>
      intro stream fs outside held
      exact ⟨held, rfl⟩
  | cons source rest inductionHypothesis =>
      intro stream fs outside held
      cases source with
      | null count =>
          exact inductionHypothesis total stream fs outside held
      | bytes data =>
          unfold writevLoop
          split
          · exact inductionHypothesis total stream fs outside held
          · have written := conserves_writeBytes around.ambient accounts data
              stream fs outside held
            simp only [Surroundings.machine] at written ⊢
            split
            · next count moved next result =>
              rw [result] at written
              split
              · exact written
              · have later := inductionHypothesis (total + count) moved next
                  outside written.1
                exact ⟨later.1, later.2.trans written.2⟩
            · next error moved next result =>
              rw [result] at written
              split
              · exact written
              · exact written

end Streams

/-! ## Calls -/

/-- A property of a tree and of the `Arc`s that a session holds. -/
def OwnedBy (kept : MemoryFs → (Nat → Nat) → Prop) (session : Session) :
    Prop :=
  kept session.vfs session.holds

/-- Every file that the tree or the session refers to has its `Arc`s. -/
def Owned (session : Session) : Prop :=
  session.vfs.Held session.holds

section Calls

variable {kept : MemoryFs → (Nat → Nat) → Prop} {session : Session}
  {engine : Engine Stream}

/-- The working directory and the open directories do not matter. -/
theorem OwnedBy.withEngine (here : OwnedBy kept session)
    (active : session.engine = some engine) {next : Engine Stream}
    (files : next.registry.files = engine.registry.files) :
    OwnedBy kept (session.withEngine next) := by
  have same : Session.holds (session.withEngine next) = session.holds := by
    rw [holds_of_active active]
    unfold Session.registryHolds
    rw [← files]
    rfl
  unfold OwnedBy
  rw [same]
  exact here

theorem keptByLooking_owned : KeptByLooking (OwnedBy kept) :=
  fun here active files _ => here.withEngine active files

/-- The file behind a registered handle is there. -/
theorem OwnedBy.present (here : OwnedBy kept session)
    (accounts : MemoryFs.Accounts kept)
    (active : session.engine = some engine) {fd : Int}
    {file : OpenFile Stream}
    (registered : engine.registry.getFile (fdKey fd) = some file)
    {id pos : Nat} (inner : file.stream.inner = .memory id pos) :
    ∃ content, session.vfs.files.lookup id = some content := by
  unfold OwnedBy at here
  rw [holds_of_active active, registryHolds_of_hit registered, inner,
    add_assoc, add_comm] at here
  exact accounts.present here

theorem owned_answerStream {fd : Int}
    {file : OpenFile Stream}
    {outcome : Reply × OpenStream Stream × MemoryFs}
    (active : session.engine = some engine)
    (hit : engine.registry.getFile (fdKey fd) = some file)
    (conserves : kept outcome.2.2 session.holds ∧
      outcome.2.1.inner.holds = file.stream.inner.holds) :
    OwnedBy kept (answerStream fd engine file session outcome).process := by
  have same : Session.holds (keepStream fd engine file outcome.2.1 outcome.2.2
      session) = session.holds :=
    holds_keepStream outcome.2.2 active hit conserves.2
  unfold OwnedBy answerStream
  rw [same]
  exact conserves.1

theorem owned_answerCookie {cookie : Nat}
    {state : CookieState Stream}
    {outcome : Reply × OpenStream Stream × MemoryFs}
    (hit : session.cookies.lookup cookie = some state)
    (conserves : kept outcome.2.2 session.holds ∧
      outcome.2.1.inner.holds = state.stream.inner.holds) :
    OwnedBy kept (answerCookie cookie state session outcome).process := by
  have same : Session.holds (keepCookie cookie state outcome.2.1 outcome.2.2
      session) = session.holds :=
    holds_keepCookie outcome.2.2 hit conserves.2
  unfold OwnedBy answerCookie
  rw [same]
  exact conserves.1

variable (around : Surroundings)

theorem owned_withWritable {call : FdCall} {fd : Int}
    {served : Engine Stream → OpenFile Stream → Session →
      Result MemoryFs Stream} (here : OwnedBy kept session)
    (serves : ∀ engine file, session.engine = some engine →
      engine.registry.getFile (fdKey fd) = some file →
        OwnedBy kept (served engine file session).process) :
    OwnedBy kept
      (withWritable around.machine call fd served session).process := by
  refine withFile_keeps here fun engine file active hit => ?_
  split
  · exact here
  · exact serves engine file active hit

variable (forgiving : MemoryFs.Forgiving kept)
include forgiving

theorem keptByReading_owned : KeptByReading (OwnedBy kept) :=
  keptByReading_of_drop forgiving.accounts.dropStream

theorem owned_shimFd (here : OwnedBy kept session) (call : FdCall) :
    OwnedBy kept (shimFd around.machine call session).process := by
  apply shimFd_frame (keptByReading_owned forgiving) around here
  intro writes
  cases call with
  | write fd buf =>
      refine owned_withWritable around here fun engine file active hit => ?_
      split
      · exact here
      · split
        · exact here
        · next data _ =>
          exact owned_answerStream active hit
            (conserves_writeBytes around.ambient forgiving.accounts data
              _ _ _ here)
  | writev fd iov iovcnt =>
      refine owned_withWritable around here fun engine file active hit => ?_
      split
      · exact here
      · split
        · exact here
        · exact owned_answerStream active hit
            (conserves_writevLoop around forgiving.accounts _ 0 _ _ _ here)
  | pwrite fd buf offset =>
      refine owned_withWritable around here fun engine file active hit => ?_
      split
      · exact here
      · split
        · exact here
        · next data _ =>
          split
          · exact here
          · exact owned_answerStream active hit
              (conserves_positioned around offset.toNat
                (conserves_writeBytes around.ambient forgiving.accounts data)
                  _ _ _ here)
  | ftruncate sym fd length =>
      refine owned_withWritable around here fun engine file active hit => ?_
      split
      · exact here
      · exact owned_answerStream active hit
          (conserves_setLen around.ambient forgiving.accounts length.toNat
            _ _ _ here)
  | _ =>
      exact writes.elim

theorem owned_cookieCall (here : OwnedBy kept session) (call : CookieCall) :
    OwnedBy kept (cookieCall around.machine call session).process := by
  apply cookieCall_frame (keptByReading_owned forgiving) around here
  intro writes
  cases call with
  | write cookie buf =>
      simp only [cookieCall]
      split
      · exact here
      · split
        · refine withCookie_keeps here fun state hit => ?_
          split
          · split
            · exact here
            · exact here
          · next data =>
            split
            · exact here
            · exact owned_answerCookie hit
                (conserves_writeBytes around.ambient forgiving.accounts data
                  _ _ _ here)
        · exact here
  | _ =>
      exact writes.elim

/-- A new cookie; one that was there is forgotten, and leaks its `Arc`. -/
theorem owned_insertCookie {cookie : Nat} {state : CookieState Stream}
    {fs : MemoryFs}
    (held : kept fs (session.holds + state.stream.inner.holds)) :
    OwnedBy kept { session.withVfs fs with
      cookies := session.cookies.insert cookie state } :=
  forgiving.fewer held (holds_insertCookie_le session cookie state fs)

/-! ## Calls on paths -/

theorem held_openTree (held : kept session.vfs session.holds) (now : Time)
    (path : Text) (opts : OpenOptions) :
    kept (openTree now path opts session.vfs).2 (session.holds +
      MemoryFs.openedHolds (openTree now path opts session.vfs).1) := by
  unfold openTree
  split
  · exact forgiving.accounts.openWrite held now path opts
  · exact forgiving.accounts.open held path opts

theorem owned_openVirtualFd (here : OwnedBy kept session)
    (active : session.engine = some engine) (flags : Flags) (path : Text) :
    OwnedBy kept
      (openVirtualFd around.machine flags engine path session).process := by
  have held := held_openTree forgiving here around.ambient.now path
    (openOptions flags)
  unfold openVirtualFd
  rw [openStream_eq]
  split
  · exact here
  · simp only
    cases outcome : (openTree around.ambient.now path (openOptions flags)
        session.vfs).1 with
    | none =>
        rw [outcome, MemoryFs.openedHolds, add_zero] at held
        exact held
    | some result =>
        rw [outcome] at held
        cases result with
        | error error =>
            rw [MemoryFs.openedHolds, add_zero] at held
            exact held
        | ok stream =>
            rw [MemoryFs.openedHolds] at held
            simp only [Option.map_some, Except.map]
            split
            · simp only [inner_openedAs]
              exact forgiving.accounts.dropStream held
            · apply kept_insertFile forgiving.accounts.dropStream around _
                active
              simp only [inner_openedAs]
              exact held

theorem owned_fopenVirtual (here : OwnedBy kept session) (mode : CStr)
    (path : Text) :
    OwnedBy kept
      (fopenVirtual around.machine mode engine path session).process := by
  unfold fopenVirtual
  split
  · exact here
  · split
    · exact here
    · next decoded _ opts _ =>
      have held := held_openTree forgiving here around.ambient.now path opts
      rw [openStream_eq]
      split
      · exact here
      · simp only
        cases outcome : (openTree around.ambient.now path opts
            session.vfs).1 with
        | none =>
            rw [outcome, MemoryFs.openedHolds, add_zero] at held
            exact held
        | some result =>
            rw [outcome] at held
            cases result with
            | error error =>
                rw [MemoryFs.openedHolds, add_zero] at held
                exact held
            | ok stream =>
                rw [MemoryFs.openedHolds] at held
                simp only [Option.map_some, Except.map]
                split
                · simp only [inner_openedAs]
                  exact forgiving.accounts.dropStream held
                · apply owned_insertCookie forgiving
                  simp only [inner_openedAs]
                  exact held

omit forgiving in
theorem owned_mutatePath (here : OwnedBy kept session) (call : PathCall)
    {operate : Text → MemoryFs → Option (Except IoError Unit) × MemoryFs}
    (holds : ∀ path, kept (operate path session.vfs).2 session.holds) :
    OwnedBy kept (mutatePath around.machine call operate session).process := by
  refine routed_keeps here rfl fun engine path active => ?_
  split
  · exact here
  · exact holds path

theorem owned_shimPath (here : OwnedBy kept session) (call : PathCall) :
    OwnedBy kept (shimPath around.machine call session).process := by
  apply shimPath_frame around keptByLooking_owned here
  intro changes
  cases call with
  | «open» sym path flags mode =>
      exact routed_keeps here rfl fun engine path active =>
        owned_openVirtualFd around forgiving here active flags path
  | openat dirfd path flags mode =>
      exact routed_keeps here rfl fun engine path active =>
        owned_openVirtualFd around forgiving here active flags path
  | fopen sym path mode =>
      exact routed_keeps here rfl fun engine path active =>
        owned_fopenVirtual around forgiving here mode path
  | truncate path length =>
      refine owned_mutatePath around here _ fun path => ?_
      split
      · exact here
      · exact forgiving.accounts.setLen here around.ambient.now path
          length.toNat
  | mkdir path mode =>
      exact owned_mutatePath around here _ fun path =>
        forgiving.accounts.createDir here path
  | remove path =>
      exact owned_mutatePath around here _ fun path =>
        forgiving.accounts.remove here path
  | unlink path =>
      exact owned_mutatePath around here _ fun path =>
        forgiving.accounts.remove here path
  | _ =>
      exact changes.elim

theorem owned_renameVirtual (here : OwnedBy kept session) (target : CStr)
    (engine : Engine Stream) (path : Text) :
    OwnedBy kept
      (renameVirtual around.machine target engine path session).process := by
  simp only [renameVirtual]
  split
  · exact here
  · split
    · exact here
    · split
      · next destination _ =>
        exact forgiving.accounts.rename here around.ambient.hash path
          destination
      · exact here

/-- Every call and every callback keeps the owners of all files. -/
theorem owned_step (session : Session) (event : Event)
    (here : OwnedBy kept session) : OwnedBy kept (session.step event) := by
  cases event with
  | call around call =>
      cases call with
      | path call =>
          exact owned_shimPath around forgiving here call
      | two call =>
          exact shimTwo_frame around here call fun target engine path _ =>
            owned_renameVirtual around forgiving here target engine path
      | fd call =>
          exact owned_shimFd around forgiving here call
      | dir call =>
          exact shimDir_frame around keptByLooking_owned here call
  | cookie around call =>
      exact owned_cookieCall around forgiving here call

/-- What accounts for the tree does so along every run. -/
theorem owned_run (events : List Event) (here : OwnedBy kept session) :
    OwnedBy kept (run Session.step session events) := by
  have each (session : Session) (event : Event)
      (here : OwnedBy kept session) (_ : True) :
      OwnedBy kept (session.step event) :=
    owned_step forgiving session event here
  exact run_of_allowed _ each (fun _ _ => trivial) here

end Calls

/-! ## Whole sessions -/

/-- A fresh engine over a tree. -/
def freshSession (fs : MemoryFs) (nspace : Namespace)
    (allowWrites inHook : Bool) : Session where
  vfs := fs
  engine := some (.new nspace allowWrites)
  cookies := ∅
  inHook := inHook

/-- A session whose tree, descriptors and cookies own what they refer to. -/
structure SoundSession where
  session : Session
  sound : Owned session

namespace SoundSession

/-- A fresh engine over any tree that operations have built, whatever its
capacity and whoever holds handles on it. -/
def install (capacity : Nat) (word : capacity ≤ wordMax) (ops : List DeskOp)
    (nspace : Namespace) (allowWrites inHook : Bool) : SoundSession where
  session := freshSession (run Desk.step (Desk.start capacity) ops).fs nspace
    allowWrites inHook
  sound := by
    have held := (Desk.held_run word ops).here
    exact held.mono fun _ => Nat.zero_le _

/-- The session after any sequence of calls and callbacks. -/
def after (start : SoundSession) (events : List Event) : SoundSession where
  session := run Session.step start.session events
  sound := owned_run MemoryFs.forgiving_held events start.sound

end SoundSession

/-- A session whose volume has charged the bytes of all files, those that have
leaked as well, within a limit. -/
structure ChargedSession where
  limit : Nat
  session : Session
  charged : OwnedBy (MemoryFs.Leaky (MemoryFs.Counted limit)) session

namespace ChargedSession

/-- A fresh engine over any tree that operations have built, whoever holds
handles on it. -/
def install (limit : Nat) (small : limit < 2 ^ 63) (ops : List DeskOp)
    (nspace : Namespace) (allowWrites inHook : Bool) : ChargedSession where
  limit := limit
  session := freshSession (run Desk.step (Desk.start limit) ops).fs nspace
    allowWrites inHook
  charged := by
    have balanced : (run Desk.step (Desk.start limit) ops).Balanced limit :=
      run_of_allowed (Desk.Balanced limit)
        (fun desk op here _ => Desk.step_balanced desk op here)
        (fun _ _ => trivial) (Desk.balanced_start small)
    refine ⟨Desk.handleHolds (run Desk.step (Desk.start limit) ops), ?_⟩
    have nobody : Session.holds (freshSession
        (run Desk.step (Desk.start limit) ops).fs nspace allowWrites
          inHook) = 0 := rfl
    rw [nobody, zero_add]
    exact balanced.counted

/-- The session after any sequence of calls and callbacks. -/
def after (start : ChargedSession) (events : List Event) :
    ChargedSession where
  limit := start.limit
  session := run Session.step start.session events
  charged := owned_run
    (MemoryFs.forgiving_leaky (MemoryFs.accounts_counted start.limit)) events
    start.charged

end ChargedSession

end Hookfs.Unix
