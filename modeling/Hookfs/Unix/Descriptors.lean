import Hookfs.Unix.FailClosed

/-!
# Virtual descriptors stay off the carrier

The carrier behind a registered descriptor is `/dev/null`, so a call that
reaches it succeeds on the wrong object.  Every descriptor shim answers by
itself, except `close`, which takes the entry out first, `fchmod`, which
lets writable descriptors through, and `sendfile`, which looks at its source
only.
-/

namespace Hookfs.Unix

open Hookfs.Lib Hookfs.Vfs Hookfs.Router

variable {Ambient State Stream : Type}

/-- The descriptor has an entry in the registry of the active engine. -/
def Registered (fd : Int) (process : Process State Stream) : Prop :=
  ∃ engine file, process.engine = some engine ∧
    engine.registry.getFile (fdKey fd) = some file

/-- A descriptor call is answered without an original function; only `close`
goes on to it, once the entry is gone. -/
structure Answered (machine : Machine Ambient State Stream) (call : FdCall)
    (fd : Int) (process : Process State Stream) : Prop where
  others : call ≠ .close fd → (shimFd machine call process).Quiet
  close : call = .close fd → ∃ after,
    shimFd machine call process = pass machine (.fd call) after ∧
      ¬ Registered fd after

/-- The call is neither `fchmod` of a writable descriptor nor `sendfile` into
the descriptor from one that is not registered. -/
def Covered (call : FdCall) (fd : Int) (file : OpenFile Stream)
    (process : Process State Stream) : Prop :=
  (∀ mode, call = .fchmod fd mode → file.writable = false) ∧
    ∀ inFd offset count, call = .sendfile fd inFd offset count →
      Registered inFd process

section Answers

variable {machine : Machine Ambient State Stream}
  {process : Process State Stream} {engine : Engine Stream}
  {file : OpenFile Stream} {fd : Int}

theorem not_quiet_pass (call : Call) (process : Process State Stream) :
    ¬ (pass machine call process).Quiet :=
  fun quiet => quiet call List.mem_cons_self

/-- The entry is gone when the original `close` is called. -/
theorem not_registered_closed (vfs : State) :
    ¬ Registered fd ((process.withEngine { engine with
      registry := engine.registry.removeFile (fdKey fd) }).withVfs vfs) := by
  rintro ⟨found, file, active, hit⟩
  cases active
  have gone := AList.lookup_erase (fdKey fd) engine.registry.files
  exact Option.some_ne_none file (hit.symm.trans gone)

variable (outside : process.inHook = false)
  (active : process.engine = some engine)
  (hit : engine.registry.getFile (fdKey fd) = some file)
include outside active hit

theorem quiet_withFile {call : FdCall}
    {served : Engine Stream → OpenFile Stream → Process State Stream →
      Result State Stream}
    (quiet : (served engine file process).Quiet) :
    (withFile machine call fd served process).Quiet := by
  rw [withFile_hit outside active hit]
  exact quiet

theorem quiet_withWritable {call : FdCall}
    {served : Engine Stream → OpenFile Stream → Process State Stream →
      Result State Stream}
    (quiet : (served engine file process).Quiet) :
    (withWritable machine call fd served process).Quiet := by
  refine quiet_withFile outside active hit ?_
  split
  · exact Result.quiet_fail _ _ _
  · exact quiet

theorem shimFchmod_eq (mode : Flags) :
    shimFchmod machine fd mode process =
      if file.writable then pass machine (.fd (.fchmod fd mode)) process
      else fail (-1) Errno.EROFS process := by
  simp only [shimFchmod, outside, active, denyWriteFd, hit]
  cases file.writable with
  | false =>
      rfl
  | true =>
      rfl

theorem quiet_fchmod_iff (mode : Flags) :
    (shimFchmod machine fd mode process).Quiet ↔ file.writable = false := by
  rw [shimFchmod_eq outside active hit]
  cases file.writable with
  | false =>
      simp
  | true =>
      simp [not_quiet_pass]

omit hit in
theorem quiet_sendfile_iff (outFd inFd : Int) (offset count : Nat) :
    (shimSendfile machine outFd inFd offset count process).Quiet ↔
      Registered inFd process := by
  constructor
  · intro quiet
    cases found : engine.registry.getFile (fdKey inFd) with
    | none =>
        rw [shimSendfile, withFile_miss outside active found] at quiet
        exact absurd quiet (not_quiet_pass _ _)
    | some source =>
        exact ⟨engine, source, active, found⟩
  · rintro ⟨other, source, same, found⟩
    rw [active, Option.some_inj] at same
    subst same
    exact quiet_withFile outside active found (Result.quiet_fail _ _ _)

/-- Every shim on a registered descriptor but `close`, `fchmod` and
`sendfile`. -/
theorem quiet_of_plain {call : FdCall} (member : fd ∈ call.fds)
    (close : call ≠ .close fd) (fchmod : ∀ mode, call ≠ .fchmod fd mode)
    (sendfile : ∀ outFd inFd offset count,
      call ≠ .sendfile outFd inFd offset count) :
    (shimFd machine call process).Quiet := by
  cases call with
  | sendfile outFd inFd offset count =>
      exact absurd rfl (sendfile outFd inFd offset count)
  | read other buf =>
      obtain rfl : fd = other := List.mem_singleton.mp member
      refine quiet_withFile outside active hit ?_
      split
      · exact Result.quiet_succeed _ _ _
      · split
        · exact Result.quiet_fail _ _ _
        · exact Result.quiet_answerStream _ _ _ _ _
  | readv other iov iovcnt =>
      obtain rfl : fd = other := List.mem_singleton.mp member
      refine quiet_withFile outside active hit ?_
      split
      · exact Result.quiet_fail _ _ _
      · split
        · exact Result.quiet_fail _ _ _
        · exact Result.quiet_answerStream _ _ _ _ _
  | pread other buf offset =>
      obtain rfl : fd = other := List.mem_singleton.mp member
      refine quiet_withFile outside active hit ?_
      split
      · exact Result.quiet_succeed _ _ _
      · split
        · exact Result.quiet_fail _ _ _
        · split
          · exact Result.quiet_fail _ _ _
          · exact Result.quiet_answerStream _ _ _ _ _
  | lseek sym other offset whence =>
      obtain rfl : fd = other := List.mem_singleton.mp member
      refine quiet_withFile outside active hit ?_
      split
      · exact Result.quiet_fail _ _ _
      · exact Result.quiet_answerStream _ _ _ _ _
  | write other buf =>
      obtain rfl : fd = other := List.mem_singleton.mp member
      refine quiet_withWritable outside active hit ?_
      split
      · exact Result.quiet_succeed _ _ _
      · split
        · exact Result.quiet_fail _ _ _
        · exact Result.quiet_answerStream _ _ _ _ _
  | writev other iov iovcnt =>
      obtain rfl : fd = other := List.mem_singleton.mp member
      refine quiet_withWritable outside active hit ?_
      split
      · exact Result.quiet_fail _ _ _
      · split
        · exact Result.quiet_fail _ _ _
        · exact Result.quiet_answerStream _ _ _ _ _
  | pwrite other buf offset =>
      obtain rfl : fd = other := List.mem_singleton.mp member
      refine quiet_withWritable outside active hit ?_
      split
      · exact Result.quiet_succeed _ _ _
      · split
        · exact Result.quiet_fail _ _ _
        · split
          · exact Result.quiet_fail _ _ _
          · exact Result.quiet_answerStream _ _ _ _ _
  | ftruncate sym other length =>
      obtain rfl : fd = other := List.mem_singleton.mp member
      refine quiet_withWritable outside active hit ?_
      split
      · exact Result.quiet_fail _ _ _
      · exact Result.quiet_answerStream _ _ _ _ _
  | fsync other =>
      obtain rfl : fd = other := List.mem_singleton.mp member
      exact quiet_withFile outside active hit
        (Result.quiet_answerStream _ _ _ _ _)
  | fchmod other mode =>
      obtain rfl : fd = other := List.mem_singleton.mp member
      exact absurd rfl (fchmod mode)
  | fstat sym other buf =>
      obtain rfl : fd = other := List.mem_singleton.mp member
      exact quiet_withFile outside active hit
        (Result.quiet_answerStream _ _ _ _ _)
  | fstatvfs other buf =>
      obtain rfl : fd = other := List.mem_singleton.mp member
      exact quiet_withFile outside active hit (Result.quiet_succeed _ _ _)
  | fdopendir other =>
      obtain rfl : fd = other := List.mem_singleton.mp member
      exact quiet_withFile outside active hit (Result.quiet_fail _ _ _)
  | close other =>
      obtain rfl : fd = other := List.mem_singleton.mp member
      exact absurd rfl close

/-- `close` goes on without the entry. -/
theorem shimClose_passes :
    ∃ after, shimFd machine (.close fd) process =
      pass machine (.fd (.close fd)) after ∧ ¬ Registered fd after := by
  rw [shimFd, shimClose, withFile_hit outside active hit]
  exact ⟨_, rfl, not_registered_closed _⟩

end Answers

/-- A call on a registered descriptor is answered by the shim exactly when it
is covered: neither `fchmod` of a writable descriptor nor `sendfile` from an
unregistered one. -/
theorem descriptor_shims_answer_iff
    (machine : Machine Ambient State Stream)
    {process : Process State Stream} {engine : Engine Stream}
    {file : OpenFile Stream} {fd : Int}
    (outside : process.inHook = false)
    (active : process.engine = some engine)
    (hit : engine.registry.getFile (fdKey fd) = some file)
    {call : FdCall} (member : fd ∈ call.fds) :
    Answered machine call fd process ↔ Covered call fd file process := by
  constructor
  · intro answered
    constructor
    · rintro mode rfl
      exact (quiet_fchmod_iff outside active hit mode).mp
        (answered.others FdCall.noConfusion)
    · rintro inFd offset count rfl
      exact (quiet_sendfile_iff outside active fd inFd offset count).mp
        (answered.others FdCall.noConfusion)
  · rintro ⟨fchmod, sendfile⟩
    refine ⟨fun kept => ?_, ?_⟩
    · cases call with
      | fchmod other mode =>
          obtain rfl : fd = other := List.mem_singleton.mp member
          exact (quiet_fchmod_iff outside active hit mode).mpr
            (fchmod mode rfl)
      | sendfile outFd inFd offset count =>
          refine (quiet_sendfile_iff outside active outFd inFd offset
            count).mpr ?_
          -- the descriptor is the target, or it is the source itself
          rcases List.mem_cons.mp member with rfl | source
          · exact sendfile inFd offset count rfl
          · obtain rfl := List.mem_singleton.mp source
            exact ⟨engine, file, active, hit⟩
      | _ =>
          exact quiet_of_plain outside active hit member kept
            (fun _ => FdCall.noConfusion)
            fun _ _ _ _ => FdCall.noConfusion
    · rintro rfl
      exact shimClose_passes outside active hit

/-- The process after `open("/v/a", O_CREAT | O_RDWR)`: the carrier is 7. -/
def openedProcess : Process Memory.MemoryFs Memory.MemoryFs.Stream :=
  (shim idleMachine (.path (.open .open (some [47, 118, 47, 97])
    (O_CREAT ||| O_RDWR) 0)) idleProcess).process

/-- The entry that `open` made. -/
def openedFile : OpenFile Memory.MemoryFs.Stream :=
  ⟨.write (.memory 0 0), "/v/a".toList, true⟩

theorem descriptor_shims_answer_iff_fsync :
    Answered idleMachine (.fsync 7) 7 openedProcess := by
  refine (descriptor_shims_answer_iff idleMachine (by decide) rfl
    (show _ = some openedFile by decide) (by decide)).mpr ?_
  exact ⟨fun _ => FdCall.noConfusion, fun _ _ _ => FdCall.noConfusion⟩

/-- `fchmod(7, 0)` and `sendfile(7, 3, NULL, 1)` reach the original with the
carrier. -/
theorem descriptor_shims_forward_carrier :
    Registered 7 openedProcess ∧
      (shimFd idleMachine (.fchmod 7 0) openedProcess).calls =
        [.original (.fd (.fchmod 7 0))] ∧
      ¬ Answered idleMachine (.fchmod 7 0) 7 openedProcess ∧
      (shimFd idleMachine (.sendfile 7 3 0 1) openedProcess).calls =
        [.original (.fd (.sendfile 7 3 0 1))] ∧
      ¬ Answered idleMachine (.sendfile 7 3 0 1) 7 openedProcess := by
  have fchmod : (shimFd idleMachine (.fchmod 7 0) openedProcess).calls =
      [.original (.fd (.fchmod 7 0))] := by decide
  have sendfile :
      (shimFd idleMachine (.sendfile 7 3 0 1) openedProcess).calls =
        [.original (.fd (.sendfile 7 3 0 1))] := by decide
  refine ⟨⟨_, openedFile, rfl, by decide⟩, fchmod, ?_, sendfile, ?_⟩
  · intro answered
    have quiet := answered.others FdCall.noConfusion
    refine quiet (.fd (.fchmod 7 0)) ?_
    rw [fchmod]
    exact List.mem_cons_self
  · intro answered
    have quiet := answered.others FdCall.noConfusion
    refine quiet (.fd (.sendfile 7 3 0 1)) ?_
    rw [sendfile]
    exact List.mem_cons_self

end Hookfs.Unix
