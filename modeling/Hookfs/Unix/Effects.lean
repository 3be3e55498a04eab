import Hookfs.Lib.Runs
import Hookfs.Unix.Shims

/-!
# What a call does to the tables

For any provider: which entries of the engine's tables and of the cookies a
single call or callback can change, and under which keys.
-/

namespace Hookfs.Unix

open Hookfs.Lib Hookfs.Vfs Hookfs.Posix Hookfs.Router

variable {Ambient State Stream : Type}

/-- A hooked call, or what libc does to a virtual `FILE*`, with its
surroundings. -/
inductive Occurrence (Ambient State Stream : Type) where
  | call (machine : Machine Ambient State Stream) (call : Call)
  | cookie (machine : Machine Ambient State Stream) (call : CookieCall)

namespace Process

def occur (process : Process State Stream) :
    Occurrence Ambient State Stream → Reply × Process State Stream
  | .call machine call =>
      let result := shim machine call process
      (result.reply, result.process)
  | .cookie machine call =>
      let result := cookieCall machine call process
      (result.reply, result.process)

end Process

/-- The tables of a process: the engine with its registry and working
directory, and the cookies. -/
structure Tables (Stream : Type) where
  engine : Engine Stream
  cookies : Store Nat (CookieState Stream)

namespace Tables

def withRegistry (registry : Registry Stream) (tables : Tables Stream) :
    Tables Stream :=
  { tables with engine := { tables.engine with registry := registry } }

end Tables

/-! ## Effects -/

/-- A path call leaves the tables alone, or enters what it opened under what
libc handed out for it, or moves the working directory. -/
inductive PathEffect (machine : Machine Ambient State Stream)
    (tables : Tables Stream) : PathCall → Tables Stream → Prop
  | unchanged (call : PathCall) : PathEffect machine tables call tables
  | opened {call : PathCall} (file : OpenFile Stream)
      (valid : ¬ (machine.os .carrier).ret < 0) :
      PathEffect machine tables call
        (tables.withRegistry (tables.engine.registry.putFile
          (fdKey (machine.os .carrier).ret) file))
  | cookie {sym : FopenSym} {path mode : CStr} {writes : Bool}
      (state : CookieState Stream)
      (valid : (machine.os (.fopencookie mode writes)).ret ≠ 0) :
      PathEffect machine tables (.fopen sym path mode)
        { tables with
          cookies := tables.cookies.insert
            (fdKey (machine.os (.fopencookie mode writes)).ret) state }
  | listed {path : CStr} (dir : VirtualDir) :
      PathEffect machine tables (.opendir path)
        (tables.withRegistry (tables.engine.registry.putDir
          (fdKey (machine.os .newDir).ret) dir))
  | changed {path : CStr} (cwd : Option Text) :
      PathEffect machine tables (.chdir path)
        { tables with engine := { tables.engine with cwd := cwd } }

/-- A call on descriptors touches the entry of its descriptor only. -/
inductive FdEffect (tables : Tables Stream) : FdCall → Tables Stream → Prop
  | unchanged (call : FdCall) : FdEffect tables call tables
  | moved {call : FdCall} {fd : Int} {file : OpenFile Stream}
      (stream : OpenStream Stream) (about : fd ∈ call.fds)
      (hit : tables.engine.registry.getFile (fdKey fd) = some file) :
      FdEffect tables call
        (tables.withRegistry (tables.engine.registry.putFile (fdKey fd)
          { file with stream := stream }))
  | closed {fd : Int} {file : OpenFile Stream}
      (hit : tables.engine.registry.getFile (fdKey fd) = some file) :
      FdEffect tables (.close fd)
        (tables.withRegistry (tables.engine.registry.removeFile (fdKey fd)))

inductive DirEffect (tables : Tables Stream) : DirCall → Tables Stream → Prop
  | unchanged (call : DirCall) : DirEffect tables call tables
  | read {sym : ReaddirSym} {dirp : Nat} {dir : VirtualDir}
      (hit : tables.engine.registry.getDir dirp = some dir) :
      DirEffect tables (.readdir sym dirp)
        (tables.withRegistry (tables.engine.registry.putDir dirp
          { dir with next := dir.next + 1 }))
  | closed {dirp : Nat} {dir : VirtualDir}
      (hit : tables.engine.registry.getDir dirp = some dir) :
      DirEffect tables (.closedir dirp)
        (tables.withRegistry (tables.engine.registry.removeDir dirp))

/-- What a call does to the tables; the calls on two paths leave them
alone. -/
inductive CallEffect (machine : Machine Ambient State Stream)
    (tables : Tables Stream) : Call → Tables Stream → Prop
  | path {call : PathCall} {next : Tables Stream}
      (effect : PathEffect machine tables call next) :
      CallEffect machine tables (.path call) next
  | two (call : TwoPathCall) : CallEffect machine tables (.two call) tables
  | fd {call : FdCall} {next : Tables Stream}
      (effect : FdEffect tables call next) :
      CallEffect machine tables (.fd call) next
  | dir {call : DirCall} {next : Tables Stream}
      (effect : DirEffect tables call next) :
      CallEffect machine tables (.dir call) next

/-- The process has these tables and is on this side of the hook. -/
structure Has (tables : Tables Stream) (inHook : Bool)
    (process : Process State Stream) : Prop where
  active : process.engine = some tables.engine
  cookies : process.cookies = tables.cookies
  side : process.inHook = inHook

/-- The process has tables that the effect allows. -/
def Reaches (effect : Tables Stream → Prop) (inHook : Bool)
    (process : Process State Stream) : Prop :=
  ∃ tables, effect tables ∧ Has tables inHook process

section Effects

variable {process : Process State Stream} {tables : Tables Stream}
  {inHook : Bool} (has : Has tables inHook process)
include has

theorem Has.withVfs (vfs : State) :
    Has tables inHook (process.withVfs vfs) :=
  ⟨has.active, has.cookies, has.side⟩

theorem reaches_same {effect : Tables Stream → Prop} (kept : effect tables) :
    Reaches effect inHook process :=
  ⟨tables, kept, has⟩

theorem reaches_withVfs {effect : Tables Stream → Prop}
    (kept : effect tables) (vfs : State) :
    Reaches effect inHook (process.withVfs vfs) :=
  ⟨tables, kept, has.withVfs vfs⟩

theorem reaches_withEngine {effect : Tables Stream → Prop} (vfs : State)
    {engine : Engine Stream}
    (allowed : effect { tables with engine := engine }) :
    Reaches effect inHook ((process.withVfs vfs).withEngine engine) :=
  ⟨_, allowed, rfl, has.cookies, has.side⟩

variable {machine : Machine Ambient State Stream}

/-! ### Path calls -/

theorem reaches_routed {call : PathCall}
    {rejected : Process State Stream → Result State Stream}
    {served : Engine Stream → Text → Process State Stream →
      Result State Stream}
    (denied : (rejected process).process = process)
    (reaches : ∀ path, Reaches (PathEffect machine tables call) inHook
      (served tables.engine path process).process) :
    Reaches (PathEffect machine tables call) inHook
      (routed machine call rejected served process).process := by
  refine routed_keeps (reaches_same has (.unchanged call)) denied
    fun engine path active => ?_
  have same : engine = tables.engine :=
    Option.some.inj (active.symm.trans has.active)
  rw [same]
  exact reaches path

theorem reaches_openVirtualFd {call : PathCall} (flags : Flags)
    (path : Text) :
    Reaches (PathEffect machine tables call) inHook
      (openVirtualFd machine flags tables.engine path process).process := by
  unfold openVirtualFd
  simp only
  split
  · exact reaches_same has (.unchanged call)
  · split
    · exact reaches_withVfs has (.unchanged call) _
    · exact reaches_withVfs has (.unchanged call) _
    · next stream _ =>
      split
      · exact reaches_withVfs has (.unchanged call) _
      · next valid =>
        have opened : PathEffect machine tables call
            (tables.withRegistry (tables.engine.registry.putFile
              (fdKey (machine.os .carrier).ret) _)) :=
          .opened ⟨stream, path, wantsWrite flags⟩ valid
        unfold insertFile
        simp only
        split
        · exact ⟨_, opened, rfl, has.cookies, has.side⟩
        · exact ⟨_, opened, rfl, has.cookies, has.side⟩

theorem reaches_fopenVirtual (sym : FopenSym) (name mode : CStr)
    (path : Text) :
    Reaches (PathEffect machine tables (.fopen sym name mode)) inHook
      (fopenVirtual machine mode tables.engine path process).process := by
  unfold fopenVirtual
  split
  · exact reaches_same has (.unchanged _)
  · split
    · exact reaches_same has (.unchanged _)
    · next opts _ =>
      split
      · exact reaches_same has (.unchanged _)
      · simp only
        split
        · exact reaches_withVfs has (.unchanged _) _
        · exact reaches_withVfs has (.unchanged _) _
        · next stream _ =>
          split
          · exact reaches_withVfs has (.unchanged _) _
          · next valid =>
            refine ⟨_, .cookie ⟨stream, opts.write⟩ valid, has.active, ?_,
              has.side⟩
            simp only [has.cookies]

theorem reaches_mutatePath (call : PathCall)
    (operate : Text → State → Option (Except IoError Unit) × State) :
    Reaches (PathEffect machine tables call) inHook
      (mutatePath machine call operate process).process := by
  refine reaches_routed has rfl fun path => ?_
  split
  · exact reaches_same has (.unchanged call)
  · exact reaches_withVfs has (.unchanged call) _

theorem reaches_accessCommon (call : PathCall) (mode : Flags) :
    Reaches (PathEffect machine tables call) inHook
      (accessCommon machine call mode process).process := by
  refine reaches_routed has rfl fun path => ?_
  simp only
  split
  · exact reaches_withVfs has (.unchanged call) _
  · split
    · exact reaches_withVfs has (.unchanged call) _
    · exact reaches_withVfs has (.unchanged call) _

theorem reaches_copyOutPath {call : PathCall} (path : Text)
    (resolved : Nat) :
    Reaches (PathEffect machine tables call) inHook
      (copyOutPath machine path resolved process).process := by
  have same : Reaches (PathEffect machine tables call) inHook process :=
    reaches_same has (.unchanged call)
  fun_cases copyOutPath machine path resolved process with
  | case1 | case2 | case3 | case4 =>
      exact same

theorem reaches_shimChdir (path : CStr) :
    Reaches (PathEffect machine tables (.chdir path)) inHook
      (shimChdir machine path process).process := by
  have same : Reaches (PathEffect machine tables (.chdir path)) inHook
      process := reaches_same has (.unchanged (.chdir path))
  unfold shimChdir
  split
  · exact same
  · split
    · exact same
    · next decoded _ =>
      simp only [Process.route, has.active, Option.map_some]
      cases tables.engine.classify decoded with
      | virtual target =>
          simp only
          split
          · split
            · exact reaches_withEngine has _ (.changed _)
            · exact reaches_withVfs has (.unchanged _) _
          · exact reaches_withVfs has (.unchanged _) _
      | rejected =>
          exact same
      | real =>
          exact reaches_withEngine has process.vfs (.changed _)

/-- What a path call does to the tables. -/
theorem reaches_shimPath (call : PathCall) :
    Reaches (PathEffect machine tables call) inHook
      (shimPath machine call process).process := by
  cases call with
  | «open» sym path flags mode =>
      exact reaches_routed has rfl fun path =>
        reaches_openVirtualFd has flags path
  | openat dirfd path flags mode =>
      exact reaches_routed has rfl fun path =>
        reaches_openVirtualFd has flags path
  | fopen sym path mode =>
      exact reaches_routed has rfl fun virtual =>
        reaches_fopenVirtual has sym path mode virtual
  | truncate path length =>
      exact reaches_mutatePath has _ _
  | mkdir path mode =>
      exact reaches_mutatePath has _ _
  | remove path =>
      exact reaches_mutatePath has _ _
  | unlink path =>
      exact reaches_mutatePath has _ _
  | fchmodat dirfd path mode flags =>
      exact reaches_routed has rfl fun _ => reaches_same has (.unchanged _)
  | utimensat dirfd path times flags =>
      exact reaches_routed has rfl fun _ => reaches_same has (.unchanged _)
  | stat sym path buf =>
      refine reaches_routed has rfl fun _ => ?_
      split
      · exact reaches_withVfs has (.unchanged _) _
      · exact reaches_withVfs has (.unchanged _) _
  | statvfs path buf =>
      exact reaches_routed has rfl fun _ =>
        reaches_withVfs has (.unchanged _) _
  | opendir path =>
      refine reaches_routed has rfl fun _ => ?_
      split
      · exact reaches_withEngine has _ (.listed _)
      · exact reaches_withVfs has (.unchanged _) _
      · exact reaches_withVfs has (.unchanged _) _
  | realpath path resolved =>
      refine reaches_routed has rfl fun virtual => ?_
      split
      · exact reaches_withVfs has (.unchanged _) _
      · exact reaches_copyOutPath (has.withVfs _) virtual resolved
  | access path mode =>
      exact reaches_accessCommon has _ mode
  | faccessat dirfd path mode flags =>
      exact reaches_accessCommon has _ mode
  | chdir path =>
      exact reaches_shimChdir has path
  | readlink path buf bufsiz =>
      exact reaches_routed has rfl fun _ => reaches_same has (.unchanged _)

/-! ### Calls on two paths -/

theorem has_shimTwo (call : TwoPathCall) :
    Has tables inHook (shimTwo machine call process).process := by
  have denied : ∀ call, Has tables inHook
      (denyMutateTwo machine call process).process := by
    intro call
    unfold denyMutateTwo
    split
    · exact has
    · split
      · exact has
      · exact has
  cases call with
  | link source target =>
      exact denied _
  | symlink source target =>
      exact denied _
  | rename source target =>
      have forwarded : Has tables inHook
          (renameReal machine source target process).process := by
        unfold renameReal
        split
        · exact has
        · exact has
      simp only [shimTwo, shimRename]
      split
      · exact has
      · split
        · exact has
        · next decoded _ =>
          simp only [Process.route, has.active, Option.map_some]
          cases tables.engine.classify decoded with
          | real =>
              exact forwarded
          | rejected =>
              exact has
          | virtual path =>
              simp only [renameVirtual]
              split
              · exact has
              · split
                · exact has
                · split
                  · exact has.withVfs _
                  · exact has

/-! ### Calls on descriptors -/

theorem reaches_withFile {call : FdCall} {fd : Int}
    {served : Engine Stream → OpenFile Stream → Process State Stream →
      Result State Stream}
    (reaches : ∀ file,
      tables.engine.registry.getFile (fdKey fd) = some file →
        Reaches (FdEffect tables call) inHook
          (served tables.engine file process).process) :
    Reaches (FdEffect tables call) inHook
      (withFile machine call fd served process).process := by
  refine withFile_keeps (reaches_same has (.unchanged call))
    fun engine file active hit => ?_
  have same : engine = tables.engine :=
    Option.some.inj (active.symm.trans has.active)
  subst same
  exact reaches file hit

theorem reaches_answerStream {call : FdCall} {fd : Int}
    {file : OpenFile Stream} (about : fd ∈ call.fds)
    (hit : tables.engine.registry.getFile (fdKey fd) = some file)
    (outcome : Reply × OpenStream Stream × State) :
    Reaches (FdEffect tables call) inHook
      (answerStream fd tables.engine file process outcome).process :=
  reaches_withEngine has _ (.moved outcome.2.1 about hit)

theorem reaches_withWritable {call : FdCall} {fd : Int}
    {served : Engine Stream → OpenFile Stream → Process State Stream →
      Result State Stream}
    (reaches : ∀ file,
      tables.engine.registry.getFile (fdKey fd) = some file →
        Reaches (FdEffect tables call) inHook
          (served tables.engine file process).process) :
    Reaches (FdEffect tables call) inHook
      (withWritable machine call fd served process).process := by
  refine reaches_withFile has fun file hit => ?_
  split
  · exact reaches_same has (.unchanged call)
  · exact reaches file hit

/-- What a call on descriptors does to the tables. -/
theorem reaches_shimFd (call : FdCall) :
    Reaches (FdEffect tables call) inHook
      (shimFd machine call process).process := by
  have same : Reaches (FdEffect tables call) inHook process :=
    reaches_same has (.unchanged call)
  cases call with
  | read fd buf =>
      refine reaches_withFile has fun file hit => ?_
      split
      · exact same
      · split
        · exact same
        · exact reaches_answerStream has List.mem_cons_self hit _
  | readv fd iov iovcnt =>
      refine reaches_withFile has fun file hit => ?_
      split
      · exact same
      · split
        · exact same
        · exact reaches_answerStream has List.mem_cons_self hit _
  | pread fd buf offset =>
      refine reaches_withFile has fun file hit => ?_
      split
      · exact same
      · split
        · exact same
        · split
          · exact same
          · exact reaches_answerStream has List.mem_cons_self hit _
  | lseek sym fd offset whence =>
      refine reaches_withFile has fun file hit => ?_
      split
      · exact same
      · exact reaches_answerStream has List.mem_cons_self hit _
  | write fd buf =>
      refine reaches_withWritable has fun file hit => ?_
      split
      · exact same
      · split
        · exact same
        · exact reaches_answerStream has List.mem_cons_self hit _
  | writev fd iov iovcnt =>
      refine reaches_withWritable has fun file hit => ?_
      split
      · exact same
      · split
        · exact same
        · exact reaches_answerStream has List.mem_cons_self hit _
  | pwrite fd buf offset =>
      refine reaches_withWritable has fun file hit => ?_
      split
      · exact same
      · split
        · exact same
        · split
          · exact same
          · exact reaches_answerStream has List.mem_cons_self hit _
  | ftruncate sym fd length =>
      refine reaches_withWritable has fun file hit => ?_
      split
      · exact same
      · exact reaches_answerStream has List.mem_cons_self hit _
  | fsync fd =>
      exact reaches_withFile has fun file hit =>
        reaches_answerStream has List.mem_cons_self hit _
  | fchmod fd mode =>
      simp only [shimFd, shimFchmod]
      split
      · exact same
      · split
        · exact same
        · split
          · exact same
          · exact same
  | fstat sym fd buf =>
      exact reaches_withFile has fun file hit =>
        reaches_answerStream has List.mem_cons_self hit _
  | fstatvfs fd buf =>
      exact reaches_withFile has fun file hit =>
        reaches_withVfs has (.unchanged _) _
  | fdopendir fd =>
      exact reaches_withFile has fun file hit => same
  | sendfile outFd inFd offset count =>
      exact reaches_withFile has fun file hit => same
  | close fd =>
      exact reaches_withFile has fun file hit =>
        ⟨_, .closed hit, rfl, has.cookies, has.side⟩

/-! ### Calls on directory streams -/

theorem reaches_withDir {call : DirCall} {dirp : Nat}
    {served : Engine Stream → VirtualDir → Process State Stream →
      Result State Stream}
    (reaches : ∀ dir,
      tables.engine.registry.getDir dirp = some dir →
        Reaches (DirEffect tables call) inHook
          (served tables.engine dir process).process) :
    Reaches (DirEffect tables call) inHook
      (withDir machine call dirp served process).process := by
  have same : Reaches (DirEffect tables call) inHook process :=
    reaches_same has (.unchanged call)
  unfold withDir
  rw [has.active]
  split
  · exact same
  · simp only
    split
    · exact same
    · next dir hit =>
      exact reaches dir hit

theorem reaches_shimDir (call : DirCall) :
    Reaches (DirEffect tables call) inHook
      (shimDir machine call process).process := by
  have same : Reaches (DirEffect tables call) inHook process :=
    reaches_same has (.unchanged call)
  cases call with
  | readdir sym dirp =>
      refine reaches_withDir has fun dir hit => ?_
      split
      · exact same
      · exact reaches_withEngine has process.vfs (.read hit)
  | closedir dirp =>
      exact reaches_withDir has fun dir hit =>
        reaches_withEngine has process.vfs (.closed hit)
  | getcwd buf size =>
      simp only [shimDir]
      fun_cases shimGetcwd machine buf size process with
      | _ =>
          exact same

/-- What a call does to the tables. -/
theorem reaches_shim (call : Call) :
    Reaches (CallEffect machine tables call) inHook
      (shim machine call process).process := by
  cases call with
  | path asked =>
      obtain ⟨next, effect, after⟩ : Reaches
          (PathEffect machine tables asked) inHook
          (shimPath machine asked process).process :=
        reaches_shimPath has asked
      exact ⟨next, .path effect, after⟩
  | two asked =>
      exact ⟨tables, .two asked, has_shimTwo has asked⟩
  | fd asked =>
      obtain ⟨next, effect, after⟩ : Reaches (FdEffect tables asked) inHook
          (shimFd machine asked process).process := reaches_shimFd has asked
      exact ⟨next, .fd effect, after⟩
  | dir asked =>
      obtain ⟨next, effect, after⟩ : Reaches (DirEffect tables asked) inHook
          (shimDir machine asked process).process :=
        reaches_shimDir has asked
      exact ⟨next, .dir effect, after⟩

/-! ### Cookies -/

/-- The engine is this one, on this side of the hook. -/
def OnEngine (engine : Engine Stream) (inHook : Bool)
    (process : Process State Stream) : Prop :=
  process.engine = some engine ∧ process.inHook = inHook

omit has in
theorem onEngine_answerCookie {engine : Engine Stream} {file : Nat}
    {state : CookieState Stream} (here : OnEngine engine inHook process)
    (outcome : Reply × OpenStream Stream × State) :
    OnEngine engine inHook (answerCookie file state process outcome).process :=
  here

omit has in
/-- A callback leaves the engine alone. -/
theorem onEngine_cookieCall {engine : Engine Stream}
    (here : OnEngine engine inHook process) (call : CookieCall) :
    OnEngine engine inHook (cookieCall machine call process).process := by
  cases call with
  | read file buf =>
      refine withCookie_keeps here fun state hit => ?_
      split
      · exact here
      · split
        · exact here
        · exact onEngine_answerCookie here _
  | write file buf =>
      simp only [cookieCall]
      split
      · exact here
      · split
        · refine withCookie_keeps here fun state hit => ?_
          split
          · split
            · exact here
            · exact here
          · split
            · exact here
            · exact onEngine_answerCookie here _
        · exact here
  | seek file offset whence =>
      refine withCookie_keeps here fun state hit => ?_
      split
      · exact here
      · exact onEngine_answerCookie here _
  | close file =>
      simp only [cookieCall, cookieCloseState]
      split
      · exact here
      · exact here

end Effects

end Hookfs.Unix
