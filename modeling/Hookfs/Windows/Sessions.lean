import Hookfs.Lib.Runs
import Hookfs.Windows.FailClosed
import Hookfs.Windows.Handles

/-!
# Sequences of calls on Windows

Path calls and handle calls in one sequence, each with its own surroundings,
and what a single call can do to the tables of open files and searches.
-/

namespace Hookfs.Windows

open Hookfs.Lib Hookfs.Vfs
open Hookfs.Router (Route Namespace)

variable {Ambient State Stream : Type}

/-- One hooked call with what surrounds it. -/
inductive Event (Ambient State Stream : Type) where
  | path (machine : Machine Ambient State Stream) (call : Call)
  | handle (system : System Ambient State Stream) (call : HandleCall)

/-- What the caller gets back. -/
inductive Answer where
  | path (reply : Reply)
  | handle (reply : HandleReply)
  deriving DecidableEq, Repr

namespace Process

def step (process : Process State Stream) :
    Event Ambient State Stream → Answer × Process State Stream
  | .path machine call =>
      let result := shim machine call process
      (.path result.reply, result.process)
  | .handle system call =>
      let result := shimHandle system call process
      (.handle result.reply, result.process)

end Process

/-- The handle that a call is about; `GetCurrentDirectoryW` has none. -/
def HandleCall.object : HandleCall → Option Int
  | .readFile file _ _ _ _ => some file
  | .readFileEx file _ _ _ _ => some file
  | .writeFile file _ _ _ _ => some file
  | .writeFileEx file _ _ _ _ => some file
  | .setFilePointerEx file _ _ _ => some file
  | .setFilePointer file _ _ _ => some file
  | .getFileSizeEx file _ => some file
  | .getFileSize file _ => some file
  | .getFileType file => some file
  | .getFileInformationByHandle file _ => some file
  | .getFileInformationByHandleEx file _ _ _ => some file
  | .flushFileBuffers file => some file
  | .setEndOfFile file => some file
  | .closeHandle object => some object
  | .findNextFileW find _ => some find
  | .findClose find => some find
  | .getCurrentDirectoryW _ _ => none

/-! ## Effects on the tables -/

/-- A path call is served or passed on, or it asks for a carrier and, if
KERNEL32 hands one out, enters what it opened under it. -/
inductive PathEffect (machine : Machine Ambient State Stream)
    (registry : Registry Stream) :
    List KernelCall → Registry Stream → Prop
  | served : PathEffect machine registry [] registry
  | passed (call : Call) :
      PathEffect machine registry [.original call] registry
  | refused (carrier : KernelCall)
      (invalid : isHandle (machine.os carrier).ret = false) :
      PathEffect machine registry [carrier] registry
  | opened (file : OpenFile Stream)
      (valid : isHandle (machine.os .carrierOpen).ret = true) :
      PathEffect machine registry [.carrierOpen]
        (registry.putFile (handleKey (machine.os .carrierOpen).ret) file)
  | searched (find : FindState)
      (valid : isHandle (machine.os .carrierFind).ret = true) :
      PathEffect machine registry [.carrierFind]
        (registry.putFind (handleKey (machine.os .carrierFind).ret) find)

/-- A handle call touches the entry of its own handle only. -/
inductive HandleEffect (registry : Registry Stream) :
    HandleCall → Registry Stream → Prop
  | unchanged (call : HandleCall) : HandleEffect registry call registry
  | moved {call : HandleCall} {handle : Int} {file : OpenFile Stream}
      (stream : OpenStream Stream) (about : call.object = some handle)
      (hit : registry.files.lookup (handleKey handle) = some file) :
      HandleEffect registry call
        (registry.putFile (handleKey handle) { file with stream := stream })
  | closed {object : Int} {file : OpenFile Stream}
      (hit : registry.files.lookup (handleKey object) = some file) :
      HandleEffect registry (.closeHandle object)
        (registry.removeFile (handleKey object))
  | found {handle : Int} {data : Nat} {find : FindState}
      (hit : registry.finds.lookup (handleKey handle) = some find) :
      HandleEffect registry (.findNextFileW handle data)
        (registry.putFind (handleKey handle)
          { find with next := find.next + 1 })
  | ended {handle : Int} {find : FindState}
      (hit : registry.finds.lookup (handleKey handle) = some find) :
      HandleEffect registry (.findClose handle)
        (registry.removeFind (handleKey handle))

/-- The same engine, on the same side of the hook, with tables that the
effect allows. -/
structure Follows (effect : Registry Stream → Prop) (engine : Engine Stream)
    (process next : Process State Stream) : Prop where
  outside : next.inHook = process.inHook
  active : ∃ registry, effect registry ∧
    next.engine = some { engine with registry := registry }

section Effects

variable {process : Process State Stream} {engine : Engine Stream}
  {effect : Registry Stream → Prop}
  (active : process.engine = some engine)

/-- Only the provider's state changes. -/
theorem follows_withVfs (kept : effect engine.registry) (vfs : State)
    (active : process.engine = some engine) :
    Follows effect engine process (process.withVfs vfs) where
  outside := rfl
  active := ⟨engine.registry, kept, active⟩

theorem follows_refl (kept : effect engine.registry)
    (active : process.engine = some engine) :
    Follows effect engine process process where
  outside := rfl
  active := ⟨engine.registry, kept, active⟩

/-- The tables change, and the provider's state. -/
theorem follows_withEngine {registry : Registry Stream} (vfs : State)
    (allowed : effect registry) :
    Follows effect engine process
      ((process.withVfs vfs).withEngine
        { engine with registry := registry }) where
  outside := rfl
  active := ⟨registry, allowed, rfl⟩

/-- The result of a path call has one of the effects of a path call. -/
def FollowsCall (machine : Machine Ambient State Stream)
    (engine : Engine Stream) (process : Process State Stream)
    (result : Result State Stream) : Prop :=
  Follows (PathEffect machine engine.registry result.calls) engine process
    result.process

include active

/-! ### Path calls -/

variable {machine : Machine Ambient State Stream}

/-- Answered without KERNEL32, and without a change of the tables. -/
theorem followsCall_served (reply : Reply) (vfs : State) :
    FollowsCall machine engine process
      ⟨reply, [], process.withVfs vfs⟩ :=
  follows_withVfs .served vfs active

theorem followsCall_pass (machine : Machine Ambient State Stream)
    (call : Call) :
    FollowsCall machine engine process (pass machine call process) :=
  follows_refl (.passed call) active

theorem followsCall_routed {call : PathCall}
    {rejected : Process State Stream → Result State Stream}
    {served : Engine Stream → Text → Process State Stream →
      Result State Stream}
    (denied : FollowsCall machine engine process (rejected process))
    (follows : ∀ path, FollowsCall machine engine process
      (served engine path process)) :
    FollowsCall machine engine process
      (routed machine call rejected served process) := by
  have passed := followsCall_pass active machine (.path call)
  unfold routed
  split
  · exact passed
  · split
    · exact passed
    · next decoded _ =>
      simp only [Process.route, active, Option.map_some]
      cases engine.classify decoded with
      | virtual path =>
          exact follows path
      | rejected =>
          exact denied
      | real =>
          exact passed

theorem followsCall_openVirtual (access disposition flags : Dword)
    (path : Text) :
    FollowsCall machine engine process
      (openVirtual machine access disposition flags engine path process) := by
  unfold openVirtual
  simp only
  split
  · exact followsCall_served active _ process.vfs
  · split
    · exact followsCall_served active _ _
    · exact followsCall_served active _ _
    · split
      · next stream _ valid =>
        have opened : PathEffect machine engine.registry [.carrierOpen]
            (engine.registry.putFile
              (handleKey (machine.os .carrierOpen).ret) _) :=
          .opened ⟨stream, path, (openOptions access disposition).write,
            flags &&& fileFlagOverlapped ≠ 0⟩ valid
        unfold insertFile
        simp only
        split
        · exact ⟨rfl, _, opened, rfl⟩
        · exact ⟨rfl, _, opened, rfl⟩
      · next invalid =>
        exact follows_withVfs
          (.refused .carrierOpen (Bool.eq_false_iff.mpr invalid)) _ active

theorem followsCall_findFirstFile (call : PathCall) (data : Nat) :
    FollowsCall machine engine process
      (findFirstFile machine call data process) := by
  refine followsCall_routed active
    (followsCall_served active _ process.vfs) fun path => ?_
  split
  · exact followsCall_served active _ _
  · simp only
    split
    · next valid =>
      exact follows_withEngine _ (.searched _ valid)
    · next invalid =>
      exact follows_withVfs
        (.refused .carrierFind (Bool.eq_false_iff.mpr invalid)) _ active

theorem followsCall_mutatePath (call : PathCall) (declined : Nat)
    (operate : Text → State → Option (Except IoError Unit) × State) :
    FollowsCall machine engine process
      (mutatePath machine call declined operate process) := by
  refine followsCall_routed active
    (followsCall_served active _ process.vfs) fun path => ?_
  split
  · exact followsCall_served active _ process.vfs
  · exact followsCall_served active _ _

theorem followsCall_servedOrPassed (call : PathCall)
    {served : Process State Stream → Result State Stream}
    (follows : FollowsCall machine engine process (served process)) :
    FollowsCall machine engine process
      (servedOrPassed machine call served process) := by
  have passed := followsCall_pass active machine (.path call)
  unfold servedOrPassed
  split
  · exact passed
  · split
    · exact passed
    · simp only [Process.route, active, Option.map_some]
      split
      · exact follows
      · exact passed

theorem followsCall_moveFileExW (existing new : WStr) (flags : Dword) :
    FollowsCall machine engine process
      (shimMoveFileExW machine existing new flags process) := by
  have passed := followsCall_pass active machine
    (.moveFileExW existing new flags)
  have denied (reply : Reply) : FollowsCall machine engine process
      ⟨reply, [], process.withVfs process.vfs⟩ :=
    followsCall_served active reply process.vfs
  unfold shimMoveFileExW
  split
  · exact passed
  · split
    · exact passed
    · next decoded _ =>
      simp only [Process.route, active, Option.map_some]
      cases engine.classify decoded with
      | real =>
          exact passed
      | rejected =>
          exact denied _
      | virtual path =>
          simp only [moveVirtual]
          split
          · exact denied _
          · split
            · exact denied _
            · split
              · exact followsCall_served active _ _
              · exact denied _
              · exact denied _

theorem followsCall_shimPath (call : PathCall) :
    FollowsCall machine engine process (shimPath machine call process) := by
  have denied (reply : Reply) : FollowsCall machine engine process
      ⟨reply, [], process.withVfs process.vfs⟩ :=
    followsCall_served active reply process.vfs
  cases call with
  | createFileW name access share security disposition flags template =>
      exact followsCall_routed active (denied _) fun path =>
        followsCall_openVirtual active access disposition flags path
  | createFileA name access share security disposition flags template =>
      exact followsCall_routed active (denied _) fun path =>
        followsCall_openVirtual active access disposition flags path
  | createFile2 name access share disposition params =>
      exact followsCall_routed active (denied _) fun path =>
        followsCall_openVirtual active access disposition _ path
  | findFirstFileExW name level data searchOp filter flags =>
      exact followsCall_findFirstFile active _ data
  | findFirstFileW name data =>
      exact followsCall_findFirstFile active _ data
  | getFileAttributesW name =>
      refine followsCall_routed active (denied _) fun path => ?_
      split
      · exact followsCall_served active _ _
      · exact followsCall_served active _ _
  | getFileAttributesExW name level info =>
      refine followsCall_routed active (denied _) fun path => ?_
      split
      · split
        · exact followsCall_served active _ _
        · exact followsCall_served active _ _
      · exact followsCall_served active _ _
  | getFullPathNameW name length buffer filePart =>
      exact followsCall_routed active (denied _) fun path => denied _
  | getFullPathNameA name length buffer filePart =>
      exact followsCall_routed active (denied _) fun path => denied _
  | deleteFileW name =>
      exact followsCall_mutatePath active _ _ _
  | createDirectoryW name security =>
      exact followsCall_mutatePath active _ _ _
  | getDiskFreeSpaceA root sectors bytes free total =>
      exact followsCall_servedOrPassed active _
        (followsCall_served active _ _)
  | getDriveTypeW root =>
      exact followsCall_servedOrPassed active _ (denied _)

/-- What a path call does to the tables. -/
theorem followsCall_shim (call : Call) :
    FollowsCall machine engine process (shim machine call process) := by
  cases call with
  | path asked =>
      exact followsCall_shimPath active asked
  | moveFileExW existing new flags =>
      exact followsCall_moveFileExW active existing new flags

/-! ### Handle calls -/

variable {system : System Ambient State Stream}

theorem follows_withFile {call : HandleCall} {handle : Int}
    {served : Engine Stream → OpenFile Stream → Process State Stream →
      HandleResult State Stream}
    (follows : ∀ file,
      engine.registry.files.lookup (handleKey handle) = some file →
        Follows (HandleEffect engine.registry call) engine process
          (served engine file process).process) :
    Follows (HandleEffect engine.registry call) engine process
      (withFile system call handle served process).process := by
  have same : Follows (HandleEffect engine.registry call) engine process
      process := follows_refl (.unchanged call) active
  simp only [withFile, withEngine, active]
  split
  · exact same
  · split
    · exact same
    · next file hit =>
      exact follows file hit

theorem follows_withFind {call : HandleCall} {handle : Int}
    {served : Engine Stream → FindState → Process State Stream →
      HandleResult State Stream}
    (follows : ∀ find,
      engine.registry.finds.lookup (handleKey handle) = some find →
        Follows (HandleEffect engine.registry call) engine process
          (served engine find process).process) :
    Follows (HandleEffect engine.registry call) engine process
      (withFind system call handle served process).process := by
  have same : Follows (HandleEffect engine.registry call) engine process
      process := follows_refl (.unchanged call) active
  simp only [withFind, withEngine, active]
  split
  · exact same
  · split
    · exact same
    · next find hit =>
      exact follows find hit

omit active in
/-- Writing a stream back is the effect of a file call. -/
theorem follows_keepStream {call : HandleCall} {handle : Int}
    {file : OpenFile Stream} (about : call.object = some handle)
    (hit : engine.registry.files.lookup (handleKey handle) = some file)
    (stream : OpenStream Stream) (vfs : State) :
    Follows (HandleEffect engine.registry call) engine process
      (keepStream handle engine file stream vfs process) :=
  follows_withEngine vfs (.moved stream about hit)

omit active in
theorem follows_answerStream {Value : Type} {call : HandleCall}
    {handle : Int} {file : OpenFile Stream}
    (about : call.object = some handle)
    (hit : engine.registry.files.lookup (handleKey handle) = some file)
    (failed : Int) (succeeded : Value → Int × List (Nat × Cell))
    (outcome : Except IoError Value × OpenStream Stream × State) :
    Follows (HandleEffect engine.registry call) engine process
      (answerStream handle engine file process failed succeeded
        outcome).process := by
  have kept : Follows (HandleEffect engine.registry call) engine process
      (keepStream handle engine file outcome.2.1 outcome.2.2 process) :=
    follows_keepStream about hit outcome.2.1 outcome.2.2
  unfold answerStream
  simp only
  split
  · exact kept
  · exact kept

omit active in
theorem follows_transfer {Value : Type} {call : HandleCall} {handle : Int}
    {file : OpenFile Stream} (about : call.object = some handle)
    (hit : engine.registry.files.lookup (handleKey handle) = some file)
    (count : Dword) (base done : Nat) (overlapped : Option Overlapped)
    (operate : OpenStream Stream → State →
      Except IoError Value × OpenStream Stream × State)
    (succeeded : Value → Int × List (Nat × Cell)) :
    Follows (HandleEffect engine.registry call) engine process
      (transfer system handle engine file count base done overlapped operate
        succeeded process).process := by
  have kept (stream : OpenStream Stream) (vfs : State) :
      Follows (HandleEffect engine.registry call) engine process
        (keepStream handle engine file stream vfs process) :=
    follows_keepStream about hit stream vfs
  unfold transfer
  simp only
  split
  · exact kept _ _
  · split
    · exact kept _ _
    · split
      · exact kept _ _
      · exact follows_answerStream about hit _ _ _

theorem follows_setPointer {call : HandleCall} {handle : Int}
    (about : call.object = some handle) (method : Dword)
    (distance failed : Int)
    (succeeded : Nat → Int × List (Nat × Cell)) :
    Follows (HandleEffect engine.registry call) engine process
      (setPointer system call handle method distance failed succeeded
        process).process := by
  refine follows_withFile active fun file hit => ?_
  split
  · exact follows_refl (.unchanged call) active
  · exact follows_answerStream about hit _ _ _

theorem follows_getInformation {handle : Int} {info : Nat} :
    Follows (HandleEffect engine.registry
        (.getFileInformationByHandle handle info)) engine process
      (shimGetFileInformationByHandle system handle info
        process).process := by
  refine follows_withFile active fun file hit => ?_
  split
  · exact follows_refl (.unchanged _) active
  · exact follows_keepStream rfl hit _ _

theorem follows_getInformationEx {handle : Int} {level : Dword} {info : Nat}
    {size : Dword} :
    Follows (HandleEffect engine.registry
        (.getFileInformationByHandleEx handle level info size)) engine process
      (shimGetFileInformationByHandleEx system handle level info size
        process).process := by
  refine follows_withFile active fun file hit => ?_
  have kept (stream : OpenStream Stream) (vfs : State) :
      Follows (HandleEffect engine.registry
          (.getFileInformationByHandleEx handle level info size)) engine
        process (keepStream handle engine file stream vfs process) :=
    follows_keepStream rfl hit stream vfs
  simp only
  split
  · split
    · exact kept _ _
    · exact kept _ _
  · split
    · split
      · exact kept _ _
      · exact kept _ _
    · exact kept _ _

theorem follows_setEndOfFile {handle : Int} :
    Follows (HandleEffect engine.registry (.setEndOfFile handle)) engine
      process (shimSetEndOfFile system handle process).process := by
  refine follows_withFile active fun file hit => ?_
  split
  · exact follows_refl (.unchanged _) active
  · simp only
    split
    · exact follows_keepStream rfl hit _ _
    · exact follows_answerStream rfl hit _ _ _

theorem follows_findNextFileW {handle : Int} {data : Nat} :
    Follows (HandleEffect engine.registry (.findNextFileW handle data)) engine
      process (shimFindNextFileW system handle data process).process := by
  refine follows_withFind active fun find hit => ?_
  split
  · exact follows_withEngine process.vfs (.found hit)
  · exact follows_refl (.unchanged _) active

theorem follows_getCurrentDirectoryW {length buffer : Nat} :
    Follows (HandleEffect engine.registry
        (.getCurrentDirectoryW length buffer)) engine process
      (shimGetCurrentDirectoryW system length buffer process).process := by
  have same : Follows (HandleEffect engine.registry
      (.getCurrentDirectoryW length buffer)) engine process process :=
    follows_refl (.unchanged _) active
  unfold shimGetCurrentDirectoryW withEngine
  rw [active]
  split
  · exact same
  · simp only
    split
    · exact same
    · exact same

/-- What a handle call does to the tables. -/
theorem follows_shimHandle (call : HandleCall) :
    Follows (HandleEffect engine.registry call) engine process
      (shimHandle system call process).process := by
  cases call with
  | readFile file buffer count read overlapped =>
      refine follows_withFile active fun opened hit => ?_
      split
      · exact follows_refl (.unchanged _) active
      · exact follows_transfer rfl hit _ _ _ _ _ _
  | readFileEx file buffer count overlapped routine =>
      exact follows_withFile active fun _ _ => follows_refl (.unchanged _) active
  | writeFile file buffer count written overlapped =>
      refine follows_withFile active fun opened hit => ?_
      split
      · exact follows_refl (.unchanged _) active
      · split
        · exact follows_refl (.unchanged _) active
        · exact follows_transfer rfl hit _ _ _ _ _ _
  | writeFileEx file buffer count overlapped routine =>
      exact follows_withFile active fun _ _ => follows_refl (.unchanged _) active
  | setFilePointerEx file distance position method =>
      exact follows_setPointer active rfl _ _ _ _
  | setFilePointer file distance high method =>
      exact follows_setPointer active rfl _ _ _ _
  | getFileSizeEx file size =>
      exact follows_withFile active fun _ hit =>
        follows_answerStream rfl hit _ _ _
  | getFileSize file high =>
      exact follows_withFile active fun _ hit =>
        follows_answerStream rfl hit _ _ _
  | getFileType file =>
      exact follows_withFile active fun _ _ => follows_refl (.unchanged _) active
  | getFileInformationByHandle file info =>
      exact follows_getInformation active
  | getFileInformationByHandleEx file level info size =>
      exact follows_getInformationEx active
  | flushFileBuffers file =>
      exact follows_withFile active fun _ hit =>
        follows_answerStream rfl hit _ _ _
  | setEndOfFile file =>
      exact follows_setEndOfFile active
  | closeHandle object =>
      exact follows_withFile active fun _ hit =>
        ⟨rfl, _, .closed hit, rfl⟩
  | findNextFileW find data =>
      exact follows_findNextFileW active
  | findClose find =>
      exact follows_withFind active fun _ hit =>
        ⟨rfl, _, .ended hit, rfl⟩
  | getCurrentDirectoryW length buffer =>
      exact follows_getCurrentDirectoryW active

end Effects

end Hookfs.Windows
