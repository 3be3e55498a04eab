import Hookfs.Lib.Store
import Hookfs.Router.Engine
import Hookfs.Windows.Kernel
import Hookfs.Windows.StdPath

/-!
# The path shims of Windows

Every hooked KERNEL32 call that takes a path, the loader apart, as a function
of the process state.  A shim answers by itself or asks KERNEL32; what it
asks is recorded in order, and the answers come from the machine around it.
-/

namespace Hookfs.Windows

open Hookfs.Lib Hookfs.Vfs Hookfs.Posix
open Hookfs.Router (Route Namespace)

variable {Ambient State Stream : Type}

/-! ## Engine -/

structure OpenFile (Stream : Type) where
  stream : OpenStream Stream
  path : Text
  writable : Bool
  overlapped : Bool
  deriving DecidableEq, Repr

structure FindState where
  entries : List DirEntry
  next : Nat
  deriving DecidableEq, Repr

structure Registry (Stream : Type) where
  files : Store Nat (OpenFile Stream)
  finds : Store Nat FindState

/-- `Engine` on Windows, without the provider, which outlives it. -/
structure Engine (Stream : Type) where
  nspace : Namespace
  registry : Registry Stream
  cwd : Option Text
  allowWrites : Bool

/-- `Namespace::from_root` on Windows. -/
def namespaceFromRoot (cases : CaseMap) (root : Text) : Namespace where
  root := root
  isVirtual path :=
    keyHasPrefix (normalizeKeyStr cases path) (normalizeKeyStr cases root)

namespace Engine

def new (nspace : Namespace) (allowWrites : Bool) : Engine Stream where
  nspace := nspace
  registry := ⟨∅, ∅⟩
  cwd := none
  allowWrites := allowWrites

def classify (decoded : Text) (engine : Engine Stream) : Route :=
  let resolved :=
    if isAbsolute decoded then some decoded
    else engine.cwd.map fun cwd => join cwd decoded
  match resolved with
  | none => .real
  | some absolute =>
      if !engine.nspace.isVirtual absolute then .real
      else if isLexicallySafe absolute then .virtual absolute
      else .rejected

end Engine

/-! ## Process and machine -/

/-- One process, on one thread: the provider's state, the active engine and
the thread's `IN_HOOK` flag. -/
structure Process (State Stream : Type) where
  vfs : State
  engine : Option (Engine Stream)
  inHook : Bool

/-- What surrounds one call. -/
structure Machine (Ambient State Stream : Type) where
  provider : VirtualFs Ambient State Stream
  ambient : Ambient
  os : KernelCall → Reply
  cases : CaseMap

/-- The outcome of a shim: its reply, what it asked of KERNEL32, and the
process afterwards. -/
structure Result (State Stream : Type) where
  reply : Reply
  calls : List KernelCall
  process : Process State Stream

/-- Answer and set the last error, without output. -/
def answer (ret : Int) (lastError : Nat) (process : Process State Stream) :
    Result State Stream where
  reply := ⟨ret, some lastError, .nothing⟩
  calls := []
  process := process

/-- Call the original with the caller's arguments. -/
def pass (machine : Machine Ambient State Stream) (call : Call)
    (process : Process State Stream) : Result State Stream where
  reply := machine.os (.original call)
  calls := [.original call]
  process := process

namespace Process

def withVfs (vfs : State) (process : Process State Stream) :
    Process State Stream :=
  { process with vfs := vfs }

def withEngine (engine : Engine Stream) (process : Process State Stream) :
    Process State Stream :=
  { process with engine := some engine }

/-- `route`: `none` without an active engine. -/
def route (decoded : Text) (process : Process State Stream) :
    Option (Engine Stream × Route) :=
  process.engine.map fun engine => (engine, engine.classify decoded)

end Process

section Shims

variable (machine : Machine Ambient State Stream)

/-- The beginning of the path shims: outside of a hook and with a decodable
path, the route decides. -/
def routed (call : PathCall)
    (rejected : Process State Stream → Result State Stream)
    (served : Engine Stream → Text → Process State Stream →
      Result State Stream)
    (process : Process State Stream) : Result State Stream :=
  if process.inHook then pass machine (.path call) process
  else
    match call.path.decode with
    | none => pass machine (.path call) process
    | some decoded =>
        match process.route decoded with
        | none => pass machine (.path call) process
        | some (_, .real) => pass machine (.path call) process
        | some (_, .rejected) => rejected process
        | some (engine, .virtual path) => served engine path process

/-! ## Opening -/

/-- `handle as usize`. -/
def handleKey (handle : Int) : Nat :=
  (handle % 2 ^ 64).toNat

def openOptions (access disposition : Dword) : OpenOptions where
  read := true
  write := access &&& writeAccessMask ≠ 0
  create := disposition = createAlways || disposition = openAlways
  createNew := disposition = createNew
  truncate := disposition = createAlways || disposition = truncateExisting
  append := access &&& fileAppendData ≠ 0 && access &&& fileWriteData = 0

/-- A carrier that could be opened. -/
def isHandle (handle : Int) : Bool :=
  handle ≠ invalidHandleValue && handle ≠ 0

/-- `Registry::insert_file`; a file already behind the handle is dropped. -/
def insertFile (handle : Int) (engine : Engine Stream)
    (file : OpenFile Stream) (process : Process State Stream) :
    Process State Stream :=
  let kept := process.withEngine
    { engine with
      registry := { engine.registry with
        files := engine.registry.files.insert (handleKey handle) file } }
  match engine.registry.files.lookup (handleKey handle) with
  | none => kept
  | some old =>
      kept.withVfs
        (machine.provider.drop machine.ambient old.stream.inner kept.vfs)

/-- Open a stream for reading or for writing, as the options ask. -/
def openStream (path : Text) (opts : OpenOptions) (vfs : State) :
    Option (Except IoError (OpenStream Stream)) × State :=
  if opts.write then
    let (opened, next) :=
      machine.provider.openWrite machine.ambient path opts vfs
    (opened.map (·.map .write), next)
  else
    let (opened, next) := machine.provider.open machine.ambient path opts vfs
    (opened.map (·.map .read), next)

def openVirtual (access disposition flags : Dword) (engine : Engine Stream)
    (path : Text) (process : Process State Stream) : Result State Stream :=
  let opts := openOptions access disposition
  if opts.write && !engine.allowWrites then
    answer invalidHandleValue WinError.ACCESS_DENIED process
  else
    let (opened, vfs) := openStream machine path opts process.vfs
    match opened with
    | none =>
        answer invalidHandleValue WinError.FILE_NOT_FOUND
          (process.withVfs vfs)
    | some (.error error) =>
        answer invalidHandleValue (ioToWin error) (process.withVfs vfs)
    | some (.ok stream) =>
        let carrier := (machine.os .carrierOpen).ret
        if isHandle carrier then
          { reply := ⟨carrier, some WinError.SUCCESS, .nothing⟩
            calls := [.carrierOpen]
            process := insertFile machine carrier engine
              ⟨stream, path, opts.write, flags &&& fileFlagOverlapped ≠ 0⟩
              (process.withVfs vfs) }
        else
          { reply := ⟨invalidHandleValue, some WinError.INTERNAL_ERROR,
              .nothing⟩
            calls := [.carrierOpen]
            process := process.withVfs
              (machine.provider.drop machine.ambient stream.inner vfs) }

/-- What the three `CreateFile` shims share. -/
def createFile (call : PathCall) (access disposition flags : Dword) :
    Process State Stream → Result State Stream :=
  routed machine call (answer invalidHandleValue WinError.FILE_NOT_FOUND)
    (openVirtual machine access disposition flags)

def shimCreateFileW (name : WStr) (access share : Dword) (security : Nat)
    (disposition flags : Dword) (template : Nat) :
    Process State Stream → Result State Stream :=
  createFile machine
    (.createFileW name access share security disposition flags template)
    access disposition flags

def shimCreateFileA (name : CStr) (access share : Dword) (security : Nat)
    (disposition flags : Dword) (template : Nat) :
    Process State Stream → Result State Stream :=
  createFile machine
    (.createFileA name access share security disposition flags template)
    access disposition flags

/-- `shim_CreateFile2`; the flags are in the extended parameters. -/
def shimCreateFile2 (name : WStr) (access share disposition : Dword)
    (params : Option Dword) : Process State Stream → Result State Stream :=
  createFile machine (.createFile2 name access share disposition params)
    access disposition (params.getD 0)

/-! ## Finding -/

def findMatches (pattern : Text) (vfs : State) : List DirEntry × State :=
  let leaf := (fileName pattern).getD []
  let up := (parent pattern).getD pattern
  let (listed, next) := machine.provider.readDir machine.ambient up vfs
  let found := match listed with
    | some (.ok entries) =>
        entries.filter fun entry => wildcardMatch machine.cases leaf entry.name
    | _ => []
  if found.isEmpty && !(leaf.contains '*' || leaf.contains '?') then
    match machine.provider.metadata machine.ambient pattern next with
    | (some (.ok report), last) => ([⟨leaf, report⟩], last)
    | (_, last) => ([], last)
  else (found, next)

/-- What the two `FindFirstFile` shims share. -/
def findFirstFile (call : PathCall) (data : Nat) :
    Process State Stream → Result State Stream :=
  routed machine call (answer invalidHandleValue WinError.FILE_NOT_FOUND)
    fun engine path process =>
      match findMatches machine path process.vfs with
      | ([], vfs) =>
          answer invalidHandleValue WinError.FILE_NOT_FOUND
            (process.withVfs vfs)
      | (first :: rest, vfs) =>
          let carrier := (machine.os .carrierFind).ret
          if isHandle carrier then
            { reply := ⟨carrier, some WinError.SUCCESS,
                if data = 0 then .nothing else .data (fillFindData first)⟩
              calls := [.carrierFind]
              process := (process.withVfs vfs).withEngine
                { engine with
                  registry := { engine.registry with
                    finds := engine.registry.finds.insert (handleKey carrier)
                      ⟨rest, 0⟩ } } }
          else
            { reply := ⟨invalidHandleValue, some WinError.INTERNAL_ERROR,
                .nothing⟩
              calls := [.carrierFind]
              process := process.withVfs vfs }

def shimFindFirstFileExW (name : WStr) (level : Int) (data : Nat)
    (searchOp : Int) (filter : Nat) (flags : Dword) :
    Process State Stream → Result State Stream :=
  findFirstFile machine
    (.findFirstFileExW name level data searchOp filter flags) data

def shimFindFirstFileW (name : WStr) (data : Nat) :
    Process State Stream → Result State Stream :=
  findFirstFile machine (.findFirstFileW name data) data

/-! ## Attributes and full paths -/

def shimGetFileAttributesW (name : WStr) :
    Process State Stream → Result State Stream :=
  routed machine (.getFileAttributesW name)
    (answer invalidFileAttributes WinError.FILE_NOT_FOUND)
    fun _ path process =>
      match machine.provider.metadata machine.ambient path process.vfs with
      | (some (.ok report), vfs) =>
          answer (attrsFor report) WinError.SUCCESS (process.withVfs vfs)
      | (_, vfs) =>
          answer invalidFileAttributes WinError.FILE_NOT_FOUND
            (process.withVfs vfs)

def shimGetFileAttributesExW (name : WStr) (level : Int) (info : Nat) :
    Process State Stream → Result State Stream :=
  routed machine (.getFileAttributesExW name level info)
    (answer 0 WinError.FILE_NOT_FOUND)
    fun _ path process =>
      match machine.provider.metadata machine.ambient path process.vfs with
      | (some (.ok report), vfs) =>
          if info = 0 then
            answer 0 WinError.INVALID_PARAMETER (process.withVfs vfs)
          else
            { reply := ⟨1, some WinError.SUCCESS,
                .data (fillAttributeData report)⟩
              calls := []
              process := process.withVfs vfs }
      | (_, vfs) =>
          answer 0 WinError.FILE_NOT_FOUND (process.withVfs vfs)

/-- What the two `GetFullPathName` shims share, up to the way they write the
path. -/
def getFullPathName (call : PathCall) (write : Text → Reply) :
    Process State Stream → Result State Stream :=
  routed machine call (answer 0 WinError.INVALID_NAME)
    fun _ path process =>
      { reply := write path
        calls := []
        process := process }

def shimGetFullPathNameW (name : WStr) (length buffer filePart : Nat) :
    Process State Stream → Result State Stream :=
  getFullPathName machine (.getFullPathNameW name length buffer filePart)
    fun path => writeFullPathW path buffer length filePart

def shimGetFullPathNameA (name : CStr) (length buffer filePart : Nat) :
    Process State Stream → Result State Stream :=
  getFullPathName machine (.getFullPathNameA name length buffer filePart)
    fun path => writeFullPathA path buffer length filePart

/-! ## Mutation -/

/-- `mutation_result`, and the error where the provider declines. -/
def mutationReply (declined : Nat) : Option (Except IoError Unit) → Reply
  | none => ⟨0, some declined, .nothing⟩
  | some (.ok _) => ⟨1, some WinError.SUCCESS, .nothing⟩
  | some (.error error) => ⟨0, some (ioToWin error), .nothing⟩

/-- What `shim_DeleteFileW` and `shim_CreateDirectoryW` share. -/
def mutatePath (call : PathCall) (declined : Nat)
    (operate : Text → State → Option (Except IoError Unit) × State) :
    Process State Stream → Result State Stream :=
  routed machine call (answer 0 WinError.ACCESS_DENIED)
    fun engine path process =>
      if !engine.allowWrites then answer 0 WinError.ACCESS_DENIED process
      else
        let (result, vfs) := operate path process.vfs
        { reply := mutationReply declined result
          calls := []
          process := process.withVfs vfs }

def shimDeleteFileW (name : WStr) :
    Process State Stream → Result State Stream :=
  mutatePath machine (.deleteFileW name) WinError.FILE_NOT_FOUND
    (machine.provider.remove machine.ambient)

def shimCreateDirectoryW (name : WStr) (security : Nat) :
    Process State Stream → Result State Stream :=
  mutatePath machine (.createDirectoryW name security)
    WinError.ACCESS_DENIED (machine.provider.createDir machine.ambient)

/-- The part of `shim_MoveFileExW` for a virtual source. -/
def moveVirtual (new : WStr) (engine : Engine Stream) (path : Text)
    (process : Process State Stream) : Result State Stream :=
  if !engine.allowWrites then answer 0 WinError.ACCESS_DENIED process
  else
    match decodeWide new with
    | none => answer 0 WinError.INVALID_PARAMETER process
    | some decoded =>
        match engine.classify decoded with
        | .virtual target =>
            let (result, vfs) := machine.provider.rename machine.ambient path
              target process.vfs
            { reply := mutationReply WinError.FILE_NOT_FOUND result
              calls := []
              process := process.withVfs vfs }
        | .real => answer 0 WinError.ACCESS_DENIED process
        | .rejected => answer 0 WinError.ACCESS_DENIED process

/-- `shim_MoveFileExW`: only the source is routed before it passes. -/
def shimMoveFileExW (existing new : WStr) (flags : Dword)
    (process : Process State Stream) : Result State Stream :=
  if process.inHook then
    pass machine (.moveFileExW existing new flags) process
  else
    match decodeWide existing with
    | none => pass machine (.moveFileExW existing new flags) process
    | some decoded =>
        match process.route decoded with
        | none => pass machine (.moveFileExW existing new flags) process
        | some (_, .real) =>
            pass machine (.moveFileExW existing new flags) process
        | some (_, .rejected) => answer 0 WinError.ACCESS_DENIED process
        | some (engine, .virtual path) =>
            moveVirtual machine new engine path process

/-! ## Volumes -/

/-- The volume queries serve a virtual path and pass everything else. -/
def servedOrPassed (call : PathCall)
    (served : Process State Stream → Result State Stream)
    (process : Process State Stream) : Result State Stream :=
  if process.inHook then pass machine (.path call) process
  else
    match call.path.decode with
    | none => pass machine (.path call) process
    | some decoded =>
        match process.route decoded with
        | some (_, .virtual _) => served process
        | _ => pass machine (.path call) process

def shimGetDiskFreeSpaceA (root : CStr) (sectors bytes free total : Nat) :
    Process State Stream → Result State Stream :=
  servedOrPassed machine (.getDiskFreeSpaceA root sectors bytes free total)
    fun process =>
      let (info, vfs) := machine.provider.volumeInfo machine.ambient
        process.vfs
      { reply := ⟨1, some WinError.SUCCESS,
          writeNumbers [sectors, bytes, free, total] (diskFreeSpace info)⟩
        calls := []
        process := process.withVfs vfs }

def shimGetDriveTypeW (root : WStr) :
    Process State Stream → Result State Stream :=
  servedOrPassed machine (.getDriveTypeW root) fun process =>
    { reply := ⟨driveFixed, none, .nothing⟩
      calls := []
      process := process }

/-! ## Dispatch -/

def shimPath : PathCall → Process State Stream → Result State Stream
  | .createFileW name access share security disposition flags template =>
      shimCreateFileW machine name access share security disposition flags
        template
  | .createFileA name access share security disposition flags template =>
      shimCreateFileA machine name access share security disposition flags
        template
  | .createFile2 name access share disposition params =>
      shimCreateFile2 machine name access share disposition params
  | .findFirstFileExW name level data searchOp filter flags =>
      shimFindFirstFileExW machine name level data searchOp filter flags
  | .findFirstFileW name data => shimFindFirstFileW machine name data
  | .getFileAttributesW name => shimGetFileAttributesW machine name
  | .getFileAttributesExW name level info =>
      shimGetFileAttributesExW machine name level info
  | .getFullPathNameW name length buffer filePart =>
      shimGetFullPathNameW machine name length buffer filePart
  | .getFullPathNameA name length buffer filePart =>
      shimGetFullPathNameA machine name length buffer filePart
  | .deleteFileW name => shimDeleteFileW machine name
  | .createDirectoryW name security =>
      shimCreateDirectoryW machine name security
  | .getDiskFreeSpaceA root sectors bytes free total =>
      shimGetDiskFreeSpaceA machine root sectors bytes free total
  | .getDriveTypeW root => shimGetDriveTypeW machine root

def shim : Call → Process State Stream → Result State Stream
  | .path call => shimPath machine call
  | .moveFileExW existing new flags =>
      shimMoveFileExW machine existing new flags

end Shims

end Hookfs.Windows
