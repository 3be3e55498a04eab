import Hookfs.Windows.Shims

/-!
# The handle shims of Windows

Every hooked KERNEL32 call that takes a file handle or a find handle, and the
query of the current directory.  A call leaves values behind pointers of its
caller; a pointer is a number, zero for null.
-/

namespace Hookfs.Windows

open Hookfs.Lib Hookfs.Vfs

variable {Ambient State Stream : Type}

def WinError.NO_MORE_FILES : Nat := 18
def WinError.NOT_SUPPORTED : Nat := 50

def invalidSetFilePointer : Int := 0xFFFFFFFF
def fileTypeDisk : Int := 1
def fileAttributeNormal : Nat := 0x80
def fileAttributeReadonly : Nat := 0x01
def virtualVolumeSerial : Nat := 0x484F4B46

/-- `i64::try_from(value).unwrap_or(i64::MAX)`. -/
def clampLarge (value : Nat) : Nat :=
  min value (2 ^ 63 - 1)

/-- `u32::try_from(done).unwrap_or(count)`. -/
def countDword (count : Dword) (done : Nat) : Nat :=
  if done < 2 ^ 32 then done else count.toNat

/-- `split_hi_lo`. -/
def splitHiLo (value : Nat) : Nat × Nat :=
  (value / 2 ^ 32, value % 2 ^ 32)

/-! ## Calls -/

/-- The words of an `OVERLAPPED` that the shims read. -/
structure Overlapped where
  offset : Dword
  offsetHigh : Dword
  deriving DecidableEq, Repr

/-- The position that the two words name. -/
def Overlapped.start (overlapped : Overlapped) : Nat :=
  overlapped.offsetHigh.toNat <<< 32 ||| overlapped.offset.toNat

/-- A caller's buffer with what stands in it. -/
structure Buffer where
  base : Nat
  data : List UInt8
  deriving DecidableEq, Repr

/-- A pointer to a double word, with the word behind it. -/
structure InOut where
  pointer : Nat
  word : Dword
  deriving DecidableEq, Repr

inductive HandleCall where
  | readFile (file : Int) (buffer : Nat) (count : Dword) (read : Nat)
      (overlapped : Option Overlapped)
  | readFileEx (file : Int) (buffer : Nat) (count : Dword)
      (overlapped : Option Overlapped) (routine : Nat)
  | writeFile (file : Int) (buffer : Buffer) (count : Dword) (written : Nat)
      (overlapped : Option Overlapped)
  | writeFileEx (file : Int) (buffer : Buffer) (count : Dword)
      (overlapped : Option Overlapped) (routine : Nat)
  | setFilePointerEx (file : Int) (distance : BitVec 64) (position : Nat)
      (method : Dword)
  | setFilePointer (file : Int) (distance : Dword) (high : InOut)
      (method : Dword)
  | getFileSizeEx (file : Int) (size : Nat)
  | getFileSize (file : Int) (high : Nat)
  | getFileType (file : Int)
  | getFileInformationByHandle (file : Int) (info : Nat)
  | getFileInformationByHandleEx (file : Int) (level : Dword) (info : Nat)
      (size : Dword)
  | flushFileBuffers (file : Int)
  | setEndOfFile (file : Int)
  | closeHandle (object : Int)
  | findNextFileW (find : Int) (data : Nat)
  | findClose (find : Int)
  | getCurrentDirectoryW (length buffer : Nat)
  deriving DecidableEq, Repr

/-! ## Replies -/

/-- `BY_HANDLE_FILE_INFORMATION`, as far as the shim sets it. -/
structure HandleInformation where
  attributes : Nat
  volumeSerial : Nat
  sizeHigh : Nat
  sizeLow : Nat
  links : Nat
  indexHigh : Nat
  indexLow : Nat
  deriving DecidableEq, Repr

/-- A value that a call leaves behind a pointer. -/
inductive Cell where
  | bytes (data : List UInt8)
  | dword (value : Nat)
  | large (value : Nat)
  | information (record : HandleInformation)
  | basic (attributes : Nat)
  | standard (size : Nat)
  | find (record : FileData)
  | wide (units : List UInt16)
  deriving DecidableEq, Repr

/-- The return value, the last error if it was set, and what was written. -/
structure HandleReply where
  ret : Int
  lastError : Option Nat
  writes : List (Nat × Cell)
  deriving DecidableEq, Repr

/-- Write through a pointer unless it is null. -/
def through (pointer : Nat) (cell : Cell) : List (Nat × Cell) :=
  if pointer = 0 then [] else [(pointer, cell)]

/-- The machine around a handle call: that of the path calls, the originals
of the handle calls, and the hasher of `stable_file_id`. -/
structure System (Ambient State Stream : Type) extends
    Machine Ambient State Stream where
  original : HandleCall → HandleReply
  hasher : Text → Nat

/-- What a handle shim comes to. -/
structure HandleResult (State Stream : Type) where
  reply : HandleReply
  calls : List HandleCall
  process : Process State Stream

/-- Answer and set the last error. -/
def answerHandle (ret : Int) (lastError : Nat) (writes : List (Nat × Cell))
    (process : Process State Stream) : HandleResult State Stream where
  reply := ⟨ret, some lastError, writes⟩
  calls := []
  process := process

/-- The last error and `FALSE`. -/
def failHandle (error : Nat) (process : Process State Stream) :
    HandleResult State Stream :=
  answerHandle 0 error [] process

namespace Registry

def removeFile (key : Nat) (registry : Registry Stream) : Registry Stream :=
  { registry with files := registry.files.erase key }

def putFile (key : Nat) (file : OpenFile Stream)
    (registry : Registry Stream) : Registry Stream :=
  { registry with files := registry.files.insert key file }

def removeFind (key : Nat) (registry : Registry Stream) : Registry Stream :=
  { registry with finds := registry.finds.erase key }

def putFind (key : Nat) (find : FindState) (registry : Registry Stream) :
    Registry Stream :=
  { registry with finds := registry.finds.insert key find }

end Registry

section Shims

variable (system : System Ambient State Stream)

/-- Call the original with the caller's arguments. -/
def passHandle (call : HandleCall) (process : Process State Stream) :
    HandleResult State Stream where
  reply := system.original call
  calls := [call]
  process := process

/-- Outside of a hook and with an active engine, the shim goes on. -/
def withEngine (call : HandleCall)
    (served : Engine Stream → Process State Stream →
      HandleResult State Stream)
    (process : Process State Stream) : HandleResult State Stream :=
  if process.inHook then passHandle system call process
  else
    match process.engine with
    | none => passHandle system call process
    | some engine => served engine process

/-- The beginning of the file-handle shims: the registry decides. -/
def withFile (call : HandleCall) (handle : Int)
    (served : Engine Stream → OpenFile Stream → Process State Stream →
      HandleResult State Stream) :
    Process State Stream → HandleResult State Stream :=
  withEngine system call fun engine process =>
    match engine.registry.files.lookup (handleKey handle) with
    | none => passHandle system call process
    | some file => served engine file process

/-- The beginning of the find-handle shims. -/
def withFind (call : HandleCall) (handle : Int)
    (served : Engine Stream → FindState → Process State Stream →
      HandleResult State Stream) :
    Process State Stream → HandleResult State Stream :=
  withEngine system call fun engine process =>
    match engine.registry.finds.lookup (handleKey handle) with
    | none => passHandle system call process
    | some find => served engine find process

/-- Write back the stream of a locked file, and the provider's state. -/
def keepStream (handle : Int) (engine : Engine Stream)
    (file : OpenFile Stream) (stream : OpenStream Stream) (vfs : State)
    (process : Process State Stream) : Process State Stream :=
  (process.withVfs vfs).withEngine
    { engine with
      registry := engine.registry.putFile (handleKey handle)
        { file with stream := stream } }

/-- Answer after an operation on the file's stream: with an error, or with
what its value makes of it. -/
def answerStream {Value : Type} (handle : Int) (engine : Engine Stream)
    (file : OpenFile Stream) (process : Process State Stream) (failed : Int)
    (succeeded : Value → Int × List (Nat × Cell))
    (outcome : Except IoError Value × OpenStream Stream × State) :
    HandleResult State Stream :=
  let kept := keepStream handle engine file outcome.2.1 outcome.2.2 process
  match outcome.1 with
  | .error error => answerHandle failed (ioToWin error) [] kept
  | .ok value =>
      answerHandle (succeeded value).1 WinError.SUCCESS (succeeded value).2
        kept

/-! ## Reading and writing -/

/-- A positioned call on a synchronous handle seeks first. -/
def seekOverlapped (overlapped : Option Overlapped)
    (stream : OpenStream Stream) (vfs : State) :
    Except IoError Unit × OpenStream Stream × State :=
  match overlapped with
  | none => (.ok (), stream, vfs)
  | some words =>
      let (result, moved, next) := stream.seek system.provider system.ambient
        (.start words.start) vfs
      (result.map fun _ => (), moved, next)

/-- What `ReadFile` and `WriteFile` share once the handle may be used: the
seek, the empty transfer, the null buffer, the transfer. -/
def transfer {Value : Type} (handle : Int) (engine : Engine Stream)
    (file : OpenFile Stream) (count : Dword) (base done : Nat)
    (overlapped : Option Overlapped)
    (operate : OpenStream Stream → State →
      Except IoError Value × OpenStream Stream × State)
    (succeeded : Value → Int × List (Nat × Cell))
    (process : Process State Stream) : HandleResult State Stream :=
  let (sought, stream, vfs) := seekOverlapped system overlapped file.stream
    process.vfs
  let kept := keepStream handle engine file stream vfs process
  match sought with
  | .error error => failHandle (ioToWin error) kept
  | .ok _ =>
      if count = 0 then
        answerHandle 1 WinError.SUCCESS (through done (.dword 0)) kept
      else if base = 0 then failHandle WinError.INVALID_PARAMETER kept
      else
        answerStream handle engine file process 0 succeeded
          (operate stream vfs)

def shimReadFile (handle : Int) (buffer : Nat) (count : Dword) (read : Nat)
    (overlapped : Option Overlapped) :
    Process State Stream → HandleResult State Stream :=
  withFile system (.readFile handle buffer count read overlapped) handle
    fun engine file process =>
      if file.overlapped then failHandle WinError.NOT_SUPPORTED process
      else
        transfer system handle engine file count buffer read overlapped
          (fun stream => stream.readBytes system.provider system.ambient
            count.toNat)
          (fun bytes => (1, (buffer, .bytes bytes) ::
            through read (.dword (countDword count bytes.length))))
          process

/-- `shim_ReadFileEx`: asynchronous only. -/
def shimReadFileEx (handle : Int) (buffer : Nat) (count : Dword)
    (overlapped : Option Overlapped) (routine : Nat) :
    Process State Stream → HandleResult State Stream :=
  withFile system (.readFileEx handle buffer count overlapped routine) handle
    fun _ _ process => failHandle WinError.NOT_SUPPORTED process

def shimWriteFile (handle : Int) (buffer : Buffer) (count : Dword)
    (written : Nat) (overlapped : Option Overlapped) :
    Process State Stream → HandleResult State Stream :=
  withFile system (.writeFile handle buffer count written overlapped) handle
    fun engine file process =>
      if !file.writable then failHandle WinError.ACCESS_DENIED process
      else if file.overlapped then failHandle WinError.NOT_SUPPORTED process
      else
        transfer system handle engine file count buffer.base written
          overlapped
          (fun stream => stream.writeBytes system.provider system.ambient
            (buffer.data.take count.toNat))
          (fun placed =>
            (1, through written (.dword (countDword count placed))))
          process

/-- `shim_WriteFileEx`: asynchronous only, and denied. -/
def shimWriteFileEx (handle : Int) (buffer : Buffer) (count : Dword)
    (overlapped : Option Overlapped) (routine : Nat) :
    Process State Stream → HandleResult State Stream :=
  withFile system (.writeFileEx handle buffer count overlapped routine)
    handle fun _ _ process => failHandle WinError.ACCESS_DENIED process

/-! ## Seeking and sizes -/

/-- `seek_from`, by move method. -/
def seekFrom (method : Dword) (distance : Int) : Option SeekFrom :=
  if method = 0 then
    if 0 ≤ distance then some (.start distance.toNat) else none
  else if method = 1 then some (.current distance)
  else if method = 2 then some (.end distance)
  else none

/-- What the two `SetFilePointer` shims share. -/
def setPointer (call : HandleCall) (handle : Int) (method : Dword)
    (distance : Int) (failed : Int)
    (succeeded : Nat → Int × List (Nat × Cell)) :
    Process State Stream → HandleResult State Stream :=
  withFile system call handle fun engine file process =>
    match seekFrom method distance with
    | none => answerHandle failed WinError.INVALID_PARAMETER [] process
    | some target =>
        answerStream handle engine file process failed succeeded
          (file.stream.seek system.provider system.ambient target
            process.vfs)

def shimSetFilePointerEx (handle : Int) (distance : BitVec 64)
    (position : Nat) (method : Dword) :
    Process State Stream → HandleResult State Stream :=
  setPointer system (.setFilePointerEx handle distance position method)
    handle method distance.toInt 0
    fun pos => (1, through position (.large (clampLarge pos)))

/-- The 64-bit move of `SetFilePointer`. -/
def moveDistance (distance : Dword) (high : InOut) : Int :=
  if high.pointer = 0 then distance.toInt
  else high.word.toInt * 2 ^ 32 + distance.toNat

def shimSetFilePointer (handle : Int) (distance : Dword) (high : InOut)
    (method : Dword) : Process State Stream → HandleResult State Stream :=
  setPointer system (.setFilePointer handle distance high method) handle
    method (moveDistance distance high) invalidSetFilePointer
    fun pos =>
      ((splitHiLo pos).2, through high.pointer (.dword (splitHiLo pos).1))

def shimGetFileSizeEx (handle : Int) (size : Nat) :
    Process State Stream → HandleResult State Stream :=
  withFile system (.getFileSizeEx handle size) handle
    fun engine file process =>
      answerStream handle engine file process 0
        (fun len => (1, through size (.large (clampLarge len))))
        (file.stream.size system.provider system.ambient process.vfs)

def shimGetFileSize (handle : Int) (high : Nat) :
    Process State Stream → HandleResult State Stream :=
  withFile system (.getFileSize handle high) handle
    fun engine file process =>
      answerStream handle engine file process invalidFileAttributes
        (fun len =>
          ((splitHiLo len).2, through high (.dword (splitHiLo len).1)))
        (file.stream.size system.provider system.ambient process.vfs)

def shimGetFileType (handle : Int) :
    Process State Stream → HandleResult State Stream :=
  withFile system (.getFileType handle) handle fun _ _ process =>
    answerHandle fileTypeDisk WinError.SUCCESS [] process

/-! ## Metadata -/

/-- `stable_file_id`; the hasher is given the path's key. -/
def stableFileId (path : Text) : Nat :=
  match system.hasher (normalizeKeyStr system.cases path) with
  | 0 => 1
  | id => id

/-- The attributes of a file that is open. -/
def openAttributes (file : OpenFile Stream) : Nat :=
  if file.writable then fileAttributeNormal
  else fileAttributeNormal ||| fileAttributeReadonly

/-- `size().unwrap_or(0)`, with the stream and the state afterwards. -/
def sizeOrZero (file : OpenFile Stream) (vfs : State) :
    Nat × OpenStream Stream × State :=
  let (result, stream, next) := file.stream.size system.provider
    system.ambient vfs
  (result.toOption.getD 0, stream, next)

def shimGetFileInformationByHandle (handle : Int) (info : Nat) :
    Process State Stream → HandleResult State Stream :=
  withFile system (.getFileInformationByHandle handle info) handle
    fun engine file process =>
      if info = 0 then failHandle WinError.INVALID_PARAMETER process
      else
        let (size, stream, vfs) := sizeOrZero system file process.vfs
        let index := splitHiLo (stableFileId system file.path)
        answerHandle 1 WinError.SUCCESS
          [(info, .information
            { attributes := openAttributes file
              volumeSerial := virtualVolumeSerial
              sizeHigh := (splitHiLo size).1
              sizeLow := (splitHiLo size).2
              links := 1
              indexHigh := index.1
              indexLow := index.2 })]
          (keepStream handle engine file stream vfs process)

/-- `FileBasicInfo` takes 40 bytes, `FileStandardInfo` 24. -/
def shimGetFileInformationByHandleEx (handle : Int) (level : Dword)
    (info : Nat) (bufferSize : Dword) :
    Process State Stream → HandleResult State Stream :=
  withFile system (.getFileInformationByHandleEx handle level info bufferSize)
    handle fun engine file process =>
      let (size, stream, vfs) := sizeOrZero system file process.vfs
      let kept := keepStream handle engine file stream vfs process
      if level = 0 then
        if info = 0 ∨ bufferSize.toNat < 40 then
          failHandle WinError.INVALID_PARAMETER kept
        else
          answerHandle 1 WinError.SUCCESS
            [(info, .basic (openAttributes file))] kept
      else if level = 1 then
        if info = 0 ∨ bufferSize.toNat < 24 then
          failHandle WinError.INVALID_PARAMETER kept
        else
          answerHandle 1 WinError.SUCCESS
            [(info, .standard (clampLarge size))] kept
      else failHandle WinError.NOT_SUPPORTED kept

/-! ## Flushing, truncating, closing -/

def shimFlushFileBuffers (handle : Int) :
    Process State Stream → HandleResult State Stream :=
  withFile system (.flushFileBuffers handle) handle
    fun engine file process =>
      answerStream handle engine file process 0 (fun _ => (1, []))
        (file.stream.flush system.provider system.ambient process.vfs)

/-- `shim_SetEndOfFile`: the end of the file moves to the cursor. -/
def shimSetEndOfFile (handle : Int) :
    Process State Stream → HandleResult State Stream :=
  withFile system (.setEndOfFile handle) handle
    fun engine file process =>
      if !file.writable then failHandle WinError.ACCESS_DENIED process
      else
        let (asked, stream, vfs) := file.stream.streamPosition
          system.provider system.ambient process.vfs
        match asked with
        | .error error =>
            failHandle (ioToWin error)
              (keepStream handle engine file stream vfs process)
        | .ok pos =>
            answerStream handle engine file process 0 (fun _ => (1, []))
              (stream.setLen system.provider system.ambient pos vfs)

/-- Close a carrier through the original and report success as the last
error. -/
def closeCarrier (call : HandleCall) (process : Process State Stream) :
    HandleResult State Stream where
  reply :=
    { system.original call with lastError := some WinError.SUCCESS }
  calls := [call]
  process := process

/-- `shim_CloseHandle`: the entry goes and its stream is dropped, then the
carrier is closed. -/
def shimCloseHandle (object : Int) :
    Process State Stream → HandleResult State Stream :=
  withFile system (.closeHandle object) object fun engine file process =>
    closeCarrier system (.closeHandle object)
      ((process.withEngine
        { engine with
          registry := engine.registry.removeFile (handleKey object) }).withVfs
        (system.provider.drop system.ambient file.stream.inner process.vfs))

/-! ## Enumeration -/

def shimFindNextFileW (handle : Int) (data : Nat) :
    Process State Stream → HandleResult State Stream :=
  withFind system (.findNextFileW handle data) handle
    fun engine find process =>
      match find.entries[find.next]? with
      | some entry =>
          answerHandle 1 WinError.SUCCESS
            (through data (.find (fillFindData entry)))
            (process.withEngine
              { engine with
                registry := engine.registry.putFind (handleKey handle)
                  { find with next := find.next + 1 } })
      | none => failHandle WinError.NO_MORE_FILES process

def shimFindClose (handle : Int) :
    Process State Stream → HandleResult State Stream :=
  withFind system (.findClose handle) handle fun engine _ process =>
    closeCarrier system (.findClose handle)
      (process.withEngine
        { engine with
          registry := engine.registry.removeFind (handleKey handle) })

/-! ## The current directory -/

/-- The reply of `write_full_path_w` without a file part. -/
def writeDirectory (text : Text) (buffer length : Nat) : HandleReply :=
  let wide := encodeUtf16 text
  if buffer = 0 ∨ length < wide.length + 1 then
    ⟨clampDword (wide.length + 1), none, []⟩
  else
    ⟨clampDword wide.length, some WinError.SUCCESS,
      [(buffer, .wide (wide ++ [0]))]⟩

def shimGetCurrentDirectoryW (length buffer : Nat) :
    Process State Stream → HandleResult State Stream :=
  withEngine system (.getCurrentDirectoryW length buffer)
    fun engine process =>
      match engine.cwd with
      | none =>
          passHandle system (.getCurrentDirectoryW length buffer) process
      | some cwd =>
          { reply := writeDirectory cwd buffer length
            calls := []
            process := process }

/-! ## Dispatch -/

def shimHandle : HandleCall → Process State Stream →
    HandleResult State Stream
  | .readFile file buffer count read overlapped =>
      shimReadFile system file buffer count read overlapped
  | .readFileEx file buffer count overlapped routine =>
      shimReadFileEx system file buffer count overlapped routine
  | .writeFile file buffer count written overlapped =>
      shimWriteFile system file buffer count written overlapped
  | .writeFileEx file buffer count overlapped routine =>
      shimWriteFileEx system file buffer count overlapped routine
  | .setFilePointerEx file distance position method =>
      shimSetFilePointerEx system file distance position method
  | .setFilePointer file distance high method =>
      shimSetFilePointer system file distance high method
  | .getFileSizeEx file size => shimGetFileSizeEx system file size
  | .getFileSize file high => shimGetFileSize system file high
  | .getFileType file => shimGetFileType system file
  | .getFileInformationByHandle file info =>
      shimGetFileInformationByHandle system file info
  | .getFileInformationByHandleEx file level info size =>
      shimGetFileInformationByHandleEx system file level info size
  | .flushFileBuffers file => shimFlushFileBuffers system file
  | .setEndOfFile file => shimSetEndOfFile system file
  | .closeHandle object => shimCloseHandle system object
  | .findNextFileW find data => shimFindNextFileW system find data
  | .findClose find => shimFindClose system find
  | .getCurrentDirectoryW length buffer =>
      shimGetCurrentDirectoryW system length buffer

end Shims

end Hookfs.Windows
