import Hookfs.Vfs.Core
import Hookfs.Windows.Paths

/-!
# The path-bearing part of KERNEL32

The hooked calls that take a path, with their arguments as the caller passes
them, and what a shim can hand back.  A pointer that is only tested for null
or handed on is a number, zero for null.
-/

namespace Hookfs.Windows

open Hookfs.Lib Hookfs.Vfs Hookfs.Posix

/-! ## Numbers -/

namespace WinError

def SUCCESS : Nat := 0
def FILE_NOT_FOUND : Nat := 2
def ACCESS_DENIED : Nat := 5
def FILE_EXISTS : Nat := 80
def INVALID_PARAMETER : Nat := 87
def INVALID_NAME : Nat := 123
def DIR_NOT_EMPTY : Nat := 145
def DIRECTORY : Nat := 267
def INTERNAL_ERROR : Nat := 1359

end WinError

def ioToWin : IoError → Nat
  | .os code => if code ≠ 0 then code else WinError.INTERNAL_ERROR
  | .simple kind => ofKind kind
  | .custom kind _ => ofKind kind
where
  ofKind : ErrorKind → Nat
    | .notFound => WinError.FILE_NOT_FOUND
    | .permissionDenied => WinError.ACCESS_DENIED
    | .isADirectory => WinError.ACCESS_DENIED
    | .alreadyExists => WinError.FILE_EXISTS
    | .invalidInput => WinError.INVALID_PARAMETER
    | .directoryNotEmpty => WinError.DIR_NOT_EMPTY
    | .notADirectory => WinError.DIRECTORY
    | .other => WinError.INTERNAL_ERROR

/-- A `DWORD` of flags. -/
abbrev Dword := BitVec 32

def writeAccessMask : Dword := 0x50000006
def fileAppendData : Dword := 4
def fileWriteData : Dword := 2
def fileFlagOverlapped : Dword := 0x40000000

def createNew : Dword := 1
def createAlways : Dword := 2
def openAlways : Dword := 4
def truncateExisting : Dword := 5

def invalidHandleValue : Int := -1
def invalidFileAttributes : Int := 0xFFFFFFFF
def driveFixed : Int := 3

/-- `u32::try_from(value).unwrap_or(u32::MAX)`. -/
def clampDword (value : Nat) : Nat :=
  min value (2 ^ 32 - 1)

/-! ## Calls -/

inductive PathArg where
  | wide (ptr : WStr)
  | ansi (ptr : CStr)
  deriving DecidableEq, Repr

def PathArg.decode : PathArg → Option Text
  | .wide ptr => decodeWide ptr
  | .ansi ptr => decodeAnsi ptr

inductive PathCall where
  | createFileW (name : WStr) (access share : Dword) (security : Nat)
      (disposition flags : Dword) (template : Nat)
  | createFileA (name : CStr) (access share : Dword) (security : Nat)
      (disposition flags : Dword) (template : Nat)
  | createFile2 (name : WStr) (access share disposition : Dword)
      (params : Option Dword)
  | findFirstFileExW (name : WStr) (level : Int) (data : Nat) (searchOp : Int)
      (filter : Nat) (flags : Dword)
  | findFirstFileW (name : WStr) (data : Nat)
  | getFileAttributesW (name : WStr)
  | getFileAttributesExW (name : WStr) (level : Int) (info : Nat)
  | getFullPathNameW (name : WStr) (length buffer filePart : Nat)
  | getFullPathNameA (name : CStr) (length buffer filePart : Nat)
  | deleteFileW (name : WStr)
  | createDirectoryW (name : WStr) (security : Nat)
  | getDiskFreeSpaceA (root : CStr) (sectors bytes free total : Nat)
  | getDriveTypeW (root : WStr)
  deriving DecidableEq, Repr

def PathCall.path : PathCall → PathArg
  | .createFileW name _ _ _ _ _ _ => .wide name
  | .createFileA name _ _ _ _ _ _ => .ansi name
  | .createFile2 name _ _ _ _ => .wide name
  | .findFirstFileExW name _ _ _ _ _ => .wide name
  | .findFirstFileW name _ => .wide name
  | .getFileAttributesW name => .wide name
  | .getFileAttributesExW name _ _ => .wide name
  | .getFullPathNameW name _ _ _ => .wide name
  | .getFullPathNameA name _ _ _ => .ansi name
  | .deleteFileW name => .wide name
  | .createDirectoryW name _ => .wide name
  | .getDiskFreeSpaceA root _ _ _ _ => .ansi root
  | .getDriveTypeW root => .wide root

/-- The path-bearing calls; `MoveFileExW` has two paths. -/
inductive Call where
  | path (call : PathCall)
  | moveFileExW (existing new : WStr) (flags : Dword)
  deriving DecidableEq, Repr

def Call.paths : Call → List PathArg
  | .path call => [call.path]
  | .moveFileExW existing new _ => [.wide existing, .wide new]

/-- What a shim asks of KERNEL32: an original function, or one of the two
carriers (the original `CreateFileW` of `NUL`, the original
`FindFirstFileExW` of the Windows directory). -/
inductive KernelCall where
  | original (call : Call)
  | carrierOpen
  | carrierFind
  deriving DecidableEq, Repr

/-! ## Replies -/

/-- `WIN32_FIND_DATAW` and `WIN32_FILE_ATTRIBUTE_DATA`, as far as the shims
set them. -/
structure FileData where
  attributes : Nat
  sizeHigh : Nat
  sizeLow : Nat
  name : List UInt16
  deriving DecidableEq, Repr

/-- What a call leaves in the caller's memory. -/
inductive Output where
  | nothing
  | data (record : FileData)
  | wide (units : List UInt16) (filePart : Option Nat)
  | ansi (bytes : List UInt8) (filePart : Option Nat)
  | numbers (written : List (Nat × Nat))
  deriving DecidableEq, Repr

/-- The return value (a handle by its number), the last error if it was set,
and the output. -/
structure Reply where
  ret : Int
  lastError : Option Nat
  out : Output
  deriving DecidableEq, Repr

def attrsFor (report : Metadata) : Nat :=
  if report.isDir then 0x10
  else if report.readonly then 0x81
  else 0x80

def fillFindData (entry : DirEntry) : FileData where
  attributes := attrsFor entry.metadata
  sizeHigh := entry.metadata.len / 2 ^ 32
  sizeLow := entry.metadata.len % 2 ^ 32
  name := (encodeUtf16 entry.name).take 259

def fillAttributeData (report : Metadata) : FileData where
  attributes := attrsFor report
  sizeHigh := report.len / 2 ^ 32
  sizeLow := report.len % 2 ^ 32
  name := []

def upToLastSep (text : Text) : Text :=
  text.rdropWhile fun char => !isSep char

def writeFullPathW (text : Text) (buffer length filePart : Nat) : Reply :=
  let wide := encodeUtf16 text
  if buffer = 0 ∨ length < wide.length + 1 then
    ⟨clampDword (wide.length + 1), none, .nothing⟩
  else
    ⟨clampDword wide.length, some WinError.SUCCESS,
      .wide (wide ++ [0]) (if filePart = 0 then none
        else some (encodeUtf16 (upToLastSep text)).length)⟩

/-- The end of `GetFullPathNameA`. -/
def writeFullPathA (text : Text) (buffer length filePart : Nat) : Reply :=
  let bytes := Text.utf8 text
  if buffer = 0 ∨ length < bytes.length + 1 then
    ⟨clampDword (bytes.length + 1), none, .nothing⟩
  else
    ⟨clampDword bytes.length, some WinError.SUCCESS,
      .ansi (bytes ++ [0]) (if filePart = 0 then none
        else some (Text.utf8 (upToLastSep text)).length)⟩

/-- The numbers of `GetDiskFreeSpaceA`: sectors per cluster, bytes per
sector, free clusters, clusters. -/
def diskFreeSpace (info : Option VolumeInfo) : List Nat :=
  match info with
  | none => [8, 512, 0x00800000, 0x01000000]
  | some volume =>
      let cluster := max volume.blockSize 512
      [max (cluster / 512) 1, 512, clampDword (volume.available / cluster),
        clampDword (volume.capacity / cluster)]

/-- Write numbers through the pointers that are not null. -/
def writeNumbers (pointers numbers : List Nat) : Output :=
  .numbers ((pointers.zip numbers).filter fun pair => pair.1 ≠ 0)

end Hookfs.Windows
