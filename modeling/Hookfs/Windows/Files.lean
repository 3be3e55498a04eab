import Hookfs.Memory.Inodes
import Hookfs.Windows.Sessions

/-!
# Files behind handles

What the KERNEL32 calls on file handles mean for inodes and open file
descriptions.
-/

namespace Hookfs.Windows

open Hookfs.Lib Hookfs.Vfs Hookfs.Memory

open MemoryFs (Stream)

/-- How a handle was opened: the path, and whether for asynchronous use. -/
structure Origin where
  path : Text
  overlapped : Bool
  deriving DecidableEq, Repr

/-- The files and the descriptions of a process, by handle. -/
abbrev Files := Shelf Nat Origin

/-- What answers beside the files: KERNEL32, and the identities of paths. -/
structure Outside where
  original : HandleCall → HandleReply
  fileId : Text → Nat

namespace Files

def failed (ret : Int) (error : Nat) : HandleReply := ⟨ret, some error, []⟩

def denied (error : Nat) : HandleReply := failed 0 error

def granted (ret : Int) (writes : List (Nat × Cell)) : HandleReply :=
  ⟨ret, some WinError.SUCCESS, writes⟩

/-- A call on a handle; KERNEL32 has those without a description. -/
def onHandle (outside : Outside) (call : HandleCall) (handle : Int)
    (files : Files)
    (served : Description Origin → Inode → HandleReply × Files) :
    HandleReply × Files :=
  files.through (handleKey handle) (outside.original call, files) served

/-- Where a transfer starts: an `OVERLAPPED` names its own place. -/
def placeOf (overlapped : Option Overlapped)
    (description : Description Origin) : Nat :=
  match overlapped with
  | none => description.pos
  | some words => words.start

/-- A transfer moves the cursor to its place, whatever comes of it. -/
def transferAt (handle : Int) (count : Dword) (base done : Nat)
    (overlapped : Option Overlapped) (description : Description Origin)
    (files : Files) (operate : Nat → HandleReply × Nat × Files) :
    HandleReply × Files :=
  let place := placeOf overlapped description
  if count = 0 then
    (granted 1 (through done (.dword 0)),
      files.moveTo (handleKey handle) description place)
  else if base = 0 then
    (denied WinError.INVALID_PARAMETER,
      files.moveTo (handleKey handle) description place)
  else
    let (reply, pos, next) := operate place
    (reply, next.moveTo (handleKey handle) description pos)

/-- Move the cursor, and tell where it is. -/
def seekTo (handle : Int) (method : Dword) (distance : Int) (ret : Int)
    (told : Nat → Int × List (Nat × Cell))
    (description : Description Origin) (inode : Inode) (files : Files) :
    HandleReply × Files :=
  match seekFrom method distance with
  | none => (failed ret WinError.INVALID_PARAMETER, files)
  | some target =>
      match Reference.seek inode.data.length description.pos target with
      | .error error => (failed ret (ioToWin error), files)
      | .ok pos =>
          (granted (told pos).1 (told pos).2,
            files.moveTo (handleKey handle) description pos)

def attributes (description : Description Origin) : Nat :=
  if description.writes then fileAttributeNormal
  else fileAttributeNormal ||| fileAttributeReadonly

/-- What `GetFileInformationByHandle` tells of a file. -/
def information (outside : Outside) (description : Description Origin)
    (inode : Inode) : HandleInformation where
  attributes := attributes description
  volumeSerial := virtualVolumeSerial
  sizeHigh := (splitHiLo inode.data.length).1
  sizeLow := (splitHiLo inode.data.length).2
  links := 1
  indexHigh := (splitHiLo (outside.fileId description.tag.path)).1
  indexLow := (splitHiLo (outside.fileId description.tag.path)).2

/-- What `GetFileInformationByHandleEx` tells, by class. -/
def informationEx (level : Dword) (info : Nat) (size : Dword)
    (description : Description Origin) (inode : Inode) : HandleReply :=
  if level = 0 then
    if info = 0 ∨ size.toNat < 40 then denied WinError.INVALID_PARAMETER
    else granted 1 [(info, .basic (attributes description))]
  else if level = 1 then
    if info = 0 ∨ size.toNat < 24 then denied WinError.INVALID_PARAMETER
    else granted 1 [(info, .standard inode.data.length)]
  else denied WinError.NOT_SUPPORTED

/-- The calls on file handles; the others are not for files. -/
def serve (outside : Outside) (files : Files) (call : HandleCall) :
    HandleReply × Files :=
  match call with
  | .readFile handle buffer count read overlapped =>
      files.onHandle outside call handle fun description inode =>
        if description.tag.overlapped then
          (denied WinError.NOT_SUPPORTED, files)
        else
          files.transferAt handle count buffer read overlapped description
            fun place =>
              let bytes := inode.read place count.toNat
              (granted 1 ((buffer, .bytes bytes) ::
                through read (.dword bytes.length)),
                place + bytes.length, files)
  | .readFileEx handle _ _ _ _ =>
      files.onHandle outside call handle fun _ _ =>
        (denied WinError.NOT_SUPPORTED, files)
  | .writeFile handle buffer count written overlapped =>
      files.onHandle outside call handle fun description inode =>
        if !description.writes then (denied WinError.ACCESS_DENIED, files)
        else if description.tag.overlapped then
          (denied WinError.NOT_SUPPORTED, files)
        else
          files.transferAt handle count buffer.base written overlapped
            description fun place =>
              match files.write place (buffer.data.take count.toNat)
                description.inode inode with
              | (.error error, next) => (denied (ioToWin error), place, next)
              | (.ok placed, next) =>
                  (granted 1 (through written (.dword placed)),
                    place + placed, next)
  | .writeFileEx handle _ _ _ _ =>
      files.onHandle outside call handle fun _ _ =>
        (denied WinError.ACCESS_DENIED, files)
  | .setFilePointerEx handle distance position method =>
      files.onHandle outside call handle fun description inode =>
        files.seekTo handle method distance.toInt 0
          (fun pos => (1, through position (.large (clampLarge pos))))
          description inode
  | .setFilePointer handle distance high method =>
      files.onHandle outside call handle fun description inode =>
        files.seekTo handle method (moveDistance distance high)
          invalidSetFilePointer
          (fun pos => ((splitHiLo pos).2,
            through high.pointer (.dword (splitHiLo pos).1)))
          description inode
  | .getFileSizeEx handle size =>
      files.onHandle outside call handle fun _ inode =>
        (granted 1 (through size (.large inode.data.length)), files)
  | .getFileSize handle high =>
      files.onHandle outside call handle fun _ inode =>
        (granted (splitHiLo inode.data.length).2
          (through high (.dword (splitHiLo inode.data.length).1)), files)
  | .getFileType handle =>
      files.onHandle outside call handle fun _ _ =>
        (granted fileTypeDisk [], files)
  | .getFileInformationByHandle handle info =>
      files.onHandle outside call handle fun description inode =>
        if info = 0 then (denied WinError.INVALID_PARAMETER, files)
        else
          (granted 1
            [(info, .information (information outside description inode))],
            files)
  | .getFileInformationByHandleEx handle level info size =>
      files.onHandle outside call handle fun description inode =>
        (informationEx level info size description inode, files)
  | .flushFileBuffers handle =>
      files.onHandle outside call handle fun _ _ => (granted 1 [], files)
  | .setEndOfFile handle =>
      files.onHandle outside call handle fun description inode =>
        if !description.writes then (denied WinError.ACCESS_DENIED, files)
        else
          match files.setLen description.pos description.inode inode with
          | (.error error, next) => (denied (ioToWin error), next)
          | (.ok _, next) => (granted 1 [], next)
  | .closeHandle object =>
      files.onHandle outside call object fun description _ =>
        ({ outside.original call with lastError := some WinError.SUCCESS },
          files.close (handleKey object) description)
  | .findNextFileW _ _ => (outside.original call, files)
  | .findClose _ => (outside.original call, files)
  | .getCurrentDirectoryW _ _ => (outside.original call, files)

end Files

end Hookfs.Windows
