import Hookfs.Lib.Text

/-!
# The values of the virtual-filesystem core

Errors, open options, metadata and the cursor arithmetic of `vfs`.  Lengths
and positions are 64-bit words; times are whole seconds.
-/

namespace Hookfs.Vfs

open Hookfs.Lib

/-- Seconds since the epoch of a `SystemTime`, negative before it. -/
abbrev Time := Int

/-- The `io::ErrorKind`s the crate builds or tells apart. -/
inductive ErrorKind where
  | notFound
  | permissionDenied
  | alreadyExists
  | invalidInput
  | directoryNotEmpty
  | notADirectory
  | isADirectory
  | other
  deriving DecidableEq, Repr

/-- `io::Error`: an OS code, a bare kind, or a kind with a message. -/
inductive IoError where
  | os (code : Nat)
  | simple (kind : ErrorKind)
  | custom (kind : ErrorKind) (message : String)
  deriving DecidableEq, Repr

/-- `no_space`: `ENOSPC` on Linux, macOS and iOS. -/
def noSpace : IoError := .os 28

def readOnly : IoError := .custom .permissionDenied "virtual file is read-only"

/-- How a native open requested the stream. -/
structure OpenOptions where
  read : Bool
  write : Bool
  create : Bool
  createNew : Bool
  truncate : Bool
  append : Bool
  deriving DecidableEq, Repr, Inhabited

namespace OpenOptions

def readOnly : OpenOptions := ⟨true, false, false, false, false, false⟩

def creates (opts : OpenOptions) : Bool :=
  opts.create || opts.createNew

end OpenOptions

/-- `VfsMetadata`. -/
structure Metadata where
  len : Nat
  isDir : Bool
  readonly : Bool
  mtime : Option Time
  deriving DecidableEq, Repr

namespace Metadata

def file (len : Nat) : Metadata := ⟨len, false, true, none⟩

def fileRw (len : Nat) : Metadata := ⟨len, false, false, none⟩

def dir : Metadata := ⟨0, true, true, none⟩

end Metadata

/-- `VfsDirEntry`. -/
structure DirEntry where
  name : Text
  metadata : Metadata
  deriving DecidableEq, Repr

structure VolumeInfo where
  capacity : Nat
  available : Nat
  blockSize : Nat
  deriving DecidableEq, Repr

inductive SeekFrom where
  | start (offset : Nat)
  | «end» (offset : Int)
  | current (offset : Int)
  deriving DecidableEq, Repr

/-- The `seek` that `SourceCursor` and `MemFileHandle` share: the new
position for a stream of the given size at the given position. -/
def seekTo (size position : Nat) (target : SeekFrom) :
    Except IoError Nat :=
  let wanted : Int :=
    match target with
    | .start offset => offset
    | .end offset => size + offset
    | .current offset => position + offset
  if wanted < 0 then
    .error (.custom .invalidInput "seek to a negative position")
  else if wanted.toNat ≤ wordMax then .ok wanted.toNat
  else .error (.custom .invalidInput "seek offset overflow")

/-- A mounted physical stream, by number, with the length probed when it was
mounted. -/
structure SharedSource where
  stream : Nat
  size : Nat
  deriving DecidableEq, Repr

/-- What a positioned read of a physical stream gives: the bytes read, at
most as many as asked for. -/
abbrev Physical := Nat → Nat → Nat → Except IoError (List UInt8)

end Hookfs.Vfs
