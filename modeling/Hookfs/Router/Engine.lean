import Hookfs.Lib.Store
import Hookfs.Path.Posix
import Hookfs.Vfs.Provider

/-!
# The routing engine

`Namespace`, `Registry` and `Engine` on POSIX, and the decision `classify`
takes for every path-bearing call.
-/

namespace Hookfs.Router

open Hookfs.Lib Hookfs.Vfs Hookfs.Posix

inductive Route where
  | virtual (path : Text)
  | rejected
  | real
  deriving DecidableEq, Repr

/-- `Namespace`: the root for display, the predicate for membership. -/
structure Namespace where
  root : Text
  isVirtual : Text → Bool

def Namespace.fromRoot (root : Text) : Namespace where
  root := root
  isVirtual path :=
    keyHasPrefix (normalizeKeyStr path) (normalizeKeyStr root)

structure OpenFile (Stream : Type) where
  stream : OpenStream Stream
  path : Text
  writable : Bool
  deriving DecidableEq, Repr

/-- `VirtualDir`: the listing and the cursor behind a virtual `DIR*`. -/
structure VirtualDir where
  entries : List DirEntry
  next : Nat
  deriving DecidableEq, Repr

/-- `Registry`, with the directories behind the pointers it knows. -/
structure Registry (Stream : Type) where
  files : Store Nat (OpenFile Stream)
  dirs : Store Nat VirtualDir

namespace Registry

variable {Stream : Type}

def new : Registry Stream where
  files := ∅
  dirs := ∅

def getFile (handle : Nat) (registry : Registry Stream) :
    Option (OpenFile Stream) :=
  registry.files.lookup handle

/-- Put a file behind a handle. -/
def putFile (handle : Nat) (file : OpenFile Stream)
    (registry : Registry Stream) : Registry Stream :=
  { registry with files := registry.files.insert handle file }

/-- `Registry::remove_file`, without its value. -/
def removeFile (handle : Nat) (registry : Registry Stream) :
    Registry Stream :=
  { registry with files := registry.files.erase handle }

/-- `Registry::contains_dir`, with the directory. -/
def getDir (dir : Nat) (registry : Registry Stream) : Option VirtualDir :=
  registry.dirs.lookup dir

/-- `Registry::insert_dir`, with the directory. -/
def putDir (dir : Nat) (content : VirtualDir)
    (registry : Registry Stream) : Registry Stream :=
  { registry with dirs := registry.dirs.insert dir content }

def removeDir (dir : Nat) (registry : Registry Stream) : Registry Stream :=
  { registry with dirs := registry.dirs.erase dir }

end Registry

/-- `Engine`, without the provider, which outlives it. -/
structure Engine (Stream : Type) where
  nspace : Namespace
  registry : Registry Stream
  cwd : Option Text
  allowWrites : Bool

namespace Engine

variable {Stream : Type}

def new (nspace : Namespace) (allowWrites : Bool) : Engine Stream where
  nspace := nspace
  registry := .new
  cwd := none
  allowWrites := allowWrites

/-- The absolute path that a decoded path stands for. -/
def resolve (decoded : Text) (engine : Engine Stream) : Option Text :=
  if isAbsolute decoded then some decoded
  else engine.cwd.map fun cwd => join cwd decoded

def classify (decoded : Text) (engine : Engine Stream) : Route :=
  match engine.resolve decoded with
  | none => .real
  | some absolute =>
      if !engine.nspace.isVirtual absolute then .real
      else if isLexicallySafe absolute then .virtual absolute
      else .rejected

end Engine

end Hookfs.Router
