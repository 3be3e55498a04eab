import Hookfs.Memory.Handles

/-!
# Mount contexts

`Hookfs` and `MountGuard` on POSIX: names are validated, joined to the
reserved root, and inserted into the in-memory tree; dropping a guard removes
the subtree at its key.
-/

namespace Hookfs.Mount

open Hookfs.Lib Hookfs.Vfs Hookfs.Posix Hookfs.Memory

inductive Error where
  | invalidMountName (name : Text) (reason : String)
  | streamSize (name : Text) (source : IoError)
  deriving DecidableEq, Repr

def validateLogical (name : Text) : Except String Unit :=
  if name.isEmpty then .error "empty name"
  else if name.contains '\x00' then .error "embedded NUL"
  else if isAbsolute name || name.head? = some '\\' ||
      name.head? = some '/' then
    .error "must be a relative name"
  else if !isLexicallySafe name then
    .error "`..` escape or stream/device marker"
  else .ok ()

/-- What a mount has put into the tree. -/
inductive Content where
  | stream (source : SharedSource)
  | writable (file : Nat)
  deriving DecidableEq, Repr

/-- `MountGuard`.  The source keeps only `key`; `path` and `content` record
where the mount was asked for and what it mounted. -/
structure MountGuard where
  key : Text
  path : Text
  content : Content
  deriving DecidableEq, Repr

/-- `Hookfs`, with the number the next mounted stream gets. -/
structure Context where
  root : Text
  fs : MemoryFs
  nextStream : Nat

namespace Context

/-- `Hookfs::with_capacity` for a given reserved root. -/
def withCapacity (root : Text) (capacity : Nat) : Context where
  root := root
  fs := .withCapacity capacity
  nextStream := 0

def pathFor (name : Text) (context : Context) : Text :=
  join context.root name

/-- `Hookfs::mount` of a stream whose size probe gives `probe`. -/
def mount (name : Text) (probe : Except IoError Nat) (context : Context) :
    Except Error MountGuard × Context :=
  match validateLogical name with
  | .error reason => (.error (.invalidMountName name reason), context)
  | .ok _ =>
      let path := context.pathFor name
      match probe with
      | .error error => (.error (.streamSize name error), context)
      | .ok size =>
          let source : SharedSource := ⟨context.nextStream, size⟩
          let (key, fs) := context.fs.insertFile path source none
          (.ok ⟨key, path, .stream source⟩,
            { context with fs := fs, nextStream := context.nextStream + 1 })

def mountWritable (now : Time) (name : Text) (context : Context) :
    Except Error MountGuard × Context :=
  match validateLogical name with
  | .error reason => (.error (.invalidMountName name reason), context)
  | .ok _ =>
      let path := context.pathFor name
      let file := context.fs.nextFile
      let (key, fs) := context.fs.insertWritable now path
      (.ok ⟨key, path, .writable file⟩, { context with fs := fs })

def dropGuard (guard : MountGuard) (context : Context) : Context :=
  { context with fs := context.fs.removeSubtree guard.key }

end Context

/-! ## A context with its live guards -/

structure Mounts where
  context : Context
  guards : Store Nat MountGuard
  nextGuard : Nat

inductive MountOp where
  | mount (name : Text) (probe : Except IoError Nat)
  | mountWritable (now : Time) (name : Text)
  | dropGuard (guard : Nat)

namespace Mounts

def start (root : Text) (capacity : Nat) : Mounts where
  context := .withCapacity root capacity
  guards := ∅
  nextGuard := 0

/-- Keep the guard of a mount that returned `Ok`. -/
def accept (mounted : Except Error MountGuard × Context) (mounts : Mounts) :
    Mounts :=
  match mounted.1 with
  | .error _ => { mounts with context := mounted.2 }
  | .ok guard =>
      { context := mounted.2
        guards := mounts.guards.insert mounts.nextGuard guard
        nextGuard := mounts.nextGuard + 1 }

def step (mounts : Mounts) : MountOp → Mounts
  | .mount name probe => mounts.accept (mounts.context.mount name probe)
  | .mountWritable now name =>
      mounts.accept (mounts.context.mountWritable now name)
  | .dropGuard guard =>
      match mounts.guards.lookup guard with
      | none => mounts
      | some dropped =>
          { mounts with
            context := mounts.context.dropGuard dropped
            guards := mounts.guards.erase guard }

end Mounts

end Hookfs.Mount
