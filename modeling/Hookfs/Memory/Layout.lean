import Hookfs.Memory.Items
import Hookfs.Memory.Held
import Hookfs.Memory.Listing
import Hookfs.Memory.Opening
import Hookfs.Memory.Shape

/-!
# A tree of names

What the path operations of `MemoryFs` are for: a forest of directories,
mounted sources and files, in which paths are lists of names.  Contents and
cursors are left out.
-/

namespace Hookfs.Memory

open Hookfs.Lib Hookfs.Vfs Hookfs.Posix MemoryFs

/-! ## Questions and answers -/

/-- What a client does, or asks. -/
inductive PathOp where
  | change (op : DeskOp)
  | metadata (path : Text)
  | readDir (path : Text)

/-- What a stream is over. -/
inductive Origin where
  | mounted (source : SharedSource)
  | file (id : Nat)
  deriving DecidableEq, Repr

/-- What metadata says about the kind of a node. -/
structure Kind where
  isDir : Bool
  readonly : Bool
  deriving DecidableEq, Repr

/-- The part of an answer that does not depend on contents. -/
inductive PathAnswer where
  | nothing
  | key (key : Text)
  | done (outcome : Option (Except IoError Unit))
  | opened (outcome : Option (Except IoError Origin))
  | seen (outcome : Option (Except IoError Kind))
  | listed (outcome : Option (Except IoError (Set (Text × Kind))))

def MemoryFs.Stream.origin : Stream → Origin
  | .source shared _ => .mounted shared
  | .memory file _ => .file file

def Metadata.kind (metadata : Vfs.Metadata) : Kind :=
  ⟨metadata.isDir, metadata.readonly⟩

/-- The entries of a listing, in whatever order. -/
def shown (entries : List DirEntry) : Set (Text × Kind) :=
  { one | ∃ entry ∈ entries, one = (entry.name, Metadata.kind entry.metadata) }

namespace Desk

def reply (desk : Desk) : PathOp → PathAnswer
  | .change (.insertFile path source mtime) =>
      .key (desk.fs.insertFile path source mtime).1
  | .change (.insertWritable now path) =>
      .key (desk.fs.insertWritable now path).1
  | .change (.open path opts) =>
      .opened ((desk.fs.open path opts).1.map (·.map Stream.origin))
  | .change (.openWrite now path opts) =>
      .opened ((desk.fs.openWrite now path opts).1.map (·.map Stream.origin))
  | .change (.createDir path) => .done (desk.fs.createDir path).1
  | .change (.remove path) => .done (desk.fs.remove path).1
  | .change (.rename hash source target) =>
      .done (desk.fs.rename hash source target).1
  | .change _ => .nothing
  | .metadata path =>
      .seen ((desk.fs.metadata path).map (·.map Metadata.kind))
  | .readDir path => .listed ((desk.fs.readDir path).map (·.map shown))

def afterwards (desk : Desk) : PathOp → Desk
  | .change op => desk.step op
  | _ => desk

def answer (desk : Desk) (op : PathOp) : PathAnswer × Desk :=
  (desk.reply op, desk.afterwards op)

end Desk

/-! ## The tree -/

/-- What is at each path, and the number of the next file. -/
structure Layout where
  items : Forest Name Item
  nextFile : Nat

def Item.kind : Item → Kind
  | .mounted _ _ => ⟨false, true⟩
  | .file _ => ⟨false, false⟩
  | .dir => ⟨true, true⟩

namespace Layout

def empty : Layout := ⟨fun _ => none, 0⟩

noncomputable def plant (path : List Name) (item : Item) (layout : Layout) :
    Layout :=
  { layout with items := layout.items.plant .dir path item }

noncomputable def plantFile (path : List Name) (layout : Layout) : Layout :=
  ⟨layout.items.plant .dir path (.file layout.nextFile), layout.nextFile + 1⟩

/-- Whether a directory has anything in it; the root always has. -/
def Full (path : List Name) (layout : Layout) : Prop :=
  path = [] ∨ layout.items.Occupied path

open Classical in
noncomputable def mayRemove (path : List Name) (layout : Layout) :
    Except IoError Unit :=
  match layout.items path with
  | none => .error (.simple .notFound)
  | some item =>
      if item = .dir ∧ layout.Full path then
        .error (.custom .permissionDenied "directory not empty")
      else .ok ()

open Classical in
/-- Whether an item can take the place of what is at the target. -/
noncomputable def mayReplace (item : Item) (target : List Name)
    (layout : Layout) : Except IoError Unit :=
  match layout.items target with
  | none => .ok ()
  | some replaced =>
      if item ≠ .dir ∧ replaced = .dir then .error (.simple .isADirectory)
      else if item = .dir ∧ replaced ≠ .dir then
        .error (.simple .notADirectory)
      else if item = .dir ∧ layout.Full target then
        .error (.simple .directoryNotEmpty)
      else .ok ()

open Classical in
noncomputable def mayRename (source target : List Name) (layout : Layout) :
    Except IoError Unit :=
  match layout.items source with
  | none => .error (.simple .notFound)
  | some item =>
      if target = source then .ok ()
      else if item = .dir ∧ Covered source target then
        .error (.simple .invalidInput)
      else layout.mayReplace item target

noncomputable def createdDir (path : List Name) (layout : Layout) :
    Except IoError Unit × Layout :=
  match layout.items path with
  | some _ => (.error (.simple .alreadyExists), layout)
  | none => (.ok (), layout.plant path .dir)

noncomputable def removed (path : List Name) (layout : Layout) : Layout :=
  match layout.mayRemove path with
  | .error _ => layout
  | .ok _ => { layout with items := layout.items.put path none }

open Classical in
noncomputable def renamed (source target : List Name) (layout : Layout) :
    Layout :=
  match layout.mayRename source target with
  | .error _ => layout
  | .ok _ =>
      if target = source then layout
      else
        { layout with
          items := (layout.items.graft (Carries source) source target).fill
            .dir target }

/-- What opening for reading comes to. -/
def opened (path : List Name) (layout : Layout) :
    Option (Except IoError Origin) :=
  (layout.items path).map fun
    | .mounted source _ => .ok (.mounted source)
    | .file id => .ok (.file id)
    | .dir => .error isDirectory

/-- What opening for writing comes to, and what is there then. -/
noncomputable def openedWrite (path : List Name) (opts : OpenOptions)
    (layout : Layout) : Except IoError Origin × Layout :=
  match layout.items path with
  | some .dir => (.error isDirectory, layout)
  | some (.mounted _ _) => (.error readOnly, layout)
  | some (.file id) =>
      if opts.createNew then
        (.error (.custom .alreadyExists "file already exists"), layout)
      else (.ok (.file id), layout)
  | none =>
      if opts.creates then
        (.ok (.file layout.nextFile), layout.plantFile path)
      else (.error (.simple .notFound), layout)

/-- The names in a directory. -/
def listing (path : List Name) (layout : Layout) : Set (Text × Kind) :=
  { one | ∃ name item, layout.items (path ++ [name]) = some item ∧
    one = (name.text, item.kind) }

open Classical in
noncomputable def reply (layout : Layout) : PathOp → PathAnswer
  | .change (.insertFile path _ _) => .key (keyOf (namesOf path))
  | .change (.insertWritable _ path) => .key (keyOf (namesOf path))
  | .change (.open path _) => .opened (layout.opened (namesOf path))
  | .change (.openWrite _ path opts) =>
      .opened (some (layout.openedWrite (namesOf path) opts).1)
  | .change (.createDir path) =>
      .done (some (layout.createdDir (namesOf path)).1)
  | .change (.remove path) => .done (some (layout.mayRemove (namesOf path)))
  | .change (.rename _ source target) =>
      .done (some (layout.mayRename (namesOf source) (namesOf target)))
  | .change _ => .nothing
  | .metadata path =>
      .seen ((layout.items (namesOf path)).map fun item => .ok item.kind)
  | .readDir path =>
      .listed (if layout.items (namesOf path) = some .dir then
        some (.ok (layout.listing (namesOf path))) else none)

noncomputable def afterwards (layout : Layout) : PathOp → Layout
  | .change (.insertFile path source mtime) =>
      layout.plant (namesOf path) (.mounted source mtime)
  | .change (.insertWritable _ path) => layout.plantFile (namesOf path)
  | .change (.openWrite _ path opts) =>
      (layout.openedWrite (namesOf path) opts).2
  | .change (.createDir path) => (layout.createdDir (namesOf path)).2
  | .change (.remove path) => layout.removed (namesOf path)
  | .change (.rename _ source target) =>
      layout.renamed (namesOf source) (namesOf target)
  | .change (.removeSubtree key) =>
      { layout with
        items := (layout.items.cut (Covered (namesOf key))).prune .dir
          (namesOf key).dropLast }
  | _ => layout

noncomputable def answer (layout : Layout) (op : PathOp) :
    PathAnswer × Layout :=
  (layout.reply op, layout.afterwards op)

end Layout

/-! ## Which operations -/

/-- Paths are absolute and lexically safe, and the listing of the root is not
asked for: it has the root in it. -/
def PathOp.Lexical : PathOp → Prop
  | .change (.insertFile path _ _) => MemoryFs.Lexical path
  | .change (.insertWritable _ path) => MemoryFs.Lexical path
  | .change (.open path _) => MemoryFs.Lexical path
  | .change (.openWrite _ path _) => MemoryFs.Lexical path
  | .change (.createDir path) => MemoryFs.Lexical path
  | .change (.remove path) => MemoryFs.Lexical path
  | .change (.rename _ source target) =>
      MemoryFs.Lexical source ∧ MemoryFs.Lexical target
  | .change (.removeSubtree key) => key = keyOf (namesOf key)
  | .change _ => True
  | .metadata path => MemoryFs.Lexical path
  | .readDir path => MemoryFs.Lexical path ∧ namesOf path ≠ []

/-- No file comes to be above another node, and the root is not cut from
what is below it. -/
def PathOp.Safe (desk : Desk) : PathOp → Prop
  | .change (.insertFile path _ _) => desk.fs.InsertOk (normalizeKeyStr path)
  | .change (.insertWritable _ path) =>
      desk.fs.InsertOk (normalizeKeyStr path)
  | .change (.openWrite _ path opts) =>
      desk.fs.OpenWriteOk (normalizeKeyStr path) opts
  | .change (.createDir path) => desk.fs.CreateOk (normalizeKeyStr path)
  | .change (.rename _ source target) =>
      desk.fs.RenameOk (normalizeKeyStr source) (normalizeKeyStr target)
  | .change (.removeSubtree key) => key = ['/'] → desk.fs.NothingBelow ['/']
  | _ => True

end Hookfs.Memory
