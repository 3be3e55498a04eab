import Hookfs.Lib.Store
import Hookfs.Path.Posix
import Hookfs.Vfs.Core

/-!
# The in-memory tree

`MemoryFs` on POSIX: entries by normalized key, writable files behind
reference counts, and the synthetic volume they share.

An `Arc<MemFile>` is a number into `files`; `strong` counts its clones, and
dropping the last one returns the file's bytes to the volume.  `saturated`
is no field of the source: it records that a `saturating_sub` of the volume
has clamped.
-/

namespace Hookfs.Memory

open Hookfs.Lib Hookfs.Vfs Hookfs.Posix

/-! ## The volume -/

structure Volume where
  capacity : Nat
  used : Nat
  saturated : Bool
  deriving DecidableEq, Repr

namespace Volume

/-- `used.saturating_sub(amount)`. -/
def subUsed (amount : Nat) (volume : Volume) : Volume :=
  { volume with
    used := volume.used - amount
    saturated := volume.saturated || volume.used < amount }

def resize (old new : Nat) (volume : Volume) :
    Except IoError Unit × Volume :=
  if old ≤ new then
    if volume.capacity < saturatingAdd volume.used (new - old) then
      (.error noSpace, volume)
    else
      (.ok (),
        { volume with used := wrappingAdd volume.used (new - old) })
  else (.ok (), volume.subUsed (old - new))

def reserve (old desired : Nat) (volume : Volume) : Nat × Volume :=
  let want := desired - old
  let free := volume.capacity - volume.used
  let grant := min want free
  (wrappingAdd old grant,
    { volume with used := wrappingAdd volume.used grant })

def release (len : Nat) (volume : Volume) : Volume :=
  volume.subUsed len

def info (volume : Volume) : VolumeInfo where
  capacity := volume.capacity
  available := volume.capacity - volume.used
  blockSize := 4096

end Volume

/-! ## Writable files -/

/-- `MemFile`, with the number of `Arc`s to it. -/
structure MemFile where
  data : List UInt8
  mtime : Option Time
  strong : Nat
  deriving DecidableEq, Repr

/-- `Vec::resize` with zeroes. -/
def resizeBytes (len : Nat) (data : List UInt8) : List UInt8 :=
  data.take len ++ List.replicate (len - data.length) 0

/-- Overwrite `bytes` at `start`; they must fit. -/
def overwrite (start : Nat) (bytes data : List UInt8) : List UInt8 :=
  data.take start ++ bytes ++ data.drop (start + bytes.length)

namespace MemFile

def readAt (file : MemFile) (pos len : Nat) : List UInt8 :=
  (file.data.drop pos).take len

/-- `MemFile::write_at` on a 64-bit target. -/
def writeAt (now : Time) (pos : Nat) (buf : List UInt8) (file : MemFile)
    (volume : Volume) : Except IoError Nat × MemFile × Volume :=
  if buf = [] then (.ok 0, file, volume)
  else
    let old := file.data.length
    match checkedAdd pos buf.length with
    | none =>
        (.error (.custom .invalidInput "write offset overflow"), file,
          volume)
    | some desiredEnd =>
        let desiredNew := max desiredEnd old
        let (grantedNew, reserved) := volume.reserve old desiredNew
        let count := min (grantedNew - pos) buf.length
        if count = 0 then
          (.error noSpace, file, reserved.release (grantedNew - old))
        else
          let grown :=
            if old < grantedNew then resizeBytes grantedNew file.data
            else file.data
          (.ok count,
            { file with
              data := overwrite pos (buf.take count) grown
              mtime := some now },
            reserved)

/-- `MemFile::set_len` on a 64-bit target. -/
def setLen (now : Time) (len : Nat) (file : MemFile) (volume : Volume) :
    Except IoError Unit × MemFile × Volume :=
  match volume.resize file.data.length len with
  | (.error error, kept) => (.error error, file, kept)
  | (.ok _, resized) =>
      (.ok (),
        { file with data := resizeBytes len file.data, mtime := some now },
        resized)

end MemFile

/-! ## The tree -/

inductive Node where
  | file (source : SharedSource) (name : Text) (mtime : Option Time)
  | memFile (file : Nat) (name : Text)
  | dir (name : Text)
  deriving DecidableEq, Repr

namespace Node

def isDir : Node → Bool
  | .dir _ => true
  | _ => false

/-- `rename_node`. -/
def rename (name : Text) : Node → Node
  | .file source _ mtime => .file source name mtime
  | .memFile id _ => .memFile id name
  | .dir _ => .dir name

end Node

structure MemoryFs where
  entries : Store Text Node
  files : Store Nat MemFile
  nextFile : Nat
  volume : Volume

namespace MemoryFs

def withCapacity (capacity : Nat) : MemoryFs where
  entries := ∅
  files := ∅
  nextFile := 0
  volume := ⟨capacity, 0, false⟩

/-! ### Reference counts -/

/-- `MemFile::new`, owned by the caller. -/
def newFile (now : Time) (fs : MemoryFs) : Nat × MemoryFs :=
  (fs.nextFile,
    { fs with
      files := fs.files.insert fs.nextFile ⟨[], some now, 1⟩
      nextFile := fs.nextFile + 1 })

/-- `Arc::clone`. -/
def cloneFile (id : Nat) (fs : MemoryFs) : MemoryFs :=
  match fs.files.lookup id with
  | none => fs
  | some file =>
      { fs with
        files := fs.files.insert id { file with strong := file.strong + 1 } }

/-- Drop one `Arc`; the last one drops the file, whose `Drop` releases its
bytes. -/
def dropFile (id : Nat) (fs : MemoryFs) : MemoryFs :=
  match fs.files.lookup id with
  | none => fs
  | some file =>
      if file.strong ≤ 1 then
        { fs with
          files := fs.files.erase id
          volume := fs.volume.release file.data.length }
      else
        { fs with
          files := fs.files.insert id
            { file with strong := file.strong - 1 } }

def dropNode (node : Node) (fs : MemoryFs) : MemoryFs :=
  match node with
  | .memFile id _ => fs.dropFile id
  | _ => fs

/-- `HashMap::remove` with its value dropped. -/
def evict (key : Text) (fs : MemoryFs) : MemoryFs :=
  match fs.entries.lookup key with
  | none => fs
  | some node =>
      dropNode node { fs with entries := fs.entries.erase key }

/-- `HashMap::insert`: the value that was there is dropped. -/
def place (key : Text) (node : Node) (fs : MemoryFs) : MemoryFs :=
  let cleared := fs.evict key
  { cleared with entries := cleared.entries.insert key node }

/-! ### Ancestors -/

/-- `HashMap::entry(key).or_insert(node)`. -/
def orInsert (key : Text) (node : Node) (entries : Store Text Node) :
    Store Text Node :=
  if (entries.lookup key).isSome then entries
  else entries.insert key node

/-- The loop of `insert_ancestor_dirs`. -/
def ancestorLoop : Nat → Option Text → Store Text Node → Store Text Node
  | 0, _, entries => entries
  | _, none, entries => entries
  | rounds + 1, some dir, entries =>
      if (normalizeKeyStr dir).isEmpty then entries
      else
        let next := orInsert (normalizeKeyStr dir)
          (.dir (finalComponent dir)) entries
        match parent dir with
        | none => next
        | some up => ancestorLoop rounds (some up) next

/-- `insert_ancestor_dirs`; there are at most as many ancestors as pieces. -/
def insertAncestorDirs (path : Text) (fs : MemoryFs) : MemoryFs :=
  { fs with
    entries := ancestorLoop (path.splitOn '/').length (parent path)
      fs.entries }

/-! ### Mounting -/

/-- `MemoryFs::insert_file` in a release build. -/
def insertFile (path : Text) (source : SharedSource)
    (mtime : Option Time) (fs : MemoryFs) : Text × MemoryFs :=
  let key := normalizeKeyStr path
  (key, insertAncestorDirs path
    (fs.place key (.file source (finalComponent path) mtime)))

def insertWritable (now : Time) (path : Text) (fs : MemoryFs) :
    Text × MemoryFs :=
  let key := normalizeKeyStr path
  let (file, next) := fs.newFile now
  (key, insertAncestorDirs path
    (next.place key (.memFile file (finalComponent path))))

def snapshot (path : Text) (fs : MemoryFs) : Option (List UInt8) :=
  match fs.entries.lookup (normalizeKeyStr path) with
  | some (.memFile file _) => (fs.files.lookup file).map (·.data)
  | _ => none

/-- The test by which `remove_subtree` and `rename` select keys. -/
def covers (source key : Text) : Bool :=
  key = source || isUnder source key

/-- Some entry has `dir` as its parent key. -/
def hasChild (dir : Text) (entries : Store Text Node) : Bool :=
  entries.keys.any fun key => parentKey key = some dir

/-- The pruning loop of `remove_subtree`. -/
def pruneLoop : Nat → Option Text → MemoryFs → MemoryFs
  | 0, _, fs => fs
  | _, none, fs => fs
  | rounds + 1, some dir, fs =>
      match fs.entries.lookup dir with
      | some (.dir _) =>
          if hasChild dir fs.entries then fs
          else pruneLoop rounds (parentKey dir) (fs.evict dir)
      | _ => fs

/-- `MemoryFs::remove_subtree`; every round of the pruning loop shortens the
key. -/
def removeSubtree (key : Text) (fs : MemoryFs) : MemoryFs :=
  let doomed := fs.entries.keys.filter (covers key)
  let cut := doomed.foldl (fun current other => current.evict other) fs
  pruneLoop (key.length + 1) (parentKey key) cut

/-! ### Opening -/

/-- The cursors `MemoryFs` hands out: over a mounted source, or over a
writable file whose `Arc` it holds. -/
inductive Stream where
  | source (source : SharedSource) (pos : Nat)
  | memory (file : Nat) (pos : Nat)
  deriving DecidableEq, Repr

def isDirectory : IoError := .custom .permissionDenied "path is a directory"

def «open» (path : Text) (_opts : OpenOptions) (fs : MemoryFs) :
    Option (Except IoError Stream) × MemoryFs :=
  match fs.entries.lookup (normalizeKeyStr path) with
  | none => (none, fs)
  | some (.file source _ _) => (some (.ok (.source source 0)), fs)
  | some (.memFile file _) =>
      (some (.ok (.memory file 0)), fs.cloneFile file)
  | some (.dir _) => (some (.error isDirectory), fs)

def fileLen (file : Nat) (fs : MemoryFs) : Nat :=
  match fs.files.lookup file with
  | none => 0
  | some content => content.data.length

/-- `MemFile::set_len` through one of the file's `Arc`s. -/
def setFileLen (now : Time) (file len : Nat) (fs : MemoryFs) :
    Except IoError Unit × MemoryFs :=
  match fs.files.lookup file with
  | none => (.ok (), fs)
  | some content =>
      let (result, next, volume) := content.setLen now len fs.volume
      (result,
        { fs with files := fs.files.insert file next, volume := volume })

/-- The end of `open_write`, with the cloned `Arc` in hand. -/
def finishOpenWrite (now : Time) (opts : OpenOptions) (file : Nat)
    (fs : MemoryFs) : Option (Except IoError Stream) × MemoryFs :=
  let (truncated, next) :=
    if opts.truncate then fs.setFileLen now file 0 else (.ok (), fs)
  match truncated with
  | .error error => (some (.error error), next.dropFile file)
  | .ok _ =>
      (some (.ok (.memory file
        (if opts.append then next.fileLen file else 0))), next)

def openWrite (now : Time) (path : Text) (opts : OpenOptions)
    (fs : MemoryFs) : Option (Except IoError Stream) × MemoryFs :=
  let key := normalizeKeyStr path
  match fs.entries.lookup key with
  | some (.dir _) => (some (.error isDirectory), fs)
  | some (.file _ _ _) => (some (.error readOnly), fs)
  | some (.memFile file _) =>
      if opts.createNew then
        (some (.error (.custom .alreadyExists "file already exists")), fs)
      else finishOpenWrite now opts file (fs.cloneFile file)
  | none =>
      if opts.creates then
        let (file, next) := fs.newFile now
        let shared := next.cloneFile file
        let placed := shared.place key (.memFile file (finalComponent path))
        finishOpenWrite now opts file (insertAncestorDirs path placed)
      else (some (.error (.simple .notFound)), fs)

/-! ### Metadata -/

def nodeMetadata (node : Node) (fs : MemoryFs) : Metadata :=
  match node with
  | .file source _ mtime => { Metadata.file source.size with mtime := mtime }
  | .memFile file _ =>
      { Metadata.fileRw (fs.fileLen file) with
        mtime := (fs.files.lookup file).bind (·.mtime) }
  | .dir _ => Metadata.dir

def nodeName : Node → Text
  | .file _ name _ => name
  | .memFile _ name => name
  | .dir name => name

def metadata (path : Text) (fs : MemoryFs) :
    Option (Except IoError Metadata) :=
  (fs.entries.lookup (normalizeKeyStr path)).map fun node =>
    .ok (fs.nodeMetadata node)

/-- `OsStr` order: by bytes. -/
def nameLe (left right : DirEntry) : Bool :=
  !(Text.utf8 right.name).lex (Text.utf8 left.name)

def readDir (path : Text) (fs : MemoryFs) :
    Option (Except IoError (List DirEntry)) :=
  let key := normalizeKeyStr path
  match fs.entries.lookup key with
  | some (.dir _) =>
      let children := fs.entries.entries.filter fun entry =>
        parentKey entry.1 = some key
      let listed := children.map fun entry =>
        ({ name := nodeName entry.2
           metadata := fs.nodeMetadata entry.2 } : DirEntry)
      some (.ok (listed.mergeSort nameLe))
  | _ => none

/-! ### Mutation -/

def remove (path : Text) (fs : MemoryFs) :
    Option (Except IoError Unit) × MemoryFs :=
  let key := normalizeKeyStr path
  match fs.entries.lookup key with
  | none => (some (.error (.simple .notFound)), fs)
  | some (.dir _) =>
      if hasChild key fs.entries then
        (some (.error (.custom .permissionDenied "directory not empty")), fs)
      else (some (.ok ()), fs.evict key)
  | some _ => (some (.ok ()), fs.evict key)

def rekey (key source target : Text) : Text :=
  if key = source then target else target ++ key.drop source.length

/-- The order in which a `HashMap` hands out its keys. -/
structure HashOrder where
  order : List Text → List Text
  perm : ∀ keys, (order keys).Perm keys

/-- The moving loop of `rename`. -/
def moveLoop (source target : Text) (name : Text) :
    List Text → MemoryFs → MemoryFs
  | [], fs => fs
  | key :: rest, fs =>
      match fs.entries.lookup key with
      | none => moveLoop source target name rest fs
      | some node =>
          let taken := { fs with entries := fs.entries.erase key }
          let moved := if key = source then node.rename name else node
          moveLoop source target name rest
            (taken.place (rekey key source target) moved)

/-- What `rename` makes of the destination: an error, or the tree with the
one node it replaces unlinked. -/
def clearDestination (sourceIsDir : Bool) (key : Text) (fs : MemoryFs) :
    Except IoError MemoryFs :=
  match fs.entries.lookup key with
  | none => .ok fs
  | some node =>
      match sourceIsDir, node.isDir with
      | false, true => .error (.simple .isADirectory)
      | true, false => .error (.simple .notADirectory)
      | true, true =>
          if hasChild key fs.entries then
            .error (.simple .directoryNotEmpty)
          else .ok (fs.evict key)
      | false, false => .ok (fs.evict key)

def rename (hash : HashOrder) (source target : Text) (fs : MemoryFs) :
    Option (Except IoError Unit) × MemoryFs :=
  let sourceKey := normalizeKeyStr source
  let targetKey := normalizeKeyStr target
  match fs.entries.lookup sourceKey with
  | none => (some (.error (.simple .notFound)), fs)
  | some node =>
      if targetKey = sourceKey then (some (.ok ()), fs)
      else if node.isDir && isUnder sourceKey targetKey then
        (some (.error (.simple .invalidInput)), fs)
      else
        match clearDestination node.isDir targetKey fs with
        | .error error => (some (.error error), fs)
        | .ok cleared =>
            let toMove := (hash.order cleared.entries.keys).filter
              (covers sourceKey)
            (some (.ok ()), insertAncestorDirs target
              (moveLoop sourceKey targetKey (finalComponent target) toMove
                cleared))

def createDir (path : Text) (fs : MemoryFs) :
    Option (Except IoError Unit) × MemoryFs :=
  let key := normalizeKeyStr path
  if (fs.entries.lookup key).isSome then
    (some (.error (.simple .alreadyExists)), fs)
  else
    (some (.ok ()), insertAncestorDirs path
      (fs.place key (.dir (finalComponent path))))

def setLen (now : Time) (path : Text) (len : Nat) (fs : MemoryFs) :
    Option (Except IoError Unit) × MemoryFs :=
  match fs.entries.lookup (normalizeKeyStr path) with
  | some (.memFile file _) =>
      let (result, next) := fs.setFileLen now file len
      (some result, next)
  | some _ => (some (.error readOnly), fs)
  | none => (some (.error (.simple .notFound)), fs)

def volumeInfo (fs : MemoryFs) : Option VolumeInfo :=
  some fs.volume.info

end MemoryFs

end Hookfs.Memory
