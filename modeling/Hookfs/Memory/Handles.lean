import Hookfs.Memory.Fs
import Hookfs.Vfs.Cursors

/-!
# Open handles

The cursors that `open` and `open_write` hand out, their reads, writes,
seeks and drops, and a tree together with all of its open handles.
-/

namespace Hookfs.Memory

open Hookfs.Lib Hookfs.Vfs

namespace MemoryFs

/-- `MemFile::write_at` through one of the file's `Arc`s. -/
def writeFile (now : Time) (file pos : Nat) (buf : List UInt8)
    (fs : MemoryFs) : Except IoError Nat × MemoryFs :=
  match fs.files.lookup file with
  | none => (.ok 0, fs)
  | some content =>
      let (result, next, volume) := content.writeAt now pos buf fs.volume
      (result,
        { fs with files := fs.files.insert file next, volume := volume })

namespace Stream

def position : Stream → Nat
  | .source _ pos => pos
  | .memory _ pos => pos

def moveTo (pos : Nat) : Stream → Stream
  | .source origin _ => .source origin pos
  | .memory file _ => .memory file pos

/-- `FileStream::size`: the probing seeks leave the cursor where it was. -/
def size (fs : MemoryFs) : Stream → Nat
  | .source origin _ => origin.size
  | .memory file _ => fs.fileLen file

/-- `Seek for SourceCursor` and `Seek for MemFileHandle`. -/
def seek (target : SeekFrom) (fs : MemoryFs) (stream : Stream) :
    Except IoError Nat × Stream :=
  match seekTo (stream.size fs) stream.position target with
  | .error error => (.error error, stream)
  | .ok pos => (.ok pos, stream.moveTo pos)

/-- `Read for SourceCursor` and `Read for MemFileHandle`. -/
def read (physical : Physical) (len : Nat) (fs : MemoryFs) :
    Stream → Except IoError (List UInt8) × Stream
  | .source origin pos =>
      if origin.size ≤ pos then (.ok [], .source origin pos)
      else
        match physical origin.stream pos len with
        | .error error => (.error error, .source origin pos)
        | .ok bytes =>
            (.ok bytes, .source origin (saturatingAdd pos bytes.length))
  | .memory file pos =>
      match fs.files.lookup file with
      | none => (.ok [], .memory file pos)
      | some content =>
          let bytes := content.readAt pos len
          (.ok bytes, .memory file (saturatingAdd pos bytes.length))

/-- Over an immutable stream, a read is that of a cursor with the source to
itself. -/
theorem read_source (content : Nat → Nat → List UInt8)
    (origin : SharedSource) (pos len : Nat) (fs : MemoryFs) :
    ∃ bytes next,
      Locked.SourceCursor.ideal origin.size content ⟨pos⟩ (.read len) =
          (.bytes (.ok bytes), ⟨next⟩) ∧
        (source origin pos).read (fun _ start len => .ok (content start len))
          len fs = (.ok bytes, .source origin next) := by
  by_cases beyond : origin.size ≤ pos
  · refine ⟨[], pos, ?_, ?_⟩
    · exact Locked.SourceCursor.ideal_of_answer (if_pos beyond)
    · exact if_pos beyond
  · refine ⟨content pos len, saturatingAdd pos (content pos len).length,
      ?_, ?_⟩
    · exact Locked.SourceCursor.ideal_read (Nat.lt_of_not_le beyond)
    · exact if_neg beyond

theorem seek_source (origin : SharedSource) (pos : Nat) (target : SeekFrom)
    (fs : MemoryFs) :
    (source origin pos).seek target fs =
      ((Locked.SourceCursor.seek origin.size target ⟨pos⟩).1,
        .source origin
          (Locked.SourceCursor.seek origin.size target ⟨pos⟩).2.pos) := by
  unfold seek Locked.SourceCursor.seek
  simp only [size, position]
  cases seekTo origin.size pos target with
  | error error =>
      rfl
  | ok reached =>
      rfl

/-- Drop a cursor and the `Arc` it holds. -/
def drop (fs : MemoryFs) : Stream → MemoryFs
  | .source _ _ => fs
  | .memory file _ => fs.dropFile file

end Stream

/-- `Write for MemFileHandle`. -/
def writeHandle (now : Time) (file pos : Nat) (buf : List UInt8)
    (fs : MemoryFs) : Except IoError Nat × Stream × MemoryFs :=
  match fs.writeFile now file pos buf with
  | (.error error, next) => (.error error, .memory file pos, next)
  | (.ok count, next) =>
      (.ok count, .memory file (saturatingAdd pos count), next)

end MemoryFs

/-! ## A tree with its handles -/

/-- A `MemoryFs` and the open handles over it. -/
structure Desk where
  fs : MemoryFs
  handles : Store Nat MemoryFs.Stream
  nextHandle : Nat

/-- What a client can do: through the tree, or through one of its handles. -/
inductive DeskOp where
  | insertFile (path : Text) (source : SharedSource) (mtime : Option Time)
  | insertWritable (now : Time) (path : Text)
  | «open» (path : Text) (opts : OpenOptions)
  | openWrite (now : Time) (path : Text) (opts : OpenOptions)
  | createDir (path : Text)
  | remove (path : Text)
  | rename (hash : MemoryFs.HashOrder) (source target : Text)
  | removeSubtree (key : Text)
  | setLen (now : Time) (path : Text) (len : Nat)
  | read (handle : Nat) (physical : Physical) (len : Nat)
  | seek (handle : Nat) (target : SeekFrom)
  | write (now : Time) (handle : Nat) (buf : List UInt8)
  | setHandleLen (now : Time) (handle : Nat) (len : Nat)
  | drop (handle : Nat)

namespace Desk

open MemoryFs

def start (capacity : Nat) : Desk where
  fs := .withCapacity capacity
  handles := ∅
  nextHandle := 0

/-- Keep the stream of a successful open. -/
def accept (opened : Option (Except IoError Stream) × MemoryFs)
    (desk : Desk) : Desk :=
  match opened.1 with
  | some (.ok stream) =>
      { fs := opened.2
        handles := desk.handles.insert desk.nextHandle stream
        nextHandle := desk.nextHandle + 1 }
  | _ => { desk with fs := opened.2 }

def store (handle : Nat) (stream : Stream) (fs : MemoryFs) (desk : Desk) :
    Desk :=
  { desk with fs := fs, handles := desk.handles.insert handle stream }

/-- An operation on a writable file through its handle; a mounted source has
no such operation. -/
def onMemory (handle : Nat)
    (operate : Nat → Nat → MemoryFs → Stream × MemoryFs) (desk : Desk) :
    Desk :=
  match desk.handles.lookup handle with
  | some (.memory file pos) =>
      desk.store handle (operate file pos desk.fs).1
        (operate file pos desk.fs).2
  | _ => desk

def step (desk : Desk) : DeskOp → Desk
  | .insertFile path source mtime =>
      { desk with fs := (desk.fs.insertFile path source mtime).2 }
  | .insertWritable now path =>
      { desk with fs := (desk.fs.insertWritable now path).2 }
  | .open path opts => desk.accept (desk.fs.open path opts)
  | .openWrite now path opts =>
      desk.accept (desk.fs.openWrite now path opts)
  | .createDir path => { desk with fs := (desk.fs.createDir path).2 }
  | .remove path => { desk with fs := (desk.fs.remove path).2 }
  | .rename hash source target =>
      { desk with fs := (desk.fs.rename hash source target).2 }
  | .removeSubtree key => { desk with fs := desk.fs.removeSubtree key }
  | .setLen now path len =>
      { desk with fs := (desk.fs.setLen now path len).2 }
  | .read handle physical len =>
      match desk.handles.lookup handle with
      | none => desk
      | some stream =>
          desk.store handle (stream.read physical len desk.fs).2 desk.fs
  | .seek handle target =>
      match desk.handles.lookup handle with
      | none => desk
      | some stream =>
          desk.store handle (stream.seek target desk.fs).2 desk.fs
  | .write now handle buf =>
      desk.onMemory handle fun file pos fs =>
        (fs.writeHandle now file pos buf).2
  | .setHandleLen now handle len =>
      desk.onMemory handle fun file pos fs =>
        (.memory file pos, (fs.setFileLen now file len).2)
  | .drop handle =>
      match desk.handles.lookup handle with
      | none => desk
      | some stream =>
          { desk with
            fs := stream.drop desk.fs
            handles := desk.handles.erase handle }

end Desk

end Hookfs.Memory
