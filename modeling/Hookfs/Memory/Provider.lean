import Hookfs.Memory.Handles
import Hookfs.Vfs.Provider

/-!
# The in-memory tree as a provider

`impl VirtualFs for MemoryFs`, with the methods of its two kinds of streams.
-/

namespace Hookfs.Memory

open Hookfs.Lib Hookfs.Vfs

/-- What one call reads beside the tree: the clock, the order of the hash map
and the mounted physical streams. -/
structure Ambient where
  now : Time
  hash : MemoryFs.HashOrder
  physical : Physical

/-- A clock at zero, a map that hands out its keys in order, and physical
streams without bytes. -/
def Ambient.still : Ambient where
  now := 0
  hash := ⟨id, fun _ => .refl _⟩
  physical _ _ _ := .ok []

namespace MemoryFs

namespace Stream

/-- `Write for MemFileHandle`; a mounted source is never open for writing. -/
def write (now : Time) (buf : List UInt8) (stream : Stream) (fs : MemoryFs) :
    Except IoError Nat × Stream × MemoryFs :=
  match stream with
  | .source _ _ => (.error readOnly, stream, fs)
  | .memory file pos => fs.writeHandle now file pos buf

/-- `WritableFile::set_len for MemFileHandle`. -/
def setLen (now : Time) (len : Nat) (stream : Stream) (fs : MemoryFs) :
    Except IoError Unit × Stream × MemoryFs :=
  match stream with
  | .source _ _ => (.error readOnly, stream, fs)
  | .memory file pos =>
      let (result, next) := fs.setFileLen now file len
      (result, .memory file pos, next)

end Stream

/-- `impl VirtualFs for MemoryFs`. -/
def provider : VirtualFs Ambient MemoryFs Stream where
  «open» _ path opts fs := fs.open path opts
  metadata _ path fs := (fs.metadata path, fs)
  readDir _ path fs := (fs.readDir path, fs)
  «exists» _ path fs := ((fs.metadata path).map (·.toBool), fs)
  openWrite ambient path opts fs := fs.openWrite ambient.now path opts
  remove _ path fs := fs.remove path
  rename ambient source target fs := fs.rename ambient.hash source target
  createDir _ path fs := fs.createDir path
  setLen ambient path len fs := fs.setLen ambient.now path len
  volumeInfo _ fs := (fs.volumeInfo, fs)
  read ambient len stream fs :=
    let (result, next) := stream.read ambient.physical len fs
    (result, next, fs)
  write ambient bytes stream fs := stream.write ambient.now bytes fs
  seek _ target stream fs :=
    let (result, next) := stream.seek target fs
    (result, next, fs)
  streamPosition _ stream fs := (.ok stream.position, stream, fs)
  size _ stream fs := (.ok (stream.size fs), stream, fs)
  streamSetLen ambient len stream fs := stream.setLen ambient.now len fs
  flush _ stream fs := (.ok (), stream, fs)
  drop _ stream fs := stream.drop fs

end MemoryFs

end Hookfs.Memory
