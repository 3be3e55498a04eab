import Hookfs.Vfs.Core

/-!
# Providers

The traits `VirtualFs`, `FileStream` and `WritableFile` as one record of
functions over the provider's state and its streams.  Every call may read
what surrounds it (the clock, a hash map's order, a physical stream's bytes)
and may change the state.
-/

namespace Hookfs.Vfs

open Hookfs.Lib

/-- A provider: the methods of `VirtualFs`, then those of the streams it
hands out. -/
structure VirtualFs (Ambient State Stream : Type) where
  «open» : Ambient → Text → OpenOptions → State →
    Option (Except IoError Stream) × State
  metadata : Ambient → Text → State →
    Option (Except IoError Metadata) × State
  readDir : Ambient → Text → State →
    Option (Except IoError (List DirEntry)) × State
  «exists» : Ambient → Text → State → Option Bool × State
  openWrite : Ambient → Text → OpenOptions → State →
    Option (Except IoError Stream) × State
  remove : Ambient → Text → State → Option (Except IoError Unit) × State
  rename : Ambient → Text → Text → State →
    Option (Except IoError Unit) × State
  createDir : Ambient → Text → State → Option (Except IoError Unit) × State
  setLen : Ambient → Text → Nat → State →
    Option (Except IoError Unit) × State
  volumeInfo : Ambient → State → Option VolumeInfo × State
  read : Ambient → Nat → Stream → State →
    Except IoError (List UInt8) × Stream × State
  write : Ambient → List UInt8 → Stream → State →
    Except IoError Nat × Stream × State
  seek : Ambient → SeekFrom → Stream → State →
    Except IoError Nat × Stream × State
  streamPosition : Ambient → Stream → State →
    Except IoError Nat × Stream × State
  size : Ambient → Stream → State → Except IoError Nat × Stream × State
  streamSetLen : Ambient → Nat → Stream → State →
    Except IoError Unit × Stream × State
  flush : Ambient → Stream → State → Except IoError Unit × Stream × State
  drop : Ambient → Stream → State → State

inductive OpenStream (Stream : Type) where
  | read (stream : Stream)
  | write (stream : Stream)
  deriving DecidableEq, Repr

namespace OpenStream

variable {Ambient State Stream : Type}
  (provider : VirtualFs Ambient State Stream) (ambient : Ambient)

def inner : OpenStream Stream → Stream
  | .read stream => stream
  | .write stream => stream

/-- The same kind of open over another stream. -/
def replace (stream : Stream) : OpenStream Stream → OpenStream Stream
  | .read _ => .read stream
  | .write _ => .write stream

/-- Apply a method that both kinds of stream have. -/
def both {Value : Type}
    (method : Stream → State → Value × Stream × State)
    (opened : OpenStream Stream) (state : State) :
    Value × OpenStream Stream × State :=
  let (value, stream, next) := method opened.inner state
  (value, opened.replace stream, next)

/-- `OpenStream::read`. -/
def readBytes (len : Nat) :
    OpenStream Stream → State →
      Except IoError (List UInt8) × OpenStream Stream × State :=
  both (provider.read ambient len)

/-- `OpenStream::write`. -/
def writeBytes (bytes : List UInt8) (opened : OpenStream Stream)
    (state : State) : Except IoError Nat × OpenStream Stream × State :=
  match opened with
  | .read _ => (.error readOnly, opened, state)
  | .write _ => both (provider.write ambient bytes) opened state

def seek (target : SeekFrom) :
    OpenStream Stream → State →
      Except IoError Nat × OpenStream Stream × State :=
  both (provider.seek ambient target)

def streamPosition :
    OpenStream Stream → State →
      Except IoError Nat × OpenStream Stream × State :=
  both (provider.streamPosition ambient)

def size :
    OpenStream Stream → State →
      Except IoError Nat × OpenStream Stream × State :=
  both (provider.size ambient)

def setLen (len : Nat) (opened : OpenStream Stream) (state : State) :
    Except IoError Unit × OpenStream Stream × State :=
  match opened with
  | .read _ => (.error readOnly, opened, state)
  | .write _ => both (provider.streamSetLen ambient len) opened state

def flush (opened : OpenStream Stream) (state : State) :
    Except IoError Unit × OpenStream Stream × State :=
  match opened with
  | .read _ => (.ok (), opened, state)
  | .write _ => both (provider.flush ambient) opened state

end OpenStream

section OpenedAs

variable {Stream : Type}

/-- The stream of an open, read or written as it was asked. -/
def openedAs (opts : OpenOptions) (stream : Stream) : OpenStream Stream :=
  if opts.write then .write stream else .read stream

theorem inner_openedAs (opts : OpenOptions) (stream : Stream) :
    (openedAs opts stream).inner = stream := by
  unfold openedAs
  split
  · rfl
  · rfl

end OpenedAs

end Hookfs.Vfs
