import Mathlib.Data.Finset.Erase
import Mathlib.Data.Finset.Insert
import Hookfs.Lib.Holders
import Hookfs.Router.Engine

/-!
# Descriptors between threads

The hooked calls of several threads, each in the steps between which the
others have their turn: the registry is locked for one step only, a file is
behind an `Arc<Mutex<..>>` of its own, and the kernel keeps the carriers.
-/

namespace Hookfs.Unix

open Hookfs.Lib Hookfs.Vfs Hookfs.Router

variable {State Stream : Type}

/-! ## State -/

/-- An `Arc<Mutex<OpenFile>>` with its strong count. -/
structure Arc (Stream : Type) where
  strong : Nat
  file : OpenFile Stream
  locked : Bool

/-- How far a thread has come with its call. -/
inductive Stage (Stream : Type) where
  /-- In the program. -/
  | outside
  /-- `open`: the provider has opened a stream. -/
  | opened (file : OpenFile Stream)
  /-- `open`: there is a carrier for it. -/
  | carried (file : OpenFile Stream) (fd : Nat)
  /-- Cloned the `Arc` of a descriptor. -/
  | found (arc : Nat)
  /-- Has locked the file. -/
  | locked (arc : Nat)
  /-- Has unlocked it, and still has the clone. -/
  | served (arc : Nat)
  /-- `close`: took the entry out of the registry. -/
  | removed (arc fd : Nat)
  /-- About to call the original `close`. -/
  | closing (fd : Nat)

namespace Stage

/-- The `Arc`s that a thread has at a stage. -/
def arcs : Stage Stream → Nat → Nat
  | .found arc => oneOf arc
  | .locked arc => oneOf arc
  | .served arc => oneOf arc
  | .removed arc _ => oneOf arc
  | _ => 0

def locks : Stage Stream → Nat → Nat
  | .locked arc => oneOf arc
  | _ => 0

/-- The descriptors that a call has taken and not returned, or taken back and
not closed. -/
def fds : Stage Stream → Nat → Nat
  | .carried _ fd => oneOf fd
  | .removed _ fd => oneOf fd
  | .closing fd => oneOf fd
  | _ => 0

@[simp]
theorem arcs_outside : (outside : Stage Stream).arcs = 0 := rfl

@[simp]
theorem locks_outside : (outside : Stage Stream).locks = 0 := rfl

@[simp]
theorem fds_outside : (outside : Stage Stream).fds = 0 := rfl

end Stage

/-- A process with several threads: the provider's state, `Registry::files`,
the live `Arc`s, the open descriptors of the kernel, and those of them that
the program has been given and has not closed. -/
structure Traffic (State Stream : Type) where
  vfs : State
  files : Store Nat Nat
  arcs : Store Nat (Arc Stream)
  nextArc : Nat
  descriptors : Finset Nat
  owned : Finset Nat
  stages : Store Nat (Stage Stream)
  /-- The `Arc`s whose streams were dropped, in order. -/
  dropped : List Nat

namespace Traffic

/-- An engine is fresh, and the program has its descriptors. -/
def start (vfs : State) (owned : Finset Nat) : Traffic State Stream where
  vfs := vfs
  files := ∅
  arcs := ∅
  nextArc := 0
  descriptors := owned
  owned := owned
  stages := ∅
  dropped := []

def stage (thread : Nat) (traffic : Traffic State Stream) : Stage Stream :=
  stageOf .outside traffic.stages thread

def goTo (thread : Nat) (stage : Stage Stream)
    (traffic : Traffic State Stream) : Traffic State Stream :=
  { traffic with stages := traffic.stages.insert thread stage }

def withVfs (vfs : State) (traffic : Traffic State Stream) :
    Traffic State Stream :=
  { traffic with vfs := vfs }

/-! ## `Arc`s -/

def putArc (arc : Nat) (content : Arc Stream)
    (traffic : Traffic State Stream) : Traffic State Stream :=
  { traffic with arcs := traffic.arcs.insert arc content }

/-- `Arc::clone`. -/
def cloneArc (arc : Nat) (traffic : Traffic State Stream) :
    Traffic State Stream :=
  match traffic.arcs.lookup arc with
  | none => traffic
  | some content =>
      traffic.putArc arc { content with strong := content.strong + 1 }

variable (drop : Stream → State → State)

/-- An `Arc` goes; the last one drops the stream. -/
def dropArc (arc : Nat) (traffic : Traffic State Stream) :
    Traffic State Stream :=
  match traffic.arcs.lookup arc with
  | none => traffic
  | some content =>
      if content.strong ≤ 1 then
        { traffic with
          vfs := drop content.file.stream.inner traffic.vfs
          arcs := traffic.arcs.erase arc
          dropped := traffic.dropped ++ [arc] }
      else
        traffic.putArc arc { content with strong := content.strong - 1 }

section Untouched

variable (arc : Nat) (traffic : Traffic State Stream)

@[simp]
theorem stages_cloneArc : (traffic.cloneArc arc).stages = traffic.stages := by
  unfold cloneArc
  split
  · rfl
  · rfl

@[simp]
theorem files_cloneArc : (traffic.cloneArc arc).files = traffic.files := by
  unfold cloneArc
  split
  · rfl
  · rfl

@[simp]
theorem descriptors_cloneArc :
    (traffic.cloneArc arc).descriptors = traffic.descriptors := by
  unfold cloneArc
  split
  · rfl
  · rfl

@[simp]
theorem owned_cloneArc : (traffic.cloneArc arc).owned = traffic.owned := by
  unfold cloneArc
  split
  · rfl
  · rfl

@[simp]
theorem stages_dropArc :
    (traffic.dropArc drop arc).stages = traffic.stages := by
  unfold dropArc
  split
  · rfl
  · split
    · rfl
    · rfl

@[simp]
theorem files_dropArc : (traffic.dropArc drop arc).files = traffic.files := by
  unfold dropArc
  split
  · rfl
  · split
    · rfl
    · rfl

@[simp]
theorem descriptors_dropArc :
    (traffic.dropArc drop arc).descriptors = traffic.descriptors := by
  unfold dropArc
  split
  · rfl
  · split
    · rfl
    · rfl

@[simp]
theorem owned_dropArc : (traffic.dropArc drop arc).owned = traffic.owned := by
  unfold dropArc
  split
  · rfl
  · split
    · rfl
    · rfl

end Untouched

/-! ## The registry -/

/-- `Registry::insert_file`; an `Arc` that was there is dropped. -/
def insertFile (fd : Nat) (file : OpenFile Stream)
    (traffic : Traffic State Stream) : Traffic State Stream :=
  let placed :=
    { traffic with
      files := traffic.files.insert fd traffic.nextArc
      arcs := traffic.arcs.insert traffic.nextArc ⟨1, file, false⟩
      nextArc := traffic.nextArc + 1 }
  match traffic.files.lookup fd with
  | none => placed
  | some old => placed.dropArc drop old

section Untouched

variable (fd : Nat) (file : OpenFile Stream) (traffic : Traffic State Stream)

@[simp]
theorem stages_insertFile :
    (traffic.insertFile drop fd file).stages = traffic.stages := by
  unfold insertFile
  simp only
  split
  · rfl
  · exact stages_dropArc _ _ _

@[simp]
theorem files_insertFile : (traffic.insertFile drop fd file).files =
    traffic.files.insert fd traffic.nextArc := by
  unfold insertFile
  simp only
  split
  · rfl
  · exact files_dropArc _ _ _

@[simp]
theorem descriptors_insertFile :
    (traffic.insertFile drop fd file).descriptors = traffic.descriptors := by
  unfold insertFile
  simp only
  split
  · rfl
  · exact descriptors_dropArc _ _ _

@[simp]
theorem owned_insertFile :
    (traffic.insertFile drop fd file).owned = traffic.owned := by
  unfold insertFile
  simp only
  split
  · rfl
  · exact owned_dropArc _ _ _

end Untouched

/-- The entry of `Registry::remove_file`. -/
def takeFile (fd : Nat) (traffic : Traffic State Stream) :
    Traffic State Stream :=
  { traffic with files := traffic.files.erase fd }

/-! ## The kernel and the program -/

/-- The kernel opens a descriptor. -/
def openFd (fd : Nat) (traffic : Traffic State Stream) :
    Traffic State Stream :=
  { traffic with descriptors := insert fd traffic.descriptors }

def closeFd (fd : Nat) (traffic : Traffic State Stream) :
    Traffic State Stream :=
  { traffic with descriptors := traffic.descriptors.erase fd }

/-- A call returns a descriptor to the program. -/
def give (fd : Nat) (traffic : Traffic State Stream) :
    Traffic State Stream :=
  { traffic with owned := insert fd traffic.owned }

/-- The program closes a descriptor. -/
def takeBack (fd : Nat) (traffic : Traffic State Stream) :
    Traffic State Stream :=
  { traffic with owned := traffic.owned.erase fd }

end Traffic

/-! ## Steps -/

/-- What a thread does next. -/
inductive Move (State Stream : Type) where
  /-- `open` or `open_write` of the provider, for a path and an access. -/
  | «open» (ask : State →
      Option (Except IoError (OpenStream Stream)) × State)
      (path : Text) (writable : Bool)
  /-- `carrier_fd`. -/
  | fetch (carrier : Option Nat)
  /-- `insert_file`, and the descriptor is returned. -/
  | register
  /-- An `open` that is forwarded. -/
  | openReal (fd : Nat)
  /-- `get_file`; the call is forwarded if there is none. -/
  | lookUp (fd : Nat)
  /-- The call ends before it locks the file. -/
  | skip
  | lock
  /-- One operation on the locked stream. -/
  | operate (apply : OpenStream Stream → State → OpenStream Stream × State)
  | unlock
  /-- The clone goes, and the call returns. -/
  | release
  /-- `remove_file`, at the beginning of `close`. -/
  | remove (fd : Nat)
  | dropFile
  | closeOriginal
  /-- Any other call of the provider. -/
  | elsewhere (apply : State → State)

namespace Traffic

variable (drop : Stream → State → State)

/-- One turn of a thread; it waits where it cannot go on. -/
def step (traffic : Traffic State Stream)
    (turn : Nat × Move State Stream) : Traffic State Stream :=
  match turn.2, traffic.stage turn.1 with
  | .open ask path writable, .outside =>
      match ask traffic.vfs with
      | (some (.ok stream), vfs) =>
          (traffic.withVfs vfs).goTo turn.1 (.opened ⟨stream, path, writable⟩)
      | (_, vfs) => traffic.withVfs vfs
  | .fetch none, .opened file =>
      (traffic.withVfs (drop file.stream.inner traffic.vfs)).goTo turn.1
        .outside
  | .fetch (some fd), .opened file =>
      (traffic.openFd fd).goTo turn.1 (.carried file fd)
  | .register, .carried file fd =>
      ((traffic.insertFile drop fd file).give fd).goTo turn.1 .outside
  | .openReal fd, .outside => (traffic.openFd fd).give fd
  | .lookUp fd, .outside =>
      match traffic.files.lookup fd with
      | none => traffic
      | some arc => (traffic.cloneArc arc).goTo turn.1 (.found arc)
  | .skip, .found arc => traffic.goTo turn.1 (.served arc)
  | .lock, .found arc =>
      match traffic.arcs.lookup arc with
      | none => traffic
      | some content =>
          if content.locked then traffic
          else
            (traffic.putArc arc { content with locked := true }).goTo turn.1
              (.locked arc)
  | .operate apply, .locked arc =>
      match traffic.arcs.lookup arc with
      | none => traffic
      | some content =>
          let (stream, vfs) := apply content.file.stream traffic.vfs
          (traffic.withVfs vfs).putArc arc
            { content with file := { content.file with stream := stream } }
  | .unlock, .locked arc =>
      match traffic.arcs.lookup arc with
      | none => traffic
      | some content =>
          (traffic.putArc arc { content with locked := false }).goTo turn.1
            (.served arc)
  | .release, .served arc => (traffic.dropArc drop arc).goTo turn.1 .outside
  | .remove fd, .outside =>
      match traffic.files.lookup fd with
      | none => (traffic.takeBack fd).goTo turn.1 (.closing fd)
      | some arc =>
          ((traffic.takeFile fd).takeBack fd).goTo turn.1 (.removed arc fd)
  | .dropFile, .removed arc fd =>
      (traffic.dropArc drop arc).goTo turn.1 (.closing fd)
  | .closeOriginal, .closing fd => (traffic.closeFd fd).goTo turn.1 .outside
  | .elsewhere apply, _ => traffic.withVfs (apply traffic.vfs)
  | _, _ => traffic

end Traffic

end Hookfs.Unix
