import Hookfs.Unix.Owners
import Hookfs.Windows.Opening

/-!
# Failed opens

The provider's part of an open comes before the carrier, on both platforms.
A call that is refused its carrier drops the stream, but the file that was
made stays, and the bytes that were cut off are gone.
-/

namespace Hookfs

open Hookfs.Lib Hookfs.Vfs Hookfs.Memory

/-- A call on a virtual path that fails leaves the tree as it was, unless it
makes a file or empties one and is then refused its carrier. -/
theorem failed_open_changes_nothing_iff (start : Unix.SoundSession)
    (machine : Windows.Machine Memory.Ambient MemoryFs MemoryFs.Stream)
    (inMemory : Windows.OverMemory machine) :
    (∀ (around : Unix.Surroundings) (opening : Unix.OpenCall)
      (engine : Router.Engine MemoryFs.Stream) (path : Text),
        Unix.Arrives opening.call.path start.session engine
          (.virtual path) →
        (Unix.FailsClean around opening start.session ↔
          ¬ Unix.StrandsChange around opening engine path
            start.session.vfs)) ∧
    ∀ (create : Windows.CreateCall)
      (process : Windows.Process MemoryFs MemoryFs.Stream)
      (engine : Windows.Engine MemoryFs.Stream) (path : Text)
      (outside : Nat → Nat),
        process.vfs.Held outside → process.inHook = false →
        process.engine = some engine →
        Windows.routeOf engine create.call.path = some (.virtual path) →
        (Windows.FailsClean machine create process ↔
          ¬ Windows.StrandsChange machine create engine path
            process.vfs) := by
  constructor
  · intro around opening engine path arrives
    exact Unix.failsClean_iff start.sound arrives
  · intro create process engine path outside held asked active arrives
    exact Windows.failsClean_iff inMemory held asked active arrives

/-! ## A full descriptor table -/

/-- No descriptor, no cookie stream and no handle can be had. -/
def refusing : Unix.Surroundings where
  ambient := .still
  os
    | .fopencookie _ _ => ⟨0, some 12, .nothing⟩
    | _ => ⟨-1, some 24, .nothing⟩
  hasher := List.length

/-- An empty tree behind `/v`, with writes. -/
def emptySession : Unix.SoundSession :=
  .install 16 (by decide) [] (.fromRoot "/v".toList) true false

/-- `open("/v/b", O_WRONLY | O_CREAT)`. -/
def openNew : Unix.OpenCall :=
  .open .open (some [47, 118, 47, 98]) (Unix.O_WRONLY ||| Unix.O_CREAT) 0

/-- The same over Windows paths. -/
def windowsMachine :
    Windows.Machine Memory.Ambient MemoryFs MemoryFs.Stream where
  provider :=
    { MemoryFs.provider with
      «open» := fun _ path opts fs =>
        Windows.openMemory .asciiOnly path opts fs
      openWrite := fun ambient path opts fs =>
        Windows.openWriteMemory .asciiOnly ambient.now path opts fs }
  ambient := .still
  os _ := ⟨Windows.invalidHandleValue, some 4, .nothing⟩
  cases := .asciiOnly

def windowsEngine : Windows.Engine MemoryFs.Stream :=
  .new (Windows.namespaceFromRoot .asciiOnly "c:\\v".toList) true

def windowsProcess : Windows.Process MemoryFs MemoryFs.Stream where
  vfs := emptySession.session.vfs
  engine := some windowsEngine
  inHook := false

/-- `CreateFileA("c:\\v\\b", GENERIC_READ, .., OPEN_EXISTING, ..)`. -/
def createOld : Windows.CreateCall :=
  .ansi (some [99, 58, 92, 118, 92, 98]) 0x80000000 0 0 3 0 0

/-- An open that makes a file does not, and an open that only reads does,
leave the tree as it was. -/
theorem failed_open_changes_nothing_iff_refused :
    (Unix.FailsClean refusing openNew emptySession.session ↔
        ¬ Unix.StrandsChange refusing openNew
          (.new (.fromRoot "/v".toList) true) "/v/b".toList
          emptySession.session.vfs) ∧
      (Windows.FailsClean windowsMachine createOld windowsProcess ↔
        ¬ Windows.StrandsChange windowsMachine createOld windowsEngine
          "c:\\v\\b".toList windowsProcess.vfs) := by
  have inMemory : Windows.OverMemory windowsMachine :=
    ⟨fun _ _ _ => rfl, fun _ _ _ => rfl, fun _ _ => rfl⟩
  have clean := failed_open_changes_nothing_iff emptySession windowsMachine
    inMemory
  constructor
  · have arrives : Unix.Arrives openNew.call.path emptySession.session
        (.new (.fromRoot "/v".toList) true) (.virtual "/v/b".toList) := by
      refine ⟨rfl, rfl, ?_⟩
      decide
    exact clean.1 _ _ _ _ arrives
  · have held : windowsProcess.vfs.Held emptySession.session.holds :=
      emptySession.sound
    apply clean.2 _ _ _ _ _ held rfl rfl
    decide

/-- `open("/v/b", O_WRONLY | O_CREAT)` with a full descriptor table: the call
fails, and the file is there. -/
theorem failed_open_leaves_file :
    Unix.Arrives openNew.call.path emptySession.session
        (.new (.fromRoot "/v".toList) true) (.virtual "/v/b".toList) ∧
      ¬ Unix.FailsClean refusing openNew emptySession.session := by
  constructor
  · refine ⟨rfl, rfl, ?_⟩
    decide
  · intro clean
    have there := (clean (by decide)).entries "/v/b".toList
    revert there
    decide

end Hookfs
