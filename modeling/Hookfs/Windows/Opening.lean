import Hookfs.Memory.Opening
import Hookfs.Memory.Provider
import Hookfs.Windows.FailClosed

/-!
# Opening on Windows

The two opens of `MemoryFs` over Windows paths, and when a `CreateFile` that
fails leaves the tree as it was.
-/

namespace Hookfs.Windows

open Hookfs.Lib Hookfs.Vfs Hookfs.Memory
open Hookfs.Posix (CStr)
open Hookfs.Router (Route)

open MemoryFs (Stream)

/-! ## The in-memory tree over Windows paths -/

/-- `final_component`. -/
def finalComponent (path : Text) : Text :=
  (fileName path).getD path

/-- The loop of `insert_ancestor_dirs`. -/
def ancestorLoop (cases : CaseMap) :
    Nat → Option Text → Store Text Node → Store Text Node
  | 0, _, entries => entries
  | _, none, entries => entries
  | rounds + 1, some dir, entries =>
      if (normalizeKeyStr cases dir).isEmpty then entries
      else
        let next := MemoryFs.orInsert (normalizeKeyStr cases dir)
          (.dir (finalComponent dir)) entries
        match parent dir with
        | none => next
        | some up => ancestorLoop cases rounds (some up) next

/-- `insert_ancestor_dirs`; every ancestor is shorter than what is below
it. -/
def fillAncestors (cases : CaseMap) (path : Text) :
    Store Text Node → Store Text Node :=
  ancestorLoop cases path.length (parent path)

/-- The code of `no_space` on Windows. -/
def diskFull : IoError → IoError
  | .os 28 => .os 112
  | other => other

/-- `MemoryFs::open`. -/
def openMemory (cases : CaseMap) (path : Text) (_opts : OpenOptions)
    (fs : MemoryFs) : Option (Except IoError Stream) × MemoryFs :=
  fs.openAt (normalizeKeyStr cases path)

/-- `MemoryFs::open_write`. -/
def openWriteMemory (cases : CaseMap) (now : Time) (path : Text)
    (opts : OpenOptions) (fs : MemoryFs) :
    Option (Except IoError Stream) × MemoryFs :=
  let (opened, next) := fs.openWriteAt now (normalizeKeyStr cases path)
    (finalComponent path) (fillAncestors cases path) opts
  (opened.map (·.mapError diskFull), next)

/-- The provider opens as `MemoryFs` does, and drops its streams. -/
structure OverMemory (machine : Machine Memory.Ambient MemoryFs Stream) :
    Prop where
  opens : ∀ path opts fs,
    machine.provider.open machine.ambient path opts fs =
      openMemory machine.cases path opts fs
  writes : ∀ path opts fs,
    machine.provider.openWrite machine.ambient path opts fs =
      openWriteMemory machine.cases machine.ambient.now path opts fs
  drops : ∀ stream fs,
    machine.provider.drop machine.ambient stream fs = stream.drop fs

theorem fills_fillAncestors (cases : CaseMap) (path : Text) :
    MemoryFs.Fills (fillAncestors cases path) := by
  intro entries key node found
  unfold fillAncestors
  generalize path.length = rounds
  generalize parent path = dir
  induction rounds generalizing dir entries with
  | zero =>
      exact found
  | succ rounds inductionHypothesis =>
      cases dir with
      | none =>
          exact found
      | some dir =>
          have next := MemoryFs.fills_orInsert (normalizeKeyStr cases dir)
            (.dir (finalComponent dir)) entries key node found
          unfold ancestorLoop
          split
          · exact found
          · simp only
            split
            · exact next
            · exact inductionHypothesis _ next _

/-! ## `CreateFile` -/

/-- `CreateFileW`, `CreateFileA` or `CreateFile2`, with its arguments. -/
inductive CreateCall where
  | wide (name : WStr) (access share : Dword) (security : Nat)
      (disposition flags : Dword) (template : Nat)
  | ansi (name : CStr) (access share : Dword) (security : Nat)
      (disposition flags : Dword) (template : Nat)
  | two (name : WStr) (access share disposition : Dword)
      (params : Option Dword)
  deriving DecidableEq, Repr

namespace CreateCall

def call : CreateCall → PathCall
  | .wide name access share security disposition flags template =>
      .createFileW name access share security disposition flags template
  | .ansi name access share security disposition flags template =>
      .createFileA name access share security disposition flags template
  | .two name access share disposition params =>
      .createFile2 name access share disposition params

def access : CreateCall → Dword
  | .wide _ access _ _ _ _ _ => access
  | .ansi _ access _ _ _ _ _ => access
  | .two _ access _ _ _ => access

def disposition : CreateCall → Dword
  | .wide _ _ _ _ disposition _ _ => disposition
  | .ansi _ _ _ _ disposition _ _ => disposition
  | .two _ _ _ disposition _ => disposition

def flags : CreateCall → Dword
  | .wide _ _ _ _ _ flags _ => flags
  | .ansi _ _ _ _ _ flags _ => flags
  | .two _ _ _ _ params => params.getD 0

/-- What the access and the disposition ask for. -/
def options (create : CreateCall) : OpenOptions :=
  openOptions create.access create.disposition

end CreateCall

section Create

variable {machine : Machine Memory.Ambient MemoryFs Stream}
  {create : CreateCall} {engine : Engine Stream} {path : Text}
  {process : Process MemoryFs Stream} {outside : Nat → Nat}

theorem shim_create (asked : process.inHook = false)
    (active : process.engine = some engine)
    (arrives : routeOf engine create.call.path = some (.virtual path)) :
    shim machine (.path create.call) process =
      openVirtual machine create.access create.disposition create.flags
        engine path process := by
  have through : shim machine (.path create.call) process =
      createFile machine create.call create.access create.disposition
        create.flags process := by
    cases create with
    | wide name access share security disposition flags template =>
        rfl
    | ansi name access share security disposition flags template =>
        rfl
    | two name access share disposition params =>
        rfl
  obtain ⟨decoded, read, classified⟩ := Option.map_eq_some_iff.mp arrives
  rw [through]
  simp only [createFile, routed, asked, read, Process.route, active,
    Option.map_some, classified]
  rfl

/-- What the provider makes of an open. -/
def openTree (cases : CaseMap) (now : Time) (path : Text)
    (opts : OpenOptions) (fs : MemoryFs) :
    Option (Except IoError Stream) × MemoryFs :=
  if opts.write then openWriteMemory cases now path opts fs
  else openMemory cases path opts fs

/-- Another code for an error does not change what is left. -/
theorem leftOver_openWriteMemory (cases : CaseMap) (now : Time)
    (path : Text) (opts : OpenOptions) (fs : MemoryFs) :
    MemoryFs.leftOver (openWriteMemory cases now path opts fs) =
      MemoryFs.leftOver (fs.openWriteAt now (normalizeKeyStr cases path)
        (finalComponent path) (fillAncestors cases path) opts) := by
  unfold openWriteMemory MemoryFs.leftOver
  simp only
  cases (fs.openWriteAt now (normalizeKeyStr cases path)
      (finalComponent path) (fillAncestors cases path) opts).1 with
  | none =>
      rfl
  | some result =>
      cases result with
      | error error =>
          rfl
      | ok stream =>
          rfl

theorem sameContent_openTree_iff {fs : MemoryFs} (held : fs.Held outside)
    (cases : CaseMap) (now : Time) (path : Text) (opts : OpenOptions) :
    MemoryFs.SameContent fs
        (MemoryFs.leftOver (openTree cases now path opts fs)) ↔
      ¬(opts.write = true ∧
        fs.Alters (normalizeKeyStr cases path) opts) := by
  unfold openTree
  cases opts.write with
  | true =>
      simp only [if_true, true_and]
      rw [leftOver_openWriteMemory]
      exact MemoryFs.sameContent_openWriteAt_iff held
        (fills_fillAncestors cases path)
  | false =>
      simp only [Bool.false_eq_true, if_false, false_and, not_false_eq_true,
        iff_true]
      exact MemoryFs.sameContent_openAt held

theorem openStream_eq (inMemory : OverMemory machine) (path : Text)
    (opts : OpenOptions) (fs : MemoryFs) :
    openStream machine path opts fs =
      ((openTree machine.cases machine.ambient.now path opts fs).1.map
          (Except.map (openedAs opts)),
        (openTree machine.cases machine.ambient.now path opts fs).2) := by
  unfold openStream openTree openedAs
  cases opts.write with
  | true =>
      simp only [if_true, inMemory.writes]
  | false =>
      simp only [Bool.false_eq_true, if_false, inMemory.opens]

theorem openTree_alters {fs : MemoryFs} (held : fs.Held outside)
    (cases : CaseMap) (now : Time) {opts : OpenOptions}
    (write : opts.write = true)
    (alters : fs.Alters (normalizeKeyStr cases path) opts) :
    ∃ stream, (openTree cases now path opts fs).1 = some (.ok stream) := by
  have opens : ∃ stream, (fs.openWriteAt now (normalizeKeyStr cases path)
      (finalComponent path) (fillAncestors cases path) opts).1 =
        some (.ok stream) := alters.opens held.within
  obtain ⟨stream, opened⟩ := opens
  refine ⟨stream, ?_⟩
  unfold openTree openWriteMemory
  simp only [write, if_true]
  rw [opened]
  rfl

/-- A failed call leaves the tree as it was. -/
def FailsClean (machine : Machine Memory.Ambient MemoryFs Stream)
    (create : CreateCall) (process : Process MemoryFs Stream) : Prop :=
  (shim machine (.path create.call) process).reply.ret =
      invalidHandleValue →
    MemoryFs.SameContent process.vfs
      (shim machine (.path create.call) process).process.vfs

/-- The call may write, makes a file or empties one, and is then refused its
carrier. -/
structure StrandsChange (machine : Machine Memory.Ambient MemoryFs Stream)
    (create : CreateCall) (engine : Engine Stream) (path : Text)
    (fs : MemoryFs) : Prop where
  writes : create.options.write = true
  allows : engine.allowWrites = true
  alters : fs.Alters (normalizeKeyStr machine.cases path) create.options
  refused : isHandle (machine.os .carrierOpen).ret = false

theorem failsClean_iff (inMemory : OverMemory machine)
    (held : process.vfs.Held outside) (asked : process.inHook = false)
    (active : process.engine = some engine)
    (arrives : routeOf engine create.call.path = some (.virtual path)) :
    FailsClean machine create process ↔
      ¬ StrandsChange machine create engine path process.vfs := by
  have same := MemoryFs.SameContent.refl process.vfs
  have left := sameContent_openTree_iff held machine.cases
    machine.ambient.now path create.options
  unfold FailsClean
  rw [shim_create asked active arrives, openVirtual]
  simp only [openStream_eq inMemory]
  have gated : openOptions create.access create.disposition =
      create.options := rfl
  rw [gated]
  split
  · rename_i gate
    rw [Bool.and_eq_true, Bool.not_eq_true'] at gate
    refine iff_of_true (fun _ => same) fun stranded => ?_
    have allows := stranded.allows
    rw [gate.2] at allows
    cases allows
  · rename_i gate
    have permits : create.options.write = true →
        engine.allowWrites = true := by
      intro write
      rw [write, Bool.true_and, Bool.not_eq_true', Bool.not_eq_false]
        at gate
      exact gate
    have unaltered : (∀ stream, (openTree machine.cases machine.ambient.now
        path create.options process.vfs).1 ≠ some (.ok stream)) →
          ¬(create.options.write = true ∧ process.vfs.Alters
            (normalizeKeyStr machine.cases path) create.options) := by
      intro nothing altered
      obtain ⟨stream, opened⟩ := openTree_alters held machine.cases
        machine.ambient.now altered.1 altered.2
      exact nothing stream opened
    have untouched : (∀ stream, (openTree machine.cases machine.ambient.now
        path create.options process.vfs).1 ≠ some (.ok stream)) →
          MemoryFs.SameContent process.vfs (openTree machine.cases
              machine.ambient.now path create.options process.vfs).2 ∧
            ¬ StrandsChange machine create engine path process.vfs := by
      intro closed
      have kept := left.mpr (unaltered closed)
      rw [MemoryFs.leftOver_closed closed] at kept
      exact ⟨kept, fun stranded =>
        unaltered closed ⟨stranded.writes, stranded.alters⟩⟩
    cases outcome : (openTree machine.cases machine.ambient.now path
        create.options process.vfs).1 with
    | none =>
        rw [outcome] at untouched
        obtain ⟨kept, unstranded⟩ := untouched fun _ => nofun
        exact iff_of_true (fun _ => kept) unstranded
    | some result =>
        cases result with
        | error error =>
            rw [outcome] at untouched
            obtain ⟨kept, unstranded⟩ := untouched fun _ => nofun
            exact iff_of_true (fun _ => kept) unstranded
        | ok stream =>
            rw [MemoryFs.leftOver_opened outcome] at left
            simp only [Option.map_some, Except.map]
            split
            · rename_i granted
              have valid : (machine.os .carrierOpen).ret ≠
                  invalidHandleValue := by
                intro equal
                rw [equal] at granted
                cases granted
              refine iff_of_true (fun failed => absurd failed valid) ?_
              intro stranded
              rw [stranded.refused] at granted
              cases granted
            · rename_i refused
              rw [Bool.not_eq_true] at refused
              rw [inner_openedAs, inMemory.drops]
              constructor
              · intro clean stranded
                exact left.mp (clean rfl)
                  ⟨stranded.writes, stranded.alters⟩
              · intro clean _
                refine left.mpr fun altered => clean ?_
                exact ⟨altered.1, permits altered.1, altered.2, refused⟩

end Create

end Hookfs.Windows
