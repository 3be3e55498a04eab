import Hookfs.Windows.Sessions
import Mathlib.Data.Set.Insert

/-!
# Whose handle it is

The shims and KERNEL32 share one number space of handles.  A ledger that is
kept from what crosses the boundary to KERNEL32 alone, namely the carriers
it hands out and the ones that are closed, tells at every moment which
handles are virtual, and that decides who serves a handle call.
-/

namespace Hookfs.Windows

open Hookfs.Lib Hookfs.Vfs Hookfs.Posix
open Hookfs.Router (Route Namespace)

variable {Ambient State Stream : Type}

/-! ## Across the boundary -/

/-- What KERNEL32 is asked. -/
inductive Request where
  | path (call : KernelCall)
  | handle (call : HandleCall)
  deriving DecidableEq, Repr

/-- What an event asks of KERNEL32, in order. -/
def Process.requests (process : Process State Stream) :
    Event Ambient State Stream → List Request
  | .path machine call => (shim machine call process).calls.map .path
  | .handle system call => (shimHandle system call process).calls.map .handle

/-- The carriers that are handed out and not yet closed. -/
structure Ledger where
  files : Set Nat
  finds : Set Nat

namespace Ledger

def empty : Ledger := ⟨∅, ∅⟩

/-- A valid carrier that was asked for. -/
def issued (wanted : KernelCall) (machine : Machine Ambient State Stream)
    (requests : List Request) : Set Nat :=
  { key | .path wanted ∈ requests ∧
    isHandle (machine.os wanted).ret = true ∧
      key = handleKey (machine.os wanted).ret }

/-- The ledger after an event, from what crossed the boundary. -/
def after (requests : List Request) (ledger : Ledger) :
    Event Ambient State Stream → Ledger
  | .path machine _ =>
      ⟨ledger.files ∪ issued .carrierOpen machine requests,
        ledger.finds ∪ issued .carrierFind machine requests⟩
  | .handle _ (.closeHandle object) =>
      { ledger with files := ledger.files \ { handleKey object } }
  | .handle _ (.findClose find) =>
      { ledger with finds := ledger.finds \ { handleKey find } }
  | .handle _ _ => ledger

/-- The carrier that a handle call is about is out. -/
def Holds (ledger : Ledger) : HandleCall → Prop
  | .findNextFileW find _ => handleKey find ∈ ledger.finds
  | .findClose find => handleKey find ∈ ledger.finds
  | call => ∃ handle, call.object = some handle ∧
      handleKey handle ∈ ledger.files

end Ledger

/-- The two calls that end the life of a handle. -/
def HandleCall.closes : HandleCall → Bool
  | .closeHandle _ => true
  | .findClose _ => true
  | _ => false

/-- The path that routes a call: the source, where there are two. -/
def Call.routing : Call → PathArg
  | .path call => call.path
  | .moveFileExW existing _ _ => .wide existing

/-- The event goes to KERNEL32 as it is, and nothing changes. -/
def Forwarded (process : Process State Stream) :
    Event Ambient State Stream → Prop
  | .path machine call => shim machine call process =
      pass machine call process
  | .handle system call => shimHandle system call process =
      passHandle system call process

/-- Who serves an event: a handle call on a carrier is not heard of in
KERNEL32, unless it closes the carrier; any other handle call goes there as
it is, and so does a path call without an absolute path. -/
def Partitioned (process : Process State Stream) (ledger : Ledger)
    (event : Event Ambient State Stream) : Prop :=
  match event with
  | .path _ call =>
      (∀ decoded, call.routing.decode = some decoded →
        isAbsolute decoded = false) → Forwarded process event
  | .handle _ call =>
      (ledger.Holds call → process.requests event =
        if call.closes then [.handle call] else []) ∧
      (¬ ledger.Holds call → Forwarded process event)

/-- The handles with entries are these. -/
structure Registry.Matches (registry : Registry Stream) (ledger : Ledger) :
    Prop where
  files : ∀ key, (registry.files.lookup key).isSome ↔ key ∈ ledger.files
  finds : ∀ key, (registry.finds.lookup key).isSome ↔ key ∈ ledger.finds

/-- The ledger and the tables of the engine agree; the engine has no working
directory of its own. -/
structure Balanced (process : Process State Stream) (ledger : Ledger) :
    Prop where
  outside : process.inHook = false
  active : ∃ engine, process.engine = some engine ∧ engine.cwd = none ∧
    engine.registry.Matches ledger

/-! ## Calls without an absolute path -/

section Relative

variable {machine : Machine Ambient State Stream}
  {process : Process State Stream} {engine : Engine Stream}
  (active : process.engine = some engine) (rootless : engine.cwd = none)
include active rootless

theorem route_relative {decoded : Text}
    (relative : isAbsolute decoded = false) :
    process.route decoded = some (engine, .real) := by
  unfold Process.route Engine.classify
  rw [active, Option.map_some, relative, rootless]
  rfl

theorem routed_relative {call : PathCall}
    {rejected : Process State Stream → Result State Stream}
    {served : Engine Stream → Text → Process State Stream →
      Result State Stream}
    (relative : ∀ decoded, call.path.decode = some decoded →
      isAbsolute decoded = false) :
    routed machine call rejected served process =
      pass machine (.path call) process := by
  unfold routed
  split
  · rfl
  · split
    · rfl
    · next decoded read =>
      rw [route_relative active rootless (relative decoded read)]

theorem servedOrPassed_relative {call : PathCall}
    {served : Process State Stream → Result State Stream}
    (relative : ∀ decoded, call.path.decode = some decoded →
      isAbsolute decoded = false) :
    servedOrPassed machine call served process =
      pass machine (.path call) process := by
  unfold servedOrPassed
  split
  · rfl
  · split
    · rfl
    · next decoded read =>
      rw [route_relative active rootless (relative decoded read)]

theorem shimPath_relative {call : PathCall}
    (relative : ∀ decoded, call.path.decode = some decoded →
      isAbsolute decoded = false) :
    shimPath machine call process = pass machine (.path call) process := by
  cases call with
  | getDiskFreeSpaceA root sectors bytes free total =>
      simp only [shimPath, shimGetDiskFreeSpaceA]
      exact servedOrPassed_relative active rootless relative
  | getDriveTypeW root =>
      simp only [shimPath, shimGetDriveTypeW]
      exact servedOrPassed_relative active rootless relative
  | _ =>
      simp only [shimPath, shimCreateFileW, shimCreateFileA, shimCreateFile2,
        createFile, shimFindFirstFileExW, shimFindFirstFileW, findFirstFile,
        shimGetFileAttributesW, shimGetFileAttributesExW,
        shimGetFullPathNameW, shimGetFullPathNameA, getFullPathName,
        shimDeleteFileW, shimCreateDirectoryW, mutatePath]
      exact routed_relative active rootless relative

theorem shim_relative {call : Call}
    (relative : ∀ decoded, call.routing.decode = some decoded →
      isAbsolute decoded = false) :
    shim machine call process = pass machine call process := by
  cases call with
  | path asked =>
      exact shimPath_relative active rootless relative
  | moveFileExW existing new flags =>
      simp only [shim, shimMoveFileExW]
      split
      · rfl
      · split
        · rfl
        · next decoded read =>
          rw [route_relative active rootless (relative decoded read)]

end Relative

/-! ## Calls on handles -/

section Served

variable {system : System Ambient State Stream}
  {process : Process State Stream} {engine : Engine Stream}

/-- The engine has an entry for the handle of the call. -/
def Registry.serves (registry : Registry Stream) : HandleCall → Prop
  | .findNextFileW find _ =>
      (registry.finds.lookup (handleKey find)).isSome
  | .findClose find => (registry.finds.lookup (handleKey find)).isSome
  | call => ∃ handle, call.object = some handle ∧
      (registry.files.lookup (handleKey handle)).isSome

variable (outside : process.inHook = false)
  (active : process.engine = some engine)
include outside active

theorem withFile_registered (system : System Ambient State Stream)
    (call : HandleCall) {handle : Int}
    {served : Engine Stream → OpenFile Stream → Process State Stream →
      HandleResult State Stream}
    (registered :
      (engine.registry.files.lookup (handleKey handle)).isSome) :
    ∃ file, engine.registry.files.lookup (handleKey handle) = some file ∧
      withFile system call handle served process =
        served engine file process := by
  obtain ⟨file, hit⟩ := Option.isSome_iff_exists.mp registered
  refine ⟨file, hit, ?_⟩
  simp only [withFile, withEngine, outside, active, hit]
  rfl

theorem withFile_unregistered {call : HandleCall} {handle : Int}
    {served : Engine Stream → OpenFile Stream → Process State Stream →
      HandleResult State Stream}
    (missing :
      ¬ (engine.registry.files.lookup (handleKey handle)).isSome) :
    withFile system call handle served process =
      passHandle system call process := by
  have absent : engine.registry.files.lookup (handleKey handle) = none :=
    Option.not_isSome_iff_eq_none.mp missing
  simp only [withFile, withEngine, outside, active, absent]
  rfl

theorem withFind_registered (system : System Ambient State Stream)
    (call : HandleCall) {handle : Int}
    {served : Engine Stream → FindState → Process State Stream →
      HandleResult State Stream}
    (registered :
      (engine.registry.finds.lookup (handleKey handle)).isSome) :
    ∃ find, engine.registry.finds.lookup (handleKey handle) = some find ∧
      withFind system call handle served process =
        served engine find process := by
  obtain ⟨find, hit⟩ := Option.isSome_iff_exists.mp registered
  refine ⟨find, hit, ?_⟩
  simp only [withFind, withEngine, outside, active, hit]
  rfl

theorem withFind_unregistered {call : HandleCall} {handle : Int}
    {served : Engine Stream → FindState → Process State Stream →
      HandleResult State Stream}
    (missing :
      ¬ (engine.registry.finds.lookup (handleKey handle)).isSome) :
    withFind system call handle served process =
      passHandle system call process := by
  have absent : engine.registry.finds.lookup (handleKey handle) = none :=
    Option.not_isSome_iff_eq_none.mp missing
  simp only [withFind, withEngine, outside, active, absent]
  rfl

end Served

section Silent

variable {system : System Ambient State Stream}
  {process : Process State Stream} {engine : Engine Stream}

theorem calls_answerStream {Value : Type} (handle : Int)
    (file : OpenFile Stream) (failed : Int)
    (succeeded : Value → Int × List (Nat × Cell))
    (outcome : Except IoError Value × OpenStream Stream × State) :
    (answerStream handle engine file process failed succeeded
      outcome).calls = [] := by
  unfold answerStream
  simp only
  split
  · rfl
  · rfl

theorem calls_transfer {Value : Type} (handle : Int)
    (file : OpenFile Stream) (count : Dword) (base done : Nat)
    (overlapped : Option Overlapped)
    (operate : OpenStream Stream → State →
      Except IoError Value × OpenStream Stream × State)
    (succeeded : Value → Int × List (Nat × Cell)) :
    (transfer system handle engine file count base done overlapped operate
      succeeded process).calls = [] := by
  unfold transfer
  simp only
  split
  · rfl
  · split
    · rfl
    · split
      · rfl
      · exact calls_answerStream _ _ _ _ _

variable (outside : process.inHook = false)
  (active : process.engine = some engine)
include outside active

theorem calls_setPointer {call : HandleCall} {handle : Int}
    (method : Dword) (distance failed : Int)
    (succeeded : Nat → Int × List (Nat × Cell))
    (registered :
      (engine.registry.files.lookup (handleKey handle)).isSome) :
    (setPointer system call handle method distance failed succeeded
      process).calls = [] := by
  obtain ⟨file, hit, served⟩ := withFile_registered outside
    active system call registered
  unfold setPointer
  rw [served]
  split
  · rfl
  · exact calls_answerStream _ _ _ _ _

/-- A call on a registered handle asks KERNEL32 for nothing, or to close
it. -/
theorem calls_of_serves (call : HandleCall)
    (serves : engine.registry.serves call) :
    (shimHandle system call process).calls =
      if call.closes then [call] else [] := by
  have files : ∀ {call : HandleCall} {handle : Int}
      {served : Engine Stream → OpenFile Stream → Process State Stream →
        HandleResult State Stream} {asked : List HandleCall},
      (∃ found, some handle = some found ∧
        (engine.registry.files.lookup (handleKey found)).isSome) →
      (∀ file, (served engine file process).calls = asked) →
        (withFile system call handle served process).calls = asked := by
    intro call handle served asked registered silent
    obtain ⟨found, same, present⟩ := registered
    cases same
    obtain ⟨file, hit, taken⟩ := withFile_registered outside
      active system call present
    rw [taken]
    exact silent file
  cases call with
  | readFile file buffer count read overlapped =>
      refine files serves fun opened => ?_
      split
      · rfl
      · exact calls_transfer _ _ _ _ _ _ _ _
  | readFileEx file buffer count overlapped routine =>
      exact files serves fun _ => rfl
  | writeFile file buffer count written overlapped =>
      refine files serves fun opened => ?_
      split
      · rfl
      · split
        · rfl
        · exact calls_transfer _ _ _ _ _ _ _ _
  | writeFileEx file buffer count overlapped routine =>
      exact files serves fun _ => rfl
  | setFilePointerEx file distance position method =>
      obtain ⟨found, same, present⟩ := serves
      cases same
      exact calls_setPointer outside active _ _ _ _ present
  | setFilePointer file distance high method =>
      obtain ⟨found, same, present⟩ := serves
      cases same
      exact calls_setPointer outside active _ _ _ _ present
  | getFileSizeEx file size =>
      exact files serves fun _ => calls_answerStream _ _ _ _ _
  | getFileSize file high =>
      exact files serves fun _ => calls_answerStream _ _ _ _ _
  | getFileType file =>
      exact files serves fun _ => rfl
  | getFileInformationByHandle file info =>
      refine files serves fun opened => ?_
      split
      · rfl
      · rfl
  | getFileInformationByHandleEx file level info size =>
      refine files serves fun opened => ?_
      simp only
      split
      · split
        · rfl
        · rfl
      · split
        · split
          · rfl
          · rfl
        · rfl
  | flushFileBuffers file =>
      exact files serves fun _ => calls_answerStream _ _ _ _ _
  | setEndOfFile file =>
      refine files serves fun opened => ?_
      split
      · rfl
      · simp only
        split
        · rfl
        · exact calls_answerStream _ _ _ _ _
  | closeHandle object =>
      exact files serves fun _ => rfl
  | findNextFileW find data =>
      obtain ⟨entry, hit, served⟩ := withFind_registered outside
        active system (.findNextFileW find data) serves
      simp only [shimHandle, shimFindNextFileW]
      rw [served]
      split
      · rfl
      · rfl
  | findClose find =>
      obtain ⟨entry, hit, served⟩ := withFind_registered outside
        active system (.findClose find) serves
      simp only [shimHandle, shimFindClose]
      rw [served]
      rfl
  | getCurrentDirectoryW length buffer =>
      obtain ⟨found, same, _⟩ := serves
      cases same

/-- A call on any other handle is passed on. -/
theorem forwarded_of_not_serves (rootless : engine.cwd = none)
    (call : HandleCall) (missing : ¬ engine.registry.serves call) :
    shimHandle system call process = passHandle system call process := by
  have files : ∀ {call : HandleCall} {handle : Int}
      {served : Engine Stream → OpenFile Stream → Process State Stream →
        HandleResult State Stream},
      (¬ ∃ found, some handle = some found ∧
        (engine.registry.files.lookup (handleKey found)).isSome) →
        withFile system call handle served process =
          passHandle system call process := by
    intro call handle served absent
    exact withFile_unregistered outside active fun present =>
      absent ⟨handle, rfl, present⟩
  cases call with
  | findNextFileW find data =>
      simp only [shimHandle, shimFindNextFileW]
      exact withFind_unregistered outside active missing
  | findClose find =>
      simp only [shimHandle, shimFindClose]
      exact withFind_unregistered outside active missing
  | getCurrentDirectoryW length buffer =>
      simp only [shimHandle, shimGetCurrentDirectoryW, withEngine, outside,
        active, rootless]
      rfl
  | _ =>
      simp only [shimHandle, shimReadFile, shimReadFileEx, shimWriteFile,
        shimWriteFileEx, shimSetFilePointerEx, shimSetFilePointer, setPointer,
        shimGetFileSizeEx, shimGetFileSize, shimGetFileType,
        shimGetFileInformationByHandle, shimGetFileInformationByHandleEx,
        shimFlushFileBuffers, shimSetEndOfFile, shimCloseHandle]
      exact files missing

end Silent

/-! ## The ledger through a run -/

namespace Ledger

variable {machine : Machine Ambient State Stream}

theorem issued_of_mem (wanted : KernelCall) {requests : List Request}
    (asked : Request.path wanted ∈ requests)
    (valid : isHandle (machine.os wanted).ret = true) :
    issued wanted machine requests =
      { handleKey (machine.os wanted).ret } := by
  ext key
  constructor
  · intro out
    exact out.2.2
  · intro same
    exact ⟨asked, valid, same⟩

theorem issued_of_notMem (wanted : KernelCall) {requests : List Request}
    (idle : Request.path wanted ∉ requests) :
    issued wanted machine requests = ∅ := by
  ext key
  exact iff_of_false (fun out => idle out.1) id

theorem issued_of_invalid {wanted : KernelCall} {requests : List Request}
    (invalid : isHandle (machine.os wanted).ret = false) :
    issued wanted machine requests = ∅ := by
  ext key
  refine iff_of_false (fun out => ?_) id
  obtain ⟨_, valid, _⟩ := out
  rw [invalid] at valid
  cases valid

end Ledger

theorem isSome_lookup_insert {Value : Type} (store : Store Nat Value)
    (key other : Nat) (value : Value) :
    ((store.insert other value).lookup key).isSome ↔
      (store.lookup key).isSome ∨ key = other := by
  by_cases same : key = other
  · subst same
    rw [AList.lookup_insert]
    exact iff_of_true rfl (.inr rfl)
  · rw [AList.lookup_insert_ne same]
    exact ⟨.inl, fun either => either.resolve_right same⟩

theorem isSome_lookup_erase {Value : Type} (store : Store Nat Value)
    (key other : Nat) :
    ((store.erase other).lookup key).isSome ↔
      (store.lookup key).isSome ∧ key ≠ other := by
  by_cases same : key = other
  · subst same
    rw [AList.lookup_erase]
    exact iff_of_false Bool.false_ne_true fun both => both.2 rfl
  · rw [AList.lookup_erase_ne same]
    exact ⟨fun found => ⟨found, same⟩, And.left⟩

section Matches

variable {registry next : Registry Stream} {ledger : Ledger}
  (agree : registry.Matches ledger)
include agree

theorem matches_pathEffect {machine : Machine Ambient State Stream}
    {calls : List KernelCall} (call : Call)
    (effect : PathEffect machine registry calls next) :
    next.Matches (ledger.after (calls.map .path) (.path machine call)) := by
  have idle : ∀ {wanted asked : KernelCall}, wanted ≠ asked →
      Request.path wanted ∉ [asked].map Request.path := by
    intro wanted asked different member
    rw [List.map_singleton, List.mem_singleton] at member
    exact different (Request.path.inj member)
  cases effect with
  | served =>
      refine ⟨fun key => ?_, fun key => ?_⟩
      · rw [agree.files, Ledger.after,
          Ledger.issued_of_notMem _ (by simp), Set.union_empty]
      · rw [agree.finds, Ledger.after,
          Ledger.issued_of_notMem .carrierFind (by simp),
          Set.union_empty]
  | passed forwarded =>
      refine ⟨fun key => ?_, fun key => ?_⟩
      · rw [agree.files, Ledger.after,
          Ledger.issued_of_notMem _ (idle KernelCall.noConfusion),
          Set.union_empty]
      · rw [agree.finds, Ledger.after,
          Ledger.issued_of_notMem .carrierFind
            (idle KernelCall.noConfusion), Set.union_empty]
  | refused carrier invalid =>
      have nothing : ∀ wanted, Ledger.issued wanted machine
          ([carrier].map .path) = ∅ := by
        intro wanted
        by_cases same : wanted = carrier
        · exact Ledger.issued_of_invalid (same ▸ invalid)
        · exact Ledger.issued_of_notMem _ (idle same)
      refine ⟨fun key => ?_, fun key => ?_⟩
      · rw [agree.files, Ledger.after, nothing, Set.union_empty]
      · rw [agree.finds, Ledger.after, nothing .carrierFind,
          Set.union_empty]
  | opened file valid =>
      refine ⟨fun key => ?_, fun key => ?_⟩
      · rw [Ledger.after, Ledger.issued_of_mem _ (by simp) valid,
          Set.mem_union, Set.mem_singleton_iff, ← agree.files]
        exact isSome_lookup_insert registry.files key _ file
      · rw [Ledger.after, Ledger.issued_of_notMem .carrierFind
          (idle KernelCall.noConfusion), Set.union_empty, ← agree.finds]
        rfl
  | searched find valid =>
      refine ⟨fun key => ?_, fun key => ?_⟩
      · rw [Ledger.after, Ledger.issued_of_notMem _
          (idle KernelCall.noConfusion), Set.union_empty, ← agree.files]
        rfl
      · rw [Ledger.after,
          Ledger.issued_of_mem .carrierFind (by simp) valid,
          Set.mem_union, Set.mem_singleton_iff, ← agree.finds]
        exact isSome_lookup_insert registry.finds key _ find

/-- Moving a cursor enters nothing new. -/
theorem matches_putFile {key : Nat} {file : OpenFile Stream}
    (present : (registry.files.lookup key).isSome) :
    (registry.putFile key file).Matches ledger := by
  refine ⟨fun other => ?_, agree.finds⟩
  rw [Registry.putFile, isSome_lookup_insert, agree.files]
  refine or_iff_left_of_imp fun same => ?_
  rw [same, ← agree.files]
  exact present

/-- Nor does moving on in a search. -/
theorem matches_putFind {key : Nat} {find : FindState}
    (present : (registry.finds.lookup key).isSome) :
    (registry.putFind key find).Matches ledger := by
  refine ⟨agree.files, fun other => ?_⟩
  rw [Registry.putFind, isSome_lookup_insert, agree.finds]
  refine or_iff_left_of_imp fun same => ?_
  rw [same, ← agree.finds]
  exact present

/-- What `CloseHandle` leaves, with an entry or without. -/
theorem matches_closed (key : Nat) :
    (registry.removeFile key).Matches
        { ledger with files := ledger.files \ { key } } ∧
      (key ∉ ledger.files → registry.Matches
        { ledger with files := ledger.files \ { key } }) := by
  constructor
  · refine ⟨fun other => ?_, agree.finds⟩
    rw [Registry.removeFile, isSome_lookup_erase, agree.files]
    rfl
  · intro out
    refine ⟨fun other => (agree.files other).trans ⟨fun member => ?_, And.left⟩,
      agree.finds⟩
    exact ⟨member, fun same => out (same ▸ member)⟩

/-- What `FindClose` leaves, with an entry or without. -/
theorem matches_ended (key : Nat) :
    (registry.removeFind key).Matches
        { ledger with finds := ledger.finds \ { key } } ∧
      (key ∉ ledger.finds → registry.Matches
        { ledger with finds := ledger.finds \ { key } }) := by
  constructor
  · refine ⟨agree.files, fun other => ?_⟩
    rw [Registry.removeFind, isSome_lookup_erase, agree.finds]
    rfl
  · intro out
    refine ⟨agree.files,
      fun other => (agree.finds other).trans ⟨fun member => ?_, And.left⟩⟩
    exact ⟨member, fun same => out (same ▸ member)⟩

end Matches

section Runs

/-- The process and the ledger after an event. -/
def keepLedger (state : Process State Stream × Ledger)
    (event : Event Ambient State Stream) : Process State Stream × Ledger :=
  ((state.1.step event).2, state.2.after (state.1.requests event) event)

variable {process : Process State Stream} {ledger : Ledger}

theorem holds_iff_serves {registry : Registry Stream}
    (agree : registry.Matches ledger) (call : HandleCall) :
    ledger.Holds call ↔ registry.serves call := by
  have files : ∀ {object : Option Int},
      (∃ handle, object = some handle ∧ handleKey handle ∈ ledger.files) ↔
        ∃ handle, object = some handle ∧
          (registry.files.lookup (handleKey handle)).isSome := by
    intro object
    simp only [agree.files]
  cases call with
  | findNextFileW find data =>
      exact (agree.finds _).symm
  | findClose find =>
      exact (agree.finds _).symm
  | _ => exact files

/-- A call that does not close leaves the ledger as it is. -/
theorem after_of_not_closes {system : System Ambient State Stream}
    {call : HandleCall} (lives : call.closes = false)
    (requests : List Request) :
    ledger.after requests (.handle system call) = ledger := by
  cases call with
  | closeHandle object =>
      cases lives
  | findClose find =>
      cases lives
  | _ => rfl

theorem matches_handleEffect {call : HandleCall}
    {registry next : Registry Stream} (agree : registry.Matches ledger)
    (lives : call.closes = false)
    (effect : HandleEffect registry call next) : next.Matches ledger := by
  cases effect with
  | unchanged =>
      exact agree
  | moved stream about hit =>
      exact matches_putFile agree (by rw [hit]; rfl)
  | found hit =>
      exact matches_putFind agree (by rw [hit]; rfl)
  | closed hit =>
      cases lives
  | ended hit =>
      cases lives

/-- Closing a handle takes it off the ledger and out of the table. -/
theorem balanced_closeHandle {system : System Ambient State Stream}
    {engine : Engine Stream} (outside : process.inHook = false)
    (active : process.engine = some engine) (rootless : engine.cwd = none)
    (agree : engine.registry.Matches ledger) (object : Int) :
    Balanced (shimCloseHandle system object process).process
      { ledger with files := ledger.files \ { handleKey object } } := by
  have both := matches_closed agree (handleKey object)
  by_cases registered :
      (engine.registry.files.lookup (handleKey object)).isSome
  · obtain ⟨file, hit, taken⟩ := withFile_registered outside
      active system (.closeHandle object) registered
    unfold shimCloseHandle
    rw [taken]
    exact ⟨outside, _, rfl, rootless, both.1⟩
  · unfold shimCloseHandle
    rw [withFile_unregistered outside active registered]
    exact ⟨outside, engine, active, rootless,
      both.2 fun member => registered ((agree.files _).mpr member)⟩

theorem balanced_findClose {system : System Ambient State Stream}
    {engine : Engine Stream} (outside : process.inHook = false)
    (active : process.engine = some engine) (rootless : engine.cwd = none)
    (agree : engine.registry.Matches ledger) (find : Int) :
    Balanced (shimFindClose system find process).process
      { ledger with finds := ledger.finds \ { handleKey find } } := by
  have both := matches_ended agree (handleKey find)
  by_cases registered :
      (engine.registry.finds.lookup (handleKey find)).isSome
  · obtain ⟨entry, hit, taken⟩ := withFind_registered outside
      active system (.findClose find) registered
    unfold shimFindClose
    rw [taken]
    exact ⟨outside, _, rfl, rootless, both.1⟩
  · unfold shimFindClose
    rw [withFind_unregistered outside active registered]
    exact ⟨outside, engine, active, rootless,
      both.2 fun member => registered ((agree.finds _).mpr member)⟩

/-- Every event keeps the ledger and the tables in agreement. -/
theorem balanced_step (balanced : Balanced process ledger)
    (event : Event Ambient State Stream) :
    Balanced (keepLedger (process, ledger) event).1
      (keepLedger (process, ledger) event).2 := by
  obtain ⟨outside, engine, active, rootless, agree⟩ := balanced
  cases event with
  | path machine call =>
      obtain ⟨side, registry, effect, after⟩ : FollowsCall machine engine
          process (shim machine call process) := followsCall_shim active call
      exact ⟨side.trans outside, _, after, rootless,
        matches_pathEffect agree call effect⟩
  | handle system call =>
      cases lives : call.closes with
      | false =>
          obtain ⟨side, registry, effect, after⟩ : Follows
              (HandleEffect engine.registry call) engine process
              (shimHandle system call process).process :=
            follows_shimHandle active call
          refine ⟨side.trans outside, _, after, rootless, ?_⟩
          simp only [keepLedger, after_of_not_closes lives]
          exact matches_handleEffect agree lives effect
      | true =>
          cases call with
          | closeHandle object =>
              exact balanced_closeHandle outside active rootless agree object
          | findClose find =>
              exact balanced_findClose outside active rootless agree find
          | _ => cases lives

/-- Between agreeing tables and ledger, the ledger decides who serves. -/
theorem partitioned_of_balanced (balanced : Balanced process ledger)
    (event : Event Ambient State Stream) :
    Partitioned process ledger event := by
  obtain ⟨outside, engine, active, rootless, agree⟩ := balanced
  cases event with
  | path machine call =>
      exact fun relative => shim_relative active rootless relative
  | handle system call =>
      refine ⟨fun holds => ?_, fun out => ?_⟩
      · have serves := (holds_iff_serves agree call).mp holds
        simp only [Process.requests,
          calls_of_serves outside active call serves]
        split
        · rfl
        · rfl
      · exact forwarded_of_not_serves outside active rootless call
          fun serves => out ((holds_iff_serves agree call).mpr serves)

end Runs

end Hookfs.Windows
