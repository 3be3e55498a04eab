import Hookfs.Memory.Provider
import Hookfs.Windows.Shims

/-!
# Virtual paths and the disk on Windows

A path that the engine routes as virtual or rejected should never reach an
original function.  The shims that share `routed` keep to that; the two
volume queries pass a rejected path, and `MoveFileExW` looks at its
destination only when its source is virtual.
-/

namespace Hookfs.Windows

open Hookfs.Lib Hookfs.Vfs Hookfs.Posix
open Hookfs.Router (Route Namespace)

variable {Ambient State Stream : Type}

/-! ## Quiet results -/

namespace Result

/-- No original function was called. -/
def Quiet (result : Result State Stream) : Prop :=
  ∀ call, KernelCall.original call ∉ result.calls

theorem quiet_of_calls_eq_nil {result : Result State Stream}
    (silent : result.calls = []) : result.Quiet := by
  intro call member
  rw [silent] at member
  cases member

theorem quiet_of_calls_eq {result : Result State Stream}
    {asked : KernelCall} (single : result.calls = [asked])
    (other : ∀ call, asked ≠ .original call) : result.Quiet := by
  intro call member
  rw [single, List.mem_singleton] at member
  exact other call member.symm

@[simp]
theorem quiet_answer (ret : Int) (lastError : Nat)
    (process : Process State Stream) :
    (answer ret lastError process).Quiet :=
  quiet_of_calls_eq_nil rfl

theorem not_quiet_of_calls_eq {result : Result State Stream} {call : Call}
    (forwards : result.calls = [.original call]) : ¬ result.Quiet := by
  intro quiet
  refine quiet call ?_
  rw [forwards]
  exact List.mem_cons_self

theorem not_quiet_pass (machine : Machine Ambient State Stream) (call : Call)
    (process : Process State Stream) : ¬ (pass machine call process).Quiet :=
  not_quiet_of_calls_eq rfl

end Result

/-! ## Routes -/

/-- The route of a path argument, if it can be decoded. -/
def routeOf (engine : Engine Stream) (path : PathArg) : Option Route :=
  path.decode.map engine.classify

/-- The path is routed as virtual or rejected. -/
def Reserved (engine : Engine Stream) (path : PathArg) : Prop :=
  ∃ route, routeOf engine path = some route ∧ route ≠ .real

/-- No original function is asked when one of the paths is reserved. -/
def FailsClosed (machine : Machine Ambient State Stream)
    (engine : Engine Stream) (call : Call)
    (process : Process State Stream) : Prop :=
  (∃ path ∈ call.paths, Reserved engine path) →
    (shim machine call process).Quiet

/-- `GetDiskFreeSpaceA` and `GetDriveTypeW`. -/
def PathCall.asksVolume : PathCall → Bool
  | .getDiskFreeSpaceA _ _ _ _ _ => true
  | .getDriveTypeW _ => true
  | _ => false

/-- The call is no volume query of a rejected path, and no move onto a
reserved path from one that is not. -/
def Covered (engine : Engine Stream) : Call → Prop
  | .path asked =>
      asked.asksVolume = true → routeOf engine asked.path ≠ some .rejected
  | .moveFileExW existing new _ =>
      Reserved engine (.wide new) → Reserved engine (.wide existing)

section Served

variable (machine : Machine Ambient State Stream)

theorem quiet_openVirtual (access disposition flags : Dword)
    (engine : Engine Stream) (path : Text) (process : Process State Stream) :
    (openVirtual machine access disposition flags engine path
      process).Quiet := by
  unfold openVirtual
  simp only
  split
  · exact Result.quiet_answer _ _ _
  · split
    · exact Result.quiet_answer _ _ _
    · exact Result.quiet_answer _ _ _
    · split
      · exact Result.quiet_of_calls_eq rfl fun _ => KernelCall.noConfusion
      · exact Result.quiet_of_calls_eq rfl fun _ => KernelCall.noConfusion

theorem quiet_moveVirtual (new : WStr) (engine : Engine Stream)
    (path : Text) (process : Process State Stream) :
    (moveVirtual machine new engine path process).Quiet := by
  unfold moveVirtual
  split
  · exact Result.quiet_answer _ _ _
  · split
    · exact Result.quiet_answer _ _ _
    · split
      · exact Result.quiet_of_calls_eq_nil rfl
      · exact Result.quiet_answer _ _ _
      · exact Result.quiet_answer _ _ _

variable {machine} {process : Process State Stream} {engine : Engine Stream}
  (active : process.engine = some engine)
  (outside : process.inHook = false)
include active outside

theorem quiet_routed {call : PathCall}
    {rejected : Process State Stream → Result State Stream}
    {served : Engine Stream → Text → Process State Stream →
      Result State Stream}
    (reserved : Reserved engine call.path)
    (denied : (rejected process).Quiet)
    (quiet : ∀ path, (served engine path process).Quiet) :
    (routed machine call rejected served process).Quiet := by
  obtain ⟨route, routes, notReal⟩ := reserved
  obtain ⟨decoded, read, classified⟩ := Option.map_eq_some_iff.mp routes
  simp only [routed, outside, read, Process.route, active, Option.map_some,
    classified]
  cases route with
  | virtual path =>
      exact quiet path
  | rejected =>
      exact denied
  | real =>
      exact absurd rfl notReal

/-- A volume query is quiet on a virtual path only. -/
theorem quiet_servedOrPassed_iff {call : PathCall}
    {served : Process State Stream → Result State Stream}
    (reserved : Reserved engine call.path) (quiet : (served process).Quiet) :
    (servedOrPassed machine call served process).Quiet ↔
      routeOf engine call.path ≠ some .rejected := by
  obtain ⟨route, routes, notReal⟩ := reserved
  obtain ⟨decoded, read, classified⟩ := Option.map_eq_some_iff.mp routes
  simp only [servedOrPassed, outside, read, Process.route, active,
    Option.map_some, classified, routes]
  cases route with
  | virtual path =>
      exact iff_of_true quiet (by simp)
  | rejected =>
      exact iff_of_false (Result.not_quiet_pass machine _ _) (by simp)
  | real =>
      exact absurd rfl notReal

/-- `MoveFileExW` decides by its source alone. -/
theorem quiet_shimMoveFileExW_iff {existing new : WStr} {flags : Dword} :
    (shimMoveFileExW machine existing new flags process).Quiet ↔
      Reserved engine (.wide existing) := by
  cases read : decodeWide existing with
  | none =>
      have unread : routeOf engine (.wide existing) = none := by
        simp only [routeOf, PathArg.decode, read, Option.map_none]
      simp only [shimMoveFileExW, outside, read, Reserved, unread]
      exact iff_of_false (Result.not_quiet_pass machine _ _) (by simp)
  | some decoded =>
      have routes : routeOf engine (.wide existing) =
          some (engine.classify decoded) := by
        simp only [routeOf, PathArg.decode, read, Option.map_some]
      simp only [shimMoveFileExW, outside, read, Process.route, active,
        Option.map_some, Reserved, routes, Option.some.injEq,
        exists_eq_left']
      cases engine.classify decoded with
      | virtual path =>
          exact iff_of_true
            (quiet_moveVirtual machine new engine path process)
            Route.noConfusion
      | rejected =>
          exact iff_of_true (Result.quiet_answer _ _ _) Route.noConfusion
      | real =>
          exact iff_of_false (Result.not_quiet_pass machine _ _)
            fun different => different rfl

theorem quiet_findFirstFile {call : PathCall} {data : Nat}
    (reserved : Reserved engine call.path) :
    (findFirstFile machine call data process).Quiet := by
  refine quiet_routed active outside reserved (Result.quiet_answer _ _ _)
    fun path => ?_
  split
  · exact Result.quiet_answer _ _ _
  · -- the search carrier is asked for, whether or not it can be had
    simp only
    cases isHandle (machine.os .carrierFind).ret with
    | true =>
        exact Result.quiet_of_calls_eq rfl fun _ => KernelCall.noConfusion
    | false =>
        exact Result.quiet_of_calls_eq rfl fun _ => KernelCall.noConfusion

theorem quiet_mutatePath {call : PathCall} {declined : Nat}
    {operate : Text → State → Option (Except IoError Unit) × State}
    (reserved : Reserved engine call.path) :
    (mutatePath machine call declined operate process).Quiet := by
  refine quiet_routed active outside reserved (Result.quiet_answer _ _ _)
    fun path => ?_
  split
  · exact Result.quiet_answer _ _ _
  · exact Result.quiet_of_calls_eq_nil rfl

/-- Every one-path shim but the volume queries. -/
theorem quiet_shimPath {call : PathCall} (plain : call.asksVolume = false)
    (reserved : Reserved engine call.path) :
    (shimPath machine call process).Quiet := by
  cases call with
  | createFileW name access share security disposition flags template =>
      exact quiet_routed active outside reserved
        (Result.quiet_answer _ _ _)
        fun path => quiet_openVirtual machine _ _ _ _ path process
  | createFileA name access share security disposition flags template =>
      exact quiet_routed active outside reserved
        (Result.quiet_answer _ _ _)
        fun path => quiet_openVirtual machine _ _ _ _ path process
  | createFile2 name access share disposition params =>
      exact quiet_routed active outside reserved
        (Result.quiet_answer _ _ _)
        fun path => quiet_openVirtual machine _ _ _ _ path process
  | findFirstFileExW name level data searchOp filter flags =>
      exact quiet_findFirstFile active outside reserved
  | findFirstFileW name data =>
      exact quiet_findFirstFile active outside reserved
  | getFileAttributesW name =>
      refine quiet_routed active outside reserved
        (Result.quiet_answer _ _ _) fun path => ?_
      split
      · exact Result.quiet_answer _ _ _
      · exact Result.quiet_answer _ _ _
  | getFileAttributesExW name level info =>
      refine quiet_routed active outside reserved
        (Result.quiet_answer _ _ _) fun path => ?_
      split
      · split
        · exact Result.quiet_answer _ _ _
        · exact Result.quiet_of_calls_eq_nil rfl
      · exact Result.quiet_answer _ _ _
  | getFullPathNameW name length buffer filePart =>
      exact quiet_routed active outside reserved
        (Result.quiet_answer _ _ _)
        fun path => Result.quiet_of_calls_eq_nil rfl
  | getFullPathNameA name length buffer filePart =>
      exact quiet_routed active outside reserved
        (Result.quiet_answer _ _ _)
        fun path => Result.quiet_of_calls_eq_nil rfl
  | deleteFileW name =>
      exact quiet_mutatePath active outside reserved
  | createDirectoryW name security =>
      exact quiet_mutatePath active outside reserved
  | getDiskFreeSpaceA root sectors bytes free total =>
      cases plain
  | getDriveTypeW root =>
      cases plain

/-- The volume queries, which leave a rejected path to the original. -/
theorem quiet_shimPath_iff {call : PathCall}
    (volume : call.asksVolume = true)
    (reserved : Reserved engine call.path) :
    (shimPath machine call process).Quiet ↔
      routeOf engine call.path ≠ some .rejected := by
  cases call with
  | getDiskFreeSpaceA root sectors bytes free total =>
      exact quiet_servedOrPassed_iff active outside reserved
        (Result.quiet_of_calls_eq_nil rfl)
  | getDriveTypeW root =>
      exact quiet_servedOrPassed_iff active outside reserved
        (Result.quiet_of_calls_eq_nil rfl)
  | _ => cases volume

/-- A reserved path stays away from the original functions exactly when the
call is covered. -/
theorem windows_path_shims_fail_closed_iff {call : Call} :
    FailsClosed machine engine call process ↔ Covered engine call := by
  cases call with
  | path asked =>
      simp only [FailsClosed, Call.paths, List.mem_singleton, exists_eq_left,
        shim, Covered]
      constructor
      · intro closed volume rejected
        have reserved : Reserved engine asked.path :=
          ⟨.rejected, rejected, Route.noConfusion⟩
        exact (quiet_shimPath_iff active outside volume reserved).mp
          (closed reserved) rejected
      · intro covered reserved
        cases volume : asked.asksVolume with
        | false => exact quiet_shimPath active outside volume reserved
        | true =>
            exact (quiet_shimPath_iff active outside volume reserved).mpr
              (covered volume)
  | moveFileExW existing new flags =>
      simp only [FailsClosed, Call.paths, List.mem_cons, List.not_mem_nil,
        or_false, exists_eq_or_imp, exists_eq_left, shim,
        quiet_shimMoveFileExW_iff active outside, Covered]
      constructor
      · intro closed reserved
        exact closed (.inr reserved)
      · intro covered reserved
        exact reserved.elim id covered

end Served

/-- A machine over the memory file system whose KERNEL32 answers 7. -/
def idleMachine :
    Machine Memory.Ambient Memory.MemoryFs Memory.MemoryFs.Stream where
  provider := Memory.MemoryFs.provider
  ambient := Memory.Ambient.still
  os _ := ⟨7, none, .nothing⟩
  cases := .asciiOnly

/-- A writable engine at `C:\v`. -/
def idleEngine : Engine Memory.MemoryFs.Stream :=
  .new (namespaceFromRoot .asciiOnly "C:\\v".toList) true

/-- An empty tree behind `idleEngine`. -/
def idleProcess : Process Memory.MemoryFs Memory.MemoryFs.Stream where
  vfs := .withCapacity 64
  engine := some idleEngine
  inHook := false

/-- `DeleteFileW("C:\v\a")`. -/
theorem windows_path_shims_fail_closed_iff_delete :
    (shim idleMachine (.path (.deleteFileW
      (some [67, 58, 92, 118, 92, 97]))) idleProcess).Quiet := by
  have closed : FailsClosed idleMachine idleEngine (.path (.deleteFileW
      (some [67, 58, 92, 118, 92, 97]))) idleProcess :=
    (windows_path_shims_fail_closed_iff rfl rfl).mpr fun volume => by
      cases volume
  have routes : routeOf idleEngine (.wide (some [67, 58, 92, 118, 92, 97])) =
      some (.virtual "C:\\v\\a".toList) := by decide
  exact closed ⟨_, List.mem_cons_self, _, routes, Route.noConfusion⟩

/-- `GetDriveTypeW("C:\v\..")` and `MoveFileExW("C:\x", "C:\v\a", 0)` reach
the original. -/
theorem windows_path_shims_forward_reserved :
    (shim idleMachine (.path (.getDriveTypeW
        (some [67, 58, 92, 118, 92, 46, 46]))) idleProcess).calls =
      [.original (.path (.getDriveTypeW
        (some [67, 58, 92, 118, 92, 46, 46])))] ∧
    ¬ FailsClosed idleMachine idleEngine (.path (.getDriveTypeW
        (some [67, 58, 92, 118, 92, 46, 46]))) idleProcess ∧
    (shim idleMachine (.moveFileExW (some [67, 58, 92, 120])
        (some [67, 58, 92, 118, 92, 97]) 0) idleProcess).calls =
      [.original (.moveFileExW (some [67, 58, 92, 120])
        (some [67, 58, 92, 118, 92, 97]) 0)] ∧
    ¬ FailsClosed idleMachine idleEngine (.moveFileExW
        (some [67, 58, 92, 120]) (some [67, 58, 92, 118, 92, 97]) 0)
      idleProcess := by
  have drive : (shim idleMachine (.path (.getDriveTypeW
        (some [67, 58, 92, 118, 92, 46, 46]))) idleProcess).calls =
      [.original (.path (.getDriveTypeW
        (some [67, 58, 92, 118, 92, 46, 46])))] := by decide
  have move : (shim idleMachine (.moveFileExW (some [67, 58, 92, 120])
        (some [67, 58, 92, 118, 92, 97]) 0) idleProcess).calls =
      [.original (.moveFileExW (some [67, 58, 92, 120])
        (some [67, 58, 92, 118, 92, 97]) 0)] := by decide
  have rejected : routeOf idleEngine
      (.wide (some [67, 58, 92, 118, 92, 46, 46])) = some .rejected := by
    decide
  have onto : routeOf idleEngine (.wide (some [67, 58, 92, 118, 92, 97])) =
      some (.virtual "C:\\v\\a".toList) := by decide
  refine ⟨drive, ?_, move, ?_⟩
  · intro closed
    have quiet := closed
      ⟨_, List.mem_cons_self, _, rejected, Route.noConfusion⟩
    exact Result.not_quiet_of_calls_eq drive quiet
  · intro closed
    have quiet := closed ⟨_, List.mem_cons_of_mem _ List.mem_cons_self, _,
      onto, Route.noConfusion⟩
    exact Result.not_quiet_of_calls_eq move quiet

end Hookfs.Windows
