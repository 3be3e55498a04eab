import Hookfs.Unix.Chdir

/-!
# The `*at` calls

Six shims take a directory descriptor and route by the path alone, as the
calls without one do.  A relative path is handed on with its descriptor as
long as the virtual directory does not capture it.
-/

namespace Hookfs.Unix

open Hookfs.Lib Hookfs.Vfs Hookfs.Posix Hookfs.Router

variable {Ambient State Stream : Type}

/-- The directory descriptor of the calls that take one. -/
def PathCall.dirfd : PathCall → Option Int
  | .openat dirfd _ _ _ => some dirfd
  | .stat (.fstatat dirfd _) _ _ => some dirfd
  | .stat (.statx dirfd _ _) _ _ => some dirfd
  | .faccessat dirfd _ _ _ => some dirfd
  | .fchmodat dirfd _ _ _ => some dirfd
  | .utimensat dirfd _ _ _ => some dirfd
  | _ => none

/-- The path is relative, as far as it can be decoded. -/
def RelativePath (path : CStr) : Prop :=
  ∀ decoded, decodeCstr path = some decoded → isAbsolute decoded = false

/-- The process with another virtual directory. -/
def Process.withCwd (cwd : Option Text) (engine : Engine Stream)
    (process : Process State Stream) : Process State Stream :=
  process.withEngine { engine with cwd := cwd }

/-- With either virtual directory, the call is the original one, with the
caller's arguments, and its answer. -/
structure HonoursDirfd (machine : Machine Ambient State Stream)
    (call : PathCall) (process : Process State Stream)
    (engine : Engine Stream) (left right : Option Text) : Prop where
  passesLeft : shimPath machine call (process.withCwd left engine) =
    pass machine (.path call) (process.withCwd left engine)
  passesRight : shimPath machine call (process.withCwd right engine) =
    pass machine (.path call) (process.withCwd right engine)
  reply : (shimPath machine call (process.withCwd left engine)).reply =
    (shimPath machine call (process.withCwd right engine)).reply
  calls : (shimPath machine call (process.withCwd left engine)).calls =
    (shimPath machine call (process.withCwd right engine)).calls

/-- The virtual directory takes the path into the namespace. -/
def Captured (process : Process State Stream) (engine : Engine Stream)
    (path : CStr) (cwd : Option Text) : Prop :=
  process.inHook = false ∧ ∃ decoded directory,
    decodeCstr path = some decoded ∧ cwd = some directory ∧
      engine.nspace.isVirtual (join directory decoded) = true

section Calls

variable {machine : Machine Ambient State Stream} {call : PathCall}
  {dirfd : Int} {process : Process State Stream} {engine : Engine Stream}

/-- The `*at` shims do nothing but route. -/
theorem shimPath_at (machine : Machine Ambient State Stream)
    (named : call.dirfd = some dirfd) :
    ∃ rejected served,
      shimPath machine call = routed machine call rejected served := by
  cases call with
  | openat _ _ _ _ =>
      exact ⟨_, _, rfl⟩
  | stat sym _ _ =>
      cases sym with
      | fstatat _ _ =>
          exact ⟨_, _, rfl⟩
      | statx _ _ _ =>
          exact ⟨_, _, rfl⟩
      | stat | lstat | xstat _ | lxstat _ | xstat64 _ | lxstat64 _ =>
          cases named
  | faccessat _ _ _ _ =>
      exact ⟨_, _, rfl⟩
  | fchmodat _ _ _ _ =>
      exact ⟨_, _, rfl⟩
  | utimensat _ _ _ _ =>
      exact ⟨_, _, rfl⟩
  | _ =>
      cases named

/-- An `*at` call is handed on unless its path arrives as virtual or
rejected. -/
theorem shimPath_at_pass_iff (named : call.dirfd = some dirfd)
    (active : process.engine = some engine) :
    shimPath machine call process = pass machine (.path call) process ↔
      ∀ route, Arrives call.path process engine route → route = .real := by
  constructor
  · intro passed route arrives
    have closed := failsClosed_shimPath machine call
    have asked : LibcCall.original (.path call) ∈
        (shimPath machine call process).calls := by
      rw [passed]
      exact List.mem_cons_self
    cases route with
    | real =>
        rfl
    | rejected =>
        exact absurd asked ((closed.rejected arrives).quiet _)
    | virtual target =>
        exact absurd asked (closed.virtual arrives _)
  · intro real
    obtain ⟨rejected, served, shape⟩ := shimPath_at machine named
    rw [shape]
    cases inside : process.inHook with
    | true =>
        simp only [routed, inside, if_true]
    | false =>
        cases read : decodeCstr call.path with
        | none =>
            simp only [routed, inside, read]
            rfl
        | some decoded =>
            have arrives : Arrives call.path process engine
                (engine.classify decoded) :=
              ⟨inside, active, by rw [read, Option.map_some]⟩
            have route := real _ arrives
            rw [route] at arrives
            exact routed_real arrives

/-- A relative path that does not arrive as a real one is one that the
virtual directory captures. -/
theorem arrives_real_iff_not_captured (relative : RelativePath call.path)
    (cwd : Option Text) :
    (∀ route, Arrives call.path (process.withCwd cwd engine)
        { engine with cwd := cwd } route → route = .real) ↔
      ¬ Captured process engine call.path cwd := by
  constructor
  · rintro real ⟨outside, decoded, directory, read, rfl, member⟩
    have resolved : { engine with cwd := some directory }.resolve decoded =
        some (join directory decoded) :=
      resolve_relative (relative decoded read)
    have route := real _ ⟨outside, rfl, by rw [read, Option.map_some]⟩
    have missed := classify_eq_real_iff.mp route _ resolved
    rw [member] at missed
    cases missed
  · intro free route arrives
    obtain ⟨decoded, read, found⟩ :=
      Option.map_eq_some_iff.mp arrives.classified
    rw [← found, classify_eq_real_iff]
    intro absolute resolved
    rw [resolve_relative (relative decoded read)] at resolved
    obtain ⟨directory, set, rfl⟩ := Option.map_eq_some_iff.mp resolved
    rw [Bool.eq_false_iff]
    exact fun member => free
      ⟨arrives.outside, decoded, directory, read, set, member⟩

/-- For every `*at` call with a relative path, whatever its descriptor, and
every two virtual directories. -/
theorem at_calls_honour_dirfd_iff (named : call.dirfd = some dirfd)
    (relative : RelativePath call.path) (left right : Option Text) :
    HonoursDirfd machine call process engine left right ↔
      ¬ Captured process engine call.path left ∧
        ¬ Captured process engine call.path right := by
  have passes : ∀ cwd, shimPath machine call (process.withCwd cwd engine) =
      pass machine (.path call) (process.withCwd cwd engine) ↔
        ¬ Captured process engine call.path cwd := by
    intro cwd
    rw [← arrives_real_iff_not_captured relative]
    exact shimPath_at_pass_iff named rfl
  constructor
  · intro honours
    exact ⟨(passes left).mp honours.passesLeft,
      (passes right).mp honours.passesRight⟩
  · rintro ⟨leftFree, rightFree⟩
    have first := (passes left).mpr leftFree
    have second := (passes right).mpr rightFree
    refine ⟨first, second, ?_, ?_⟩
    · rw [first, second]
      rfl
    · rw [first, second]
      rfl

end Calls

/-- `fstatat(7, "a", …)` without a virtual directory. -/
theorem at_calls_honour_dirfd_iff_unset :
    HonoursDirfd idleMachine (.stat (.fstatat 7 0) (some [97]) 1)
      idleProcess insideEngine none none := by
  have relative : RelativePath
      (PathCall.stat (.fstatat 7 0) (some [97]) 1).path := by
    intro decoded read
    have known : decodeCstr (some [97]) = some ['a'] := by decide
    cases known.symm.trans read
    rfl
  refine (at_calls_honour_dirfd_iff rfl relative none none).mpr ⟨?_, ?_⟩
  · rintro ⟨-, decoded, directory, -, unset, -⟩
    cases unset
  · rintro ⟨-, decoded, directory, -, unset, -⟩
    cases unset

/-- `openat(7, "a", O_RDONLY)` below the virtual directory `/v` asks libc for
nothing. -/
theorem openat_ignores_dirfd :
    ¬ HonoursDirfd idleMachine (.openat 7 (some [97]) 0 0) idleProcess
      insideEngine (some "/v".toList) none := by
  intro honours
  have asked : (shimPath idleMachine (.openat 7 (some [97]) 0 0)
      (idleProcess.withCwd (some "/v".toList) insideEngine)).calls = [] := by
    decide
  rw [honours.passesLeft] at asked
  cases asked

end Hookfs.Unix
