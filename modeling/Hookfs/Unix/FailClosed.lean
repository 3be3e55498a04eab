import Hookfs.Memory.Provider
import Hookfs.Unix.Shims

/-!
# Virtual paths stay off the disk

Over a prefix namespace, a path argument that resolves into the subtree never
reaches an original function, an unsafe one is refused outright, and every
other path is handed on untouched.

Every path-routed shim is a function of the route its path arrives on.  The
three obligations are stated on routes, shown of the common helpers once, and
then read back through the keys of the namespace.
-/

namespace Hookfs.Unix

open Hookfs.Lib Hookfs.Vfs Hookfs.Posix Hookfs.Router

variable {Ambient State Stream : Type}

/-! ## Quiet and denied results -/

namespace Result

/-- No original function was called. -/
def Quiet (result : Result State Stream) : Prop :=
  ∀ call, LibcCall.original call ∉ result.calls

/-- A plain failure: nothing was asked, written or changed. -/
def Denies (process : Process State Stream) (result : Result State Stream) :
    Prop :=
  ∃ ret errno, (ret = -1 ∨ ret = 0) ∧ result = fail ret errno process

/-- Exactly the original call, with its own answer, and no change of the
virtual side; a real `chdir` leaves the virtual directory. -/
def Forwards (machine : Machine Ambient State Stream) (call : Call)
    (process : Process State Stream) (engine : Engine Stream)
    (result : Result State Stream) : Prop :=
  result = pass machine call process ∨
    ∃ path, call = .path (.chdir path) ∧
      result = pass machine call
        (process.withEngine { engine with cwd := none })

theorem quiet_of_calls_eq_nil {result : Result State Stream}
    (silent : result.calls = []) : result.Quiet := by
  intro call member
  rw [silent] at member
  cases member

theorem quiet_of_calls_eq {result : Result State Stream} {asked : LibcCall}
    (single : result.calls = [asked])
    (other : ∀ call, asked ≠ .original call) : result.Quiet := by
  intro call member
  rw [single, List.mem_singleton] at member
  exact other call member.symm

@[simp]
theorem quiet_fail (ret : Int) (errno : Nat)
    (process : Process State Stream) : (fail ret errno process).Quiet :=
  quiet_of_calls_eq_nil rfl

@[simp]
theorem quiet_succeed (ret : Int) (out : Output)
    (process : Process State Stream) : (succeed ret out process).Quiet :=
  quiet_of_calls_eq_nil rfl

@[simp]
theorem quiet_answerStream (fd : Int) (engine : Engine Stream)
    (file : OpenFile Stream) (process : Process State Stream)
    (outcome : Reply × OpenStream Stream × State) :
    (answerStream fd engine file process outcome).Quiet :=
  quiet_of_calls_eq_nil rfl

theorem Denies.quiet {process : Process State Stream}
    {result : Result State Stream} (denies : result.Denies process) :
    result.Quiet := by
  obtain ⟨ret, errno, _, rfl⟩ := denies
  exact quiet_fail ret errno process

theorem denies_minusOne (errno : Nat) (process : Process State Stream) :
    (fail (-1) errno process).Denies process :=
  ⟨-1, errno, .inl rfl, rfl⟩

theorem denies_null (errno : Nat) (process : Process State Stream) :
    (fail 0 errno process).Denies process :=
  ⟨0, errno, .inr rfl, rfl⟩

end Result

section Served

variable (machine : Machine Ambient State Stream)

/-! ## What the virtual branches ask of libc -/

theorem quiet_openVirtualFd (flags : Flags) (engine : Engine Stream)
    (path : Text) (process : Process State Stream) :
    (openVirtualFd machine flags engine path process).Quiet := by
  fun_cases openVirtualFd machine flags engine path process with
  | case1 | case2 | case3 =>
      exact Result.quiet_fail _ _ _
  | case4 | case5 =>
      exact Result.quiet_of_calls_eq rfl fun _ => LibcCall.noConfusion

theorem quiet_fopenVirtual (mode : CStr) (engine : Engine Stream)
    (path : Text) (process : Process State Stream) :
    (fopenVirtual machine mode engine path process).Quiet := by
  fun_cases fopenVirtual machine mode engine path process with
  | case1 | case2 | case3 | case4 | case5 =>
      exact Result.quiet_fail _ _ _
  | case6 | case7 =>
      exact Result.quiet_of_calls_eq rfl fun _ => LibcCall.noConfusion

theorem quiet_copyOutPath (path : Text) (resolved : Nat)
    (process : Process State Stream) :
    (copyOutPath machine path resolved process).Quiet := by
  fun_cases copyOutPath machine path resolved process with
  | case1 | case2 =>
      exact Result.quiet_of_calls_eq rfl fun _ => LibcCall.noConfusion
  | case3 =>
      exact Result.quiet_fail _ _ _
  | case4 =>
      exact Result.quiet_succeed _ _ _

theorem quiet_renameVirtual (target : CStr) (engine : Engine Stream)
    (path : Text) (process : Process State Stream) :
    (renameVirtual machine target engine path process).Quiet := by
  fun_cases renameVirtual machine target engine path process with
  | case1 | case2 | case4 =>
      exact Result.quiet_fail _ _ _
  | case3 =>
      exact Result.quiet_of_calls_eq_nil rfl

/-! ## One path -/

/-- What a shim owes on each route of its path. -/
structure FailsClosed (call : PathCall)
    (shimmed : Process State Stream → Result State Stream) : Prop where
  real : ∀ {process engine}, Arrives call.path process engine .real →
    (shimmed process).Forwards machine (.path call) process engine
  rejected : ∀ {process engine},
    Arrives call.path process engine .rejected →
      (shimmed process).Denies process
  virtual : ∀ {process engine path},
    Arrives call.path process engine (.virtual path) →
      (shimmed process).Quiet

theorem failsClosed_routed {call : PathCall}
    {rejected : Process State Stream → Result State Stream}
    {served : Engine Stream → Text → Process State Stream →
      Result State Stream}
    (denies : ∀ process, (rejected process).Denies process)
    (quiet : ∀ engine path process, (served engine path process).Quiet) :
    FailsClosed machine call (routed machine call rejected served) where
  real arrives := by
    rw [routed_real arrives]
    exact .inl rfl
  rejected arrives := by
    rw [routed_rejected arrives]
    exact denies _
  virtual arrives := by
    rw [routed_virtual arrives]
    exact quiet _ _ _

theorem failsClosed_denyMutatePath (call : PathCall) :
    FailsClosed machine call (denyMutatePath machine call) :=
  failsClosed_routed machine (Result.denies_minusOne _)
    fun _ _ process => Result.quiet_fail _ _ process

theorem failsClosed_mutatePath (call : PathCall)
    (operate : Text → State → Option (Except IoError Unit) × State) :
    FailsClosed machine call (mutatePath machine call operate) := by
  refine failsClosed_routed machine (Result.denies_minusOne _) ?_
  intro engine path process
  split
  · exact Result.quiet_fail _ _ _
  · exact Result.quiet_of_calls_eq_nil rfl

theorem failsClosed_accessCommon (call : PathCall) (mode : Flags) :
    FailsClosed machine call (accessCommon machine call mode) := by
  refine failsClosed_routed machine (Result.denies_minusOne _) ?_
  intro engine path process
  simp only
  split
  · exact Result.quiet_fail _ _ _
  · split
    · exact Result.quiet_fail _ _ _
    · exact Result.quiet_succeed _ _ _

theorem failsClosed_statPath (sym : StatSym) (path : CStr) (buf : Nat) :
    FailsClosed machine (.stat sym path buf)
      (statPath machine sym path buf) := by
  refine failsClosed_routed machine (Result.denies_minusOne _) ?_
  intro engine path process
  split
  · exact Result.quiet_succeed _ _ _
  · exact Result.quiet_fail _ _ _

theorem failsClosed_shimOpendir (path : CStr) :
    FailsClosed machine (.opendir path) (shimOpendir machine path) := by
  refine failsClosed_routed machine (Result.denies_null _) ?_
  intro engine path process
  split
  · exact Result.quiet_of_calls_eq rfl fun _ => LibcCall.noConfusion
  · exact Result.quiet_fail _ _ _
  · exact Result.quiet_fail _ _ _

theorem failsClosed_shimRealpath (path : CStr) (resolved : Nat) :
    FailsClosed machine (.realpath path resolved)
      (shimRealpath machine path resolved) := by
  refine failsClosed_routed machine (Result.denies_null _) ?_
  intro engine path process
  split
  · exact Result.quiet_fail _ _ _
  · exact quiet_copyOutPath machine _ _ _

/-- `chdir` does not share the helper: on a real path it also leaves the
virtual directory. -/
theorem failsClosed_shimChdir (path : CStr) :
    FailsClosed machine (.chdir path) (shimChdir machine path) where
  real arrives := by
    obtain ⟨decoded, read, route⟩ := arrives.route_eq
    have read : decodeCstr path = some decoded := read
    simp only [shimChdir, arrives.outside, read, route]
    exact .inr ⟨path, rfl, rfl⟩
  rejected arrives := by
    obtain ⟨decoded, read, route⟩ := arrives.route_eq
    have read : decodeCstr path = some decoded := read
    simp only [shimChdir, arrives.outside, read, route]
    exact Result.denies_minusOne _ _
  virtual arrives := by
    obtain ⟨decoded, read, route⟩ := arrives.route_eq
    have read : decodeCstr path = some decoded := read
    simp only [shimChdir, arrives.outside, read, route, Bool.false_eq_true,
      if_false]
    split
    · split
      · exact Result.quiet_succeed _ _ _
      · exact Result.quiet_fail _ _ _
    · exact Result.quiet_fail _ _ _

/-- Every one-path shim fails closed. -/
theorem failsClosed_shimPath (call : PathCall) :
    FailsClosed machine call (shimPath machine call) := by
  cases call with
  | «open» sym path flags mode =>
      exact failsClosed_routed machine (Result.denies_minusOne _)
        (quiet_openVirtualFd machine flags)
  | openat dirfd path flags mode =>
      exact failsClosed_routed machine (Result.denies_minusOne _)
        (quiet_openVirtualFd machine flags)
  | fopen sym path mode =>
      exact failsClosed_routed machine (Result.denies_null _)
        (quiet_fopenVirtual machine mode)
  | truncate path length =>
      rw [shimPath, shimTruncate]
      exact failsClosed_mutatePath machine _ _
  | mkdir path mode =>
      exact failsClosed_mutatePath machine _ _
  | remove path =>
      exact failsClosed_mutatePath machine _ _
  | unlink path =>
      exact failsClosed_mutatePath machine _ _
  | fchmodat dirfd path mode flags =>
      exact failsClosed_denyMutatePath machine _
  | utimensat dirfd path times flags =>
      exact failsClosed_denyMutatePath machine _
  | stat sym path buf =>
      exact failsClosed_statPath machine sym path buf
  | statvfs path buf =>
      exact failsClosed_routed machine (Result.denies_minusOne _)
        fun _ _ _ => Result.quiet_succeed _ _ _
  | opendir path =>
      exact failsClosed_shimOpendir machine path
  | realpath path resolved =>
      exact failsClosed_shimRealpath machine path resolved
  | access path mode =>
      exact failsClosed_accessCommon machine _ mode
  | faccessat dirfd path mode flags =>
      exact failsClosed_accessCommon machine _ mode
  | chdir path =>
      exact failsClosed_shimChdir machine path
  | readlink path buf bufsiz =>
      exact failsClosed_routed machine (Result.denies_minusOne _)
        fun _ _ _ => Result.quiet_fail _ _ _

/-! ## Two paths -/

/-- What a two-path shim owes on the routes of its paths. -/
structure FailsClosedTwo (call : TwoPathCall)
    (shimmed : Process State Stream → Result State Stream) : Prop where
  real : ∀ {process engine}, Arrives call.source process engine .real →
    Arrives call.target process engine .real →
      shimmed process = pass machine (.two call) process
  rejected : ∀ {process engine first second},
    Arrives call.source process engine first →
    Arrives call.target process engine second →
    first = .rejected ∨ second = .rejected →
      (shimmed process).Denies process
  virtual : ∀ {process engine first second},
    Arrives call.source process engine first →
    Arrives call.target process engine second →
    first ≠ .real ∨ second ≠ .real → (shimmed process).Quiet

theorem failsClosedTwo_denyMutateTwo (call : TwoPathCall) :
    FailsClosedTwo machine call (denyMutateTwo machine call) := by
  have denied : ∀ {process engine first second},
      Arrives call.source process engine first →
      Arrives call.target process engine second →
      first ≠ .real ∨ second ≠ .real →
        (denyMutateTwo machine call process).Denies process := by
    intro process engine first second source target either
    have touched : (touchesVirtual call.source process ||
        touchesVirtual call.target process) = true := by
      rw [touchesVirtual_eq source, touchesVirtual_eq target]
      simpa using either
    simp only [denyMutateTwo, source.outside, touched]
    exact Result.denies_minusOne _ _
  constructor
  case real =>
    intro process engine source target
    have untouched : (touchesVirtual call.source process ||
        touchesVirtual call.target process) = false := by
      rw [touchesVirtual_eq source, touchesVirtual_eq target]
      rfl
    simp only [denyMutateTwo, source.outside, untouched]
    rfl
  case rejected =>
    intro process engine first second source target either
    refine denied source target ?_
    rcases either with rfl | rfl
    · exact .inl Route.noConfusion
    · exact .inr Route.noConfusion
  case virtual =>
    intro process engine first second source target either
    exact (denied source target either).quiet

/-- `rename` decides by the source first. -/
theorem shimRename_eq {source target : CStr}
    {process : Process State Stream} {engine : Engine Stream}
    {route : Route} (arrives : Arrives source process engine route) :
    shimRename machine source target process =
      match route with
      | .real => renameReal machine source target process
      | .rejected => fail (-1) Errno.ENOENT process
      | .virtual path => renameVirtual machine target engine path process := by
  obtain ⟨decoded, read, found⟩ := arrives.route_eq
  simp only [shimRename, arrives.outside, read, found]
  cases route with
  | virtual path =>
      rfl
  | rejected =>
      rfl
  | real =>
      rfl

theorem renameReal_denies {source target : CStr}
    {process : Process State Stream} {engine : Engine Stream}
    {route : Route} (arrives : Arrives target process engine route)
    (unreal : route ≠ .real) :
    (renameReal machine source target process).Denies process := by
  rw [renameReal, touchesVirtual_eq arrives, if_pos (by simpa using unreal)]
  exact Result.denies_minusOne _ _

theorem renameVirtual_denies {target : CStr} {path : Text}
    {process : Process State Stream} {engine : Engine Stream}
    (arrives : Arrives target process engine .rejected) :
    (renameVirtual machine target engine path process).Denies process := by
  obtain ⟨decoded, read, found⟩ := arrives.route_eq
  simp only [renameVirtual, read, found]
  split
  · exact Result.denies_minusOne _ _
  · exact Result.denies_minusOne _ _

theorem failsClosedTwo_shimRename (source target : CStr) :
    FailsClosedTwo machine (.rename source target)
      (shimRename machine source target) := by
  constructor
  case real =>
    intro process engine before after
    change Arrives source process engine _ at before
    change Arrives target process engine _ at after
    rw [shimRename_eq machine before]
    simp only [renameReal]
    rw [touchesVirtual_eq after]
    rfl
  case rejected =>
    intro process engine first second before after either
    change Arrives source process engine _ at before
    change Arrives target process engine _ at after
    rw [shimRename_eq machine before]
    cases first with
    | virtual path =>
        have bad : second = .rejected := either.resolve_left (by simp)
        subst bad
        exact renameVirtual_denies machine after
    | rejected =>
        exact Result.denies_minusOne _ _
    | real =>
        have bad : second = .rejected := either.resolve_left (by simp)
        subst bad
        exact renameReal_denies machine after (by simp)
  case virtual =>
    intro process engine first second before after either
    change Arrives source process engine _ at before
    change Arrives target process engine _ at after
    rw [shimRename_eq machine before]
    cases first with
    | virtual path =>
        exact quiet_renameVirtual machine _ _ _ _
    | rejected =>
        exact Result.quiet_fail _ _ _
    | real =>
        exact (renameReal_denies machine after
          (either.resolve_left (by simp))).quiet

/-- Every two-path shim fails closed. -/
theorem failsClosedTwo_shimTwo (call : TwoPathCall) :
    FailsClosedTwo machine call (shimTwo machine call) := by
  cases call with
  | rename source target =>
      exact failsClosedTwo_shimRename machine source target
  | link source target =>
      exact failsClosedTwo_denyMutateTwo machine _
  | symlink source target =>
      exact failsClosedTwo_denyMutateTwo machine _

end Served

/-! ## Prefix namespaces -/

/-- The path a terminated argument stands for. -/
def resolved (engine : Engine Stream) (path : CStr) : Option Text :=
  path.bind fun bytes => engine.resolve (fromUtf8Lossy bytes)

/-- A path's key equals the root's key or extends it by `/`. -/
def Within (root path : Text) : Prop :=
  normalizeKeyStr path = normalizeKeyStr root ∨
    ∃ rest, normalizeKeyStr path = normalizeKeyStr root ++ '/' :: rest

/-- An argument resolves into the subtree. -/
def Inside (engine : Engine Stream) (root : Text) (path : CStr) : Prop :=
  ∃ absolute, resolved engine path = some absolute ∧ Within root absolute

/-- A path with a `.` or a `..` among its components. -/
def Dotted (path : Text) : Prop :=
  ['.'] ∈ parts path ∨ ['.', '.'] ∈ parts path

/-- An argument resolves into the subtree and is dotted, as it stands or
resolved. -/
def DottedInside (engine : Engine Stream) (root : Text) (path : CStr) :
    Prop :=
  ∃ bytes absolute, path = some bytes ∧
    resolved engine path = some absolute ∧ Within root absolute ∧
    (Dotted (fromUtf8Lossy bytes) ∨ Dotted absolute)

/-- A C string that ends within the bytes `decode_cstr` scans. -/
def Terminated (path : CStr) : Prop :=
  ∃ bytes, path = some bytes ∧ 0 ∉ bytes ∧ bytes.length < 0x8000

def Call.paths : Call → List CStr
  | .path call => [call.path]
  | .two call => [call.source, call.target]
  | .fd _ => []
  | .dir _ => []

section Namespace

variable {root : Text} {engine : Engine Stream}

theorem isVirtual_fromRoot (path : Text) :
    (Namespace.fromRoot root).isVirtual path = true ↔ Within root path :=
  keyHasPrefix_iff

theorem not_safe_of_dotted {path : Text} (dotted : Dotted path) :
    isLexicallySafe path = false := by
  by_contra safe
  rw [Bool.not_eq_false] at safe
  rcases dotted with lone | double
  · exact (ne_dots_of_safe safe lone).1 rfl
  · exact (ne_dots_of_safe safe double).2 rfl

/-- Resolving keeps the components of the argument. -/
theorem dotted_resolve {decoded absolute : Text}
    (resolves : engine.resolve decoded = some absolute)
    (dotted : Dotted decoded) : Dotted absolute := by
  unfold Engine.resolve at resolves
  split at resolves
  · cases resolves
    exact dotted
  · next relative =>
    obtain ⟨cwd, _, rfl⟩ := Option.map_eq_some_iff.mp resolves
    rw [Dotted, parts_join cwd (Bool.eq_false_iff.mpr relative)]
    exact dotted.imp (List.mem_append_right _) (List.mem_append_right _)

variable (rooted : engine.nspace = .fromRoot root)
include rooted

theorem classify_of_within {decoded absolute : Text}
    (resolves : engine.resolve decoded = some absolute)
    (within : Within root absolute) :
    engine.classify decoded =
      if isLexicallySafe absolute then .virtual absolute else .rejected := by
  have member : engine.nspace.isVirtual absolute = true := by
    rw [rooted]
    exact (isVirtual_fromRoot absolute).mpr within
  simp only [Engine.classify, resolves, member]
  rfl

variable {process : Process State Stream}
  (active : process.engine = some engine)
  (outside : process.inHook = false)
include active outside

omit rooted in
theorem arrives_of_terminated {path : CStr} (terminated : Terminated path) :
    ∃ bytes, path = some bytes ∧
      Arrives path process engine (engine.classify (fromUtf8Lossy bytes)) := by
  obtain ⟨bytes, rfl, free, short⟩ := terminated
  refine ⟨bytes, rfl, outside, active, ?_⟩
  rw [decodeCstr_eq free short, Option.map_some]

/-- An argument inside the subtree does not arrive as a real path. -/
theorem arrives_inside {path : CStr} (terminated : Terminated path)
    (inside : Inside engine root path) :
    ∃ route, Arrives path process engine route ∧ route ≠ .real := by
  obtain ⟨bytes, rfl, arrives⟩ :=
    arrives_of_terminated active outside terminated
  obtain ⟨absolute, resolves, within⟩ := inside
  refine ⟨_, arrives, ?_⟩
  rw [classify_of_within rooted resolves within]
  split
  · exact Route.noConfusion
  · exact Route.noConfusion

/-- A dotted one arrives rejected. -/
theorem arrives_dotted {path : CStr} (terminated : Terminated path)
    (dotted : DottedInside engine root path) :
    Arrives path process engine .rejected := by
  obtain ⟨bytes, rfl, arrives⟩ :=
    arrives_of_terminated active outside terminated
  obtain ⟨_, absolute, equal, resolves, within, either⟩ := dotted
  cases equal
  have unsafePath : isLexicallySafe absolute = false :=
    not_safe_of_dotted (either.elim (dotted_resolve resolves) id)
  rw [classify_of_within rooted resolves within, unsafePath] at arrives
  exact arrives

/-- Every other argument arrives as a real path. -/
theorem arrives_outside {path : CStr} (terminated : Terminated path)
    (apart : ¬ Inside engine root path) :
    Arrives path process engine .real := by
  obtain ⟨bytes, rfl, arrives⟩ :=
    arrives_of_terminated active outside terminated
  have real : engine.classify (fromUtf8Lossy bytes) = .real := by
    unfold Engine.classify
    cases resolves : engine.resolve (fromUtf8Lossy bytes) with
    | none =>
        rfl
    | some absolute =>
        have missed : engine.nspace.isVirtual absolute = false := by
          rw [Bool.eq_false_iff, rooted]
          intro member
          exact apart ⟨absolute, resolves,
            (isVirtual_fromRoot absolute).mp member⟩
        simp only [missed]
        rfl
  rw [real] at arrives
  exact arrives

end Namespace

/-! ## Every path-bearing call -/

/-- A machine over the memory file system whose libc answers 7. -/
def idleMachine :
    Machine Memory.Ambient Memory.MemoryFs Memory.MemoryFs.Stream where
  provider := Memory.MemoryFs.provider
  ambient := Memory.Ambient.still
  os _ := ⟨7, none, .nothing⟩
  hasher := List.length

/-- A writable engine at `/v` over an empty tree. -/
def idleProcess :
    Process Memory.MemoryFs Memory.MemoryFs.Stream where
  vfs := .withCapacity 64
  engine := some (.new (.fromRoot "/v".toList) true)
  cookies := ∅
  inHook := false

end Hookfs.Unix
