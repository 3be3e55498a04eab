import Hookfs.Memory.Opening
import Hookfs.Unix.Session

/-!
# The calls that open a path

`open`, `openat` and `fopen` over an in-memory tree: what each of them can do
with a virtual path, said once.
-/

namespace Hookfs.Unix

open Hookfs.Lib Hookfs.Vfs Hookfs.Posix Hookfs.Router Hookfs.Memory

open MemoryFs (Stream)

/-- `open`, `openat` or `fopen`, with its arguments. -/
inductive OpenCall where
  | «open» (sym : OpenSym) (path : CStr) (flags mode : Flags)
  | openat (dirfd : Int) (path : CStr) (flags mode : Flags)
  | fopen (sym : FopenSym) (path mode : CStr)
  deriving DecidableEq, Repr

namespace OpenCall

def call : OpenCall → PathCall
  | .open sym path flags mode => .open sym path flags mode
  | .openat dirfd path flags mode => .openat dirfd path flags mode
  | .fopen sym path mode => .fopen sym path mode

/-- What the flags or the mode ask for; not every mode asks for anything. -/
def options : OpenCall → Option OpenOptions
  | .open _ _ flags _ => some (openOptions flags)
  | .openat _ _ flags _ => some (openOptions flags)
  | .fopen _ _ mode => (decodeCstr mode).bind fopenOptions

/-- What the call returns when it fails. -/
def failure : OpenCall → Int
  | .open _ _ _ _ => -1
  | .openat _ _ _ _ => -1
  | .fopen _ _ _ => 0

/-- The carrier descriptor, or the stream around the cookie, cannot be
had. -/
def Refused (os : LibcCall → Reply) (opts : OpenOptions) : OpenCall → Prop
  | .open _ _ _ _ => (os .carrier).ret < 0
  | .openat _ _ _ _ => (os .carrier).ret < 0
  | .fopen _ _ mode => (os (.fopencookie mode opts.write)).ret = 0

end OpenCall

/-- What the provider makes of an open. -/
def openTree (now : Time) (path : Text) (opts : OpenOptions)
    (fs : MemoryFs) : Option (Except IoError Stream) × MemoryFs :=
  if opts.write then fs.openWrite now path opts else fs.open path opts

/-- The `errno` of an open that the provider turns down. -/
def declinedErrno : Option (Except IoError Stream) → Nat
  | some (.error error) => ioToErrno error
  | _ => Errno.ENOENT

/-- Writes are allowed, or not asked for. -/
def Permits (engine : Engine Stream) (opts : OpenOptions) : Prop :=
  opts.write = true → engine.allowWrites = true

/-- A stream that was behind the new handle is dropped. -/
def Replaces (engine : Engine Stream) (made after : MemoryFs) : Prop :=
  after = made ∨ ∃ handle old,
    engine.registry.getFile handle = some old ∧
      after = old.stream.inner.drop made

/-- Everything that a call on a virtual path can do. -/
inductive Opens (around : Surroundings) (opening : OpenCall)
    (engine : Engine Stream) (path : Text) (session : Session)
    (result : Result MemoryFs Stream) : Prop where
  | invalid (asked : opening.options = none)
      (failed : result.reply.ret = opening.failure)
      (same : result.process = session)
  | denied (opts : OpenOptions) (asked : opening.options = some opts)
      (write : opts.write = true) (denies : engine.allowWrites = false)
      (failed : result.reply.ret = opening.failure)
      (same : result.process = session)
  | declined (opts : OpenOptions) (asked : opening.options = some opts)
      (permits : Permits engine opts)
      (closed : ∀ stream, (openTree around.ambient.now path opts
        session.vfs).1 ≠ some (.ok stream))
      (failed : result.reply.ret = opening.failure)
      (errno : result.reply.errno = some (declinedErrno
        (openTree around.ambient.now path opts session.vfs).1))
      (after : result.process = session.withVfs
        (openTree around.ambient.now path opts session.vfs).2)
  | refused (opts : OpenOptions) (asked : opening.options = some opts)
      (permits : Permits engine opts) (stream : Stream)
      (opened : (openTree around.ambient.now path opts session.vfs).1 =
        some (.ok stream))
      (refused : opening.Refused around.os opts)
      (failed : result.reply.ret = opening.failure)
      (errno : result.reply.errno ≠ some Errno.EEXIST)
      (after : result.process = session.withVfs (stream.drop
        (openTree around.ambient.now path opts session.vfs).2))
  | granted (opts : OpenOptions) (asked : opening.options = some opts)
      (permits : Permits engine opts) (stream : Stream)
      (opened : (openTree around.ambient.now path opts session.vfs).1 =
        some (.ok stream))
      (granted : ¬ opening.Refused around.os opts)
      (succeeded : result.reply.ret ≠ opening.failure)
      (after : Replaces engine
        (openTree around.ambient.now path opts session.vfs).2
        result.process.vfs)

section Opens

variable {around : Surroundings} {opening : OpenCall}
  {engine : Engine Stream} {path : Text} {session : Session}

theorem openStream_eq (around : Surroundings) (path : Text)
    (opts : OpenOptions) (fs : MemoryFs) :
    openStream around.machine path opts fs =
      ((openTree around.ambient.now path opts fs).1.map
          (Except.map (openedAs opts)),
        (openTree around.ambient.now path opts fs).2) := by
  unfold openStream openTree openedAs
  cases opts.write with
  | true =>
      rfl
  | false =>
      rfl

/-- A stream that was behind the handle of a new file is dropped. -/
theorem replaces_insertFile (around : Surroundings) (fd : Int)
    (engine : Engine Stream) (file : OpenFile Stream) (session : Session) :
    Replaces engine session.vfs
      (insertFile around.machine fd engine file session).vfs := by
  unfold insertFile
  simp only
  split
  · exact .inl rfl
  · rename_i old hit
    exact .inr ⟨_, old, hit, rfl⟩

/-- `open` and `openat`. -/
theorem opens_openVirtualFd {flags : Flags}
    (asked : opening.options = some (openOptions flags))
    (failure : opening.failure = -1)
    (refused : opening.Refused around.os (openOptions flags) ↔
      (around.os .carrier).ret < 0) :
    Opens around opening engine path session
      (openVirtualFd around.machine flags engine path session) := by
  unfold openVirtualFd
  rw [openStream_eq]
  split
  · rename_i gate
    rw [Bool.and_eq_true, Bool.not_eq_true'] at gate
    exact .denied _ asked gate.1 gate.2 failure.symm rfl
  · rename_i gate
    have permits : Permits engine (openOptions flags) := by
      intro write
      have wants : wantsWrite flags = true := write
      rw [wants, Bool.true_and, Bool.not_eq_true', Bool.not_eq_false]
        at gate
      exact gate
    simp only
    cases outcome : (openTree around.ambient.now path (openOptions flags)
        session.vfs).1 with
    | none =>
        refine .declined _ asked permits ?_ failure.symm ?_ rfl
        · rw [outcome]
          exact fun _ => nofun
        · rw [outcome]
          rfl
    | some result =>
        cases result with
        | error error =>
            refine .declined _ asked permits ?_ failure.symm ?_ rfl
            · rw [outcome]
              exact fun _ => nofun
            · rw [outcome]
              rfl
        | ok stream =>
            simp only [Option.map_some, Except.map]
            split
            · rename_i none
              have errno : some Errno.EMFILE ≠ some Errno.EEXIST := by decide
              refine .refused _ asked permits stream outcome
                (refused.mpr none) failure.symm errno ?_
              rw [inner_openedAs]
              rfl
            · rename_i some
              refine .granted _ asked permits stream outcome
                (fun none => some (refused.mp none)) ?_ ?_
              · rw [failure]
                have carrier : ¬ (around.os .carrier).ret < 0 := some
                have other : (around.os .carrier).ret ≠ -1 := by omega
                exact other
              · exact replaces_insertFile around _ engine _ _

/-- `fopen`. -/
theorem opens_fopenVirtual {mode : CStr}
    (asked : opening.options = (decodeCstr mode).bind fopenOptions)
    (failure : opening.failure = 0)
    (refused : ∀ opts, opening.Refused around.os opts ↔
      (around.os (.fopencookie mode opts.write)).ret = 0) :
    Opens around opening engine path session
      (fopenVirtual around.machine mode engine path session) := by
  unfold fopenVirtual
  cases read : decodeCstr mode with
  | none =>
      rw [read, Option.bind_none] at asked
      exact .invalid asked failure.symm rfl
  | some decoded =>
      rw [read, Option.bind_some] at asked
      simp only
      cases parsed : fopenOptions decoded with
      | none =>
          rw [parsed] at asked
          exact .invalid asked failure.symm rfl
      | some opts =>
          rw [parsed] at asked
          simp only
          rw [openStream_eq]
          split
          · rename_i gate
            rw [Bool.and_eq_true, Bool.not_eq_true'] at gate
            exact .denied _ asked gate.1 gate.2 failure.symm rfl
          · rename_i gate
            have permits : Permits engine opts := by
              intro write
              rw [write, Bool.true_and, Bool.not_eq_true',
                Bool.not_eq_false] at gate
              exact gate
            simp only
            cases outcome : (openTree around.ambient.now path opts
                session.vfs).1 with
            | none =>
                refine .declined _ asked permits ?_ failure.symm ?_ rfl
                · rw [outcome]
                  exact fun _ => nofun
                · rw [outcome]
                  rfl
            | some result =>
                cases result with
                | error error =>
                    refine .declined _ asked permits ?_ failure.symm ?_ rfl
                    · rw [outcome]
                      exact fun _ => nofun
                    · rw [outcome]
                      rfl
                | ok stream =>
                    simp only [Option.map_some, Except.map]
                    split
                    · rename_i none
                      have errno : some Errno.EIO ≠ some Errno.EEXIST := by
                        decide
                      refine .refused _ asked permits stream outcome
                        ((refused opts).mpr none) failure.symm errno ?_
                      rw [inner_openedAs]
                      rfl
                    · rename_i some
                      refine .granted _ asked permits stream outcome
                        (fun none => some ((refused opts).mp none)) ?_
                        (.inl rfl)
                      rw [failure]
                      exact some

/-- What `open`, `openat` and `fopen` can do with a virtual path. -/
theorem opens_shim (around : Surroundings)
    (arrives : Arrives opening.call.path session engine (.virtual path)) :
    Opens around opening engine path session
      (shim around.machine (.path opening.call) session) := by
  cases opening with
  | «open» sym name flags mode =>
      have served : shim around.machine (.path (.open sym name flags mode))
          session = openVirtualFd around.machine flags engine path session :=
        routed_virtual arrives
      rw [OpenCall.call, served]
      exact opens_openVirtualFd rfl rfl Iff.rfl
  | openat dirfd name flags mode =>
      have served : shim around.machine (.path (.openat dirfd name flags mode))
          session = openVirtualFd around.machine flags engine path session :=
        routed_virtual arrives
      rw [OpenCall.call, served]
      exact opens_openVirtualFd rfl rfl Iff.rfl
  | fopen sym name mode =>
      have served : shim around.machine (.path (.fopen sym name mode))
          session = fopenVirtual around.machine mode engine path session :=
        routed_virtual arrives
      rw [OpenCall.call, served]
      exact opens_fopenVirtual rfl rfl fun _ => Iff.rfl

/-- A call succeeds if it is permitted, the provider opens the path and the
carrier can be had. -/
theorem opens_iff
    (arrives : Arrives opening.call.path session engine (.virtual path)) :
    (shim around.machine (.path opening.call) session).reply.ret ≠
        opening.failure ↔
      ∃ opts, opening.options = some opts ∧ Permits engine opts ∧
        ¬ opening.Refused around.os opts ∧
        ∃ stream, (openTree around.ambient.now path opts session.vfs).1 =
          some (.ok stream) := by
  cases opens_shim around arrives with
  | invalid asked failed same =>
      refine iff_of_false (not_not.mpr failed) ?_
      rintro ⟨others, given, -⟩
      rw [asked] at given
      cases given
  | denied opts asked write denies failed same =>
      refine iff_of_false (not_not.mpr failed) ?_
      rintro ⟨others, given, permits, -⟩
      rw [asked] at given
      cases given
      rw [permits write] at denies
      cases denies
  | declined opts asked permits closed failed errno after =>
      refine iff_of_false (not_not.mpr failed) ?_
      rintro ⟨others, given, -, -, stream, opened⟩
      rw [asked] at given
      cases given
      exact closed stream opened
  | refused opts asked permits stream opened refused failed errno after =>
      refine iff_of_false (not_not.mpr failed) ?_
      rintro ⟨others, given, -, granted, -⟩
      rw [asked] at given
      cases given
      exact granted refused
  | granted opts asked permits stream opened granted succeeded after =>
      exact iff_of_true succeeded
        ⟨opts, asked, permits, granted, stream, opened⟩

/-! ## Failed opens -/

/-- What is left of an open that is given up, or turned down. -/
theorem sameContent_openTree_iff {fs : MemoryFs} {outside : Nat → Nat}
    (held : fs.Held outside) (now : Time) (path : Text)
    (opts : OpenOptions) :
    MemoryFs.SameContent fs
        (MemoryFs.leftOver (openTree now path opts fs)) ↔
      ¬(opts.write = true ∧
        fs.Alters (Posix.normalizeKeyStr path) opts) := by
  unfold openTree
  cases opts.write with
  | true =>
      simp only [if_true, true_and]
      rw [MemoryFs.openWrite_eq]
      exact MemoryFs.sameContent_openWriteAt_iff held
        (MemoryFs.fills_fillAncestors path)
  | false =>
      simp only [Bool.false_eq_true, if_false, false_and, not_false_eq_true,
        iff_true]
      rw [MemoryFs.open_eq]
      exact MemoryFs.sameContent_openAt held

theorem openTree_alters {fs : MemoryFs} {outside : Nat → Nat}
    (held : fs.Held outside) (now : Time) {path : Text} {opts : OpenOptions}
    (write : opts.write = true)
    (alters : fs.Alters (Posix.normalizeKeyStr path) opts) :
    ∃ stream, (openTree now path opts fs).1 = some (.ok stream) := by
  unfold openTree
  rw [write, if_pos rfl, MemoryFs.openWrite_eq]
  exact alters.opens held.within

/-- A failed call leaves the tree as it was. -/
def FailsClean (around : Surroundings) (opening : OpenCall)
    (session : Session) : Prop :=
  (shim around.machine (.path opening.call) session).reply.ret =
      opening.failure →
    MemoryFs.SameContent session.vfs
      (shim around.machine (.path opening.call) session).process.vfs

/-- The call may write, makes a file or empties one, and is then refused its
carrier. -/
def StrandsChange (around : Surroundings) (opening : OpenCall)
    (engine : Engine Stream) (path : Text) (fs : MemoryFs) : Prop :=
  ∃ opts, opening.options = some opts ∧ opts.write = true ∧
    engine.allowWrites = true ∧
    fs.Alters (Posix.normalizeKeyStr path) opts ∧
    opening.Refused around.os opts

theorem failsClean_iff {outside : Nat → Nat}
    (held : session.vfs.Held outside)
    (arrives : Arrives opening.call.path session engine (.virtual path)) :
    FailsClean around opening session ↔
      ¬ StrandsChange around opening engine path session.vfs := by
  have same := MemoryFs.SameContent.refl session.vfs
  have left := sameContent_openTree_iff held around.ambient.now path
  unfold FailsClean
  cases opens_shim around arrives with
  | invalid asked failed kept =>
      rw [kept]
      refine iff_of_true (fun _ => same) ?_
      rintro ⟨opts, given, -⟩
      rw [asked] at given
      cases given
  | denied opts asked write denies failed kept =>
      rw [kept]
      refine iff_of_true (fun _ => same) ?_
      rintro ⟨others, given, -, allows, -⟩
      rw [denies] at allows
      cases allows
  | declined opts asked permits closed failed errno after =>
      have unaltered : ¬(opts.write = true ∧
          session.vfs.Alters (Posix.normalizeKeyStr path) opts) := by
        intro altered
        obtain ⟨stream, opened⟩ := openTree_alters held around.ambient.now
          altered.1 altered.2
        exact closed stream opened
      have kept := (left opts).mpr unaltered
      rw [MemoryFs.leftOver_closed closed] at kept
      rw [after]
      refine iff_of_true (fun _ => kept) ?_
      rintro ⟨others, given, write, -, alters, -⟩
      rw [asked] at given
      cases given
      exact unaltered ⟨write, alters⟩
  | refused opts asked permits stream opened refused failed errno after =>
      have kept := left opts
      rw [MemoryFs.leftOver_opened opened] at kept
      rw [after]
      constructor
      · rintro clean ⟨others, given, write, -, alters, -⟩
        rw [asked] at given
        cases given
        exact kept.mp (clean failed) ⟨write, alters⟩
      · intro clean _
        refine kept.mpr fun altered => clean ?_
        exact ⟨opts, asked, altered.1, permits altered.1, altered.2, refused⟩
  | granted opts asked permits stream opened granted succeeded after =>
      refine iff_of_true (fun failed => absurd failed succeeded) ?_
      rintro ⟨others, given, -, -, -, refused⟩
      rw [asked] at given
      cases given
      exact granted refused

end Opens

end Hookfs.Unix
