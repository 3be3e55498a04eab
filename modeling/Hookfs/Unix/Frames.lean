import Hookfs.Unix.Session

/-!
# What calls leave alone

Most calls on paths and directories only look: they move the working
directory and the open directories.  A property that does not depend on
these survives a call if it survives what the call opens or changes.
-/

namespace Hookfs.Unix

open Hookfs.Lib Hookfs.Vfs Hookfs.Posix Hookfs.Router Hookfs.Memory

open MemoryFs (Stream)

/-- A call that may open a file or change the tree. -/
def PathCall.Changes : PathCall → Prop
  | .open _ _ _ _ => True
  | .openat _ _ _ _ => True
  | .fopen _ _ _ => True
  | .truncate _ _ => True
  | .mkdir _ _ => True
  | .remove _ => True
  | .unlink _ => True
  | _ => False

/-- A property of sessions that survives moving the working directory and the
open directories. -/
def KeptByLooking (good : Session → Prop) : Prop :=
  ∀ {session : Session} {engine next : Engine Stream}, good session →
    session.engine = some engine →
    next.registry.files = engine.registry.files →
    next.allowWrites = engine.allowWrites →
      good (session.withEngine next)

section Frames

variable (around : Surroundings) {session : Session}

theorem virtualMeta_snd (path : Text) (fs : MemoryFs) :
    (virtualMeta around.machine path fs).2 = fs := by
  unfold virtualMeta
  simp only [Surroundings.machine, MemoryFs.provider]
  cases fs.metadata path with
  | none =>
      rfl
  | some outcome =>
      cases outcome with
      | error error =>
          rfl
      | ok report =>
          rfl

/-- All that a `chdir` changes is the virtual working directory. -/
theorem shimChdir_keeps {good : Session → Prop} (here : good session)
    (path : CStr)
    (moved : ∀ engine cwd, session.engine = some engine →
      good (session.withEngine { engine with cwd := cwd })) :
    good (shimChdir around.machine path session).process := by
  unfold shimChdir
  split
  · exact here
  · split
    · exact here
    · next decoded _ =>
      cases active : session.engine with
      | none =>
          simp only [Process.route, active]
          exact here
      | some engine =>
          simp only [Process.route, active, Option.map_some]
          cases engine.classify decoded with
          | virtual target =>
              simp only
              split
              · next report fs result =>
                rw [show fs = session.vfs from
                  (congrArg Prod.snd result).symm]
                split
                · exact moved engine (some target) active
                · exact here
              · next fs _ result =>
                rw [show fs = session.vfs from
                  (congrArg Prod.snd result).symm]
                exact here
          | rejected =>
              exact here
          | real =>
              exact moved engine none active

theorem process_renameReal (source target : CStr) :
    (renameReal around.machine source target session).process = session := by
  unfold renameReal
  split
  · rfl
  · rfl

variable {good : Session → Prop}

theorem accessCommon_frame (here : good session) (call : PathCall)
    (mode : Flags) :
    good (accessCommon around.machine call mode session).process := by
  refine routed_keeps here rfl fun engine path active => ?_
  simp only
  split
  · exact here
  · split
    · exact here
    · exact here

theorem shimRename_frame (here : good session) (source target : CStr)
    (renames : ∀ engine path, session.engine = some engine →
      good (renameVirtual around.machine target engine path
        session).process) :
    good (shimRename around.machine source target session).process := by
  unfold shimRename
  split
  · exact here
  · split
    · exact here
    · next decoded _ =>
      cases active : session.engine with
      | none =>
          simp only [Process.route, active, Option.map_none,
            process_renameReal]
          exact here
      | some engine =>
          simp only [Process.route, active, Option.map_some]
          cases engine.classify decoded with
          | virtual path =>
              exact renames engine path active
          | rejected =>
              exact here
          | real =>
              simp only [process_renameReal]
              exact here

/-- Of the calls on two paths, only a rename changes anything. -/
theorem shimTwo_frame (here : good session) (call : TwoPathCall)
    (renames : ∀ target engine path, session.engine = some engine →
      good (renameVirtual around.machine target engine path
        session).process) :
    good (shimTwo around.machine call session).process := by
  have denied : ∀ call, good
      (denyMutateTwo around.machine call session).process := by
    intro call
    unfold denyMutateTwo
    split
    · exact here
    · split
      · exact here
      · exact here
  cases call with
  | rename source target =>
      exact shimRename_frame around here source target (renames target)
  | link source target =>
      exact denied _
  | symlink source target =>
      exact denied _

section Looking

variable (looking : KeptByLooking good)
include looking

/-- What the changing calls keep, all calls on paths keep. -/
theorem shimPath_frame (here : good session) {call : PathCall}
    (changes : call.Changes →
      good (shimPath around.machine call session).process) :
    good (shimPath around.machine call session).process := by
  cases call with
  | «open» sym path flags mode =>
      exact changes trivial
  | openat dirfd path flags mode =>
      exact changes trivial
  | fopen sym path mode =>
      exact changes trivial
  | truncate path length =>
      exact changes trivial
  | mkdir path mode =>
      exact changes trivial
  | remove path =>
      exact changes trivial
  | unlink path =>
      exact changes trivial
  | fchmodat dirfd path mode flags =>
      exact routed_keeps here rfl fun engine path active => here
  | utimensat dirfd path times flags =>
      exact routed_keeps here rfl fun engine path active => here
  | stat sym path buf =>
      refine routed_keeps here rfl fun engine path active => ?_
      have same := virtualMeta_snd around path session.vfs
      split
      · next report fs result =>
        rw [result] at same
        rw [show fs = session.vfs from same]
        exact here
      · next fs result =>
        rw [result] at same
        rw [show fs = session.vfs from same]
        exact here
  | statvfs path buf =>
      exact routed_keeps here rfl fun engine path active => here
  | opendir path =>
      refine routed_keeps here rfl fun engine path active => ?_
      split
      · next entries fs result =>
        rw [show fs = session.vfs from (congrArg Prod.snd result).symm]
        exact looking here active rfl rfl
      · next error fs result =>
        rw [show fs = session.vfs from (congrArg Prod.snd result).symm]
        exact here
      · next fs result =>
        rw [show fs = session.vfs from (congrArg Prod.snd result).symm]
        exact here
  | realpath path resolved =>
      refine routed_keeps here rfl fun engine path active => ?_
      have same := virtualMeta_snd around path session.vfs
      split
      · next fs result =>
        rw [result] at same
        rw [show fs = session.vfs from same]
        exact here
      · next report fs result =>
        rw [result] at same
        rw [show fs = session.vfs from same]
        fun_cases copyOutPath around.machine path resolved
          (session.withVfs session.vfs) with
        | case1 | case2 | case3 | case4 =>
            exact here
  | access path mode =>
      exact accessCommon_frame around here _ mode
  | faccessat dirfd path mode flags =>
      exact accessCommon_frame around here _ mode
  | chdir path =>
      exact shimChdir_keeps around here path fun _ _ active =>
        looking here active rfl rfl
  | readlink path buf bufsiz =>
      exact routed_keeps here rfl fun engine path active => here

theorem shimDir_frame (here : good session) (call : DirCall) :
    good (shimDir around.machine call session).process := by
  cases call with
  | readdir sym dirp =>
      refine withDir_keeps here fun engine dir active => ?_
      split
      · exact here
      · exact looking here active rfl rfl
  | closedir dirp =>
      exact withDir_keeps here fun engine dir active =>
        looking here active rfl rfl
  | getcwd buf size =>
      simp only [shimDir]
      fun_cases shimGetcwd around.machine buf size session with
      | _ =>
          exact here

end Looking

end Frames

end Hookfs.Unix
