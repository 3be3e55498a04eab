import Hookfs.Lib.Runs
import Hookfs.Memory.Moves
import Hookfs.Mount.Context

/-!
# Which runs keep mounts apart

A live guard's mount is isolated while its path is found and opens to its
own content.  Mounting over a live key and dropping a guard with live keys
below are the steps that lose a mount, and the only ones.
-/

namespace Hookfs.Mount

open Hookfs.Lib Hookfs.Vfs Hookfs.Posix Hookfs.Memory

/-! ## What a mount serves -/

namespace Content

/-- The cursor an open of the mount hands out. -/
def cursor : Content → MemoryFs.Stream
  | .stream origin => .source origin 0
  | .writable file => .memory file 0

/-- The node of a mount. -/
def Matches : Content → Node → Prop
  | .stream origin, .file source _ _ => source = origin
  | .writable file, .memFile id _ => id = file
  | _, _ => False

theorem Matches.isDir {content : Content} {node : Node}
    (matched : content.Matches node) : node.isDir = false := by
  cases node with
  | file source name mtime =>
      rfl
  | memFile id name =>
      rfl
  | dir name =>
      cases content with
      | stream origin =>
          exact matched.elim
      | writable file =>
          exact matched.elim

end Content

/-- The mount is found by `metadata`, and every open of its path gets a
cursor over its own content. -/
def Serves (fs : MemoryFs) (guard : MountGuard) : Prop :=
  (∃ report, fs.metadata guard.path = some (.ok report)) ∧
    ∀ opts, (fs.open guard.path opts).1 =
      some (.ok guard.content.cursor)

theorem serves_iff {fs : MemoryFs} {guard : MountGuard} :
    Serves fs guard ↔
      ∃ node, fs.entries.lookup (normalizeKeyStr guard.path) = some node ∧
        guard.content.Matches node := by
  unfold Serves MemoryFs.metadata MemoryFs.open
  cases present : fs.entries.lookup (normalizeKeyStr guard.path) with
  | none =>
      simp
  | some node =>
      cases node with
      | file source name mtime =>
          cases guard.content with
          | stream origin =>
              simp [Content.cursor, Content.Matches]
          | writable file =>
              simp [Content.cursor, Content.Matches]
      | memFile id name =>
          cases guard.content with
          | stream origin =>
              simp [Content.cursor, Content.Matches]
          | writable file =>
              simp [Content.cursor, Content.Matches]
      | dir name =>
          cases guard.content with
          | stream origin =>
              simp [Content.Matches]
          | writable file =>
              simp [Content.Matches]

namespace Mounts

/-- Every live guard's mount is served. -/
def Isolated (mounts : Mounts) : Prop :=
  ∀ id guard, mounts.guards.lookup id = some guard →
    Serves mounts.context.fs guard

/-- The content was mounted before now. -/
def Old (context : Context) : Content → Prop
  | .stream origin => origin.stream < context.nextStream
  | .writable file => file < context.fs.nextFile

/-- What is known of every live guard. -/
structure Recorded (mounts : Mounts) : Prop where
  fresh : ∀ id, mounts.nextGuard ≤ id → mounts.guards.lookup id = none
  key : ∀ id guard, mounts.guards.lookup id = some guard →
    guard.key = normalizeKeyStr guard.path
  old : ∀ id guard, mounts.guards.lookup id = some guard →
    Old mounts.context guard.content

/-- No live guard has the key of the path. -/
def Unclaimed (mounts : Mounts) (path : Text) : Prop :=
  ∀ id guard, mounts.guards.lookup id = some guard →
    guard.key ≠ normalizeKeyStr path

end Mounts

/-- A mount must not hit the key of a live guard; a dropped guard must not
have the key of another live guard at or below its own. -/
def MountOp.Clear (mounts : Mounts) : MountOp → Prop
  | .mount name probe =>
      validateLogical name = .ok () → (∃ size, probe = .ok size) →
        mounts.Unclaimed (mounts.context.pathFor name)
  | .mountWritable _ name =>
      validateLogical name = .ok () →
        mounts.Unclaimed (mounts.context.pathFor name)
  | .dropGuard id =>
      ∀ guard, mounts.guards.lookup id = some guard →
        ∀ other live, other ≠ id → mounts.guards.lookup other = some live →
          MemoryFs.covers guard.key live.key = false

namespace Mounts

variable {mounts : Mounts}

/-! ## One step -/

/-- Mounting keeps all mounts isolated exactly when the key is unclaimed. -/
theorem isolated_planted_iff {guard : MountGuard} {context : Context}
    (recorded : mounts.Recorded) (isolated : mounts.Isolated) {node : Node}
    (here : context.fs.entries.lookup (normalizeKeyStr guard.path) =
      some node)
    (kept : ∀ other found, other ≠ normalizeKeyStr guard.path →
      mounts.context.fs.entries.lookup other = some found →
        context.fs.entries.lookup other = some found)
    (own : guard.content.Matches node)
    (foreign : ∀ content, Old mounts.context content →
      ¬ content.Matches node) :
    (mounts.accept (.ok guard, context)).Isolated ↔
      mounts.Unclaimed guard.path := by
  have others {id : Nat} {live : MountGuard}
      (present : mounts.guards.lookup id = some live) :
      (mounts.accept (.ok guard, context)).guards.lookup id = some live := by
    have different : id ≠ mounts.nextGuard := by
      rintro rfl
      rw [recorded.fresh _ (Nat.le_refl _)] at present
      cases present
    simp only [accept]
    rw [AList.lookup_insert_ne different, present]
  constructor
  · intro next id live present same
    obtain ⟨found, foundHere, matched⟩ :=
      serves_iff.mp (next id live (others present))
    rw [← recorded.key id live present, same] at foundHere
    simp only [accept] at foundHere
    rw [here, Option.some.injEq] at foundHere
    subst foundHere
    exact foreign live.content (recorded.old id live present) matched
  · intro unclaimed id live present
    simp only [accept] at present ⊢
    by_cases same : id = mounts.nextGuard
    · subst same
      rw [AList.lookup_insert, Option.some.injEq] at present
      subst present
      exact serves_iff.mpr ⟨node, here, own⟩
    · rw [AList.lookup_insert_ne same] at present
      obtain ⟨found, foundHere, matched⟩ :=
        serves_iff.mp (isolated id live present)
      have different := unclaimed id live present
      rw [recorded.key id live present] at different
      exact serves_iff.mpr ⟨found, kept _ found different foundHere, matched⟩

/-- Dropping a guard keeps the others isolated exactly when it covers none
of their keys. -/
theorem isolated_dropped_iff {id : Nat} {guard : MountGuard}
    (recorded : mounts.Recorded) (isolated : mounts.Isolated) :
    Isolated { mounts with
        context := mounts.context.dropGuard guard
        guards := mounts.guards.erase id } ↔
      ∀ other live, other ≠ id → mounts.guards.lookup other = some live →
        MemoryFs.covers guard.key live.key = false := by
  have cut := MemoryFs.lookup_removeSubtree guard.key mounts.context.fs
  constructor
  · intro next other live different present
    obtain ⟨found, foundHere, -⟩ := serves_iff.mp (next other live (by
      rw [AList.lookup_erase_ne different, present]))
    rw [← recorded.key other live present] at foundHere
    cases covered : MemoryFs.covers guard.key live.key with
    | false =>
        rfl
    | true =>
        have gone := cut.2 live.key covered
        rw [Context.dropGuard, gone] at foundHere
        cases foundHere
  · intro apart other live present
    by_cases same : other = id
    · subst same
      rw [AList.lookup_erase] at present
      cases present
    · rw [AList.lookup_erase_ne same] at present
      obtain ⟨found, foundHere, matched⟩ :=
        serves_iff.mp (isolated other live present)
      have outside := apart other live same present
      rw [recorded.key other live present] at outside
      exact serves_iff.mpr ⟨found,
        cut.1 _ found matched.isDir foundHere outside, matched⟩

theorem mount_cases (name : Text) (probe : Except IoError Nat)
    (context : Context) :
    (∃ error, context.mount name probe = (.error error, context) ∧
        ¬ (validateLogical name = .ok () ∧ ∃ size, probe = .ok size)) ∨
      ∃ size, validateLogical name = .ok () ∧ probe = .ok size ∧
        context.mount name probe =
          (.ok ⟨normalizeKeyStr (context.pathFor name),
              context.pathFor name,
              .stream ⟨context.nextStream, size⟩⟩,
            { context with
              fs := (context.fs.insertFile (context.pathFor name)
                ⟨context.nextStream, size⟩ none).2
              nextStream := context.nextStream + 1 }) := by
  unfold Context.mount
  cases validated : validateLogical name with
  | error reason =>
      exact Or.inl ⟨_, rfl, by simp⟩
  | ok accepted =>
      cases probe with
      | error error =>
          exact Or.inl ⟨_, rfl, by simp⟩
      | ok size =>
          exact Or.inr ⟨size, rfl, rfl, rfl⟩

theorem mountWritable_cases (now : Time) (name : Text)
    (context : Context) :
    (∃ error, context.mountWritable now name = (.error error, context) ∧
        validateLogical name ≠ .ok ()) ∨
      validateLogical name = .ok () ∧
        context.mountWritable now name =
          (.ok ⟨normalizeKeyStr (context.pathFor name),
              context.pathFor name, .writable context.fs.nextFile⟩,
            { context with
              fs := (context.fs.insertWritable now
                (context.pathFor name)).2 }) := by
  unfold Context.mountWritable
  cases validated : validateLogical name with
  | error reason =>
      exact Or.inl ⟨_, rfl, by simp⟩
  | ok accepted =>
      exact Or.inr ⟨rfl, rfl⟩

theorem Recorded.accept {guard : MountGuard} {context : Context}
    (recorded : mounts.Recorded)
    (key : guard.key = normalizeKeyStr guard.path)
    (new : Old context guard.content)
    (older : ∀ content, Old mounts.context content → Old context content) :
    (mounts.accept (.ok guard, context)).Recorded := by
  refine ⟨?_, ?_, ?_⟩
  · intro id above
    simp only [Mounts.accept] at above ⊢
    rw [AList.lookup_insert_ne (by omega)]
    exact recorded.fresh id (by omega)
  · intro id live present
    simp only [Mounts.accept] at present
    by_cases same : id = mounts.nextGuard
    · subst same
      rw [AList.lookup_insert, Option.some.injEq] at present
      rw [← present, key]
    · rw [AList.lookup_insert_ne same] at present
      exact recorded.key id live present
  · intro id live present
    simp only [Mounts.accept] at present ⊢
    by_cases same : id = mounts.nextGuard
    · subst same
      rw [AList.lookup_insert, Option.some.injEq] at present
      rwa [← present]
    · rw [AList.lookup_insert_ne same] at present
      exact older _ (recorded.old id live present)

theorem old_insertFile (path : Text) (source : SharedSource)
    (context : Context) (content : Content) (old : Old context content) :
    Old { context with
      fs := (context.fs.insertFile path source none).2
      nextStream := context.nextStream + 1 } content := by
  cases content with
  | stream origin =>
      exact Nat.lt_succ_of_lt old
  | writable file =>
      have same : (context.fs.insertFile path source none).2.nextFile =
          context.fs.nextFile :=
        MemoryFs.nextFile_place (normalizeKeyStr path)
          (.file source (finalComponent path) none) context.fs
      simp only [Old, same]
      exact old

theorem nextFile_insertWritable (now : Time) (path : Text)
    (fs : MemoryFs) :
    (fs.insertWritable now path).2.nextFile = fs.nextFile + 1 :=
  MemoryFs.nextFile_place (normalizeKeyStr path)
    (.memFile fs.nextFile (finalComponent path)) (fs.newFile now).2

theorem old_insertWritable (now : Time) (path : Text) (context : Context)
    (content : Content) (old : Old context content) :
    Old { context with fs := (context.fs.insertWritable now path).2 }
      content := by
  cases content with
  | stream origin =>
      exact old
  | writable file =>
      simp only [Old, nextFile_insertWritable]
      exact Nat.lt_succ_of_lt old

theorem step_recorded (mounts : Mounts) (op : MountOp)
    (recorded : mounts.Recorded) : (mounts.step op).Recorded := by
  cases op with
  | mount name probe =>
      simp only [step]
      rcases mount_cases name probe mounts.context with
        ⟨error, failed, -⟩ | ⟨size, -, -, mounted⟩
      · rw [failed]
        exact recorded
      · rw [mounted]
        exact recorded.accept rfl (Nat.lt_succ_self _)
          (old_insertFile _ _ mounts.context)
  | mountWritable now name =>
      simp only [step]
      rcases mountWritable_cases now name mounts.context with
        ⟨error, failed, -⟩ | ⟨-, mounted⟩
      · rw [failed]
        exact recorded
      · rw [mounted]
        refine recorded.accept rfl ?_ (old_insertWritable now _ mounts.context)
        simp only [Old, nextFile_insertWritable]
        exact Nat.lt_succ_self _
  | dropGuard id =>
      simp only [step]
      split
      · exact recorded
      · refine ⟨?_, ?_, ?_⟩
        · intro other above
          by_cases same : other = id
          · subst same
            exact AList.lookup_erase _ _
          · simp only
            rw [AList.lookup_erase_ne same]
            exact recorded.fresh other above
        · intro other live present
          by_cases same : other = id
          · subst same
            rw [AList.lookup_erase] at present
            cases present
          · rw [AList.lookup_erase_ne same] at present
            exact recorded.key other live present
        · intro other live present
          by_cases same : other = id
          · subst same
            rw [AList.lookup_erase] at present
            cases present
          · rw [AList.lookup_erase_ne same] at present
            have old := recorded.old other live present
            cases found : live.content with
            | stream origin =>
                rw [found] at old
                exact old
            | writable file =>
                rw [found] at old
                simp only [Old, Context.dropGuard,
                  MemoryFs.nextFile_removeSubtree]
                exact old

/-- One step keeps all live mounts isolated exactly when it is clear. -/
theorem step_isolated_iff (mounts : Mounts) (op : MountOp)
    (recorded : mounts.Recorded) (isolated : mounts.Isolated) :
    (mounts.step op).Isolated ↔ op.Clear mounts := by
  cases op with
  | mount name probe =>
      simp only [step, MountOp.Clear]
      rcases mount_cases name probe mounts.context with
        ⟨error, failed, refused⟩ | ⟨size, accepted, probed, mounted⟩
      · rw [failed]
        exact iff_of_true isolated fun valid probed =>
          absurd ⟨valid, probed⟩ refused
      · rw [mounted]
        have planted := MemoryFs.lookup_planted
          (mounts.context.pathFor name)
          (normalizeKeyStr (mounts.context.pathFor name))
          (.file ⟨mounts.context.nextStream, size⟩
            (finalComponent (mounts.context.pathFor name)) none)
          mounts.context.fs
        refine (isolated_planted_iff recorded isolated planted.1 planted.2
          ?_ ?_).trans ?_
        · exact rfl
        · intro content old matched
          cases content with
          | stream origin =>
              simp only [Old, ← show _ = origin from matched] at old
              omega
          | writable file =>
              exact matched
        · exact ⟨fun unclaimed _ _ => unclaimed,
            fun clear => clear accepted ⟨size, probed⟩⟩
  | mountWritable now name =>
      simp only [step, MountOp.Clear]
      rcases mountWritable_cases now name mounts.context with
        ⟨error, failed, refused⟩ | ⟨accepted, mounted⟩
      · rw [failed]
        exact iff_of_true isolated fun valid => absurd valid refused
      · rw [mounted]
        have planted := MemoryFs.lookup_planted
          (mounts.context.pathFor name)
          (normalizeKeyStr (mounts.context.pathFor name))
          (.memFile mounts.context.fs.nextFile
            (finalComponent (mounts.context.pathFor name)))
          (mounts.context.fs.newFile now).2
        refine (isolated_planted_iff recorded isolated planted.1 planted.2
          ?_ ?_).trans ?_
        · exact rfl
        · intro content old matched
          cases content with
          | stream origin =>
              exact matched
          | writable file =>
              simp only [Old, ← show _ = file from matched] at old
              omega
        · exact ⟨fun unclaimed _ => unclaimed,
            fun clear => clear accepted⟩
  | dropGuard id =>
      simp only [step, MountOp.Clear]
      cases present : mounts.guards.lookup id with
      | none =>
          exact iff_of_true isolated fun guard impossible => by
            cases impossible
      | some guard =>
          rw [isolated_dropped_iff recorded isolated]
          constructor
          · intro apart found same
            rw [Option.some.injEq] at same
            rwa [← same]
          · exact fun clear => clear guard rfl

/-! ## Runs -/

theorem recorded_start (root : Text) (capacity : Nat) :
    (start root capacity).Recorded where
  fresh := fun _ _ => rfl
  key := by
    intro id guard present
    simp [start] at present
  old := by
    intro id guard present
    simp [start] at present

/-- Over every sequence of mounts and guard drops on one context, all live
mounts stay isolated exactly when every step is clear. -/
theorem mounts_isolated_iff_clear_steps (root : Text) (capacity : Nat)
    (ops : List MountOp) :
    Throughout step Isolated (start root capacity) ops ↔
      EachStep step (fun mounts op => op.Clear mounts)
        (start root capacity) ops := by
  apply throughout_iff_eachStep Recorded (fun _ => True)
  · exact fun mounts op recorded _ _ => step_recorded mounts op recorded
  · exact fun mounts op recorded isolated _ =>
      step_isolated_iff mounts op recorded isolated
  · exact fun _ _ => trivial
  · exact recorded_start root capacity
  · intro id guard present
    simp [start] at present

/-- Two mounts of one name: the second replaces the first. -/
theorem mounts_not_isolated_on_equal_names :
    ¬ ∀ (root : Text) (capacity : Nat) (ops : List MountOp),
      Throughout step Isolated (start root capacity) ops := by
  intro always
  have whole := always "/__hookfs__/1".toList 8
    [.mount "a".toList (.ok 4), .mount "a".toList (.ok 5)]
  have served := whole.2.2 0
    ⟨"/__hookfs__/1/a".toList, "/__hookfs__/1/a".toList, .stream ⟨0, 4⟩⟩
    (by decide)
  have opened := served.2 OpenOptions.readOnly
  revert opened
  decide

end Mounts

end Hookfs.Mount
