import Hookfs.Memory.Exact

/-!
# Failed mutations

`open_write`, `remove`, `rename`, `create_dir` and `set_len` check everything
before their first change.  The one check that comes late, truncating the
file `open_write` has found or made, cannot fail: a truncation asks for no
capacity, and the volume is never over its capacity.
-/

namespace Hookfs.Memory

open Hookfs.Lib Hookfs.Vfs Hookfs.Posix

/-- The mutations of `VirtualFs` that can fail. -/
inductive Mutation where
  | openWrite (now : Time) (path : Text) (opts : OpenOptions)
  | remove (path : Text)
  | rename (hash : MemoryFs.HashOrder) (source target : Text)
  | createDir (path : Text)
  | setLen (now : Time) (path : Text) (len : Nat)

namespace MemoryFs

/-- The outcome of a mutation, without the stream of an open, and the tree
after it. -/
def perform (fs : MemoryFs) : Mutation →
    Option (Except IoError Unit) × MemoryFs
  | .openWrite now path opts =>
      ((fs.openWrite now path opts).1.map (Except.map fun _ => ()),
        (fs.openWrite now path opts).2)
  | .remove path => fs.remove path
  | .rename hash source target => fs.rename hash source target
  | .createDir path => fs.createDir path
  | .setLen now path len => fs.setLen now path len

/-- The same entries with the same nodes, the same files, the same volume. -/
structure Unchanged (before after : MemoryFs) : Prop where
  entries : ∀ key, after.entries.lookup key = before.entries.lookup key
  files : ∀ file, after.files.lookup file = before.files.lookup file
  volume : after.volume = before.volume

theorem Unchanged.refl (fs : MemoryFs) : Unchanged fs fs :=
  ⟨fun _ => rfl, fun _ => rfl, rfl⟩

variable {limit : Nat} {fs : MemoryFs} {outside : Nat → Nat}

/-! ## Truncation cannot fail -/

theorem resize_zero {volume : Volume} {old : Nat}
    (within : volume.used ≤ volume.capacity) :
    (volume.resize old 0).1 = .ok () := by
  unfold Volume.resize
  split
  · rename_i shrunk
    have none : 0 - old = 0 := Nat.zero_sub old
    have fits : ¬ volume.capacity < saturatingAdd volume.used (0 - old) := by
      unfold saturatingAdd
      omega
    rw [if_neg fits]
  · rfl

theorem setFileLen_zero (within : fs.volume.used ≤ fs.volume.capacity)
    (now : Time) (file : Nat) : (fs.setFileLen now file 0).1 = .ok () := by
  unfold setFileLen
  split
  · rfl
  · rename_i content present
    have truncates : (fs.volume.resize content.data.length 0).1 = .ok () :=
      resize_zero within
    unfold MemFile.setLen
    cases resized : fs.volume.resize content.data.length 0 with
    | mk outcome volume =>
        rw [resized] at truncates
        simp only at truncates
        subst truncates
        rfl

theorem finishOpenWrite_succeeds
    (within : fs.volume.used ≤ fs.volume.capacity)
    (now : Time) (opts : OpenOptions) (file : Nat) :
    ∃ stream, (fs.finishOpenWrite now opts file).1 = some (.ok stream) := by
  unfold finishOpenWrite
  have truncated : (if opts.truncate then fs.setFileLen now file 0
      else (.ok (), fs)).1 = .ok () := by
    split
    · exact setFileLen_zero within now file
    · rfl
  simp only
  split
  · rename_i error failed
    rw [truncated] at failed
    cases failed
  · exact ⟨_, rfl⟩

/-! ## One mutation -/

theorem openWrite_unchanged (counted : fs.Counted limit outside) (now : Time)
    (path : Text) (opts : OpenOptions) {error : IoError}
    (failed : (fs.openWrite now path opts).1 = some (.error error)) :
    (fs.openWrite now path opts).2 = fs := by
  unfold openWrite at failed ⊢
  simp only at failed ⊢
  cases found : fs.entries.lookup (normalizeKeyStr path) with
  | some node =>
      simp only [found] at failed ⊢
      cases node with
      | dir name =>
          rfl
      | file source name mtime =>
          rfl
      | memFile file name =>
          simp only at failed ⊢
          split
          · rfl
          · rename_i existing
            rw [if_neg existing] at failed
            obtain ⟨content, present⟩ := counted.present_of_entry found
            obtain ⟨stream, opened⟩ := finishOpenWrite_succeeds
              (counted.cloneFile present).within now opts file
            rw [opened] at failed
            cases failed
  | none =>
      simp only [found] at failed ⊢
      split
      · rename_i creates
        rw [if_pos creates] at failed
        have accounts := accounts_counted limit
        have placed := accounts.created counted now (normalizeKeyStr path)
          (finalComponent path)
        have filled := accounts.insertAncestorDirs placed path
        obtain ⟨stream, opened⟩ := finishOpenWrite_succeeds filled.within now
          opts (fs.newFile now).1
        rw [opened] at failed
        cases failed
      · rfl

theorem remove_unchanged (path : Text) {error : IoError}
    (failed : (fs.remove path).1 = some (.error error)) :
    (fs.remove path).2 = fs := by
  unfold remove at failed ⊢
  simp only at failed ⊢
  split
  · rfl
  · rename_i name directory
    split
    · rfl
    · rename_i childless
      simp [directory, childless] at failed
  · rename_i node notDirectory present
    cases node with
    | dir name =>
        exact absurd rfl (notDirectory name)
    | file source name mtime =>
        simp [present] at failed
    | memFile file name =>
        simp [present] at failed

theorem rename_unchanged (hash : HashOrder) (source target : Text)
    {error : IoError}
    (failed : (fs.rename hash source target).1 = some (.error error)) :
    (fs.rename hash source target).2 = fs := by
  unfold rename at failed ⊢
  simp only at failed ⊢
  split
  · rfl
  · rename_i node present
    simp only [present] at failed
    split
    · rfl
    · rename_i different
      rw [if_neg different] at failed
      split
      · rfl
      · rename_i outsideSource
        rw [if_neg outsideSource] at failed
        split
        · rfl
        · rename_i cleared passed
          rw [passed] at failed
          cases failed

theorem createDir_unchanged (path : Text) {error : IoError}
    (failed : (fs.createDir path).1 = some (.error error)) :
    (fs.createDir path).2 = fs := by
  unfold createDir at failed ⊢
  simp only at failed ⊢
  split
  · rfl
  · rename_i absent
    rw [if_neg absent] at failed
    cases failed

theorem setFileLen_unchanged (now : Time) (file len : Nat) {error : IoError}
    (failed : (fs.setFileLen now file len).1 = .error error) :
    Unchanged fs (fs.setFileLen now file len).2 := by
  unfold setFileLen at failed ⊢
  split
  · exact Unchanged.refl fs
  · rename_i content present
    simp only [present] at failed
    unfold MemFile.setLen at failed ⊢
    cases resized : fs.volume.resize content.data.length len with
    | mk outcome volume =>
        simp only [resized] at failed ⊢
        cases outcome with
        | ok done =>
            cases failed
        | error reason =>
            refine ⟨fun _ => rfl, ?_, resize_error resized⟩
            intro other
            by_cases same : other = file
            · subst same
              rw [AList.lookup_insert, present]
            · exact AList.lookup_insert_ne same

theorem setLen_unchanged (now : Time) (path : Text) (len : Nat)
    {error : IoError}
    (failed : (fs.setLen now path len).1 = some (.error error)) :
    Unchanged fs (fs.setLen now path len).2 := by
  unfold setLen at failed ⊢
  split
  · rename_i file name present
    simp only [present, Option.some.injEq] at failed
    exact setFileLen_unchanged now file len failed
  · exact Unchanged.refl fs
  · exact Unchanged.refl fs

/-- A mutation that fails changes nothing. -/
theorem Counted.perform_unchanged (counted : fs.Counted limit outside)
    (mutation : Mutation) {error : IoError}
    (failed : (fs.perform mutation).1 = some (.error error)) :
    Unchanged fs (fs.perform mutation).2 := by
  cases mutation with
  | openWrite now path opts =>
      have opened : (fs.openWrite now path opts).1 = some (.error error) := by
        cases outcome : (fs.openWrite now path opts).1 with
        | none =>
            simp [perform, outcome] at failed
        | some result =>
            cases result with
            | ok stream =>
                simp [perform, outcome, Except.map] at failed
            | error reason =>
                simpa [perform, outcome, Except.map] using failed
      have same := openWrite_unchanged counted now path opts opened
      simp only [perform, same]
      exact Unchanged.refl fs
  | remove path =>
      have same := remove_unchanged path failed
      simp only [perform, same]
      exact Unchanged.refl fs
  | rename hash source target =>
      have same := rename_unchanged hash source target failed
      simp only [perform, same]
      exact Unchanged.refl fs
  | createDir path =>
      have same := createDir_unchanged path failed
      simp only [perform, same]
      exact Unchanged.refl fs
  | setLen now path len =>
      exact setLen_unchanged now path len failed

end MemoryFs

namespace Desk

open MemoryFs

/-- In every reachable state, a mutation that returns an error leaves every
entry, every file and the volume as they were. -/
theorem failed_mutation_changes_nothing (capacity : Nat)
    (small : capacity < 2 ^ 63) (ops : List DeskOp) (mutation : Mutation)
    (error : IoError)
    (failed : ((run step (start capacity) ops).fs.perform mutation).1 =
      some (.error error)) :
    Unchanged (run step (start capacity) ops).fs
      ((run step (start capacity) ops).fs.perform mutation).2 := by
  have balanced : (run step (start capacity) ops).Balanced capacity :=
    run_of_allowed (Balanced capacity)
      (fun desk op kept (_ : True) => step_balanced desk op kept)
      (fun _ _ => trivial) (balanced_start small)
  exact balanced.counted.perform_unchanged mutation failed

/-- Growing a file past the capacity. -/
theorem failed_mutation_changes_nothing_full :
    Unchanged
      (run step (start 8) [.insertWritable 1 "/a".toList]).fs
      ((run step (start 8) [.insertWritable 1 "/a".toList]).fs.perform
        (.setLen 2 "/a".toList 9)).2 :=
  failed_mutation_changes_nothing 8 (by decide) _ _ noSpace (by decide)

end Desk

end Hookfs.Memory
