import Hookfs.Memory.Exact

/-!
# Owners at every capacity

`Counted` needs a capacity that leaves room for sums of words.  What holds at
every capacity a word can state is less: every owner of a file has its `Arc`,
numbers of files to come are unused, and the volume is not over its capacity.
-/

namespace Hookfs.Memory

open Hookfs.Lib Hookfs.Vfs

namespace Volume

/-- A volume that is not over its capacity, which is a word. -/
structure Within (volume : Volume) : Prop where
  used : volume.used ≤ volume.capacity
  word : volume.capacity ≤ wordMax

variable {volume : Volume}

theorem Within.subUsed (within : volume.Within) (amount : Nat) :
    (volume.subUsed amount).Within where
  used := Nat.le_trans (Nat.sub_le _ _) within.used
  word := within.word

theorem Within.resize (within : volume.Within) (old new : Nat) :
    (volume.resize old new).2.Within := by
  have used := within.used
  have word := within.word
  unfold Volume.resize
  split
  · split
    · exact within
    · rename_i fits
      -- a sum past the last word wraps, and stays below that word
      constructor
      · simp only [saturatingAdd, wrappingAdd, wordMax] at fits word ⊢
        omega
      · exact word
  · exact within.subUsed _

theorem Within.reserve (within : volume.Within) (old desired : Nat) :
    (volume.reserve old desired).2.Within := by
  have used := within.used
  have word := within.word
  constructor
  · simp only [Volume.reserve, wrappingAdd, wordMax] at word ⊢
    omega
  · exact word

end Volume

namespace MemoryFs

/-- Every owner of a file, in the tree or outside of it, has its `Arc`. -/
structure Held (fs : MemoryFs) (outside : Nat → Nat) : Prop where
  owned : ∀ file, fs.treeHolds file + outside file ≤ fs.strong file
  fresh : ∀ file, fs.nextFile ≤ file → fs.files.lookup file = none
  within : fs.volume.Within

variable {fs : MemoryFs} {outside others : Nat → Nat}

/-- Owners that go without returning their `Arc` leave it behind. -/
theorem Held.mono (held : fs.Held outside)
    (fewer : ∀ file, others file ≤ outside file) : fs.Held others where
  owned file := by
    have owned := held.owned file
    have less := fewer file
    omega
  fresh := held.fresh
  within := held.within

theorem Held.present (held : fs.Held outside) {file : Nat}
    (owner : 0 < fs.treeHolds file + outside file) :
    ∃ content, fs.files.lookup file = some content := by
  have owned := held.owned file
  cases found : fs.files.lookup file with
  | some content =>
      exact ⟨content, rfl⟩
  | none =>
      simp only [strong, found] at owned
      omega

theorem Held.inTree (held : fs.Held outside) {file : Nat}
    (owner : 0 < fs.treeHolds file) :
    ∃ content, fs.files.lookup file = some content :=
  held.present (Nat.add_pos_left owner _)

theorem Held.newFile (held : fs.Held outside) (now : Time) :
    (fs.newFile now).2.Held (outside + one (fs.newFile now).1) where
  owned other := by
    have owned := held.owned other
    have absent := held.fresh fs.nextFile (Nat.le_refl _)
    by_cases same : other = fs.nextFile
    · subst same
      simp only [strong, absent] at owned
      simp only [MemoryFs.newFile, strong, AList.lookup_insert, treeHolds,
        one, if_true, Pi.add_apply] at owned ⊢
      omega
    · simp only [MemoryFs.newFile, strong, AList.lookup_insert_ne same,
        treeHolds, one, if_neg same, Pi.add_apply] at owned ⊢
      omega
  fresh other above := by
    simp only [MemoryFs.newFile] at above ⊢
    rw [AList.lookup_insert_ne (by omega)]
    exact held.fresh other (by omega)
  within := held.within

/-- Changing what the map has for one file, with its strong count in step
with its owners. -/
theorem Held.update {file : Nat} {before after : MemFile} {volume : Volume}
    (held : fs.Held outside)
    (present : fs.files.lookup file = some before)
    (counts : others file + before.strong ≤ outside file + after.strong)
    (elsewhere : ∀ other, other ≠ file → others other ≤ outside other)
    (within : volume.Within) :
    Held { fs with
      files := fs.files.insert file after
      volume := volume } others where
  owned other := by
    have owned := held.owned other
    by_cases same : other = file
    · subst same
      simp only [strong, present, AList.lookup_insert, treeHolds]
        at owned ⊢
      omega
    · have less := elsewhere other same
      simp only [strong, AList.lookup_insert_ne same, treeHolds] at owned ⊢
      omega
  fresh other above := by
    have absent := held.fresh other above
    have different : other ≠ file := by
      intro same
      rw [same, present] at absent
      cases absent
    rw [AList.lookup_insert_ne different]
    exact absent
  within := within

theorem Held.cloneFile {file : Nat} {content : MemFile}
    (held : fs.Held outside)
    (present : fs.files.lookup file = some content) :
    (fs.cloneFile file).Held (outside + one file) := by
  unfold MemoryFs.cloneFile
  rw [present]
  apply held.update present
  · simp only [one, Pi.add_apply, if_true]
    omega
  · intro other different
    simp [one, different]
  · exact held.within

theorem Held.dropFile {file : Nat} (held : fs.Held (outside + one file)) :
    (fs.dropFile file).Held outside := by
  have owner : 0 < fs.treeHolds file + (outside + one file) file := by
    simp only [one, Pi.add_apply, if_true]
    omega
  obtain ⟨content, present⟩ := held.present owner
  have owned := held.owned file
  rw [strong_of_lookup present] at owned
  simp only [one, Pi.add_apply, if_true] at owned
  unfold MemoryFs.dropFile
  rw [present]
  simp only
  split
  · -- the last `Arc`: nobody else owns the file
    constructor
    · intro other
      have otherOwned := held.owned other
      by_cases same : other = file
      · subst same
        simp only [strong, AList.lookup_erase, treeHolds] at owned ⊢
        omega
      · simp only [strong, AList.lookup_erase_ne same, treeHolds,
          Pi.add_apply, one, if_neg same] at otherOwned ⊢
        omega
    · intro other above
      by_cases same : other = file
      · subst same
        exact AList.lookup_erase _ _
      · rw [AList.lookup_erase_ne same]
        exact held.fresh other above
    · exact held.within.subUsed _
  · rename_i shared
    apply held.update present
    · simp only [one, Pi.add_apply, if_true]
      omega
    · intro other different
      simp [one, different]
    · exact held.within

theorem strong_setLen (now : Time) (len : Nat) (content : MemFile)
    (volume : Volume) :
    (content.setLen now len volume).2.1.strong = content.strong := by
  unfold MemFile.setLen
  split
  · rfl
  · rfl

theorem volume_setLen (now : Time) (len : Nat) (content : MemFile)
    (volume : Volume) :
    (content.setLen now len volume).2.2 =
      (volume.resize content.data.length len).2 := by
  unfold MemFile.setLen
  split
  · rename_i outcome
    rw [outcome]
  · rename_i outcome
    rw [outcome]

theorem Held.setFileLen (held : fs.Held outside) (now : Time)
    (file len : Nat) : (fs.setFileLen now file len).2.Held outside := by
  unfold MemoryFs.setFileLen
  split
  · exact held
  · rename_i content present
    apply held.update present
    · rw [strong_setLen]
    · exact fun _ _ => Nat.le_refl _
    · rw [volume_setLen]
      exact held.within.resize _ _

theorem strong_writeAt (now : Time) (pos : Nat) (buf : List UInt8)
    (content : MemFile) (volume : Volume) :
    (content.writeAt now pos buf volume).2.1.strong = content.strong := by
  fun_cases MemFile.writeAt now pos buf content volume with
  | _ =>
      simp_all

theorem within_writeAt {volume : Volume} (within : volume.Within)
    (now : Time) (pos : Nat) (buf : List UInt8) (content : MemFile) :
    (content.writeAt now pos buf volume).2.2.Within := by
  unfold MemFile.writeAt
  split
  · exact within
  · simp only
    split
    · exact within
    · have reserved := within.reserve content.data.length
      split
      · exact (reserved _).subUsed _
      · exact reserved _

theorem Held.writeFile (held : fs.Held outside) (now : Time)
    (file pos : Nat) (buf : List UInt8) :
    (fs.writeFile now file pos buf).2.Held outside := by
  unfold MemoryFs.writeFile
  split
  · exact held
  · rename_i content present
    apply held.update present
    · rw [strong_writeAt]
    · exact fun _ _ => Nat.le_refl _
    · exact within_writeAt held.within now pos buf content

/-- Owners are accounted for at every capacity. -/
theorem accounts_held : Accounts Held where
  present held := held.present (by
    simp only [one, Pi.add_apply, if_true]
    omega)
  reheld held same :=
    { owned := fun file => by
        have owned := held.owned file
        have equal := congrFun same file
        simp only [Pi.add_apply, treeHolds] at owned equal ⊢
        exact equal ▸ owned
      fresh := held.fresh
      within := held.within }
  newFile now held := held.newFile now
  cloneFile held present := held.cloneFile present
  dropFile held := held.dropFile
  setFileLen now file len held := held.setFileLen now file len
  writeFile now file pos buf held := held.writeFile now file pos buf

/-! ### Owners that leak -/

/-- Accounts that stand it when owners go without returning their `Arc`. -/
structure Forgiving (kept : MemoryFs → (Nat → Nat) → Prop) : Prop where
  accounts : Accounts kept
  fewer : ∀ {fs : MemoryFs} {outside others : Nat → Nat},
    kept fs outside → (∀ file, others file ≤ outside file) → kept fs others

theorem forgiving_held : Forgiving Held where
  accounts := accounts_held
  fewer held fewer := held.mono fewer

/-- Kept, if some owners that have gone are still counted. -/
def Leaky (kept : MemoryFs → (Nat → Nat) → Prop) (fs : MemoryFs)
    (outside : Nat → Nat) : Prop :=
  ∃ leaked, kept fs (outside + leaked)

theorem Accounts.leaky {kept : MemoryFs → (Nat → Nat) → Prop}
    (accounts : Accounts kept) : Accounts (Leaky kept) where
  present := by
    rintro fs outside file ⟨leaked, here⟩
    rw [add_right_comm] at here
    exact accounts.present here
  reheld := by
    rintro fs outside others entries ⟨leaked, here⟩ same
    refine ⟨leaked, accounts.reheld here ?_⟩
    rw [← add_assoc, same, add_assoc]
  newFile := by
    rintro fs outside now ⟨leaked, here⟩
    refine ⟨leaked, ?_⟩
    rw [add_right_comm]
    exact accounts.newFile now here
  cloneFile := by
    rintro fs outside file content ⟨leaked, here⟩ present
    refine ⟨leaked, ?_⟩
    rw [add_right_comm]
    exact accounts.cloneFile here present
  dropFile := by
    rintro fs outside file ⟨leaked, here⟩
    rw [add_right_comm] at here
    exact ⟨leaked, accounts.dropFile here⟩
  setFileLen := by
    rintro fs outside now file len ⟨leaked, here⟩
    exact ⟨leaked, accounts.setFileLen now file len here⟩
  writeFile := by
    rintro fs outside now file pos buf ⟨leaked, here⟩
    exact ⟨leaked, accounts.writeFile now file pos buf here⟩

theorem forgiving_leaky {kept : MemoryFs → (Nat → Nat) → Prop}
    (accounts : Accounts kept) : Forgiving (Leaky kept) where
  accounts := accounts.leaky
  fewer := by
    rintro fs outside others ⟨leaked, here⟩ fewer
    refine ⟨outside - others + leaked, ?_⟩
    have whole : others + (outside - others + leaked) = outside + leaked := by
      funext file
      have less := fewer file
      simp only [Pi.add_apply, Pi.sub_apply]
      omega
    rw [whole]
    exact here

end MemoryFs

/-! ## Whole runs -/

namespace Desk

open MemoryFs

theorem kept_start {capacity : Nat} (word : capacity ≤ wordMax) :
    (start capacity).Kept Held where
  here :=
    { owned := fun file => by
        change 0 ≤ 0
        exact Nat.le_refl 0
      fresh := fun file _ => rfl
      within := ⟨Nat.zero_le _, word⟩ }
  fresh _ _ := rfl

/-- Whatever is done with a tree of whatever capacity, the owners of its
files are accounted for. -/
theorem held_run {capacity : Nat} (word : capacity ≤ wordMax)
    (ops : List DeskOp) :
    (run step (start capacity) ops).Kept Held := by
  have each (desk : Desk) (op : DeskOp) (own : desk.Kept Held)
      (_ : True) : (desk.step op).Kept Held :=
    step_kept accounts_held desk op own
  exact run_of_allowed _ each (fun _ _ => trivial) (kept_start word)

end Desk

end Hookfs.Memory
