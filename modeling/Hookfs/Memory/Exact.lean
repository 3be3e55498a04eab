import Hookfs.Memory.Accounting

/-!
# The volume along whole runs

A tree and its open handles: after every step the volume has charged exactly
the files that the tree or a handle still refers to.
-/

namespace Hookfs.Memory

open Hookfs.Lib Hookfs.Vfs

namespace Desk

open MemoryFs

/-- The `Arc`s the open handles hold. -/
def handleHolds (desk : Desk) : Nat → Nat :=
  Store.total (fun _ stream => stream.holds) desk.handles

/-- The counts of the tree and of the handles together. -/
structure Balanced (limit : Nat) (desk : Desk) : Prop where
  counted : desk.fs.Counted limit desk.handleHolds
  fresh : ∀ handle, desk.nextHandle ≤ handle →
    desk.handles.lookup handle = none

variable {limit : Nat} {desk : Desk}

theorem balanced_start (small : limit < 2 ^ 63) :
    (start limit).Balanced limit where
  counted := by
    refine ⟨?_, ?_, ?_, rfl, Nat.zero_le _, rfl, small, rfl⟩
    · rfl
    · intro file content present
      simp [start, withCapacity] at present
    · intro file _
      simp [start, withCapacity]
  fresh := by
    intro handle _
    simp [start]

/-! ## One step -/

/-- A property that accounts for the tree holds of the tree of a desk, with
the handles as the holders outside of it. -/
structure Kept (kept : MemoryFs → (Nat → Nat) → Prop) (desk : Desk) :
    Prop where
  here : kept desk.fs desk.handleHolds
  fresh : ∀ handle, desk.nextHandle ≤ handle →
    desk.handles.lookup handle = none

section Step

variable {kept : MemoryFs → (Nat → Nat) → Prop}

/-- A step that leaves the handles alone. -/
theorem Kept.withFs (own : desk.Kept kept) {fs : MemoryFs}
    (after : kept fs desk.handleHolds) :
    Kept kept { desk with fs := fs } :=
  ⟨after, own.fresh⟩

theorem Kept.accept (own : desk.Kept kept)
    {opened : Option (Except IoError Stream) × MemoryFs}
    (after : kept opened.2 (desk.handleHolds + openedHolds opened.1)) :
    (desk.accept opened).Kept kept := by
  unfold Desk.accept
  split
  · rename_i stream result
    rw [result, openedHolds] at after
    have absent := own.fresh desk.nextHandle (Nat.le_refl _)
    constructor
    · unfold handleHolds at after ⊢
      rw [Store.total_insert_of_none _ absent, add_comm stream.holds]
      exact after
    · intro handle above
      simp only at above ⊢
      rw [AList.lookup_insert_ne (by omega)]
      exact own.fresh handle (by omega)
  · rename_i failed
    have nothing : openedHolds opened.1 = 0 := by
      cases result : opened.1 with
      | none =>
          rfl
      | some outcome =>
          cases outcome with
          | error error =>
              rfl
          | ok stream =>
              exact absurd result (failed stream)
    rw [nothing, add_zero] at after
    exact own.withFs after

/-- Replacing a handle's stream by one over the same file. -/
theorem Kept.store (own : desk.Kept kept) {handle : Nat}
    {before after : Stream} {fs : MemoryFs}
    (present : desk.handles.lookup handle = some before)
    (same : after.holds = before.holds)
    (there : kept fs desk.handleHolds) :
    (desk.store handle after fs).Kept kept := by
  constructor
  · have unchanged : (desk.store handle after fs).handleHolds =
        desk.handleHolds := by
      unfold handleHolds Desk.store
      rw [Store.total_insert, Store.total_erase_of_lookup _ present, same]
    rw [unchanged]
    exact there
  · intro other above
    have absent := own.fresh other above
    have different : other ≠ handle := by
      rintro rfl
      rw [present] at absent
      cases absent
    unfold Desk.store
    rw [AList.lookup_insert_ne different]
    exact absent

theorem Kept.onMemory (own : desk.Kept kept) (handle : Nat)
    {operate : Nat → Nat → MemoryFs → Stream × MemoryFs}
    (same : ∀ file pos, (operate file pos desk.fs).1.holds = one file)
    (after : ∀ file pos,
      kept (operate file pos desk.fs).2 desk.handleHolds) :
    (desk.onMemory handle operate).Kept kept := by
  unfold Desk.onMemory
  split
  · rename_i file pos present
    exact own.store present (same file pos) (after file pos)
  · exact own

theorem Kept.drop (accounts : Accounts kept) (own : desk.Kept kept)
    {handle : Nat} {stream : Stream}
    (present : desk.handles.lookup handle = some stream) :
    Kept kept { desk with
      fs := stream.drop desk.fs
      handles := desk.handles.erase handle } := by
  constructor
  · have here := own.here
    unfold handleHolds at here ⊢
    rw [Store.total_erase_of_lookup _ present, add_comm] at here
    exact accounts.dropStream here
  · intro other above
    by_cases same : other = handle
    · subst same
      exact AList.lookup_erase _ _
    · rw [AList.lookup_erase_ne same]
      exact own.fresh other above

/-- Every operation keeps what accounts for the primitive ones. -/
theorem step_kept (accounts : Accounts kept) (desk : Desk) (op : DeskOp)
    (own : desk.Kept kept) : (desk.step op).Kept kept := by
  have here := own.here
  cases op with
  | insertFile path source mtime =>
      exact own.withFs (accounts.insertFile here path source mtime)
  | insertWritable now path =>
      exact own.withFs (accounts.insertWritable here now path)
  | «open» path opts =>
      exact own.accept (accounts.open here path opts)
  | openWrite now path opts =>
      exact own.accept (accounts.openWrite here now path opts)
  | createDir path =>
      exact own.withFs (accounts.createDir here path)
  | remove path =>
      exact own.withFs (accounts.remove here path)
  | rename hash source target =>
      exact own.withFs (accounts.rename here hash source target)
  | removeSubtree key =>
      exact own.withFs (accounts.removeSubtree here key)
  | setLen now path len =>
      exact own.withFs (accounts.setLen here now path len)
  | read handle physical len =>
      simp only [step]
      split
      · exact own
      · rename_i stream present
        exact own.store present (holds_read physical len desk.fs stream) here
  | seek handle target =>
      simp only [step]
      split
      · exact own
      · rename_i stream present
        exact own.store present (holds_seek target desk.fs stream) here
  | write now handle buf =>
      simp only [step]
      apply own.onMemory handle
      · exact fun file pos => holds_writeHandle now file pos buf desk.fs
      · exact fun file pos => accounts.writeHandle here now file pos buf
  | setHandleLen now handle len =>
      simp only [step]
      apply own.onMemory handle
      · exact fun _ _ => rfl
      · exact fun file _ => accounts.setFileLen now file len here
  | drop handle =>
      simp only [step]
      split
      · exact own
      · rename_i stream present
        exact own.drop accounts present

end Step

/-- Every operation keeps the counts. -/
theorem step_balanced (desk : Desk) (op : DeskOp)
    (balanced : desk.Balanced limit) : (desk.step op).Balanced limit := by
  have own := step_kept (accounts_counted limit) desk op
    ⟨balanced.counted, balanced.fresh⟩
  exact ⟨own.here, own.fresh⟩

/-! ## What the counts say -/

/-- The tree or an open handle refers to a file. -/
def Refers (desk : Desk) (file : Nat) : Prop :=
  (∃ key name, desk.fs.entries.lookup key = some (.memFile file name)) ∨
    ∃ handle pos, desk.handles.lookup handle = some (.memory file pos)

/-- The volume has charged exactly the live files: each file once, whoever
refers to it, and a file is live exactly as long as somebody does. -/
structure ChargesExactly (limit : Nat) (desk : Desk) : Prop where
  live : ∀ file, (∃ content, desk.fs.files.lookup file = some content) ↔
    desk.Refers file
  used : desk.fs.volume.used =
    Store.total (fun _ content => content.data.length) desk.fs.files
  within : desk.fs.volume.used ≤ limit
  unclamped : desk.fs.volume.saturated = false

theorem one_pos_iff {file other : Nat} : 0 < one file other ↔ other = file := by
  unfold one
  split
  · rename_i same
    exact iff_of_true Nat.one_pos same
  · rename_i different
    exact iff_of_false (Nat.lt_irrefl 0) different

theorem treeHolds_pos_iff {fs : MemoryFs} {file : Nat} :
    0 < fs.treeHolds file ↔
      ∃ key name, fs.entries.lookup key = some (.memFile file name) := by
  unfold treeHolds
  rw [Store.total_apply, Store.total_pos_iff]
  constructor
  · rintro ⟨key, node, present, positive⟩
    cases node with
    | memFile id name =>
        rw [one_pos_iff.mp positive]
        exact ⟨key, name, present⟩
    | file source name mtime =>
        cases positive
    | dir name =>
        cases positive
  · rintro ⟨key, name, present⟩
    exact ⟨key, _, present, one_pos_iff.mpr rfl⟩

theorem handleHolds_pos_iff {file : Nat} :
    0 < desk.handleHolds file ↔
      ∃ handle pos, desk.handles.lookup handle = some (.memory file pos) := by
  unfold handleHolds
  rw [Store.total_apply, Store.total_pos_iff]
  constructor
  · rintro ⟨handle, stream, present, positive⟩
    cases stream with
    | memory id pos =>
        rw [one_pos_iff.mp positive]
        exact ⟨handle, pos, present⟩
    | source origin pos =>
        cases positive
  · rintro ⟨handle, pos, present⟩
    exact ⟨handle, _, present, one_pos_iff.mpr rfl⟩

theorem Balanced.live (balanced : desk.Balanced limit) (file : Nat) :
    (∃ content, desk.fs.files.lookup file = some content) ↔
      desk.Refers file := by
  have balance := congrFun balanced.counted.balance file
  rw [Pi.add_apply] at balance
  unfold Refers
  rw [← treeHolds_pos_iff, ← handleHolds_pos_iff, ← Nat.add_pos_iff_pos_or_pos,
    ← balance]
  constructor
  · rintro ⟨content, present⟩
    rw [strong_of_lookup present]
    exact balanced.counted.alive file content present
  · intro positive
    cases present : desk.fs.files.lookup file with
    | some content =>
        exact ⟨content, rfl⟩
    | none =>
        simp [strong, present] at positive

theorem Balanced.chargesExactly (balanced : desk.Balanced limit) :
    desk.ChargesExactly limit where
  live := balanced.live
  used := balanced.counted.used
  within := balanced.counted.capacity ▸ balanced.counted.within
  unclamped := balanced.counted.exact

/-- From the empty tree on, over every sequence of operations, the volume
charges exactly the live files and never exceeds its capacity. -/
theorem volume_charges_exactly (capacity : Nat)
    (small : capacity < 2 ^ 63) (ops : List DeskOp) :
    Throughout step (ChargesExactly capacity) (start capacity) ops := by
  have balanced : Throughout step (Balanced capacity) (start capacity) ops :=
    throughout_of_step step_balanced ops (start capacity)
      (balanced_start small)
  exact balanced.mono fun _ kept => kept.chargesExactly

/-- A file unlinked while open keeps its bytes until its handle is
dropped. -/
theorem volume_charges_exactly_unlinked :
    Throughout step (ChargesExactly 8) (start 8)
        [.insertWritable 1 "/a".toList,
          .openWrite 2 "/a".toList ⟨true, true, false, false, false, false⟩,
          .write 3 0 [1, 2, 3], .remove "/a".toList, .drop 0] ∧
      (run step (start 8)
        [.insertWritable 1 "/a".toList,
          .openWrite 2 "/a".toList ⟨true, true, false, false, false, false⟩,
          .write 3 0 [1, 2, 3], .remove "/a".toList]).fs.volume.used = 3 :=
  ⟨volume_charges_exactly 8 (by decide) _, by decide⟩

end Desk

end Hookfs.Memory
