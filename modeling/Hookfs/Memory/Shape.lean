import Hookfs.Lib.Runs
import Hookfs.Memory.Moves

/-!
# Which runs keep the tree well-formed

The mutating operations as one step function, with the keys that inserts
have returned, and the exact condition under which each of them keeps every
entry below a directory.
-/

namespace Hookfs.Memory

open Hookfs.Lib Hookfs.Posix

namespace MemoryFs

/-! ## One operation -/

section Operations

variable {fs : MemoryFs} {path : Text}

theorem wellFormed_congr {next : MemoryFs}
    (same : next.entries = fs.entries) :
    next.WellFormed ↔ fs.WellFormed := by
  unfold WellFormed
  rw [same]

theorem noFileAbove_congr {next : MemoryFs}
    (same : next.entries = fs.entries) (key : Text) :
    next.NoFileAbove key ↔ fs.NoFileAbove key := by
  unfold NoFileAbove
  rw [same]

/-- Mounting at a path is safe when no ancestor is a file and nothing lies
below. -/
def InsertOk (fs : MemoryFs) (key : Text) : Prop :=
  fs.NoFileAbove key ∧ fs.NothingBelow key

theorem wellFormed_insertFile_iff (lexical : Lexical path)
    (canonical : fs.Canonical) (wellFormed : fs.WellFormed)
    (source : Vfs.SharedSource) (mtime : Option Vfs.Time) :
    (fs.insertFile path source mtime).2.WellFormed ↔
      fs.InsertOk (normalizeKeyStr path) := by
  have planted := wellFormed_planted_iff lexical canonical wellFormed
    (.file source (finalComponent path) mtime)
  simpa [InsertOk, insertFile, Node.isDir] using planted

theorem wellFormed_insertWritable_iff (lexical : Lexical path)
    (canonical : fs.Canonical) (wellFormed : fs.WellFormed)
    (now : Vfs.Time) :
    (fs.insertWritable now path).2.WellFormed ↔
      fs.InsertOk (normalizeKeyStr path) := by
  have nextCanonical : (fs.newFile now).2.Canonical := canonical.congr rfl
  have nextWellFormed : (fs.newFile now).2.WellFormed := wellFormed
  have planted := wellFormed_planted_iff lexical nextCanonical nextWellFormed
    (.memFile (fs.newFile now).1 (finalComponent path))
  simp only [Node.isDir, Bool.false_eq_true, false_or] at planted
  exact planted

/-- Creating a node is safe when the key is taken, so nothing is created, or
no ancestor is a file. -/
def CreateOk (fs : MemoryFs) (key : Text) : Prop :=
  (fs.entries.lookup key).isSome = true ∨ fs.NoFileAbove key

/-- Planting at an absent key. -/
theorem wellFormed_created_iff {next : MemoryFs}
    (same : next.entries = fs.entries) (lexical : Lexical path)
    (canonical : fs.Canonical) (wellFormed : fs.WellFormed)
    (absent : fs.entries.lookup (normalizeKeyStr path) = none)
    (node : Node) :
    (insertAncestorDirs path
        (next.place (normalizeKeyStr path) node)).WellFormed ↔
      fs.CreateOk (normalizeKeyStr path) := by
  have nextCanonical := canonical.congr same
  have nextWellFormed := (wellFormed_congr same).mpr wellFormed
  rw [wellFormed_planted_iff lexical nextCanonical nextWellFormed node,
    noFileAbove_congr same]
  have bare : next.NothingBelow (normalizeKeyStr path) := by
    apply nothingBelow_of_absent nextWellFormed
    rw [same, absent]
  simp [CreateOk, absent, bare]

theorem wellFormed_createDir_iff (lexical : Lexical path)
    (canonical : fs.Canonical) (wellFormed : fs.WellFormed) :
    (fs.createDir path).2.WellFormed ↔
      fs.CreateOk (normalizeKeyStr path) := by
  unfold createDir
  cases present : fs.entries.lookup (normalizeKeyStr path) with
  | some node =>
      simp [present, CreateOk, wellFormed]
  | none =>
      simp only [present, Option.isSome_none, Bool.false_eq_true, if_false]
      exact wellFormed_created_iff rfl lexical canonical wellFormed present _

/-- `open_write` is safe when it does not create, or creates safely. -/
def OpenWriteOk (fs : MemoryFs) (key : Text) (opts : Vfs.OpenOptions) :
    Prop :=
  opts.creates = false ∨ fs.CreateOk key

/-- `open_write` leaves the entries alone or plants a file at an absent
key. -/
theorem entries_openWrite (now : Vfs.Time) (path : Text)
    (opts : Vfs.OpenOptions) (fs : MemoryFs) :
    (fs.openWrite now path opts).2.entries = fs.entries ∧
        ((fs.entries.lookup (normalizeKeyStr path)).isSome = true ∨
          opts.creates = false) ∨
      fs.entries.lookup (normalizeKeyStr path) = none ∧
        opts.creates = true ∧
        ∃ next : MemoryFs, ∃ file, next.entries = fs.entries ∧
          (fs.openWrite now path opts).2.entries =
            (insertAncestorDirs path (next.place (normalizeKeyStr path)
              (.memFile file (finalComponent path)))).entries := by
  cases present : fs.entries.lookup (normalizeKeyStr path) with
  | some node =>
      left
      refine ⟨?_, Or.inl rfl⟩
      cases node with
      | dir name =>
          simp only [openWrite, present]
      | file source name mtime =>
          simp only [openWrite, present]
      | memFile file name =>
          simp only [openWrite, present]
          split
          · rfl
          · rw [entries_finishOpenWrite, entries_cloneFile]
  | none =>
      cases creates : opts.creates with
      | false =>
          left
          simp [openWrite, present, creates]
      | true =>
          right
          refine ⟨rfl, rfl, (fs.newFile now).2.cloneFile fs.nextFile,
            fs.nextFile, ?_, ?_⟩
          · rw [entries_cloneFile]
            rfl
          · simp only [openWrite, present, creates, if_true]
            rw [entries_finishOpenWrite]
            rfl

theorem wellFormed_openWrite_iff (lexical : Lexical path)
    (canonical : fs.Canonical) (wellFormed : fs.WellFormed)
    (now : Vfs.Time) (opts : Vfs.OpenOptions) :
    (fs.openWrite now path opts).2.WellFormed ↔
      fs.OpenWriteOk (normalizeKeyStr path) opts := by
  rcases entries_openWrite now path opts fs with
    ⟨same, taken | plain⟩ | ⟨absent, creates, next, file, same, planted⟩
  · rw [wellFormed_congr same]
    simp [OpenWriteOk, CreateOk, taken, wellFormed]
  · rw [wellFormed_congr same]
    simp [OpenWriteOk, plain, wellFormed]
  · rw [wellFormed_congr planted, OpenWriteOk, creates,
      wellFormed_created_iff same lexical canonical wellFormed absent]
    simp

/-- `remove` changes nothing or takes out a file or a childless
directory. -/
theorem remove_cases (path : Text) (fs : MemoryFs) :
    (fs.remove path).2 = fs ∨
      (fs.remove path).2 = fs.evict (normalizeKeyStr path) ∧
        (fs.WellFormed → fs.NothingBelow (normalizeKeyStr path)) := by
  cases present : fs.entries.lookup (normalizeKeyStr path) with
  | none =>
      left
      simp only [remove, present]
  | some node =>
      cases node with
      | file source name mtime =>
          right
          simp only [remove, present, true_and]
          exact fun wellFormed => nothingBelow_of_file wellFormed present rfl
      | memFile file name =>
          right
          simp only [remove, present, true_and]
          exact fun wellFormed => nothingBelow_of_file wellFormed present rfl
      | dir name =>
          simp only [remove, present]
          split
          · exact Or.inl rfl
          · rename_i childless
            exact Or.inr ⟨rfl, fun _ =>
              hasChild_eq_false (Bool.eq_false_iff.mpr childless)⟩

theorem wellFormed_remove (wellFormed : fs.WellFormed) (path : Text) :
    (fs.remove path).2.WellFormed := by
  rcases remove_cases path fs with same | ⟨taken, bare⟩
  · rw [same]
    exact wellFormed
  · rw [taken]
    exact wellFormed.evict (bare wellFormed)

theorem canonical_remove (canonical : fs.Canonical) (path : Text) :
    (fs.remove path).2.Canonical := by
  rcases remove_cases path fs with same | ⟨taken, -⟩
  · rw [same]
    exact canonical
  · rw [taken]
    exact canonical.evict _

theorem canonical_openWrite (lexical : Lexical path)
    (canonical : fs.Canonical) (now : Vfs.Time) (opts : Vfs.OpenOptions) :
    (fs.openWrite now path opts).2.Canonical := by
  rcases entries_openWrite now path opts fs with
    ⟨same, -⟩ | ⟨-, -, next, file, same, planted⟩
  · exact canonical.congr same
  · exact (canonical_planted lexical (canonical.congr same) _).congr planted

theorem canonical_createDir (lexical : Lexical path)
    (canonical : fs.Canonical) : (fs.createDir path).2.Canonical := by
  unfold createDir
  simp only
  split
  · exact canonical
  · exact canonical_planted lexical canonical _

/-- A rename is safe when the source is missing, when it is a directory and
the destination lies inside it (`EINVAL`), or when no ancestor of the
destination, other than the source, is a file. -/
def RenameOk (fs : MemoryFs) (source target : Text) : Prop :=
  fs.entries.lookup source = none ∨
    (∃ name, fs.entries.lookup source = some (.dir name) ∧
      isUnder source target = true) ∨
    ∀ up node, fs.entries.lookup up = some node →
      isAncestor up target = true → up ≠ source → node.isDir = true

/-- In a well-formed tree no ancestor of an entry is a file. -/
theorem noFileAbove_of_present (canonical : fs.Canonical)
    (wellFormed : fs.WellFormed) {names : List Name} {node : Node}
    (present : fs.view names = some node) :
    fs.NoFileAbove (keyOf names) := by
  rw [noFileAbove_iff canonical]
  intro up found before different upPresent
  obtain ⟨extra, rfl⟩ := before
  have nonempty : extra ≠ [] := by
    rintro rfl
    exact different (List.append_nil up).symm
  obtain ⟨dir, dirPresent, isDir⟩ :=
    ((wellFormed_iff canonical).mp wellFormed).ancestor nonempty present
  rw [upPresent, Option.some.injEq] at dirPresent
  rwa [dirPresent]

theorem renameOk_of_target (canonical : fs.Canonical)
    (wellFormed : fs.WellFormed) {names : List Name} {node : Node}
    (present : fs.view names = some node) (source : Text) :
    fs.RenameOk source (keyOf names) := by
  refine Or.inr (Or.inr ?_)
  intro up found upPresent above _
  exact noFileAbove_of_present canonical wellFormed present up found
    upPresent above

/-- `clear_destination` fails only on an existing destination. -/
theorem clearDestination_error {kind : Bool} {key : Text}
    {error : Vfs.IoError}
    (failed : clearDestination kind key fs = .error error) :
    ∃ node, fs.entries.lookup key = some node := by
  cases present : fs.entries.lookup key with
  | none =>
      simp [clearDestination, present] at failed
  | some node =>
      exact ⟨node, rfl⟩

/-- `rename` changes nothing, safely, or gets as far as its moving loop. -/
theorem rename_cases (hash : HashOrder) {source target : Text}
    (lexicalSource : Lexical source) (lexicalTarget : Lexical target)
    (canonical : fs.Canonical) (wellFormed : fs.WellFormed) :
    (fs.rename hash source target).2 = fs ∧
        fs.RenameOk (normalizeKeyStr source) (normalizeKeyStr target) ∨
      ∃ cleared node,
        Moving fs cleared (namesOf source) (namesOf target) node ∧
        (fs.rename hash source target).2 =
          insertAncestorDirs target
            (moveLoop (keyOf (namesOf source)) (keyOf (namesOf target))
              (finalComponent target)
              (Moving.toMove hash cleared (keyOf (namesOf source)))
              cleared) := by
  unfold rename
  rw [normalizeKeyStr_eq_keyOf lexicalSource.1,
    normalizeKeyStr_eq_keyOf lexicalTarget.1]
  cases present : fs.entries.lookup (keyOf (namesOf source)) with
  | none =>
      exact Or.inl ⟨by simp only [present], Or.inl present⟩
  | some node =>
      simp only [present]
      split
      · rename_i same
        left
        refine ⟨rfl, ?_⟩
        rw [keyOf_inj] at same
        rw [same]
        exact renameOk_of_target canonical wellFormed present _
      · rename_i different
        split
        · rename_i inside
          rw [Bool.and_eq_true] at inside
          obtain ⟨name, rfl⟩ := isDir_iff.mp inside.1
          exact Or.inl ⟨rfl, Or.inr (Or.inl ⟨name, present, inside.2⟩)⟩
        · rename_i outside
          rw [Bool.and_eq_true] at outside
          split
          · rename_i error failed
            obtain ⟨found, targetPresent⟩ := clearDestination_error failed
            exact Or.inl ⟨rfl,
              renameOk_of_target canonical wellFormed targetPresent _⟩
          · rename_i cleared passed
            right
            refine ⟨cleared, node, ?_, rfl⟩
            exact ⟨canonical, wellFormed, present,
              fun same => different (by rw [same]), outside, passed⟩

theorem wellFormed_rename_iff (hash : HashOrder) {source target : Text}
    (lexicalSource : Lexical source) (lexicalTarget : Lexical target)
    (canonical : fs.Canonical) (wellFormed : fs.WellFormed) :
    (fs.rename hash source target).2.WellFormed ↔
      fs.RenameOk (normalizeKeyStr source) (normalizeKeyStr target) := by
  rcases rename_cases hash lexicalSource lexicalTarget canonical wellFormed
    with ⟨same, safe⟩ | ⟨cleared, node, moving, moved⟩
  · rw [same]
    exact ⟨fun _ => safe, fun _ => wellFormed⟩
  · rw [moved, wellFormed_iff (moving.canonical_moved hash lexicalTarget _),
      moving.grounded_iff hash lexicalTarget rfl,
      normalizeKeyStr_eq_keyOf lexicalSource.1,
      normalizeKeyStr_eq_keyOf lexicalTarget.1]
    constructor
    · intro clear
      refine Or.inr (Or.inr ?_)
      intro key found present above notSource
      obtain ⟨up, rfl⟩ := canonical key found present
      obtain ⟨before, different⟩ := isAncestor_keyOf.mp above
      exact clear up found before different
        (fun same => notSource (by rw [same])) present
    · rintro (absent | ⟨name, directory, inside⟩ | clear)
      · have present := moving.present
        rw [view, absent] at present
        cases present
      · have present := moving.present
        rw [view, directory, Option.some.injEq] at present
        exact absurd ⟨by rw [← present]; rfl, inside⟩ moving.outside
      · intro up found before different notSource present
        exact clear (keyOf up) found present
          (isAncestor_keyOf.mpr ⟨before, different⟩)
          (fun same => notSource (keyOf_injective same))

theorem canonical_rename (hash : HashOrder) {source target : Text}
    (lexicalSource : Lexical source) (lexicalTarget : Lexical target)
    (canonical : fs.Canonical) (wellFormed : fs.WellFormed) :
    (fs.rename hash source target).2.Canonical := by
  rcases rename_cases hash lexicalSource lexicalTarget canonical wellFormed
    with ⟨same, -⟩ | ⟨cleared, node, moving, moved⟩
  · rw [same]
    exact canonical
  · rw [moved]
    exact moving.canonical_moved hash lexicalTarget _

end Operations

end MemoryFs

/-! ## Runs -/

/-- The mutating operations.  `removeSubtree` names one of the keys that
earlier inserts have returned; a rename brings the order in which the hash
map hands out its keys. -/
inductive TreeOp where
  | insertFile (path : Text) (source : Vfs.SharedSource)
      (mtime : Option Vfs.Time)
  | insertWritable (now : Vfs.Time) (path : Text)
  | openWrite (now : Vfs.Time) (path : Text) (opts : Vfs.OpenOptions)
  | createDir (path : Text)
  | remove (path : Text)
  | rename (hash : MemoryFs.HashOrder) (source target : Text)
  | removeSubtree (ticket : Nat)

/-- The tree and the keys that inserts have returned so far. -/
structure Tenancy where
  fs : MemoryFs
  issued : List Text

namespace Tenancy

open MemoryFs

def start (capacity : Nat) : Tenancy where
  fs := .withCapacity capacity
  issued := []

/-- Keep the key an insert returned. -/
def issue (inserted : Text × MemoryFs) (state : Tenancy) : Tenancy where
  fs := inserted.2
  issued := state.issued ++ [inserted.1]

def step (state : Tenancy) : TreeOp → Tenancy
  | .insertFile path source mtime =>
      state.issue (state.fs.insertFile path source mtime)
  | .insertWritable now path =>
      state.issue (state.fs.insertWritable now path)
  | .openWrite now path opts =>
      { state with fs := (state.fs.openWrite now path opts).2 }
  | .createDir path => { state with fs := (state.fs.createDir path).2 }
  | .remove path => { state with fs := (state.fs.remove path).2 }
  | .rename hash source target =>
      { state with fs := (state.fs.rename hash source target).2 }
  | .removeSubtree ticket =>
      match state.issued[ticket]? with
      | none => state
      | some key => { state with fs := state.fs.removeSubtree key }

end Tenancy

namespace TreeOp

open MemoryFs

/-- Every path is absolute and lexically safe. -/
def Lexical : TreeOp → Prop
  | .insertFile path _ _ => MemoryFs.Lexical path
  | .insertWritable _ path => MemoryFs.Lexical path
  | .openWrite _ path _ => MemoryFs.Lexical path
  | .createDir path => MemoryFs.Lexical path
  | .remove path => MemoryFs.Lexical path
  | .rename _ source target =>
      MemoryFs.Lexical source ∧ MemoryFs.Lexical target
  | .removeSubtree _ => True

instance : (op : TreeOp) → Decidable op.Lexical
  | .insertFile path _ _ =>
      inferInstanceAs (Decidable (MemoryFs.Lexical path))
  | .insertWritable _ path =>
      inferInstanceAs (Decidable (MemoryFs.Lexical path))
  | .openWrite _ path _ =>
      inferInstanceAs (Decidable (MemoryFs.Lexical path))
  | .createDir path => inferInstanceAs (Decidable (MemoryFs.Lexical path))
  | .remove path => inferInstanceAs (Decidable (MemoryFs.Lexical path))
  | .rename _ source target =>
      inferInstanceAs (Decidable
        (MemoryFs.Lexical source ∧ MemoryFs.Lexical target))
  | .removeSubtree _ => inferInstanceAs (Decidable True)

/-- The condition under which a step keeps the tree well-formed. -/
def Safe (state : Tenancy) : TreeOp → Prop
  | .insertFile path _ _ => state.fs.InsertOk (normalizeKeyStr path)
  | .insertWritable _ path => state.fs.InsertOk (normalizeKeyStr path)
  | .openWrite _ path opts =>
      state.fs.OpenWriteOk (normalizeKeyStr path) opts
  | .createDir path => state.fs.CreateOk (normalizeKeyStr path)
  | .remove _ => True
  | .rename _ source target =>
      state.fs.RenameOk (normalizeKeyStr source) (normalizeKeyStr target)
  | .removeSubtree ticket =>
      state.issued[ticket]? = some ['/'] → state.fs.NothingBelow ['/']

end TreeOp

namespace Tenancy

open MemoryFs

/-- Every key, in the map and handed out, is the key of a list of names. -/
structure Keyed (state : Tenancy) : Prop where
  entries : state.fs.Canonical
  issued : ∀ key ∈ state.issued, ∃ names, key = keyOf names

theorem Keyed.issue {state : Tenancy} (keyed : state.Keyed) {path : Text}
    (lexical : MemoryFs.Lexical path) {fs : MemoryFs}
    (canonical : fs.Canonical) :
    (state.issue (normalizeKeyStr path, fs)).Keyed where
  entries := canonical
  issued := by
    intro key member
    rcases List.mem_append.mp member with old | new
    · exact keyed.issued key old
    · rw [List.mem_singleton] at new
      exact ⟨namesOf path, new.trans (normalizeKeyStr_eq_keyOf lexical.1)⟩

theorem step_keyed (state : Tenancy) (op : TreeOp) (keyed : state.Keyed)
    (wellFormed : state.fs.WellFormed) (lexical : op.Lexical) :
    (state.step op).Keyed := by
  cases op with
  | insertFile path source mtime =>
      exact keyed.issue lexical (canonical_planted lexical keyed.entries _)
  | insertWritable now path =>
      have counted : (state.fs.newFile now).2.Canonical :=
        keyed.entries.congr rfl
      exact keyed.issue lexical (canonical_planted lexical counted _)
  | openWrite now path opts =>
      exact ⟨canonical_openWrite lexical keyed.entries now opts,
        keyed.issued⟩
  | createDir path =>
      exact ⟨canonical_createDir lexical keyed.entries, keyed.issued⟩
  | remove path =>
      exact ⟨canonical_remove keyed.entries path, keyed.issued⟩
  | rename hash source target =>
      exact ⟨canonical_rename hash lexical.1 lexical.2 keyed.entries
        wellFormed, keyed.issued⟩
  | removeSubtree ticket =>
      simp only [step]
      split
      · exact keyed
      · exact ⟨keyed.entries.removeSubtree _, keyed.issued⟩

/-- One step keeps a well-formed tree well-formed exactly when it is safe. -/
theorem step_wellFormed_iff (state : Tenancy) (op : TreeOp)
    (keyed : state.Keyed) (wellFormed : state.fs.WellFormed)
    (lexical : op.Lexical) :
    (state.step op).fs.WellFormed ↔ op.Safe state := by
  cases op with
  | insertFile path source mtime =>
      exact wellFormed_insertFile_iff lexical keyed.entries wellFormed
        source mtime
  | insertWritable now path =>
      exact wellFormed_insertWritable_iff lexical keyed.entries wellFormed
        now
  | openWrite now path opts =>
      exact wellFormed_openWrite_iff lexical keyed.entries wellFormed now
        opts
  | createDir path =>
      exact wellFormed_createDir_iff lexical keyed.entries wellFormed
  | remove path =>
      exact iff_of_true (wellFormed_remove wellFormed path) trivial
  | rename hash source target =>
      exact wellFormed_rename_iff hash lexical.1 lexical.2 keyed.entries
        wellFormed
  | removeSubtree ticket =>
      simp only [step, TreeOp.Safe]
      cases found : state.issued[ticket]? with
      | none =>
          simp [wellFormed]
      | some key =>
          obtain ⟨names, rfl⟩ :=
            keyed.issued key (List.mem_of_getElem? found)
          simp only
          rw [wellFormed_removeSubtree_iff keyed.entries wellFormed,
            Option.some.injEq, keyOf_eq_root]
          by_cases root : names = []
          · subst root
            simp [keyOf_nil]
          · simp [root]

theorem keyed_start (capacity : Nat) : (start capacity).Keyed where
  entries := by
    intro key node present
    simp [start, withCapacity] at present
  issued := by
    intro key member
    simp [start] at member

theorem wellFormed_start (capacity : Nat) :
    (start capacity).fs.WellFormed := by
  intro key node present
  simp [start, withCapacity] at present

/-- The tree stays well-formed throughout a run from the empty tree exactly
when every step of the run is safe. -/
theorem tree_wellFormed_iff_safe_steps (capacity : Nat)
    (ops : List TreeOp) (lexical : ∀ op ∈ ops, op.Lexical) :
    Throughout step (fun state => state.fs.WellFormed) (start capacity)
        ops ↔
      EachStep step (fun state op => op.Safe state) (start capacity) ops :=
  throughout_iff_eachStep Keyed TreeOp.Lexical step_keyed step_wellFormed_iff ops
    (start capacity) lexical (keyed_start capacity)
    (wellFormed_start capacity)

/-- A directory, a file in it and a directory beside the file. -/
theorem tree_wellFormed_iff_safe_steps_mkdir :
    Throughout step (fun state => state.fs.WellFormed) (start 8)
      [.createDir "/a".toList, .insertWritable 1 "/a/b".toList,
        .createDir "/a/c".toList] := by
  apply (tree_wellFormed_iff_safe_steps 8 _ ?_).mpr
  · refine ⟨Or.inr ?_, ⟨?_, ?_⟩, Or.inr ?_, trivial⟩
    · decide
    · decide
    · decide
    · decide
  · decide

/-- A directory made below a writable file. -/
theorem tree_not_wellFormed_below_file :
    ¬ ∀ (capacity : Nat) (ops : List TreeOp),
      (∀ op ∈ ops, op.Lexical) →
        Throughout step (fun state => state.fs.WellFormed) (start capacity)
          ops := by
  intro always
  have whole := always 8
    [.insertWritable 1 "/a".toList, .createDir "/a/b".toList] (by decide)
  obtain ⟨up, name, upKey, upDir⟩ := whole.2.2 "/a/b".toList
    (.dir "b".toList) (by decide) (by decide)
  have parent : parentKey "/a/b".toList = some "/a".toList := by decide
  rw [parent, Option.some.injEq] at upKey
  subst upKey
  have file : (step (step (start 8) (.insertWritable 1 "/a".toList))
      (.createDir "/a/b".toList)).fs.entries.lookup "/a".toList =
        some (.memFile 0 "a".toList) := by decide
  rw [file] at upDir
  cases upDir

end Tenancy

end Hookfs.Memory
