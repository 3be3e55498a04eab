import Hookfs.Lib.Runs
import Hookfs.Memory.Subtrees
import Hookfs.Memory.Handles

/-!
# Mounting and dropping

Removing a mounted subtree walks up from it and takes out every directory
without children, whether the mount has made it or not.  So the tree from
before the mount is restored exactly when every directory above the mount had
a child already.
-/

namespace Hookfs.Memory

open Hookfs.Lib Hookfs.Posix

/-- The two ways to mount a file. -/
inductive Mounting where
  | insertFile (source : Vfs.SharedSource) (mtime : Option Vfs.Time)
  | insertWritable (now : Vfs.Time)

namespace MemoryFs

/-- The key a mounting returns, and the tree after it. -/
def mount (path : Text) (fs : MemoryFs) : Mounting → Text × MemoryFs
  | .insertFile source mtime => fs.insertFile path source mtime
  | .insertWritable now => fs.insertWritable now path

/-- The tree after a mounting and the removal of what it returned. -/
def mountAndDrop (path : Text) (mounting : Mounting) (fs : MemoryFs) :
    MemoryFs :=
  (fs.mount path mounting).2.removeSubtree (fs.mount path mounting).1

/-- The same entries with the same nodes, the root aside. -/
def Restored (before after : MemoryFs) : Prop :=
  ∀ key, key ≠ ['/'] →
    after.entries.lookup key = before.entries.lookup key

/-- Filling in directories that all are there restores the tree. -/
theorem restored_of_filled {before after : MemoryFs}
    {dirs : List Name → Prop}
    (filled : Filled before.entries after.entries dirs)
    (present : ∀ up, dirs up → up ≠ [] →
      before.entries.lookup (keyOf up) ≠ none) : Restored before after := by
  intro key notRoot
  cases old : before.entries.lookup key with
  | some node =>
      exact filled.kept key node old
  | none =>
      apply filled.rest key old
      rintro up inside rfl
      apply present up inside _ old
      rintro rfl
      exact notRoot keyOf_nil

theorem length_le_body (parts : List Text) :
    parts.length ≤ (body '/' parts).length := by
  induction parts with
  | nil =>
      exact Nat.le_refl 0
  | cons part rest inductionHypothesis =>
      rw [body_cons]
      simp only [List.length_cons, List.length_append]
      omega

theorem length_le_keyOf (names : List Name) :
    names.length ≤ (keyOf names).length := by
  by_cases empty : names = []
  · rw [empty]
    exact Nat.zero_le _
  · have pieces : names.map Name.text ≠ [] := by simpa using empty
    have bound := length_le_body (names.map Name.text)
    rw [List.length_map] at bound
    rw [keyOf, render_of_ne_nil pieces]
    exact bound

variable {fs : MemoryFs}

/-- Above an entry there are entries only. -/
theorem exists_above (wellFormed : fs.WellFormed) {up names : List Name}
    (before : up <+: names) {node : Node}
    (present : fs.entries.lookup (keyOf names) = some node) :
    ∃ found, fs.entries.lookup (keyOf up) = some found := by
  obtain ⟨extra, rfl⟩ := before
  induction extra using List.reverseRecOn generalizing node with
  | nil =>
      rw [List.append_nil] at present
      exact ⟨node, present⟩
  | append_singleton front last inductionHypothesis =>
      rw [← List.append_assoc] at present
      have notRoot : keyOf (up ++ front ++ [last]) ≠ ['/'] := by
        rw [Ne, keyOf_eq_root]
        simp
      obtain ⟨parent, name, parentEq, parentDir⟩ :=
        wellFormed _ node present notRoot
      rw [parentKey_keyOf, Option.some.injEq] at parentEq
      subst parentEq
      exact inductionHypothesis parentDir

/-- Every key above an entry has a child. -/
theorem hasChild_above (wellFormed : fs.WellFormed) {up names : List Name}
    (above : up <+: names ∧ up ≠ names) {node : Node}
    (present : fs.entries.lookup (keyOf names) = some node) :
    hasChild (keyOf up) fs.entries = true := by
  obtain ⟨extra, rfl⟩ := above.1
  cases extra with
  | nil =>
      exact absurd (List.append_nil up).symm above.2
  | cons name rest =>
      have next : up ++ [name] <+: up ++ name :: rest :=
        ⟨rest, by simp⟩
      obtain ⟨found, child⟩ := exists_above wellFormed next present
      exact hasChild_iff.mpr ⟨_, found, child, parentKey_keyOf up name⟩

theorem hasChild_of_absent (wellFormed : fs.WellFormed) {key : Text}
    (absent : fs.entries.lookup key = none) :
    hasChild key fs.entries = false := by
  rw [Bool.eq_false_iff]
  intro child
  obtain ⟨other, node, present, parent⟩ := hasChild_iff.mp child
  by_cases same : other = key
  · rw [same, absent] at present
    cases present
  · exact nothingBelow_of_absent wellFormed absent other node present same
      parent

/-- Filling in a key's ancestors and the key itself makes no child of it. -/
theorem hasChild_filled {current : MemoryFs} {names : List Name}
    (nonempty : names ≠ [])
    (filled : Filled fs.entries current.entries fun up => up <+: names) :
    hasChild (keyOf names) current.entries =
      hasChild (keyOf names) fs.entries := by
  rw [Bool.eq_iff_iff, hasChild_iff, hasChild_iff]
  constructor
  · rintro ⟨other, node, present, parent⟩
    cases old : fs.entries.lookup other with
    | some found =>
        exact ⟨other, found, old, parent⟩
    | none =>
        have outside : ∀ up, up <+: names → other ≠ keyOf up := by
          rintro up before rfl
          rcases parentKey_keyOf_eq.mp parent with ⟨name, rfl⟩ | ⟨-, empty⟩
          · have longer := before.length_le
            rw [List.length_append, List.length_singleton] at longer
            omega
          · exact nonempty empty
        rw [filled.rest other old outside] at present
        cases present
  · rintro ⟨other, node, present, parent⟩
    exact ⟨other, node, filled.kept other node present, parent⟩

theorem lookup_pruneLoop_none {key : Text} (rounds : Nat)
    (dir : Option Text) {current : MemoryFs}
    (absent : current.entries.lookup key = none) :
    (pruneLoop rounds dir current).entries.lookup key = none := by
  apply pruneLoop_keeps (fun next => next.entries.lookup key = none)
  · intro next other name gone _ _
    rw [lookup_evict]
    split
    · rfl
    · exact gone
  · exact absent

/-- Taking back the last directory that was made. -/
theorem Filled.evict_last {current : MemoryFs} {front : List Name}
    {last : Name}
    (filled : Filled fs.entries current.entries
      fun up => up <+: front ++ [last])
    (old : fs.entries.lookup (keyOf (front ++ [last])) = none) :
    Filled fs.entries (current.evict (keyOf (front ++ [last]))).entries
      fun up => up <+: front := by
  constructor
  · intro key node present
    rw [lookup_evict, if_neg]
    · exact filled.kept key node present
    · rintro rfl
      rw [old] at present
      cases present
  · intro up before absent
    rw [lookup_evict, if_neg]
    · exact filled.made up (prefix_snoc_iff.mpr (Or.inr before))
        absent
    · rw [keyOf_inj]
      rintro rfl
      have longer := before.length_le
      rw [List.length_append, List.length_singleton] at longer
      omega
  · intro key absent outside
    rw [lookup_evict]
    split
    · rfl
    · rename_i different
      apply filled.rest key absent
      intro up before
      rcases prefix_snoc_iff.mp before with rfl | before
      · exact different
      · exact outside up before

/-- Every directory at or above the names that is in use keeps a child when
the mount goes. -/
def InUse (fs : MemoryFs) (names : List Name) : Prop :=
  ∀ up, up <+: names → up ≠ [] →
    ∀ node, fs.entries.lookup (keyOf up) = some node →
      hasChild (keyOf up) fs.entries = true

theorem inUse_snoc_iff {front : List Name} {last : Name} :
    InUse fs (front ++ [last]) ↔
      InUse fs front ∧
        ∀ node,
          fs.entries.lookup (keyOf (front ++ [last])) = some node →
            hasChild (keyOf (front ++ [last])) fs.entries = true := by
  constructor
  · intro inUse
    constructor
    · intro up before
      exact inUse up (prefix_snoc_iff.mpr (Or.inr before))
    · exact inUse _ (List.prefix_refl _) (by simp)
  · rintro ⟨above, here⟩ up before nonempty node present
    rcases prefix_snoc_iff.mp before with rfl | before
    · exact here node present
    · exact above up before nonempty node present

theorem inUse_of_hasChild (wellFormed : fs.WellFormed) {names : List Name}
    {node : Node} (present : fs.entries.lookup (keyOf names) = some node)
    (child : hasChild (keyOf names) fs.entries = true) : InUse fs names := by
  intro up before _ _ _
  by_cases same : up = names
  · rw [same]
    exact child
  · exact hasChild_above wellFormed ⟨before, same⟩ present

/-- The loop stops at the root. -/
theorem pruneLoop_root (rounds : Nat) (current : MemoryFs) :
    pruneLoop rounds (some (keyOf [])) current = current := by
  cases rounds with
  | zero =>
      rfl
  | succ rounds =>
      rw [pruneLoop, keyOf_nil]
      split
      · rename_i name directory
        rw [if_pos (hasChild_root directory)]
      · rfl

/-- One round at a directory: it stays if it has a child, and is evicted on
the way up if it has none. -/
theorem pruneLoop_snoc {rounds : Nat} {front : List Name} {last : Name}
    {name : Text} {current : MemoryFs}
    (directory : current.entries.lookup (keyOf (front ++ [last])) =
      some (.dir name)) :
    pruneLoop (rounds + 1) (some (keyOf (front ++ [last]))) current =
      if hasChild (keyOf (front ++ [last])) current.entries then current
      else pruneLoop rounds (some (keyOf front))
        (current.evict (keyOf (front ++ [last]))) := by
  rw [pruneLoop, directory, ← parentKey_keyOf front last]

/-- Filling in directories above directories leaves a directory at the end. -/
theorem Filled.directory {current : MemoryFs} {names : List Name}
    (filled : Filled fs.entries current.entries fun up => up <+: names)
    (directories : ∀ node,
      fs.entries.lookup (keyOf names) = some node → node.isDir = true) :
    ∃ name, current.entries.lookup (keyOf names) = some (.dir name) := by
  cases old : fs.entries.lookup (keyOf names) with
  | none =>
      exact filled.made names (List.prefix_refl names) old
  | some node =>
      obtain ⟨name, rfl⟩ := isDir_iff.mp (directories node old)
      exact ⟨name, filled.kept _ _ old⟩

/-- Nothing at or above an entry was made for the mount. -/
theorem restored_of_present (wellFormed : fs.WellFormed)
    {current : MemoryFs} {names : List Name} {node : Node}
    (present : fs.entries.lookup (keyOf names) = some node)
    (filled : Filled fs.entries current.entries fun up => up <+: names) :
    Restored fs current := by
  apply restored_of_filled filled
  intro up inside _ missing
  obtain ⟨found, there⟩ := exists_above wellFormed inside present
  rw [missing] at there
  cases there

/-- An entry that the loop has evicted does not come back. -/
theorem not_restored_of_evict {names : List Name} (nonempty : names ≠ [])
    {node : Node} (present : fs.entries.lookup (keyOf names) = some node)
    (rounds : Nat) (dir : Option Text) (current : MemoryFs) :
    ¬ Restored fs (pruneLoop rounds dir (current.evict (keyOf names))) := by
  intro restored
  have notRoot : keyOf names ≠ ['/'] := by
    rw [Ne, keyOf_eq_root]
    exact nonempty
  have gone : (current.evict (keyOf names)).entries.lookup (keyOf names) =
      none := by
    rw [lookup_evict, if_pos rfl]
  have kept := restored _ notRoot
  rw [present, lookup_pruneLoop_none rounds dir gone] at kept
  cases kept

/-- The pruning loop takes back the directories that were made, and goes on
where it finds a directory without children. -/
theorem pruneLoop_restores_iff (wellFormed : fs.WellFormed) :
    ∀ (names : List Name) (rounds : Nat) (current : MemoryFs),
      names.length ≤ rounds →
      (∀ up, up <+: names → ∀ node,
        fs.entries.lookup (keyOf up) = some node → node.isDir = true) →
      Filled fs.entries current.entries (fun up => up <+: names) →
        (Restored fs (pruneLoop rounds (some (keyOf names)) current) ↔
          InUse fs names) := by
  intro names
  induction names using List.reverseRecOn with
  | nil =>
      intro rounds current _ directories filled
      rw [pruneLoop_root]
      constructor
      · intro _ up before nonempty
        exact absurd (List.prefix_nil.mp before) nonempty
      · intro _
        apply restored_of_filled filled
        intro up before nonempty
        exact absurd (List.prefix_nil.mp before) nonempty
  | append_singleton front last inductionHypothesis =>
      intro rounds current enough directories filled
      have nonempty : front ++ [last] ≠ [] := by simp
      obtain ⟨name, directory⟩ :=
        filled.directory (directories _ (List.prefix_refl _))
      rw [List.length_append, List.length_singleton] at enough
      obtain ⟨left, rfl⟩ : ∃ left, rounds = left + 1 :=
        ⟨rounds - 1, by omega⟩
      rw [pruneLoop_snoc directory, hasChild_filled nonempty filled]
      cases old : fs.entries.lookup (keyOf (front ++ [last])) with
      | none =>
          -- made for the mount: the loop takes it back and goes on
          have alone := hasChild_of_absent wellFormed old
          have above := filled.evict_last old
          rw [if_neg (by rw [alone]; decide), inUse_snoc_iff,
            inductionHypothesis left _ (by omega)
              (fun up before => directories up
                (prefix_snoc_iff.mpr (Or.inr before))) above]
          constructor
          · intro inUse
            refine ⟨inUse, ?_⟩
            intro node present
            rw [old] at present
            cases present
          · exact And.left
      | some node =>
          by_cases child :
              hasChild (keyOf (front ++ [last])) fs.entries = true
          · -- still in use: everything above it was there before
            rw [if_pos child]
            constructor
            · intro _
              exact inUse_of_hasChild wellFormed old child
            · intro _
              exact restored_of_present wellFormed old filled
          · -- there before the mount, and gone now
            rw [if_neg child]
            constructor
            · intro restored
              exact absurd restored
                (not_restored_of_evict nonempty old left _ current)
            · intro inUse
              exact absurd (inUse _ (List.prefix_refl _) nonempty node old)
                child

/-! ## The round trip -/

section Mount

variable {path : Text} (wellFormed : fs.WellFormed) (lexical : Lexical path)
  (absent : fs.entries.lookup (normalizeKeyStr path) = none)
include wellFormed lexical absent

/-- What is left of a mount once its subtree is cut are its ancestors. -/
theorem filled_cut (node : Node) :
    Filled fs.entries
      (cutSubtree (normalizeKeyStr path)
        (insertAncestorDirs path
          (fs.place (normalizeKeyStr path) node))).entries
      fun up => up <+: namesOf path ∧ up ≠ namesOf path := by
  have filled := filled_insertAncestorDirs lexical.1
    (undotted_of_safe lexical.2) (fs.place (normalizeKeyStr path) node)
  have outside : ∀ other found, fs.entries.lookup other = some found →
      ¬ covers (normalizeKeyStr path) other = true := by
    intro other found present covered
    rcases covers_iff.mp covered with rfl | ⟨rest, rfl⟩
    · rw [absent] at present
      cases present
    · have nonempty : normalizeKeyStr path ≠ [] := by
        rw [normalizeKeyStr_eq_keyOf lexical.1]
        exact keyOf_namesOf_ne_nil path
      rw [absent_below wellFormed nonempty
        (nothingBelow_of_absent wellFormed absent)] at present
      cases present
  constructor
  · intro other found present
    rw [lookup_cutSubtree, if_neg (outside other found present)]
    apply filled.kept
    rw [lookup_place, if_neg, present]
    rintro rfl
    rw [absent] at present
    cases present
  · intro up above missing
    have apart : covers (normalizeKeyStr path) (keyOf up) = false := by
      rw [normalizeKeyStr_eq_keyOf lexical.1]
      exact covers_ancestor_target above
    rw [lookup_cutSubtree, if_neg (by rw [apart]; decide)]
    apply filled.made up above
    rw [lookup_place, if_neg, missing]
    rintro same
    rw [covers_iff.mpr (Or.inl same)] at apart
    cases apart
  · intro other missing beside
    rw [lookup_cutSubtree]
    split
    · rfl
    · rename_i apart
      apply filled.rest other _ beside
      rw [lookup_place, if_neg, missing]
      rintro rfl
      exact apart (covers_iff.mpr (Or.inl rfl))

theorem removeSubtree_restores_iff
    (clear : fs.NoFileAbove (normalizeKeyStr path)) (node : Node) :
    Restored fs
        ((insertAncestorDirs path
          (fs.place (normalizeKeyStr path) node)).removeSubtree
            (normalizeKeyStr path)) ↔
      ∀ key ∈ ancestorKeys path, key ≠ ['/'] →
        fs.entries.lookup key ≠ none → hasChild key fs.entries = true := by
  have filled := filled_cut wellFormed lexical absent node
  have key := normalizeKeyStr_eq_keyOf lexical.1
  rw [key] at filled clear ⊢
  generalize insertAncestorDirs path
    (fs.place (keyOf (namesOf path)) node) = mounted at filled ⊢
  have ancestors : (∀ key ∈ ancestorKeys path, key ≠ ['/'] →
      fs.entries.lookup key ≠ none → hasChild key fs.entries = true) ↔
        ∀ up, up <+: namesOf path ∧ up ≠ namesOf path → up ≠ [] →
          ∀ found, fs.entries.lookup (keyOf up) = some found →
            hasChild (keyOf up) fs.entries = true := by
    constructor
    · intro whole up above nonempty found present
      apply whole _ (mem_ancestorKeys.mpr ⟨up, above, rfl⟩)
      · rw [Ne, keyOf_eq_root]
        exact nonempty
      · rw [present]
        exact Option.some_ne_none found
    · intro whole key member notRoot present
      obtain ⟨up, above, rfl⟩ := mem_ancestorKeys.mp member
      obtain ⟨found, present⟩ := Option.ne_none_iff_exists'.mp present
      apply whole up above _ found present
      rintro rfl
      exact notRoot keyOf_nil
  rw [ancestors]
  rcases List.eq_nil_or_concat' (namesOf path) with
    empty | ⟨front, last, shape⟩
  · -- the path is the root: nothing is made, and nothing pruned
    rw [empty] at filled ⊢
    rw [keyOf_nil, removeSubtree_root]
    rw [keyOf_nil] at filled
    constructor
    · rintro _ up ⟨before, different⟩
      exact absurd (List.prefix_nil.mp before) different
    · intro _
      apply restored_of_filled filled
      rintro up ⟨before, different⟩
      exact absurd (List.prefix_nil.mp before) different
  · have above (up : List Name) :
        up <+: namesOf path ∧ up ≠ namesOf path ↔ up <+: front := by
      rw [shape, prefix_snoc_iff]
      constructor
      · rintro ⟨same | before, different⟩
        · exact absurd same different
        · exact before
      · intro before
        refine ⟨Or.inr before, ?_⟩
        rintro rfl
        have longer := before.length_le
        rw [List.length_append, List.length_singleton] at longer
        omega
    have enough : front.length ≤ (keyOf (namesOf path)).length + 1 := by
      have bound := length_le_keyOf (namesOf path)
      rw [shape, List.length_append, List.length_singleton] at bound
      rw [shape]
      omega
    have upwards : parentKey (keyOf (namesOf path)) = some (keyOf front) := by
      rw [shape, parentKey_keyOf]
    rw [removeSubtree_eq, upwards, pruneLoop_restores_iff wellFormed front _ _
      enough _ (filled.congr above)]
    · simp only [InUse, above]
    · intro up before found present
      exact clear _ found present
        (isAncestor_keyOf.mpr ((above up).mpr before))

/-- Mounting and dropping restores the tree exactly when every directory
there was above the mount, the root aside, had something in it. -/
theorem mountAndDrop_restores_iff
    (clear : fs.NoFileAbove (normalizeKeyStr path)) (mounting : Mounting) :
    Restored fs (mountAndDrop path mounting fs) ↔
      ∀ key ∈ ancestorKeys path, key ≠ ['/'] →
        fs.entries.lookup key ≠ none → hasChild key fs.entries = true := by
  cases mounting with
  | insertFile source mtime =>
      exact removeSubtree_restores_iff wellFormed lexical absent clear _
  | insertWritable now =>
      exact @removeSubtree_restores_iff (fs.newFile now).2 path wellFormed
        lexical absent clear _

end Mount

/-- Beside a file that stays, a directory is in use. -/
theorem mountAndDrop_restores_iff_beside :
    Restored (insertWritable 1 "/a/b".toList (withCapacity 8)).2
      (mountAndDrop "/a/c/d".toList (.insertWritable 2)
        (insertWritable 1 "/a/b".toList (withCapacity 8)).2) :=
  (mountAndDrop_restores_iff (by decide) (by decide) (by decide) (by decide)
    (.insertWritable 2)).mpr (by decide)

/-- A directory made beforehand goes with the mount. -/
theorem mountAndDrop_takes_directory :
    ¬ ∀ (capacity : Nat) (ops : List DeskOp) (path : Text)
        (mounting : Mounting),
      (run Desk.step (Desk.start capacity) ops).fs.WellFormed →
        Lexical path →
        (run Desk.step (Desk.start capacity) ops).fs.entries.lookup
          (normalizeKeyStr path) = none →
        (run Desk.step (Desk.start capacity) ops).fs.NoFileAbove
          (normalizeKeyStr path) →
          Restored (run Desk.step (Desk.start capacity) ops).fs
            (mountAndDrop path mounting
              (run Desk.step (Desk.start capacity) ops).fs) := by
  intro always
  have restored := always 8 [.createDir "/d".toList] "/d/x".toList
    (.insertFile ⟨0, 0⟩ none) (by decide) (by decide) (by decide) (by decide)
  have kept := restored "/d".toList (by decide)
  revert kept
  decide

end MemoryFs

end Hookfs.Memory
