import Hookfs.Lib.Tree
import Hookfs.Path.Keys
import Hookfs.Memory.Fs

/-!
# The entries as a tree of names

Every operation of `MemoryFs` is described by what it does to the partial
map from name lists to nodes: planting a node with its ancestors, cutting a
subtree and pruning upwards, or moving a subtree.
-/

namespace Hookfs.Memory

open Hookfs.Lib Hookfs.Posix

namespace MemoryFs

/-! ## Single entries -/

@[simp]
theorem entries_cloneFile (id : Nat) (fs : MemoryFs) :
    (fs.cloneFile id).entries = fs.entries := by
  unfold cloneFile
  split
  · rfl
  · rfl

@[simp]
theorem entries_dropFile (id : Nat) (fs : MemoryFs) :
    (fs.dropFile id).entries = fs.entries := by
  unfold dropFile
  split
  · rfl
  · split
    · rfl
    · rfl

@[simp]
theorem entries_dropNode (node : Node) (fs : MemoryFs) :
    (fs.dropNode node).entries = fs.entries := by
  cases node with
  | memFile id name =>
      exact entries_dropFile id fs
  | file source name mtime =>
      rfl
  | dir name =>
      rfl

@[simp]
theorem entries_setFileLen (now : Vfs.Time) (file len : Nat)
    (fs : MemoryFs) : (fs.setFileLen now file len).2.entries =
      fs.entries := by
  unfold setFileLen
  split
  · rfl
  · rfl

@[simp]
theorem entries_finishOpenWrite (now : Vfs.Time) (opts : Vfs.OpenOptions)
    (file : Nat) (fs : MemoryFs) :
    (fs.finishOpenWrite now opts file).2.entries = fs.entries := by
  unfold finishOpenWrite
  cases opts.truncate with
  | false =>
      rfl
  | true =>
      simp only [if_true]
      split
      · rw [entries_dropFile, entries_setFileLen]
      · exact entries_setFileLen now file 0 fs

theorem nextFile_dropNode (node : Node) (fs : MemoryFs) :
    (fs.dropNode node).nextFile = fs.nextFile := by
  cases node with
  | memFile id name =>
      simp only [dropNode, dropFile]
      split
      · rfl
      · split
        · rfl
        · rfl
  | file source name mtime =>
      rfl
  | dir name =>
      rfl

theorem nextFile_evict (key : Text) (fs : MemoryFs) :
    (fs.evict key).nextFile = fs.nextFile := by
  unfold evict
  split
  · rfl
  · exact nextFile_dropNode _ _

theorem nextFile_place (key : Text) (node : Node) (fs : MemoryFs) :
    (fs.place key node).nextFile = fs.nextFile :=
  nextFile_evict key fs

theorem lookup_evict (key other : Text) (fs : MemoryFs) :
    (fs.evict key).entries.lookup other =
      if other = key then none else fs.entries.lookup other := by
  unfold evict
  split
  · rename_i absent
    split
    · rename_i same
      rw [same, absent]
    · rfl
  · rw [entries_dropNode]
    split
    · rename_i same
      rw [same, AList.lookup_erase]
    · rename_i different
      rw [AList.lookup_erase_ne different]

theorem lookup_place (key other : Text) (node : Node) (fs : MemoryFs) :
    (fs.place key node).entries.lookup other =
      if other = key then some node else fs.entries.lookup other := by
  unfold place
  split
  · rename_i same
    rw [same, AList.lookup_insert]
  · rename_i different
    rw [AList.lookup_insert_ne different, lookup_evict, if_neg different]

theorem lookup_orInsert (key other : Text) (node : Node)
    (entries : Store Text Node) :
    (orInsert key node entries).lookup other =
      (entries.lookup other).or
        (if other = key then some node else none) := by
  unfold orInsert
  by_cases same : other = key
  · subst same
    cases present : entries.lookup other with
    | none =>
        simp [AList.lookup_insert]
    | some found =>
        simp [present]
  · rw [if_neg same, Option.or_none]
    split
    · rfl
    · rw [AList.lookup_insert_ne same]

/-! ## Ancestors -/

/-- What filling in ancestors does: entries stay, the missing ones among
`dirs` become directories, nothing else appears. -/
structure Filled (entries next : Store Text Node)
    (dirs : List Name → Prop) : Prop where
  kept : ∀ key node, entries.lookup key = some node →
    next.lookup key = some node
  made : ∀ up, dirs up → entries.lookup (keyOf up) = none →
    ∃ name, next.lookup (keyOf up) = some (.dir name)
  rest : ∀ key, entries.lookup key = none →
    (∀ up, dirs up → key ≠ keyOf up) → next.lookup key = none

theorem filled_refl (entries : Store Text Node) :
    Filled entries entries fun _ => False where
  kept := fun _ _ present => present
  made := fun _ impossible => impossible.elim
  rest := fun _ absent _ => absent

theorem filled_orInsert (entries : Store Text Node) (names : List Name)
    (name : Text) :
    Filled entries (orInsert (keyOf names) (.dir name) entries)
      fun up => up = names where
  kept := by
    intro key node present
    rw [lookup_orInsert, present, Option.some_or]
  made := by
    rintro up rfl absent
    refine ⟨name, ?_⟩
    rw [lookup_orInsert, absent, Option.none_or, if_pos rfl]
  rest := by
    intro key absent outside
    rw [lookup_orInsert, absent, Option.none_or,
      if_neg (outside names rfl)]

theorem Filled.trans {entries middle next : Store Text Node}
    {first second : List Name → Prop} (early : Filled entries middle first)
    (late : Filled middle next second) :
    Filled entries next fun up => first up ∨ second up where
  kept := fun key node present =>
    late.kept key node (early.kept key node present)
  made := by
    rintro up which absent
    cases found : middle.lookup (keyOf up) with
    | some node =>
        by_cases inFirst : first up
        · obtain ⟨name, made⟩ := early.made up inFirst absent
          exact ⟨name, late.kept _ _ made⟩
        · have impossible := early.rest (keyOf up) absent fun other inside =>
            fun same => inFirst (keyOf_injective same ▸ inside)
          rw [found] at impossible
          cases impossible
    | none =>
        rcases which with inFirst | inSecond
        · obtain ⟨name, made⟩ := early.made up inFirst absent
          rw [found] at made
          cases made
        · exact late.made up inSecond found
  rest := by
    intro key absent outside
    apply late.rest key
    · exact early.rest key absent fun up inside =>
        outside up (Or.inl inside)
    · exact fun up inside => outside up (Or.inr inside)

theorem Filled.congr {entries next : Store Text Node}
    {first second : List Name → Prop} (filled : Filled entries next first)
    (same : ∀ up, first up ↔ second up) : Filled entries next second where
  kept := filled.kept
  made := fun up inside => filled.made up ((same up).mpr inside)
  rest := fun key absent outside =>
    filled.rest key absent fun up inside => outside up ((same up).mp inside)

theorem prefix_snoc_iff {names up : List Name} {last : Name} :
    up <+: names ++ [last] ↔ up = names ++ [last] ∨ up <+: names :=
  List.prefix_concat_iff

theorem filled_ancestorLoop :
    ∀ (rounds : Nat) (dir : Text) (entries : Store Text Node),
      isAbsolute dir = true → Undotted dir →
      (namesOf dir).length < rounds →
        Filled entries (ancestorLoop rounds (some dir) entries)
          fun up => up <+: namesOf dir
  | 0, _, _, _, _, short => absurd short (Nat.not_lt_zero _)
  | rounds + 1, dir, entries, absolute, undotted, enough => by
      have key := normalizeKeyStr_eq_keyOf absolute
      have nonempty := isEmpty_keyOf (namesOf dir)
      simp only [ancestorLoop, key, nonempty, Bool.false_eq_true, if_false]
      have here := filled_orInsert entries (namesOf dir)
        (finalComponent dir)
      rcases parent_names absolute undotted with
        ⟨root, noParent⟩ | ⟨up, last, found, upAbsolute, upUndotted, names⟩
      · rw [noParent]
        apply here.congr
        intro other
        rw [root, List.prefix_nil]
      · rw [found]
        have short : (namesOf up).length < rounds := by
          rw [names, List.length_append, List.length_singleton] at enough
          omega
        have later := filled_ancestorLoop rounds up
          (orInsert (keyOf (namesOf dir)) (.dir (finalComponent dir))
            entries) upAbsolute upUndotted short
        apply (here.trans later).congr
        intro other
        rw [names, prefix_snoc_iff]

theorem length_namesOf_le (path : Text) :
    (namesOf path).length ≤ (path.splitOn '/').length := by
  have sameLength := congrArg List.length (namesOf_val path)
  rw [List.length_map] at sameLength
  rw [sameLength]
  exact List.length_filter_le _ _

/-- `insert_ancestor_dirs` fills in the proper ancestors of the path. -/
theorem filled_insertAncestorDirs {path : Text}
    (absolute : isAbsolute path = true) (undotted : Undotted path)
    (fs : MemoryFs) :
    Filled fs.entries (insertAncestorDirs path fs).entries
      fun up => up <+: namesOf path ∧ up ≠ namesOf path := by
  unfold insertAncestorDirs
  rcases parent_names absolute undotted with
    ⟨root, noParent⟩ | ⟨up, last, found, upAbsolute, upUndotted, names⟩
  · rw [noParent]
    have unchanged : ancestorLoop (path.splitOn '/').length none
        fs.entries = fs.entries := by
      cases (path.splitOn '/').length with
      | zero =>
          rfl
      | succ rounds =>
          rfl
    rw [unchanged]
    apply (filled_refl fs.entries).congr
    intro other
    rw [root]
    simp
  · rw [found]
    have bound := length_namesOf_le path
    rw [names, List.length_append, List.length_singleton] at bound
    apply (filled_ancestorLoop _ up fs.entries upAbsolute upUndotted
      (by omega)).congr
    intro other
    rw [names, prefix_snoc_iff]
    constructor
    · intro before
      refine ⟨Or.inr before, ?_⟩
      rintro rfl
      have longer := before.length_le
      rw [List.length_append, List.length_singleton] at longer
      omega
    · rintro ⟨same | before, different⟩
      · exact absurd same different
      · exact before

/-- Filling in ancestors replaces nothing, whatever the path looks like. -/
theorem lookup_ancestorLoop {key : Text} {node : Node} :
    ∀ (rounds : Nat) (dir : Option Text) (entries : Store Text Node),
      entries.lookup key = some node →
        (ancestorLoop rounds dir entries).lookup key = some node
  | 0, _, _, present => present
  | _ + 1, none, _, present => present
  | rounds + 1, some dir, entries, present => by
      have kept : (orInsert (normalizeKeyStr dir)
          (.dir (finalComponent dir)) entries).lookup key = some node := by
        rw [lookup_orInsert, present, Option.some_or]
      unfold ancestorLoop
      split
      · exact present
      · simp only
        split
        · exact kept
        · exact lookup_ancestorLoop rounds _ _ kept

/-- Planting a node at a key replaces nothing else. -/
theorem lookup_planted (path key : Text) (node : Node) (fs : MemoryFs) :
    (insertAncestorDirs path (fs.place key node)).entries.lookup key =
        some node ∧
      ∀ other found, other ≠ key → fs.entries.lookup other = some found →
        (insertAncestorDirs path (fs.place key node)).entries.lookup other =
          some found := by
  constructor
  · apply lookup_ancestorLoop
    rw [lookup_place, if_pos rfl]
  · intro other found different present
    apply lookup_ancestorLoop
    rw [lookup_place, if_neg different, present]

/-! ## The tree of names -/

/-- The node at a list of names. -/
def view (fs : MemoryFs) (names : List Name) : Option Node :=
  fs.entries.lookup (keyOf names)

/-- Every key of the map is the key of a list of names. -/
def Canonical (fs : MemoryFs) : Prop :=
  ∀ key node, fs.entries.lookup key = some node →
    ∃ names, key = keyOf names

/-- Every entry whose key is not the root has its parent key in the map, and
the node there is a directory. -/
def WellFormed (fs : MemoryFs) : Prop :=
  ∀ key node, fs.entries.lookup key = some node → key ≠ ['/'] →
    ∃ up name, parentKey key = some up ∧
      fs.entries.lookup up = some (.dir name)

theorem isDir_iff {node : Node} :
    node.isDir = true ↔ ∃ name, node = .dir name := by
  cases node with
  | dir name =>
      simp [Node.isDir]
  | file source name mtime =>
      simp [Node.isDir]
  | memFile id name =>
      simp [Node.isDir]

theorem wellFormed_iff {fs : MemoryFs} (canonical : fs.Canonical) :
    fs.WellFormed ↔ Grounded Node.isDir fs.view := by
  constructor
  · intro wellFormed names last node present
    have notRoot : keyOf (names ++ [last]) ≠ ['/'] := by
      rw [Ne, keyOf_eq_root]
      simp
    obtain ⟨up, name, upKey, upDir⟩ := wellFormed _ node present notRoot
    rw [parentKey_keyOf, Option.some.injEq] at upKey
    subst upKey
    exact ⟨.dir name, upDir, rfl⟩
  · intro grounded key node present notRoot
    obtain ⟨names, rfl⟩ := canonical key node present
    rcases List.eq_nil_or_concat names with rfl | ⟨front, last, rfl⟩
    · exact absurd rfl notRoot
    · rw [List.concat_eq_append] at present ⊢
      obtain ⟨dir, dirPresent, isDir⟩ := grounded front last node present
      obtain ⟨name, rfl⟩ := isDir_iff.mp isDir
      exact ⟨keyOf front, name, parentKey_keyOf front last, dirPresent⟩

/-- The root and the descendant test together say which keys are proper
ancestors. -/
def isAncestor (up key : Text) : Bool :=
  up ≠ key && (up = ['/'] || isUnder up key)

theorem isAncestor_keyOf {up names : List Name} :
    isAncestor (keyOf up) (keyOf names) = true ↔
      up <+: names ∧ up ≠ names := by
  simp only [isAncestor, ne_eq, keyOf_inj, decide_not, Bool.and_eq_true,
    Bool.not_eq_true', decide_eq_false_iff_not, Bool.or_eq_true,
    decide_eq_true_eq]
  rw [keyOf_eq_root]
  by_cases root : up = []
  · subst root
    simp
  · rw [isUnder_keyOf root]
    simp only [root, false_or]
    constructor
    · rintro ⟨different, extra, -, rfl⟩
      exact ⟨List.prefix_append up extra, different⟩
    · rintro ⟨⟨extra, rfl⟩, different⟩
      refine ⟨different, extra, ?_, rfl⟩
      rintro rfl
      simp at different

/-! ## Planting -/

/-- Lexically acceptable absolute paths. -/
def Lexical (path : Text) : Prop :=
  isAbsolute path = true ∧ isLexicallySafe path = true

instance (path : Text) : Decidable (Lexical path) :=
  inferInstanceAs (Decidable (_ ∧ _))

theorem Filled.canonical {fs next : MemoryFs} {dirs : List Name → Prop}
    (filled : Filled fs.entries next.entries dirs)
    (canonical : fs.Canonical) : next.Canonical := by
  intro key node present
  cases old : fs.entries.lookup key with
  | some found =>
      exact canonical key found old
  | none =>
      by_contra foreign
      rw [filled.rest key old fun up _ same => foreign ⟨up, same⟩]
        at present
      cases present

theorem Canonical.place {fs : MemoryFs} (canonical : fs.Canonical)
    (names : List Name) (node : Node) :
    (fs.place (keyOf names) node).Canonical := by
  intro key found present
  rw [lookup_place] at present
  split at present
  · rename_i same
    exact ⟨names, same⟩
  · exact canonical key found present

theorem Canonical.evict {fs : MemoryFs} (canonical : fs.Canonical)
    (key : Text) : (fs.evict key).Canonical := by
  intro other found present
  rw [lookup_evict] at present
  split at present
  · cases present
  · exact canonical other found present

theorem Canonical.congr {fs next : MemoryFs} (canonical : fs.Canonical)
    (same : next.entries = fs.entries) : next.Canonical := by
  intro key node present
  rw [same] at present
  exact canonical key node present

section Plant

variable {fs : MemoryFs} {path : Text}

/-- Inserting a node at a path and filling in its ancestors plants it. -/
theorem planted_place (lexical : Lexical path) (node : Node) :
    Planted Node.isDir fs.view
      (insertAncestorDirs path (fs.place (normalizeKeyStr path) node)).view
      (namesOf path) node := by
  have key := normalizeKeyStr_eq_keyOf lexical.1
  have filled := filled_insertAncestorDirs lexical.1
    (undotted_of_safe lexical.2) (fs.place (normalizeKeyStr path) node)
  rw [key] at filled ⊢
  have placed (names : List Name) :
      (fs.place (keyOf (namesOf path)) node).entries.lookup (keyOf names) =
        if names = namesOf path then some node else fs.view names := by
    simp only [lookup_place, keyOf_inj]
    rfl
  refine ⟨?_, ?_, ?_, ?_⟩
  · exact filled.kept _ _ (by rw [placed, if_pos rfl])
  · intro other found different present
    exact filled.kept _ _ (by rw [placed, if_neg different, present])
  · intro up before different absent
    obtain ⟨name, made⟩ := filled.made up ⟨before, different⟩
      (by rw [placed, if_neg different, absent])
    exact ⟨.dir name, made, rfl⟩
  · intro other notBefore absent
    have different : other ≠ namesOf path := by
      rintro rfl
      exact notBefore (List.prefix_refl _)
    apply filled.rest
    · rw [placed, if_neg different, absent]
    · intro up inside same
      exact notBefore (keyOf_injective same ▸ inside.1)

theorem canonical_planted (lexical : Lexical path)
    (canonical : fs.Canonical) (node : Node) :
    (insertAncestorDirs path
      (fs.place (normalizeKeyStr path) node)).Canonical := by
  have filled := filled_insertAncestorDirs lexical.1
    (undotted_of_safe lexical.2) (fs.place (normalizeKeyStr path) node)
  apply filled.canonical
  rw [normalizeKeyStr_eq_keyOf lexical.1]
  exact canonical.place (namesOf path) node

/-- No proper ancestor of the key is a file. -/
def NoFileAbove (fs : MemoryFs) (key : Text) : Prop :=
  ∀ up node, fs.entries.lookup up = some node →
    isAncestor up key = true → node.isDir = true

/-- No other entry has the key as its parent. -/
def NothingBelow (fs : MemoryFs) (key : Text) : Prop :=
  ∀ other node, fs.entries.lookup other = some node → other ≠ key →
    parentKey other ≠ some key

instance (fs : MemoryFs) (key : Text) : Decidable (fs.NoFileAbove key) :=
  Store.decidableForallLookup

instance (fs : MemoryFs) (key : Text) : Decidable (fs.NothingBelow key) :=
  Store.decidableForallLookup

theorem noFileAbove_iff (canonical : fs.Canonical) {names : List Name} :
    fs.NoFileAbove (keyOf names) ↔
      ∀ up found, up <+: names → up ≠ names → fs.view up = some found →
        found.isDir = true := by
  constructor
  · intro clear up found before different present
    exact clear _ found present (isAncestor_keyOf.mpr ⟨before, different⟩)
  · intro clear key node present above
    obtain ⟨up, rfl⟩ := canonical key node present
    obtain ⟨before, different⟩ := isAncestor_keyOf.mp above
    exact clear up node before different present

theorem nothingBelow_iff (canonical : fs.Canonical) {names : List Name} :
    fs.NothingBelow (keyOf names) ↔
      ∀ name, fs.view (names ++ [name]) = none := by
  constructor
  · intro bare name
    cases present : fs.view (names ++ [name]) with
    | none =>
        rfl
    | some node =>
        have different : keyOf (names ++ [name]) ≠ keyOf names := by
          rw [Ne, keyOf_inj]
          simp
        exact absurd (parentKey_keyOf names name)
          (bare _ node present different)
  · intro bare other node present different child
    obtain ⟨found, rfl⟩ := canonical other node present
    rcases parentKey_keyOf_eq.mp child with ⟨name, rfl⟩ | ⟨rfl, rfl⟩
    · have absent := bare name
      rw [view, present] at absent
      cases absent
    · exact different rfl

/-- Planting keeps the tree well-formed exactly when no ancestor is a file
and nothing lies below a planted file. -/
theorem wellFormed_planted_iff (lexical : Lexical path)
    (canonical : fs.Canonical) (wellFormed : fs.WellFormed) (node : Node) :
    (insertAncestorDirs path
        (fs.place (normalizeKeyStr path) node)).WellFormed ↔
      fs.NoFileAbove (normalizeKeyStr path) ∧
        (node.isDir = true ∨ fs.NothingBelow (normalizeKeyStr path)) := by
  rw [wellFormed_iff (canonical_planted lexical canonical node),
    (planted_place lexical node).grounded_iff
      ((wellFormed_iff canonical).mp wellFormed),
    normalizeKeyStr_eq_keyOf lexical.1, noFileAbove_iff canonical,
    nothingBelow_iff canonical]

/-- In a well-formed tree nothing lies below an absent key. -/
theorem nothingBelow_of_absent (wellFormed : fs.WellFormed) {key : Text}
    (absent : fs.entries.lookup key = none) : fs.NothingBelow key := by
  intro other node present different child
  by_cases root : other = ['/']
  · subst root
    rw [parentKey_root, Option.some.injEq] at child
    exact different child
  · obtain ⟨up, name, upKey, upDir⟩ := wellFormed other node present root
    rw [child, Option.some.injEq] at upKey
    subst upKey
    rw [absent] at upDir
    cases upDir

end Plant

end MemoryFs

end Hookfs.Memory
