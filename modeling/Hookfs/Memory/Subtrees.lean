import Hookfs.Memory.Moves

/-!
# Subtrees of well-formed trees, by text

What the text tests of the tree say about any well-formed tree, whatever its
keys look like: nothing lies below a key without children, and a key other
than the root has an entry chain up to the root.
-/

namespace Hookfs.Memory

open Hookfs.Lib Hookfs.Posix

namespace MemoryFs

variable {fs : MemoryFs} {key : Text}

theorem covers_iff {source : Text} :
    covers source key = true ↔
      key = source ∨ ∃ rest, key = source ++ '/' :: rest := by
  rw [covers, Bool.or_eq_true, decide_eq_true_eq, isUnder_iff]

/-- The parent of a key below another one is that key or is below it, too. -/
theorem parentKey_below (nonempty : key ≠ []) (rest : Text) :
    parentKey (key ++ '/' :: rest) = some key ∨
      ∃ later, parentKey (key ++ '/' :: rest) =
          some (key ++ '/' :: later) ∧ later.length < rest.length := by
  by_cases deeper : '/' ∈ rest
  · right
    obtain ⟨front, last, rfl, free⟩ := exists_last_sep deeper
    refine ⟨front, ?_, by simp⟩
    have split : key ++ '/' :: (front ++ '/' :: last) =
        (key ++ '/' :: front) ++ '/' :: last := by simp
    rw [split, parentKey_append free, if_neg (by simp)]
  · left
    rw [parentKey_append deeper, if_neg nonempty]

/-- Nothing at all lies below a key without children. -/
theorem absent_below (wellFormed : fs.WellFormed) (nonempty : key ≠ [])
    (bare : fs.NothingBelow key) (rest : Text) :
    fs.entries.lookup (key ++ '/' :: rest) = none := by
  induction size : rest.length using Nat.strongRecOn generalizing rest with
  | ind limit inductionHypothesis =>
      cases present : fs.entries.lookup (key ++ '/' :: rest) with
      | none =>
          rfl
      | some node =>
          have notRoot : key ++ '/' :: rest ≠ ['/'] := by
            intro same
            have short := congrArg List.length same
            have positive := List.length_pos_iff.mpr nonempty
            simp only [List.length_append, List.length_cons,
              List.length_nil] at short
            omega
          obtain ⟨up, name, upKey, upDir⟩ :=
            wellFormed _ node present notRoot
          rcases parentKey_below nonempty rest with
            child | ⟨later, child, shorter⟩
          · exact absurd child (bare _ node present (by simp))
          · rw [child, Option.some.injEq] at upKey
            rw [← upKey, inductionHypothesis later.length (size ▸ shorter)
              later rfl] at upDir
            cases upDir

theorem hasChild_iff {entries : Store Text Node} :
    hasChild key entries = true ↔
      ∃ other node, entries.lookup other = some node ∧
        parentKey other = some key := by
  unfold hasChild
  rw [List.any_eq_true]
  constructor
  · rintro ⟨other, member, child⟩
    obtain ⟨node, present⟩ := mem_keys_iff.mp member
    exact ⟨other, node, present, of_decide_eq_true child⟩
  · rintro ⟨other, node, present, child⟩
    exact ⟨other, mem_keys_iff.mpr ⟨node, present⟩, decide_eq_true child⟩

/-- The root, where present, counts as its own child. -/
theorem hasChild_root {node : Node}
    (present : fs.entries.lookup ['/'] = some node) :
    hasChild ['/'] fs.entries = true :=
  hasChild_iff.mpr ⟨['/'], node, present, parentKey_root⟩

theorem grounded_iff_any {fs : MemoryFs} {key : Text} :
    ((parentKey key).any fun up =>
        (fs.entries.lookup up).any Node.isDir) = true ↔
      ∃ up name, parentKey key = some up ∧
        fs.entries.lookup up = some (.dir name) := by
  rw [Option.any_eq_true]
  constructor
  · rintro ⟨up, upKey, upDir⟩
    rw [Option.any_eq_true] at upDir
    obtain ⟨node, present, isDir⟩ := upDir
    obtain ⟨name, rfl⟩ := isDir_iff.mp isDir
    exact ⟨up, name, upKey, present⟩
  · rintro ⟨up, name, upKey, upDir⟩
    refine ⟨up, upKey, ?_⟩
    rw [upDir]
    rfl

instance (fs : MemoryFs) : Decidable fs.WellFormed :=
  haveI : ∀ key, Decidable (∃ up name, parentKey key = some up ∧
      fs.entries.lookup up = some (.dir name)) :=
    fun _ => decidable_of_iff _ grounded_iff_any
  Store.decidableForallLookup

/-- The keys of the proper ancestors of a path, from the root downwards. -/
def ancestorKeys (path : Text) : List Text :=
  (List.range (namesOf path).length).map fun depth =>
    keyOf ((namesOf path).take depth)

theorem mem_ancestorKeys {path : Text} :
    key ∈ ancestorKeys path ↔
      ∃ up, (up <+: namesOf path ∧ up ≠ namesOf path) ∧ key = keyOf up := by
  unfold ancestorKeys
  rw [List.mem_map]
  constructor
  · rintro ⟨depth, member, rfl⟩
    have inside := List.mem_range.mp member
    refine ⟨_, ⟨List.take_prefix depth _, ?_⟩, rfl⟩
    intro whole
    have short := congrArg List.length whole
    rw [List.length_take] at short
    omega
  · rintro ⟨up, ⟨before, different⟩, rfl⟩
    refine ⟨up.length, ?_, by rw [← List.prefix_iff_eq_take.mp before]⟩
    rw [List.mem_range]
    rcases Nat.lt_or_ge up.length (namesOf path).length with shorter | longer
    · exact shorter
    · exact absurd (before.eq_of_length_le longer) different

/-! ## Ancestors -/

theorem keyOf_namesOf_ne_nil (path : Text) : keyOf (namesOf path) ≠ [] := by
  intro empty
  have nonempty := isEmpty_keyOf (namesOf path)
  rw [empty] at nonempty
  cases nonempty

theorem exists_keyOf_eq_sep_cons (names : List Name) :
    ∃ tail, keyOf names = '/' :: tail := by
  by_cases empty : names = []
  · exact ⟨[], by rw [empty, keyOf_nil]⟩
  · have pieces : names.map Name.text ≠ [] := by simpa using empty
    rw [keyOf, render_of_ne_nil pieces]
    cases shape : names.map Name.text with
    | nil =>
        exact absurd shape pieces
    | cons part rest =>
        exact ⟨part ++ body '/' rest, by rw [body_cons]⟩

theorem covers_ancestor_target {up names : List Name}
    (above : up <+: names ∧ up ≠ names) :
    covers (keyOf names) (keyOf up) = false := by
  rw [Bool.eq_false_iff]
  intro covered
  have nonempty : names ≠ [] := by
    rintro rfl
    exact above.2 (List.prefix_nil.mp above.1)
  rw [covers, Bool.or_eq_true, decide_eq_true_eq, keyOf_inj,
    isUnder_keyOf nonempty] at covered
  rcases covered with same | ⟨extra, -, rfl⟩
  · exact above.2 same
  · exact above.2 (above.1.eq_of_length_le (by simp))

theorem covers_ancestor_source {source : Text} {up names : List Name}
    (notRoot : source ≠ ['/']) (outside : isUnder source (keyOf names) = false)
    (above : up <+: names ∧ up ≠ names) :
    covers source (keyOf up) = false := by
  rw [Bool.eq_false_iff] at outside ⊢
  intro covered
  apply outside
  rw [covers_iff] at covered
  by_cases empty : up = []
  · subst empty
    rcases covered with same | ⟨rest, same⟩
    · exact absurd same.symm notRoot
    · -- the root below the source: the source is the empty text
      have bare : source = [] := by
        have short := congrArg List.length same
        simp only [keyOf_nil, List.length_append, List.length_cons,
          List.length_nil] at short
        exact List.length_eq_zero_iff.mp (by omega)
      obtain ⟨tail, absolute⟩ := exists_keyOf_eq_sep_cons names
      rw [bare, isUnder_iff, absolute]
      exact ⟨tail, rfl⟩
  · obtain ⟨extra, rfl⟩ := above.1
    have added : extra ≠ [] := by
      rintro rfl
      exact above.2 (List.append_nil up).symm
    obtain ⟨tail, below⟩ := isUnder_iff.mp
      ((isUnder_keyOf empty).mpr ⟨extra, added, rfl⟩)
    rw [isUnder_iff, below]
    rcases covered with same | ⟨rest, same⟩
    · exact ⟨tail, by rw [same]⟩
    · exact ⟨rest ++ '/' :: tail, by rw [same]; simp⟩

/-- Two subtrees that share a key are nested. -/
theorem nested_of_covers {source target : Text}
    (bySource : covers source key = true)
    (byTarget : covers target key = true) :
    source = target ∨ isUnder source target = true ∨
      isUnder target source = true := by
  rw [covers_iff] at bySource byTarget
  simp only [isUnder_iff]
  rcases bySource with rfl | ⟨left, rfl⟩
  · rcases byTarget with same | ⟨right, extended⟩
    · exact Or.inl same
    · exact Or.inr (Or.inr ⟨right, extended⟩)
  · rcases byTarget with rfl | ⟨right, shared⟩
    · exact Or.inr (Or.inl ⟨left, rfl⟩)
    · rcases List.append_eq_append_iff.mp shared with
        ⟨extra, rfl, behind⟩ | ⟨extra, rfl, behind⟩
      · cases extra with
        | nil =>
            exact Or.inl (List.append_nil source).symm
        | cons char others =>
            rw [List.cons_append, List.cons.injEq] at behind
            exact Or.inr (Or.inl ⟨others, by rw [← behind.1]⟩)
      · cases extra with
        | nil =>
            exact Or.inl (List.append_nil target)
        | cons char others =>
            rw [List.cons_append, List.cons.injEq] at behind
            exact Or.inr (Or.inr ⟨others, by rw [← behind.1]⟩)

end MemoryFs

end Hookfs.Memory
