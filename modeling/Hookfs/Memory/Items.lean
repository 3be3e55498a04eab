import Hookfs.Lib.Forest
import Hookfs.Memory.Renames
import Hookfs.Memory.RoundTrip

/-!
# What the operations do to the items

Without display names the nodes of a tree are items, and each operation on the
entries is one of those of a forest.
-/

namespace Hookfs.Memory

open Hookfs.Lib Hookfs.Posix

/-- What is at a path. -/
inductive Item where
  | mounted (source : Vfs.SharedSource) (mtime : Option Vfs.Time)
  | file (id : Nat)
  | dir
  deriving DecidableEq, Repr

/-- A node without its display name. -/
def Node.item : Node → Item
  | .file source _ mtime => .mounted source mtime
  | .memFile id _ => .file id
  | .dir _ => .dir

theorem Node.item_of_isDir (node : Node) (isDir : node.isDir = true) :
    node.item = .dir := by
  cases node with
  | dir name =>
      rfl
  | file source name mtime =>
      cases isDir
  | memFile id name =>
      cases isDir

theorem Node.item_eq_dir_iff {node : Node} :
    node.item = .dir ↔ node.isDir = true := by
  cases node with
  | dir name =>
      exact iff_of_true rfl rfl
  | file source name mtime =>
      exact iff_of_false nofun nofun
  | memFile id name =>
      exact iff_of_false nofun nofun

theorem Node.item_rename (name : Text) (node : Node) :
    (node.rename name).item = node.item := by
  cases node with
  | dir old =>
      rfl
  | file source old mtime =>
      rfl
  | memFile id old =>
      rfl

namespace MemoryFs

/-- The items at lists of names. -/
def items (fs : MemoryFs) : Forest Name Item :=
  Forest.ofNodes Node.item fs.view

variable {fs : MemoryFs} {names : List Name}

theorem items_eq (fs : MemoryFs) (names : List Name) :
    fs.items names = (fs.entries.lookup (keyOf names)).map Node.item := rfl

theorem items_congr {next : MemoryFs} (same : next.entries = fs.entries) :
    next.items = fs.items := by
  funext names
  rw [items_eq, items_eq, same]

theorem items_eq_none_iff :
    fs.items names = none ↔ fs.entries.lookup (keyOf names) = none := by
  rw [items_eq, Option.map_eq_none_iff]

theorem rooted_items (canonical : fs.Canonical) (wellFormed : fs.WellFormed) :
    fs.items.Rooted .dir :=
  Forest.rooted_ofNodes Node.item_of_isDir
    ((wellFormed_iff canonical).mp wellFormed)

/-! ## Single entries -/

theorem items_evict (names : List Name) (fs : MemoryFs) :
    (fs.evict (keyOf names)).items = fs.items.put names none := by
  funext other
  rw [items_eq, lookup_evict]
  by_cases same : other = names
  · rw [same, if_pos rfl, Forest.put_self]
    rfl
  · rw [if_neg fun equal => same (keyOf_injective equal),
      Forest.put_of_ne same]
    rfl

theorem items_place (names : List Name) (node : Node) (fs : MemoryFs) :
    (fs.place (keyOf names) node).items =
      fs.items.put names (some node.item) := by
  funext other
  rw [items_eq, lookup_place]
  by_cases same : other = names
  · rw [same, if_pos rfl, Forest.put_self]
    rfl
  · rw [if_neg fun equal => same (keyOf_injective equal),
      Forest.put_of_ne same]
    rfl

/-- What filling in ancestors is. -/
theorem items_filled {next : MemoryFs}
    (filled : Filled fs.entries next.entries
      fun up => up <+: names ∧ up ≠ names) :
    next.items = fs.items.fill .dir names := by
  funext other
  cases old : fs.entries.lookup (keyOf other) with
  | some node =>
      rw [items_eq, filled.kept _ _ old]
      symm
      refine Forest.fill_of_some ?_
      rw [items_eq, old]
      rfl
  | none =>
      have missing := items_eq_none_iff.mpr old
      by_cases above : other <+: names ∧ other ≠ names
      · obtain ⟨name, made⟩ := filled.made other above old
        rw [items_eq, made, Forest.fill_above above.1 above.2 missing]
        rfl
      · rw [Forest.fill_elsewhere above, missing, items_eq_none_iff]
        refine filled.rest _ old fun up inside same => ?_
        exact above (keyOf_injective same ▸ inside)

theorem items_insertAncestorDirs {path : Text} (lexical : Lexical path)
    (fs : MemoryFs) :
    (insertAncestorDirs path fs).items =
      fs.items.fill .dir (namesOf path) :=
  items_filled (filled_insertAncestorDirs lexical.1
    (undotted_of_safe lexical.2) fs)

theorem items_planted {path : Text} (lexical : Lexical path) (node : Node)
    (fs : MemoryFs) :
    (insertAncestorDirs path
        (fs.place (normalizeKeyStr path) node)).items =
      fs.items.plant .dir (namesOf path) node.item := by
  rw [items_insertAncestorDirs lexical, normalizeKeyStr_eq_keyOf lexical.1,
    items_place]
  rfl

/-! ## Children -/

/-- The children of a directory, among which the root counts for itself. -/
theorem hasChild_keyOf_iff (canonical : fs.Canonical) :
    hasChild (keyOf names) fs.entries = true ↔
      fs.items.Occupied names ∨ (names = [] ∧ fs.items [] ≠ none) := by
  rw [hasChild_iff]
  constructor
  · rintro ⟨other, node, present, child⟩
    obtain ⟨found, rfl⟩ := canonical other node present
    have there : fs.items found ≠ none := by
      rw [items_eq, present]
      exact Option.some_ne_none _
    rcases parentKey_keyOf_eq.mp child with ⟨name, rfl⟩ | ⟨rfl, rfl⟩
    · exact Or.inl ⟨name, there⟩
    · exact Or.inr ⟨rfl, there⟩
  · have child : ∀ found, fs.items found ≠ none →
        ∃ node, fs.entries.lookup (keyOf found) = some node := by
      intro found there
      rw [Ne, items_eq_none_iff] at there
      exact Option.ne_none_iff_exists'.mp there
    rintro (⟨name, there⟩ | ⟨rfl, there⟩)
    · obtain ⟨node, present⟩ := child _ there
      exact ⟨_, node, present, parentKey_keyOf names name⟩
    · obtain ⟨node, present⟩ := child _ there
      exact ⟨_, node, present, parentKey_root⟩

/-! ## Subtrees -/

theorem items_cutSubtree (names : List Name) (fs : MemoryFs) :
    (cutSubtree (keyOf names) fs).items =
      fs.items.cut fun other =>
        ∃ extra, Carries names extra ∧ other = names ++ extra := by
  funext other
  rw [items_eq, lookup_cutSubtree]
  unfold Forest.cut
  by_cases covered : covers (keyOf names) (keyOf other) = true
  · rw [if_pos covered, if_pos (covers_keyOf.mp covered)]
    rfl
  · rw [if_neg covered, if_neg fun carried =>
      covered (covers_keyOf.mpr carried)]
    rfl

theorem items_pruneLoop {rounds : Nat} {front : List Name} :
    ∀ {fs : MemoryFs}, fs.Canonical → fs.WellFormed →
      front.length < rounds →
        (pruneLoop rounds (some (keyOf front)) fs).items =
          fs.items.prune .dir front := by
  induction front using List.reverseRecOn generalizing rounds with
  | nil =>
      intro fs _ _ _
      rw [pruneLoop_root, Forest.prune_root]
  | append_singleton front last inductionHypothesis =>
      intro fs canonical wellFormed enough
      rw [List.length_append, List.length_singleton] at enough
      obtain ⟨fewer, rfl⟩ : ∃ fewer, rounds = fewer + 1 :=
        ⟨rounds - 1, by omega⟩
      by_cases directory : fs.items (front ++ [last]) = some .dir
      · obtain ⟨name, present⟩ : ∃ name,
            fs.entries.lookup (keyOf (front ++ [last])) =
              some (.dir name) := by
          rw [items_eq, Option.map_eq_some_iff] at directory
          obtain ⟨node, present, isDirectory⟩ := directory
          obtain ⟨name, rfl⟩ := isDir_iff.mp
            (Node.item_eq_dir_iff.mp isDirectory)
          exact ⟨name, present⟩
        have notRoot : front ++ [last] ≠ [] :=
          List.append_ne_nil_of_right_ne_nil front (List.cons_ne_nil last [])
        have children :
            hasChild (keyOf (front ++ [last])) fs.entries = true ↔ _ :=
          hasChild_keyOf_iff canonical
        rw [pruneLoop_snoc present]
        by_cases child :
            hasChild (keyOf (front ++ [last])) fs.entries = true
        · rw [if_pos child]
          rcases children.mp child with occupied | ⟨impossible, -⟩
          · exact (Forest.prune_of_occupied occupied).symm
          · exact absurd impossible notRoot
        · rw [if_neg child]
          have bare : fs.NothingBelow (keyOf (front ++ [last])) :=
            hasChild_eq_false (Bool.eq_false_iff.mpr child)
          rw [inductionHypothesis (canonical.evict _) (wellFormed.evict bare)
            (by omega), items_evict]
          exact Forest.prune_snoc (rooted_items canonical wellFormed)
            directory fun occupied => child (children.mpr (Or.inl occupied))
      · rw [Forest.prune_of_not_dir directory]
        unfold pruneLoop
        split
        · next name present =>
          rw [items_eq, present] at directory
          exact absurd rfl directory
        · rfl

/-- Names at or below other names; only the root is below the root. -/
def Covered (names other : List Name) : Prop :=
  ∃ extra, Carries names extra ∧ other = names ++ extra

theorem items_removeSubtree (canonical : fs.Canonical)
    (wellFormed : fs.WellFormed) (names : List Name) :
    (fs.removeSubtree (keyOf names)).items =
      (fs.items.cut (Covered names)).prune .dir names.dropLast := by
  rcases List.eq_nil_or_concat names with rfl | ⟨front, last, rfl⟩
  · rw [List.dropLast_nil, Forest.prune_root, keyOf_nil, removeSubtree_root]
    exact items_cutSubtree [] fs
  · rw [List.concat_eq_append, List.dropLast_concat, removeSubtree_eq,
      parentKey_keyOf]
    have notRoot : front ++ [last] ≠ [] :=
      List.append_ne_nil_of_right_ne_nil front (List.cons_ne_nil last [])
    have kept := (wellFormed_cutSubtree_iff canonical wellFormed
      (front ++ [last])).mpr (Or.inl notRoot)
    have enough := length_le_keyOf (front ++ [last])
    rw [List.length_append, List.length_singleton] at enough
    rw [items_pruneLoop (canonical.cutSubtree _) kept (by omega)]
    exact congrArg (Forest.prune .dir front)
      (items_cutSubtree (front ++ [last]) fs)

/-! ## Renaming -/

namespace Moving

variable {cleared middle : MemoryFs} {source target : List Name}
  {node : Node} {hash : HashOrder} {name : Text}

/-- What the moving loop makes of the items. -/
theorem items_middle (moving : Moving fs cleared source target node)
    (shifted : Shifted (keyOf source) (keyOf target) name
      (toMove hash cleared (keyOf source)) cleared.entries
        middle.entries) :
    middle.items = fs.items.graft (Carries source) source target := by
  have unknown : ∀ other, middle.view other = none →
      middle.items other = none := by
    intro other missing
    exact items_eq_none_iff.mpr missing
  funext other
  unfold Forest.graft
  by_cases arrives : ∃ extra, Carries source extra ∧ other = target ++ extra
  · rw [if_pos arrives]
    obtain ⟨extra, carries, rfl⟩ := arrives
    rw [List.drop_left]
    cases old : fs.view (source ++ extra) with
    | some found =>
        have member := (moving.mem_toMove hash).mpr
          ⟨extra, found, carries, rfl, old⟩
        have before := moving.lookup_cleared (source ++ extra)
        rw [if_neg (moving.carried_ne_target carries old), old] at before
        have arrived := shifted.arrived _ member found before
        rw [rekey_keyOf carries moving.target_ne_nil] at arrived
        rw [items_eq, arrived]
        have same : fs.items (source ++ extra) = some found.item := by
          rw [items_eq]
          exact congrArg (Option.map Node.item) old
        rw [same, Option.map_some]
        split
        · rw [Node.item_rename]
        · rfl
    | none =>
        have gone : fs.items (source ++ extra) = none :=
          items_eq_none_iff.mpr old
        rw [gone]
        refine unknown _ ?_
        cases found : middle.view (target ++ extra) with
        | none =>
            rfl
        | some there =>
            rcases moving.origin_of_shifted shifted found with
              ⟨further, before, -, same, present⟩ | ⟨-, notTarget, present⟩
            · rw [List.append_cancel_left_eq] at same
              rw [← same, old] at present
              cases present
            · by_cases empty : extra = []
              · rw [empty, List.append_nil] at notTarget
                exact absurd rfl notTarget
              · rw [moving.view_below_target empty] at present
                cases present
  · rw [if_neg arrives]
    by_cases leaves : ∃ extra, Carries source extra ∧ other = source ++ extra
    · rw [if_pos leaves]
      refine unknown _ ?_
      cases found : middle.view other with
      | none =>
          rfl
      | some there =>
          rcases moving.origin_of_shifted shifted found with
            ⟨extra, -, carries, same, -⟩ | ⟨stays, -, -⟩
          · exact absurd ⟨extra, carries, same⟩ arrives
          · obtain ⟨extra, carries, same⟩ := leaves
            exact absurd same (stays extra carries)
    · rw [if_neg leaves]
      have notTarget : other ≠ target := by
        intro same
        exact arrives ⟨[], Or.inl rfl, by rw [same, List.append_nil]⟩
      cases old : fs.view other with
      | some found =>
          have kept := moving.kept_of_shifted shifted
            (fun extra carries same => leaves ⟨extra, carries, same⟩)
            notTarget old
          exact (congrArg (Option.map Node.item) kept).trans
            (congrArg (Option.map Node.item) old).symm
      | none =>
          have gone : fs.items other = none := items_eq_none_iff.mpr old
          rw [gone]
          refine unknown _ ?_
          cases found : middle.view other with
          | none =>
              rfl
          | some there =>
              rcases moving.origin_of_shifted shifted found with
                ⟨extra, -, carries, same, -⟩ | ⟨-, -, present⟩
              · exact absurd ⟨extra, carries, same⟩ arrives
              · rw [old] at present
                cases present

theorem items_moved (moving : Moving fs cleared source target node)
    (hash : HashOrder) {path : Text} (lexical : Lexical path)
    (arrives : namesOf path = target) (name : Text) :
    (insertAncestorDirs path
        (moveLoop (keyOf source) (keyOf target) name
          (toMove hash cleared (keyOf source)) cleared)).items =
      (fs.items.graft (Carries source) source target).fill .dir target := by
  rw [items_insertAncestorDirs lexical, arrives,
    moving.items_middle (moving.shifted hash name)]

end Moving

end MemoryFs

end Hookfs.Memory
