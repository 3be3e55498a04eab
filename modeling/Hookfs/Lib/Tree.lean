import Mathlib.Data.List.Infix

/-!
# Trees as partial maps on paths

A tree maps paths, lists of names, to nodes.  It is grounded if every entry
but the root sits in a directory.  The lemmas say exactly when planting a
node, cutting a subtree and moving one keep a tree grounded.
-/

namespace Hookfs.Lib

universe u v

section Tree

variable {Name : Type u} {Node : Type v}

/-- Every entry other than the root has a directory as its parent. -/
def Grounded (isDir : Node → Bool) (tree : List Name → Option Node) :
    Prop :=
  ∀ path name node, tree (path ++ [name]) = some node →
    ∃ dir, tree path = some dir ∧ isDir dir = true

variable {isDir : Node → Bool} {tree next : List Name → Option Node}

/-- In a grounded tree every proper ancestor of an entry is a directory. -/
theorem Grounded.ancestor (grounded : Grounded isDir tree)
    {path extra : List Name} {node : Node} (nonempty : extra ≠ [])
    (present : tree (path ++ extra) = some node) :
    ∃ dir, tree path = some dir ∧ isDir dir = true := by
  induction extra using List.reverseRecOn generalizing node with
  | nil =>
      exact absurd rfl nonempty
  | append_singleton front last inductionHypothesis =>
      rw [← List.append_assoc] at present
      obtain ⟨dir, dirPresent, dirIsDir⟩ :=
        grounded (path ++ front) last node present
      by_cases empty : front = []
      · subst empty
        rw [List.append_nil] at dirPresent
        exact ⟨dir, dirPresent, dirIsDir⟩
      · exact inductionHypothesis empty dirPresent

theorem Grounded.above (grounded : Grounded isDir tree)
    {up path : List Name} {node : Node} (before : up <+: path)
    (different : up ≠ path) (present : tree path = some node) :
    ∃ dir, tree up = some dir ∧ isDir dir = true := by
  obtain ⟨extra, rfl⟩ := before
  have nonempty : extra ≠ [] := by
    rintro rfl
    exact different (List.append_nil up).symm
  exact grounded.ancestor nonempty present

theorem prefix_of_prefix_snoc {up path : List Name} {name : Name}
    (before : up ++ [name] <+: path) : up <+: path ∧ up ≠ path := by
  refine ⟨(List.prefix_append up [name]).trans before, ?_⟩
  rintro rfl
  have shorter := before.length_le
  rw [List.length_append, List.length_singleton] at shorter
  omega

/-! ## Planting -/

/-- A node is put at `path` and the missing ancestors become directories. -/
structure Planted (isDir : Node → Bool) (tree next : List Name → Option Node)
    (path : List Name) (node : Node) : Prop where
  here : next path = some node
  kept : ∀ other found, other ≠ path → tree other = some found →
    next other = some found
  above : ∀ up, up <+: path → up ≠ path → tree up = none →
    ∃ dir, next up = some dir ∧ isDir dir = true
  elsewhere : ∀ other, ¬ other <+: path → tree other = none →
    next other = none

/-- What a planted tree holds comes from the node, from the old tree or from
the ancestors. -/
theorem Planted.cases {path other : List Name} {node found : Node}
    (planted : Planted isDir tree next path node)
    (present : next other = some found) :
    (other = path ∧ found = node) ∨
      (other ≠ path ∧ tree other = some found) ∨
      (other <+: path ∧ other ≠ path) := by
  by_cases same : other = path
  · subst same
    rw [planted.here, Option.some.injEq] at present
    exact Or.inl ⟨rfl, present.symm⟩
  · cases old : tree other with
    | some before =>
        rw [planted.kept other before same old] at present
        exact Or.inr (Or.inl ⟨same, present⟩)
    | none =>
        by_cases ancestor : other <+: path
        · exact Or.inr (Or.inr ⟨ancestor, same⟩)
        · rw [planted.elsewhere other ancestor old] at present
          cases present

/-- Where no ancestor of the planted path was a file, all of them are
directories afterwards. -/
theorem Planted.isDir_above {path up : List Name} {node : Node}
    (planted : Planted isDir tree next path node)
    (clear : ∀ up found, up <+: path → up ≠ path → tree up = some found →
      isDir found = true)
    (before : up <+: path) (different : up ≠ path) :
    ∃ dir, next up = some dir ∧ isDir dir = true := by
  cases old : tree up with
  | some dir =>
      exact ⟨dir, planted.kept up dir different old,
        clear up dir before different old⟩
  | none =>
      exact planted.above up before different old

/-- Planting keeps a tree grounded exactly when no ancestor is a file and
nothing lies below a planted file. -/
theorem Planted.grounded_iff {path : List Name} {node : Node}
    (planted : Planted isDir tree next path node)
    (grounded : Grounded isDir tree) :
    Grounded isDir next ↔
      (∀ up found, up <+: path → up ≠ path → tree up = some found →
        isDir found = true) ∧
      (isDir node = true ∨ ∀ name, tree (path ++ [name]) = none) := by
  constructor
  · intro nextGrounded
    refine ⟨?_, ?_⟩
    · intro up found before different present
      obtain ⟨dir, dirPresent, dirIsDir⟩ :=
        nextGrounded.above before different planted.here
      rw [planted.kept up found different present,
        Option.some.injEq] at dirPresent
      rwa [dirPresent]
    · by_cases childless : ∀ name, tree (path ++ [name]) = none
      · exact Or.inr childless
      · left
        rw [not_forall] at childless
        obtain ⟨name, notNone⟩ := childless
        obtain ⟨child, childPresent⟩ :=
          Option.ne_none_iff_exists'.mp notNone
        have different : path ++ [name] ≠ path := by simp
        obtain ⟨dir, dirPresent, dirIsDir⟩ := nextGrounded path name child
          (planted.kept _ child different childPresent)
        rw [planted.here, Option.some.injEq] at dirPresent
        rwa [dirPresent]
  · rintro ⟨clear, below⟩ up name found present
    rcases planted.cases present with
      ⟨last, -⟩ | ⟨-, old⟩ | ⟨ancestor, -⟩
    · have whole : up ++ [name] <+: path := by rw [last]
      obtain ⟨before, different⟩ := prefix_of_prefix_snoc whole
      exact planted.isDir_above clear before different
    · obtain ⟨dir, dirPresent, dirIsDir⟩ := grounded up name found old
      by_cases same : up = path
      · subst same
        refine ⟨node, planted.here, ?_⟩
        rcases below with isDirectory | childless
        · exact isDirectory
        · rw [childless name] at old
          cases old
      · exact ⟨dir, planted.kept up dir same dirPresent, dirIsDir⟩
    · obtain ⟨before, different⟩ := prefix_of_prefix_snoc ancestor
      exact planted.isDir_above clear before different

/-! ## Cutting -/

/-- Cutting a whole subtree keeps a tree grounded. -/
theorem Grounded.cut (grounded : Grounded isDir tree) (path : List Name)
    (gone : ∀ other, path <+: other → next other = none)
    (kept : ∀ other, ¬ path <+: other → next other = tree other) :
    Grounded isDir next := by
  intro up name node present
  by_cases inside : path <+: up ++ [name]
  · rw [gone _ inside] at present
    cases present
  · rw [kept _ inside] at present
    have outside : ¬ path <+: up := fun before =>
      inside (before.trans (List.prefix_append up [name]))
    rw [kept _ outside]
    exact grounded up name node present

/-! ## Moving -/

/-- Entries are carried from below `source` to below `target`, the missing
ancestors of `target` become directories, and everything else stays.
`carries` says which remainders below `source` are carried along. -/
structure Moved (isDir : Node → Bool) (tree next : List Name → Option Node)
    (source target : List Name) (carries : List Name → Prop) : Prop where
  carried : ∀ extra node, carries extra →
    tree (source ++ extra) = some node →
    ∃ moved, next (target ++ extra) = some moved ∧
      isDir moved = isDir node
  origin : ∀ other node, next other = some node →
    (∃ extra before, carries extra ∧ other = target ++ extra ∧
        tree (source ++ extra) = some before) ∨
      ((∀ extra, carries extra → other ≠ source ++ extra) ∧
        other ≠ target ∧ tree other = some node) ∨
      (other <+: target ∧ other ≠ target)
  kept : ∀ other node, (∀ extra, carries extra → other ≠ source ++ extra) →
    other ≠ target → tree other = some node → next other = some node
  above : ∀ up, up <+: target → up ≠ target →
    (tree up = none ∨ ∃ extra, carries extra ∧ up = source ++ extra) →
    ∃ dir, next up = some dir ∧ isDir dir = true

namespace Moved

variable {source target : List Name} {carries : List Name → Prop}
  (moved : Moved isDir tree next source target carries)
include moved

/-- If the tree stays grounded, no ancestor of the target was a file, except
perhaps the source. -/
theorem clear_of_grounded {root : Node} (nextGrounded : Grounded isDir next)
    (present : tree source = some root) (carriesRoot : carries [])
    (outside : ∀ extra node, carries extra → extra ≠ [] →
      tree (source ++ extra) = some node → ¬ source <+: target)
    {up : List Name} {found : Node} (before : up <+: target)
    (different : up ≠ target) (notSource : up ≠ source)
    (old : tree up = some found) : isDir found = true := by
  have stays : ∀ extra, carries extra → up ≠ source ++ extra := by
    rintro extra carriedExtra rfl
    have nonempty : extra ≠ [] := by
      rintro rfl
      exact notSource (List.append_nil source)
    exact outside extra found carriedExtra nonempty old
      ((List.prefix_append source extra).trans before)
  obtain ⟨node, targetPresent, -⟩ :=
    moved.carried [] root carriesRoot (by rwa [List.append_nil])
  rw [List.append_nil] at targetPresent
  obtain ⟨dir, dirPresent, dirIsDir⟩ :=
    nextGrounded.above before different targetPresent
  rw [moved.kept up found stays different old,
    Option.some.injEq] at dirPresent
  rwa [dirPresent]

theorem isDir_above (carriesRoot : carries [])
    (clear : ∀ up found, up <+: target → up ≠ target → up ≠ source →
      tree up = some found → isDir found = true)
    {up : List Name} (before : up <+: target) (different : up ≠ target) :
    ∃ dir, next up = some dir ∧ isDir dir = true := by
  by_cases lifted : ∃ extra, carries extra ∧ up = source ++ extra
  · exact moved.above up before different (Or.inr lifted)
  · have stays : ∀ extra, carries extra → up ≠ source ++ extra :=
      fun extra carriedExtra same => lifted ⟨extra, carriedExtra, same⟩
    cases old : tree up with
    | none =>
        exact moved.above up before different (Or.inl old)
    | some dir =>
        have notSource : up ≠ source := by
          rintro rfl
          exact stays [] carriesRoot (List.append_nil up).symm
        exact ⟨dir, moved.kept up dir stays different old,
          clear up dir before different notSource old⟩

theorem grounded_of_clear (grounded : Grounded isDir tree)
    (carriesRoot : carries [])
    (carriesUp : ∀ extra name, carries (extra ++ [name]) → carries extra)
    (carriesDown : ∀ extra name, carries extra →
      carries (extra ++ [name]) ∨
        (source ++ extra <+: target ∧ source ++ extra ≠ target))
    (bare : ∀ name node, tree (target ++ [name]) = some node →
      ∃ extra, carries extra ∧ target ++ [name] = source ++ extra)
    (clear : ∀ up found, up <+: target → up ≠ target → up ≠ source →
      tree up = some found → isDir found = true) :
    Grounded isDir next := by
  intro up name node nodePresent
  rcases moved.origin _ node nodePresent with
    ⟨extra, before, carriedExtra, place, old⟩ |
    ⟨stays, notTarget, old⟩ | ⟨ancestor, -⟩
  · -- the entry was carried along
    rcases List.eq_nil_or_concat extra with rfl | ⟨front, last, rfl⟩
    · rw [List.append_nil] at place
      have whole : up ++ [name] <+: target := by rw [place]
      obtain ⟨before, different⟩ := prefix_of_prefix_snoc whole
      exact moved.isDir_above carriesRoot clear before different
    · rw [List.concat_eq_append] at carriedExtra place old
      rw [← List.append_assoc] at place old
      obtain ⟨upEq, -⟩ := List.append_inj' place rfl
      obtain ⟨dir, dirPresent, dirIsDir⟩ :=
        grounded (source ++ front) last before old
      obtain ⟨carriedDir, carriedPresent, sameKind⟩ :=
        moved.carried front dir (carriesUp front last carriedExtra)
          dirPresent
      exact ⟨carriedDir, upEq ▸ carriedPresent, sameKind.trans dirIsDir⟩
  · -- the entry stayed where it was
    obtain ⟨dir, dirPresent, dirIsDir⟩ := grounded up name node old
    by_cases lifted : ∃ extra, carries extra ∧ up = source ++ extra
    · obtain ⟨extra, carriedExtra, rfl⟩ := lifted
      rcases carriesDown extra name carriedExtra with
        further | ⟨before, different⟩
      · exact absurd (List.append_assoc source extra [name])
          (stays _ further)
      · exact moved.isDir_above carriesRoot clear before different
    · by_cases same : up = target
      · subst same
        obtain ⟨extra, carriedExtra, equal⟩ := bare name node old
        exact absurd equal (stays extra carriedExtra)
      · refine ⟨dir, moved.kept up dir ?_ same dirPresent, dirIsDir⟩
        exact fun extra carriedExtra equal =>
          lifted ⟨extra, carriedExtra, equal⟩
  · obtain ⟨before, different⟩ := prefix_of_prefix_snoc ancestor
    exact moved.isDir_above carriesRoot clear before different

/-- A move keeps a tree grounded exactly when no ancestor of the target,
other than the source itself, is a file. -/
theorem grounded_iff {root : Node} (grounded : Grounded isDir tree)
    (present : tree source = some root) (carriesRoot : carries [])
    (carriesUp : ∀ extra name, carries (extra ++ [name]) → carries extra)
    (carriesDown : ∀ extra name, carries extra →
      carries (extra ++ [name]) ∨
        (source ++ extra <+: target ∧ source ++ extra ≠ target))
    (outside : ∀ extra node, carries extra → extra ≠ [] →
      tree (source ++ extra) = some node → ¬ source <+: target)
    (bare : ∀ name node, tree (target ++ [name]) = some node →
      ∃ extra, carries extra ∧ target ++ [name] = source ++ extra) :
    Grounded isDir next ↔
      ∀ up found, up <+: target → up ≠ target → up ≠ source →
        tree up = some found → isDir found = true := by
  constructor
  · intro nextGrounded up found before different notSource old
    exact moved.clear_of_grounded nextGrounded present carriesRoot outside
      before different notSource old
  · exact moved.grounded_of_clear grounded carriesRoot carriesUp carriesDown
      bare

end Moved

end Tree

end Hookfs.Lib
