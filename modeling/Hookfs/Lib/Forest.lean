import Mathlib.Logic.Function.Basic
import Hookfs.Lib.Tree

/-!
# Trees of names, operation by operation

A forest maps paths to items.  What planting, cutting, pruning and moving
make of it is said at each path, with one item that stands for directories.
-/

namespace Hookfs.Lib

universe u v w

/-- What is at each path. -/
abbrev Forest (Name : Type u) (Item : Type v) := List Name → Option Item

namespace Forest

variable {Name : Type u} {Item : Type v}

/-- Everything but the root is in a directory. -/
def Rooted (dir : Item) (forest : Forest Name Item) : Prop :=
  ∀ path name, forest (path ++ [name]) ≠ none → forest path = some dir

/-- Something is in the directory at a path. -/
def Occupied (forest : Forest Name Item) (path : List Name) : Prop :=
  ∃ name, forest (path ++ [name]) ≠ none

section Operations

open Classical

/-- The missing ancestors of a path become directories. -/
noncomputable def fill (dir : Item) (path : List Name)
    (forest : Forest Name Item) : Forest Name Item :=
  fun other =>
    if other <+: path ∧ other ≠ path then (forest other).or (some dir)
    else forest other

/-- An item at a path, or none. -/
noncomputable def put (path : List Name) (found : Option Item)
    (forest : Forest Name Item) : Forest Name Item :=
  fun other => if other = path then found else forest other

noncomputable def plant (dir : Item) (path : List Name) (item : Item)
    (forest : Forest Name Item) : Forest Name Item :=
  fill dir path (put path (some item) forest)

noncomputable def cut (covered : List Name → Prop)
    (forest : Forest Name Item) : Forest Name Item :=
  fun other => if covered other then none else forest other

/-- A path, other than the root, below which there is nothing but the way
down to a directory. -/
structure Vacant (dir : Item) (forest : Forest Name Item)
    (path up : List Name) : Prop where
  notRoot : up ≠ []
  above : up <+: path
  directory : forest path = some dir
  alone : ∀ other, up <+: other → forest other ≠ none → other <+: path

/-- The directories go that were only there for the one at a path. -/
noncomputable def prune (dir : Item) (path : List Name)
    (forest : Forest Name Item) : Forest Name Item :=
  cut (Vacant dir forest path) forest

/-- What is at `source` and what is carried below it go to `target`. -/
noncomputable def graft (carries : List Name → Prop)
    (source target : List Name) (forest : Forest Name Item) :
    Forest Name Item :=
  fun other =>
    if ∃ extra, carries extra ∧ other = target ++ extra then
      forest (source ++ other.drop target.length)
    else if ∃ extra, carries extra ∧ other = source ++ extra then none
    else forest other

end Operations

section Lemmas

variable {dir : Item} {forest : Forest Name Item}
  {path other : List Name}

@[simp]
theorem put_self (path : List Name) (found : Option Item)
    (forest : Forest Name Item) : put path found forest path = found :=
  if_pos rfl

theorem put_of_ne (different : other ≠ path) (found : Option Item)
    (forest : Forest Name Item) :
    put path found forest other = forest other :=
  if_neg different

theorem fill_of_some {item : Item} (there : forest other = some item) :
    fill dir path forest other = some item := by
  unfold fill
  split
  · rw [there, Option.some_or]
  · exact there

theorem fill_above (above : other <+: path) (different : other ≠ path)
    (missing : forest other = none) :
    fill dir path forest other = some dir := by
  unfold fill
  rw [if_pos ⟨above, different⟩, missing, Option.none_or]

theorem fill_elsewhere (outside : ¬ (other <+: path ∧ other ≠ path)) :
    fill dir path forest other = forest other :=
  if_neg outside

theorem plant_self (path : List Name) (item : Item)
    (forest : Forest Name Item) : plant dir path item forest path = some item :=
  fill_of_some (put_self path (some item) forest)

/-- What is below an item is below one of the entries of its directory. -/
theorem Rooted.occupied (rooted : Rooted dir forest) {extra : List Name}
    (nonempty : extra ≠ []) (there : forest (path ++ extra) ≠ none) :
    Occupied forest path := by
  have grounded : Grounded (fun _ : Item => true) forest := by
    intro up name item present
    have found := rooted up name (by rw [present]; exact Option.some_ne_none _)
    exact ⟨dir, found, rfl⟩
  cases extra with
  | nil =>
      exact absurd rfl nonempty
  | cons name rest =>
      refine ⟨name, ?_⟩
      have split : path ++ name :: rest = path ++ [name] ++ rest := by
        rw [List.append_assoc, List.singleton_append]
      rw [split] at there
      by_cases last : rest = []
      · rw [last, List.append_nil] at there
        exact there
      · obtain ⟨item, present⟩ := Option.ne_none_iff_exists'.mp there
        obtain ⟨above, found, -⟩ := grounded.ancestor last present
        rw [found]
        exact Option.some_ne_none above

/-- Nothing to prune without a directory to begin with. -/
theorem prune_of_not_dir (nothing : forest path ≠ some dir) :
    prune dir path forest = forest := by
  funext other
  exact if_neg fun vacant => nothing vacant.directory

theorem prune_root (forest : Forest Name Item) :
    prune dir [] forest = forest := by
  funext other
  refine if_neg fun vacant => ?_
  exact vacant.notRoot (List.prefix_nil.mp vacant.above)

theorem prune_of_occupied (occupied : Occupied forest path) :
    prune dir path forest = forest := by
  funext other
  refine if_neg fun vacant => ?_
  obtain ⟨name, there⟩ := occupied
  have longer := (vacant.alone (path ++ [name])
    (vacant.above.trans (List.prefix_append path [name])) there).length_le
  rw [List.length_append, List.length_singleton] at longer
  omega

/-- An empty directory goes, and then its parent may be one. -/
theorem prune_snoc (rooted : Rooted dir forest) {front : List Name}
    {last : Name} (directory : forest (front ++ [last]) = some dir)
    (bare : ¬ Occupied forest (front ++ [last])) :
    prune dir front (put (front ++ [last]) none forest) =
      prune dir (front ++ [last]) forest := by
  have single : Vacant dir forest (front ++ [last]) (front ++ [last]) := by
    refine ⟨List.append_ne_nil_of_right_ne_nil front
      (List.cons_ne_nil last []), List.prefix_refl _, directory, ?_⟩
    rintro other ⟨extra, rfl⟩ there
    by_cases empty : extra = []
    · rw [empty, List.append_nil]
    · exact absurd (rooted.occupied empty there) bare
  have parent : forest front = some dir := by
    refine rooted front last ?_
    rw [directory]
    exact Option.some_ne_none dir
  have higher : ∀ other, other ≠ front ++ [last] →
      (Vacant dir (put (front ++ [last]) none forest) front other ↔
        Vacant dir forest (front ++ [last]) other) := by
    intro other different
    constructor
    · intro vacant
      refine ⟨vacant.notRoot,
        vacant.above.trans (List.prefix_append front [last]), directory, ?_⟩
      intro below inside there
      by_cases same : below = front ++ [last]
      · rw [same]
      · have kept : put (front ++ [last]) none forest below ≠ none := by
          rw [put_of_ne same]
          exact there
        exact (vacant.alone below inside kept).trans
          (List.prefix_append front [last])
    · intro vacant
      refine ⟨vacant.notRoot,
        (List.prefix_concat_iff.mp vacant.above).resolve_left different, ?_, ?_⟩
      · rw [put_of_ne (fun same => ?_), parent]
        have longer := congrArg List.length same
        rw [List.length_append, List.length_singleton] at longer
        omega
      · intro below inside there
        have apart : below ≠ front ++ [last] := by
          intro same
          rw [same, put_self] at there
          exact there rfl
        rw [put_of_ne apart] at there
        exact (List.prefix_concat_iff.mp
          (vacant.alone below inside there)).resolve_left apart
  funext other
  unfold prune cut
  by_cases same : other = front ++ [last]
  · rw [same, if_pos single, put_self, ite_self]
  · rw [put_of_ne same]
    by_cases vacant : Vacant dir forest (front ++ [last]) other
    · rw [if_pos ((higher other same).mpr vacant), if_pos vacant]
    · rw [if_neg fun here => vacant ((higher other same).mp here),
        if_neg vacant]

end Lemmas

/-! ## Forests of nodes -/

section Nodes

variable {Node : Type w} {isDir : Node → Bool}
  {tree : List Name → Option Node}

/-- A forest of what nodes are. -/
def ofNodes (item : Node → Item) (tree : List Name → Option Node) :
    Forest Name Item :=
  fun path => (tree path).map item

theorem rooted_ofNodes {item : Node → Item} {dir : Item}
    (directories : ∀ node, isDir node = true → item node = dir)
    (grounded : Grounded isDir tree) : Rooted dir (ofNodes item tree) := by
  intro path name there
  unfold ofNodes at there ⊢
  cases found : tree (path ++ [name]) with
  | none =>
      rw [found] at there
      exact absurd rfl there
  | some node =>
      obtain ⟨above, present, isDirectory⟩ := grounded path name node found
      rw [present]
      exact congrArg some (directories above isDirectory)

end Nodes

end Forest

end Hookfs.Lib
