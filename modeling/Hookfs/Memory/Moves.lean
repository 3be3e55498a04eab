import Hookfs.Memory.Tree

/-!
# Cutting, pruning and moving subtrees

`remove_subtree` cuts a subtree and prunes empty directories upwards;
`rename` carries a subtree to another place.  Both select their keys by text
prefixes, and the root key is the prefix of no other key.
-/

namespace Hookfs.Memory

open Hookfs.Lib Hookfs.Posix

namespace MemoryFs

/-! ## Selection by prefix -/

/-- The remainders below `source` that a text prefix test finds: below the
root it finds only the root. -/
def Carries (source extra : List Name) : Prop :=
  extra = [] ∨ source ≠ []

theorem covers_keyOf {source names : List Name} :
    covers (keyOf source) (keyOf names) = true ↔
      ∃ extra, Carries source extra ∧ names = source ++ extra := by
  rw [covers, Bool.or_eq_true, decide_eq_true_eq, keyOf_inj]
  by_cases root : source = []
  · subst root
    rw [keyOf_nil, isUnder_root_keyOf]
    simp [Carries]
  · rw [isUnder_keyOf root]
    constructor
    · rintro (rfl | ⟨extra, -, rfl⟩)
      · exact ⟨[], Or.inl rfl, (List.append_nil _).symm⟩
      · exact ⟨extra, Or.inr root, rfl⟩
    · rintro ⟨extra, -, rfl⟩
      by_cases empty : extra = []
      · subst empty
        exact Or.inl (List.append_nil _)
      · exact Or.inr ⟨extra, empty, rfl⟩

theorem mem_keys_iff {entries : Store Text Node} {key : Text} :
    key ∈ entries.keys ↔ ∃ node, entries.lookup key = some node := by
  rw [← AList.mem_keys, ← AList.lookup_isSome, Option.isSome_iff_exists]

theorem hasChild_eq_false {fs : MemoryFs} {key : Text}
    (childless : hasChild key fs.entries = false) :
    fs.NothingBelow key := by
  intro other node present _ child
  unfold hasChild at childless
  rw [List.any_eq_false] at childless
  exact childless other (mem_keys_iff.mpr ⟨node, present⟩)
    (decide_eq_true child)

/-! ## Cutting and pruning -/

theorem lookup_foldl_evict (other : Text) :
    ∀ (keys : List Text) (fs : MemoryFs),
      (keys.foldl (fun current key => current.evict key) fs).entries.lookup
          other =
        if other ∈ keys then none else fs.entries.lookup other
  | [], fs => by
      simp
  | key :: rest, fs => by
      rw [List.foldl_cons, lookup_foldl_evict other rest, lookup_evict]
      by_cases later : other ∈ rest
      · rw [if_pos later, if_pos (List.mem_cons_of_mem _ later)]
      · by_cases same : other = key
        · rw [if_neg later, if_pos same,
            if_pos (List.mem_cons.mpr (Or.inl same))]
        · have outside : other ∉ key :: rest := by
            rw [List.mem_cons]
            exact fun either => either.elim same later
          rw [if_neg later, if_neg same, if_neg outside]

section Cut

variable {fs : MemoryFs}

/-- Taking out a childless entry keeps the tree well-formed. -/
theorem WellFormed.evict (wellFormed : fs.WellFormed) {key : Text}
    (bare : fs.NothingBelow key) : (fs.evict key).WellFormed := by
  intro other node present notRoot
  rw [lookup_evict] at present
  by_cases same : other = key
  · rw [if_pos same] at present
    cases present
  · rw [if_neg same] at present
    obtain ⟨up, name, upKey, upDir⟩ := wellFormed other node present notRoot
    have different : up ≠ key := by
      rintro rfl
      exact bare other node present same upKey
    refine ⟨up, name, upKey, ?_⟩
    rw [lookup_evict, if_neg different, upDir]

/-- The pruning loop only takes out childless directories: it keeps what
taking out a childless entry keeps. -/
theorem pruneLoop_keeps (good : MemoryFs → Prop)
    (keeps : ∀ (fs : MemoryFs) (key name : Text), good fs →
      fs.entries.lookup key = some (.dir name) → fs.NothingBelow key →
        good (fs.evict key)) :
    ∀ (rounds : Nat) (dir : Option Text) (fs : MemoryFs),
      good fs → good (pruneLoop rounds dir fs)
  | 0, _, _, first => first
  | _ + 1, none, _, first => first
  | rounds + 1, some dir, fs, first => by
      unfold pruneLoop
      split
      · rename_i name directory
        split
        · exact first
        · rename_i childless
          have bare := hasChild_eq_false (Bool.eq_false_iff.mpr childless)
          exact pruneLoop_keeps good keeps rounds (parentKey dir) (fs.evict dir)
            (keeps fs dir name first directory bare)
      · exact first

/-- The tree after the first loop of `remove_subtree`. -/
def cutSubtree (key : Text) (fs : MemoryFs) : MemoryFs :=
  (fs.entries.keys.filter (covers key)).foldl
    (fun current other => current.evict other) fs

theorem lookup_cutSubtree (key other : Text) (fs : MemoryFs) :
    (cutSubtree key fs).entries.lookup other =
      if covers key other = true then none
      else fs.entries.lookup other := by
  unfold cutSubtree
  rw [lookup_foldl_evict]
  by_cases covered : covers key other = true
  · rw [if_pos covered]
    split
    · rfl
    · rename_i outside
      rw [List.mem_filter, not_and] at outside
      cases present : fs.entries.lookup other with
      | none =>
          rfl
      | some node =>
          exact absurd covered (outside (mem_keys_iff.mpr ⟨node, present⟩))
  · rw [if_neg covered, if_neg]
    rw [List.mem_filter]
    exact fun member => covered member.2

theorem Canonical.cutSubtree (canonical : fs.Canonical) (key : Text) :
    (cutSubtree key fs).Canonical := by
  intro other node present
  rw [lookup_cutSubtree] at present
  split at present
  · cases present
  · exact canonical other node present

/-- Cutting a subtree keeps the tree well-formed, except that cutting at the
root takes out the root alone. -/
theorem wellFormed_cutSubtree_iff (canonical : fs.Canonical)
    (wellFormed : fs.WellFormed) (names : List Name) :
    (cutSubtree (keyOf names) fs).WellFormed ↔
      names ≠ [] ∨ fs.NothingBelow (keyOf names) := by
  have viewed (other : List Name) :
      (cutSubtree (keyOf names) fs).view other =
        if covers (keyOf names) (keyOf other) = true then none
        else fs.view other :=
    lookup_cutSubtree (keyOf names) (keyOf other) fs
  rw [wellFormed_iff (canonical.cutSubtree _)]
  constructor
  · intro grounded
    by_cases root : names = []
    · subst root
      right
      rw [nothingBelow_iff canonical]
      intro name
      cases present : fs.view ([] ++ [name]) with
      | none =>
          rfl
      | some node =>
          have stays : (cutSubtree (keyOf []) fs).view ([] ++ [name]) =
              some node := by
            rw [viewed, if_neg, present]
            rw [covers_keyOf]
            simp [Carries]
          obtain ⟨dir, dirPresent, -⟩ := grounded [] name node stays
          rw [viewed, if_pos] at dirPresent
          · cases dirPresent
          · exact covers_keyOf.mpr ⟨[], Or.inl rfl, rfl⟩
    · exact Or.inl root
  · intro allowed
    have grounded := (wellFormed_iff canonical).mp wellFormed
    by_cases root : names = []
    · subst root
      have bare := allowed.resolve_left fun different => different rfl
      rw [nothingBelow_iff canonical] at bare
      -- nothing is left once the root is gone
      intro up name node present
      rw [viewed] at present
      split at present
      · cases present
      · cases up with
        | nil =>
            rw [bare name] at present
            cases present
        | cons head rest =>
            have below : fs.view ([head] ++ (rest ++ [name])) =
                some node := present
            obtain ⟨dir, dirPresent, -⟩ :=
              grounded.ancestor (by simp) below
            have absent : fs.view [head] = none := bare head
            rw [absent] at dirPresent
            cases dirPresent
    · apply grounded.cut names
      · rintro other ⟨extra, rfl⟩
        rw [viewed, if_pos]
        exact covers_keyOf.mpr ⟨extra, Or.inr root, rfl⟩
      · intro other outside
        rw [viewed, if_neg]
        rw [covers_keyOf]
        rintro ⟨extra, -, rfl⟩
        exact outside (List.prefix_append names extra)

theorem removeSubtree_eq (key : Text) (fs : MemoryFs) :
    fs.removeSubtree key =
      pruneLoop (key.length + 1) (parentKey key) (cutSubtree key fs) := rfl

/-- Cutting at the root leaves nothing to prune. -/
theorem removeSubtree_root (fs : MemoryFs) :
    fs.removeSubtree ['/'] = cutSubtree ['/'] fs := by
  have gone : (cutSubtree ['/'] fs).entries.lookup ['/'] = none := by
    rw [lookup_cutSubtree, if_pos]
    rfl
  rw [removeSubtree_eq, parentKey_root]
  unfold pruneLoop
  rw [gone]

/-- `remove_subtree` keeps the tree well-formed, except at the root of a tree
with more than the root. -/
theorem wellFormed_removeSubtree_iff (canonical : fs.Canonical)
    (wellFormed : fs.WellFormed) (names : List Name) :
    (fs.removeSubtree (keyOf names)).WellFormed ↔
      names ≠ [] ∨ fs.NothingBelow (keyOf names) := by
  have cut := wellFormed_cutSubtree_iff canonical wellFormed names
  by_cases root : names = []
  · subst root
    rw [keyOf_nil] at cut ⊢
    rw [removeSubtree_root, cut]
  · constructor
    · exact fun _ => Or.inl root
    · intro allowed
      exact pruneLoop_keeps WellFormed
        (fun _ _ _ wellFormed _ bare => wellFormed.evict bare) _ _ _
        (cut.mpr allowed)

theorem Canonical.removeSubtree (canonical : fs.Canonical)
    (key : Text) : (fs.removeSubtree key).Canonical :=
  pruneLoop_keeps Canonical (fun _ other _ canonical _ _ => canonical.evict other)
    _ _ _ (canonical.cutSubtree key)

end Cut

/-- `remove_subtree` takes out what it covers, and no file besides. -/
theorem lookup_removeSubtree (key : Text) (fs : MemoryFs) :
    (∀ other node, node.isDir = false →
        fs.entries.lookup other = some node →
        covers key other = false →
          (fs.removeSubtree key).entries.lookup other = some node) ∧
      ∀ other, covers key other = true →
        (fs.removeSubtree key).entries.lookup other = none := by
  rw [removeSubtree_eq]
  apply pruneLoop_keeps
    (fun current : MemoryFs =>
      (∀ other node, node.isDir = false →
          fs.entries.lookup other = some node →
          covers key other = false →
            current.entries.lookup other = some node) ∧
        ∀ other, covers key other = true →
          current.entries.lookup other = none)
  · rintro current dir name ⟨kept, gone⟩ directory -
    constructor
    · intro other node file present outside
      have old := kept other node file present outside
      rw [lookup_evict, if_neg, old]
      rintro rfl
      rw [directory, Option.some.injEq] at old
      subst old
      cases file
    · intro other covered
      rw [lookup_evict]
      split
      · rfl
      · exact gone other covered
  · constructor
    · intro other node _ present outside
      rw [lookup_cutSubtree, if_neg (by rw [outside]; decide), present]
    · intro other covered
      rw [lookup_cutSubtree, if_pos covered]

theorem nextFile_removeSubtree (key : Text) (fs : MemoryFs) :
    (fs.removeSubtree key).nextFile = fs.nextFile := by
  rw [removeSubtree_eq]
  apply pruneLoop_keeps
    (fun current : MemoryFs => current.nextFile = fs.nextFile)
  · intro current dir _ same _ _
    rw [nextFile_evict, same]
  · unfold cutSubtree
    apply List.foldlRecOn (motive := fun current : MemoryFs =>
      current.nextFile = fs.nextFile)
    · rfl
    · intro current same other _
      rw [nextFile_evict, same]

/-! ## Moving -/

/-- What the moving loop does to the entries under `keys`. -/
structure Shifted (source target name : Text) (keys : List Text)
    (entries next : Store Text Node) : Prop where
  arrived : ∀ key ∈ keys, ∀ node, entries.lookup key = some node →
    next.lookup (rekey key source target) =
      some (if key = source then node.rename name else node)
  departed : ∀ key ∈ keys, next.lookup key = none
  rest : ∀ other, other ∉ keys →
    (∀ key ∈ keys, other ≠ rekey key source target) →
      next.lookup other = entries.lookup other

section Shift

variable {source target name : Text}

/-- One round of the moving loop, for a key that is present. -/
theorem moveLoop_present {key : Text} {node : Node} {fs : MemoryFs}
    (present : fs.entries.lookup key = some node) (rest : List Text) :
    moveLoop source target name (key :: rest) fs =
      moveLoop source target name rest
        (({ fs with entries := fs.entries.erase key } : MemoryFs).place
          (rekey key source target)
          (if key = source then node.rename name else node)) := by
  rw [moveLoop, present]

/-- The entries after an entry has been taken out and put elsewhere. -/
theorem lookup_place_erase (key place : Text) (node : Node) (fs : MemoryFs)
    (other : Text) :
    (({ fs with entries := fs.entries.erase key } : MemoryFs).place place
      node).entries.lookup other =
      if other = place then some node
      else if other = key then none
      else fs.entries.lookup other := by
  rw [lookup_place]
  split
  · rfl
  · split
    · rename_i same
      rw [same]
      exact AList.lookup_erase _ _
    · rename_i different
      exact AList.lookup_erase_ne different

/-- The loop moves every key it is given to its new place, in whatever
order, as long as the new places are apart from each other and from the keys
still to move. -/
theorem shifted_moveLoop :
    ∀ (keys : List Text) (fs : MemoryFs), keys.Nodup →
      (∀ key ∈ keys, ∃ node, fs.entries.lookup key = some node) →
      (∀ key ∈ keys, rekey key source target ∉ keys) →
      (∀ key ∈ keys, ∀ other ∈ keys,
        rekey key source target = rekey other source target →
          key = other) →
        Shifted source target name keys fs.entries
          (moveLoop source target name keys fs).entries
  | [], fs, _, _, _, _ => by
      refine ⟨?_, ?_, ?_⟩
      · intro key member
        cases member
      · intro key member
        cases member
      · exact fun _ _ _ => rfl
  | key :: rest, fs, distinct, present, fresh, apart => by
      obtain ⟨node, here⟩ := present key List.mem_cons_self
      have notLater : key ∉ rest := (List.nodup_cons.mp distinct).1
      rw [moveLoop_present here]
      generalize moved : (if key = source then node.rename name else node) =
        placed
      have lookups := lookup_place_erase key (rekey key source target) placed
        fs
      have keyFresh : rekey key source target ∉ key :: rest :=
        fresh key List.mem_cons_self
      have restFresh (other : Text) (member : other ∈ rest) :
          other ≠ rekey key source target ∧ other ≠ key := by
        constructor
        · rintro rfl
          exact keyFresh (List.mem_cons_of_mem _ member)
        · rintro rfl
          exact notLater member
      have unmoved (other : Text) (member : other ∈ rest) :=
        (lookups other).trans
          ((if_neg (restFresh other member).1).trans
            (if_neg (restFresh other member).2))
      have later := shifted_moveLoop rest
        (({ fs with entries := fs.entries.erase key } : MemoryFs).place
          (rekey key source target) placed)
        (List.nodup_cons.mp distinct).2
        (fun other member => by
          rw [unmoved other member]
          exact present other (List.mem_cons_of_mem _ member))
        (fun other member inside =>
          fresh other (List.mem_cons_of_mem _ member)
            (List.mem_cons_of_mem _ inside))
        (fun left leftMember right rightMember =>
          apart left (List.mem_cons_of_mem _ leftMember) right
            (List.mem_cons_of_mem _ rightMember))
      refine ⟨?_, ?_, ?_⟩
      · intro other member found old
        rcases List.mem_cons.mp member with rfl | member
        · rw [here, Option.some.injEq] at old
          subst old
          rw [later.rest, lookups, if_pos rfl, moved]
          · exact fun inside => keyFresh (List.mem_cons_of_mem _ inside)
          · intro third thirdMember same
            have equal := apart other List.mem_cons_self third
              (List.mem_cons_of_mem _ thirdMember) same
            exact notLater (equal ▸ thirdMember)
        · apply later.arrived other member
          rw [unmoved other member, old]
      · intro other member
        rcases List.mem_cons.mp member with rfl | member
        · have elsewhere : other ≠ rekey other source target := by
            intro same
            exact keyFresh (same ▸ List.mem_cons_self)
          rw [later.rest other notLater, lookups, if_neg elsewhere,
            if_pos rfl]
          intro third thirdMember same
          exact fresh third (List.mem_cons_of_mem _ thirdMember)
            (same ▸ List.mem_cons_self)
        · exact later.departed other member
      · intro other outside elsewhere
        rw [List.mem_cons, not_or] at outside
        rw [later.rest other outside.2, lookups,
          if_neg (elsewhere key List.mem_cons_self), if_neg outside.1]
        exact fun third thirdMember =>
          elsewhere third (List.mem_cons_of_mem _ thirdMember)

end Shift

theorem keyOf_append {names extra : List Name} (nonempty : names ≠ []) :
    keyOf (names ++ extra) = keyOf names ++ body '/' (extra.map Name.text) := by
  unfold keyOf
  rw [render_of_ne_nil (by simp [nonempty]),
    render_of_ne_nil (by simpa using nonempty), List.map_append,
    body_append]

/-- The new key of a carried entry. -/
theorem rekey_keyOf {source target extra : List Name}
    (carries : Carries source extra) (nonempty : target ≠ []) :
    rekey (keyOf (source ++ extra)) (keyOf source) (keyOf target) =
      keyOf (target ++ extra) := by
  unfold rekey
  rcases carries with rfl | sourceNonempty
  · rw [List.append_nil, List.append_nil, if_pos rfl]
  · split
    · rename_i same
      have empty : extra = [] := by simpa using keyOf_injective same
      rw [empty, List.append_nil]
    · rw [keyOf_append sourceNonempty, List.drop_left,
        keyOf_append nonempty]

theorem isDir_rename (name : Text) (node : Node) :
    (node.rename name).isDir = node.isDir := by
  cases node with
  | file source old mtime =>
      rfl
  | memFile id old =>
      rfl
  | dir old =>
      rfl

/-- Nothing at all lies below a key without children. -/
theorem view_below {fs : MemoryFs} (canonical : fs.Canonical)
    (wellFormed : fs.WellFormed) {names extra : List Name}
    (bare : fs.NothingBelow (keyOf names)) (nonempty : extra ≠ []) :
    fs.view (names ++ extra) = none := by
  rw [nothingBelow_iff canonical] at bare
  cases extra with
  | nil =>
      exact absurd rfl nonempty
  | cons head rest =>
      cases present : fs.view (names ++ head :: rest) with
      | none =>
          rfl
      | some node =>
          have grounded := (wellFormed_iff canonical).mp wellFormed
          rw [List.append_cons] at present
          have absent := bare head
          cases rest with
          | nil =>
              rw [List.append_nil, absent] at present
              cases present
          | cons second later =>
              obtain ⟨dir, dirPresent, -⟩ := grounded.ancestor
                (List.cons_ne_nil second later) present
              rw [absent] at dirPresent
              cases dirPresent

/-- Nothing lies below a file. -/
theorem nothingBelow_of_file {fs : MemoryFs} (wellFormed : fs.WellFormed)
    {key : Text} {node : Node} (present : fs.entries.lookup key = some node)
    (file : node.isDir = false) : fs.NothingBelow key := by
  intro other found otherPresent different child
  by_cases root : other = ['/']
  · subst root
    rw [parentKey_root, Option.some.injEq] at child
    exact different child
  · obtain ⟨up, name, upKey, upDir⟩ :=
      wellFormed other found otherPresent root
    rw [child, Option.some.injEq] at upKey
    subst upKey
    rw [present, Option.some.injEq] at upDir
    subst upDir
    cases file

/-- Once `clear_destination` has passed, the destination is free and was
childless before. -/
theorem clearDestination_spec {fs cleared : MemoryFs} {kind : Bool}
    {key : Text} (wellFormed : fs.WellFormed)
    (passed : clearDestination kind key fs = .ok cleared) :
    fs.NothingBelow key ∧
      ∀ other, cleared.entries.lookup other =
        if other = key then none else fs.entries.lookup other := by
  unfold clearDestination at passed
  cases found : fs.entries.lookup key with
  | none =>
      rw [found] at passed
      injection passed with same
      subst same
      refine ⟨nothingBelow_of_absent wellFormed found, ?_⟩
      intro other
      split
      · rename_i equal
        rw [equal, found]
      · rfl
  | some node =>
      simp only [found] at passed
      split at passed
      · cases passed
      · cases passed
      · split at passed
        · cases passed
        · rename_i childless
          injection passed with same
          subst same
          exact ⟨hasChild_eq_false (Bool.eq_false_iff.mpr childless),
            fun other => lookup_evict _ other fs⟩
      · rename_i file
        injection passed with same
        subst same
        exact ⟨nothingBelow_of_file wellFormed found file,
          fun other => lookup_evict _ other fs⟩

/-! ## Renaming -/

/-- A rename that gets as far as its moving loop. -/
structure Moving (fs cleared : MemoryFs) (source target : List Name)
    (node : Node) : Prop where
  canonical : fs.Canonical
  wellFormed : fs.WellFormed
  present : fs.view source = some node
  different : target ≠ source
  outside : ¬ (node.isDir = true ∧
    isUnder (keyOf source) (keyOf target) = true)
  passed : clearDestination node.isDir (keyOf target) fs = .ok cleared

namespace Moving

variable {fs cleared : MemoryFs} {source target extra : List Name}
  {node : Node}

theorem bare (moving : Moving fs cleared source target node) :
    fs.NothingBelow (keyOf target) :=
  (clearDestination_spec moving.wellFormed
    moving.passed).1

theorem lookup_cleared (moving : Moving fs cleared source target node)
    (names : List Name) :
    cleared.view names = if names = target then none else fs.view names := by
  have spec := (clearDestination_spec moving.wellFormed
    moving.passed).2 (keyOf names)
  simp only [keyOf_inj] at spec
  exact spec

theorem canonical_cleared (moving : Moving fs cleared source target node) :
    cleared.Canonical := by
  intro key found present
  rw [(clearDestination_spec moving.wellFormed
    moving.passed).2] at present
  split at present
  · cases present
  · exact moving.canonical key found present

theorem view_below_target (moving : Moving fs cleared source target node)
    (nonempty : extra ≠ []) : fs.view (target ++ extra) = none :=
  view_below moving.canonical moving.wellFormed moving.bare nonempty

/-- The root is never the destination. -/
theorem target_ne_nil (moving : Moving fs cleared source target node) :
    target ≠ [] := by
  rintro rfl
  have absent := moving.view_below_target (Ne.symm moving.different)
  rw [List.nil_append, moving.present] at absent
  cases absent

/-- A directory that carries something lies apart from its destination. -/
theorem not_prefix (moving : Moving fs cleared source target node)
    {found : Node} (carries : Carries source extra) (nonempty : extra ≠ [])
    (present : fs.view (source ++ extra) = some found) :
    ¬ source <+: target := by
  rintro ⟨rest, shape⟩
  have sourceNonempty := carries.resolve_left nonempty
  have restNonempty : rest ≠ [] := by
    rintro rfl
    exact moving.different (by rw [← shape, List.append_nil])
  have grounded := (wellFormed_iff moving.canonical).mp moving.wellFormed
  obtain ⟨dir, dirPresent, isDir⟩ := grounded.ancestor nonempty present
  rw [moving.present, Option.some.injEq] at dirPresent
  subst dirPresent
  refine moving.outside ⟨isDir, ?_⟩
  exact (isUnder_keyOf sourceNonempty).mpr ⟨rest, restNonempty, shape.symm⟩

theorem carried_ne_target (moving : Moving fs cleared source target node)
    {found : Node} (carries : Carries source extra)
    (present : fs.view (source ++ extra) = some found) :
    source ++ extra ≠ target := by
  intro same
  by_cases empty : extra = []
  · subst empty
    exact moving.different (by rw [← same, List.append_nil])
  · exact moving.not_prefix carries empty present ⟨extra, same⟩

/-- The keys the moving loop is given. -/
def toMove (hash : HashOrder) (cleared : MemoryFs) (source : Text) :
    List Text :=
  (hash.order cleared.entries.keys).filter (covers source)

theorem nodup_toMove (hash : HashOrder) (cleared : MemoryFs)
    (source : Text) : (toMove hash cleared source).Nodup :=
  ((hash.perm _).nodup_iff.mpr cleared.entries.nodupKeys).filter _

theorem present_of_mem_toMove {hash : HashOrder} {cleared : MemoryFs}
    {source key : Text} (member : key ∈ toMove hash cleared source) :
    ∃ node, cleared.entries.lookup key = some node := by
  rw [toMove, List.mem_filter, (hash.perm _).mem_iff] at member
  exact mem_keys_iff.mp member.1

theorem mem_toMove (moving : Moving fs cleared source target node)
    (hash : HashOrder) {key : Text} :
    key ∈ toMove hash cleared (keyOf source) ↔
      ∃ extra found, Carries source extra ∧ key = keyOf (source ++ extra) ∧
        fs.view (source ++ extra) = some found := by
  unfold toMove
  rw [List.mem_filter, (hash.perm _).mem_iff, mem_keys_iff]
  constructor
  · rintro ⟨⟨found, present⟩, covered⟩
    obtain ⟨names, rfl⟩ := moving.canonical_cleared key found present
    obtain ⟨extra, carries, rfl⟩ := covers_keyOf.mp covered
    have viewed := moving.lookup_cleared (source ++ extra)
    rw [view, present] at viewed
    split at viewed
    · cases viewed
    · exact ⟨extra, found, carries, rfl, viewed.symm⟩
  · rintro ⟨extra, found, carries, rfl, present⟩
    refine ⟨⟨found, ?_⟩, covers_keyOf.mpr ⟨extra, carries, rfl⟩⟩
    have viewed := moving.lookup_cleared (source ++ extra)
    rw [if_neg (moving.carried_ne_target carries present), present]
      at viewed
    exact viewed

theorem shifted (moving : Moving fs cleared source target node)
    (hash : HashOrder) (name : Text) :
    Shifted (keyOf source) (keyOf target) name
      (toMove hash cleared (keyOf source)) cleared.entries
      (moveLoop (keyOf source) (keyOf target) name
        (toMove hash cleared (keyOf source)) cleared).entries := by
  apply shifted_moveLoop
  · exact nodup_toMove hash cleared (keyOf source)
  · intro key member
    exact present_of_mem_toMove member
  · intro key member inside
    obtain ⟨extra, found, carries, rfl, -⟩ :=
      (moving.mem_toMove hash).mp member
    rw [rekey_keyOf carries moving.target_ne_nil] at inside
    obtain ⟨other, node, otherCarries, same, present⟩ :=
      (moving.mem_toMove hash).mp inside
    rw [keyOf_inj] at same
    by_cases empty : extra = []
    · subst empty
      rw [List.append_nil] at same
      exact moving.carried_ne_target otherCarries present same.symm
    · rw [← same, moving.view_below_target empty] at present
      cases present
  · intro key member other otherMember equal
    obtain ⟨extra, found, carries, rfl, -⟩ :=
      (moving.mem_toMove hash).mp member
    obtain ⟨second, node, otherCarries, rfl, -⟩ :=
      (moving.mem_toMove hash).mp otherMember
    rw [rekey_keyOf carries moving.target_ne_nil,
      rekey_keyOf otherCarries moving.target_ne_nil, keyOf_inj,
      List.append_cancel_left_eq] at equal
    rw [equal]

/-- The new keys all lie at or below the destination. -/
theorem keyOf_ne_rekey (moving : Moving fs cleared source target node)
    (hash : HashOrder) {other : List Name}
    (apart : ∀ extra found, Carries source extra →
      fs.view (source ++ extra) = some found → other ≠ target ++ extra) :
    ∀ key ∈ toMove hash cleared (keyOf source),
      keyOf other ≠ rekey key (keyOf source) (keyOf target) := by
  intro key member same
  obtain ⟨extra, found, carries, rfl, present⟩ :=
    (moving.mem_toMove hash).mp member
  rw [rekey_keyOf carries moving.target_ne_nil, keyOf_inj] at same
  exact apart extra found carries present same

section Loop

variable {middle : MemoryFs} {hash : HashOrder} {name : Text}
  (moving : Moving fs cleared source target node)
  (shifted : Shifted (keyOf source) (keyOf target) name
    (toMove hash cleared (keyOf source)) cleared.entries middle.entries)
include moving shifted

theorem arrived_of_shifted {found : Node} (carries : Carries source extra)
    (present : fs.view (source ++ extra) = some found) :
    ∃ there, middle.view (target ++ extra) = some there ∧
      there.isDir = found.isDir := by
  have member := (moving.mem_toMove hash).mpr
    ⟨extra, found, carries, rfl, present⟩
  have old := moving.lookup_cleared (source ++ extra)
  rw [if_neg (moving.carried_ne_target carries present), present] at old
  have arrived := shifted.arrived _ member found old
  rw [rekey_keyOf carries moving.target_ne_nil] at arrived
  refine ⟨_, arrived, ?_⟩
  split
  · exact isDir_rename name found
  · rfl

/-- What is there after the loop was carried along, or has stayed. -/
theorem origin_of_shifted {other : List Name} {found : Node}
    (present : middle.view other = some found) :
    (∃ extra before, Carries source extra ∧ other = target ++ extra ∧
        fs.view (source ++ extra) = some before) ∨
      ((∀ extra, Carries source extra → other ≠ source ++ extra) ∧
        other ≠ target ∧ fs.view other = some found) := by
  by_cases carried : ∃ extra before, Carries source extra ∧
      other = target ++ extra ∧ fs.view (source ++ extra) = some before
  · exact Or.inl carried
  · right
    have apart : ∀ extra before, Carries source extra →
        fs.view (source ++ extra) = some before → other ≠ target ++ extra :=
      fun extra before carries old same =>
        carried ⟨extra, before, carries, same, old⟩
    by_cases leaves : keyOf other ∈ toMove hash cleared (keyOf source)
    · rw [view, shifted.departed _ leaves] at present
      cases present
    · have old : cleared.view other = some found := by
        rw [← present, view]
        exact (shifted.rest _ leaves (moving.keyOf_ne_rekey hash apart)).symm
      rw [moving.lookup_cleared] at old
      split at old
      · cases old
      · rename_i notTarget
        refine ⟨?_, notTarget, old⟩
        rintro extra carries rfl
        exact leaves ((moving.mem_toMove hash).mpr
          ⟨extra, found, carries, rfl, old⟩)

theorem kept_of_shifted {other : List Name} {found : Node}
    (stays : ∀ extra, Carries source extra → other ≠ source ++ extra)
    (notTarget : other ≠ target) (present : fs.view other = some found) :
    middle.view other = some found := by
  have old := moving.lookup_cleared other
  rw [if_neg notTarget, present] at old
  have stayed : keyOf other ∉ toMove hash cleared (keyOf source) := by
    intro member
    obtain ⟨extra, _, carries, same, -⟩ := (moving.mem_toMove hash).mp member
    exact stays extra carries (keyOf_injective same)
  have apart : ∀ extra before, Carries source extra →
      fs.view (source ++ extra) = some before → other ≠ target ++ extra := by
    rintro extra - - - rfl
    by_cases empty : extra = []
    · subst empty
      exact notTarget (List.append_nil target)
    · rw [moving.view_below_target empty] at present
      cases present
  rw [view, shifted.rest _ stayed (moving.keyOf_ne_rekey hash apart)]
  exact old

/-- An ancestor of the destination that was missing, or that has left, is
missing after the loop. -/
theorem missing_of_shifted {up : List Name} (above : up <+: target)
    (different : up ≠ target)
    (missing : fs.view up = none ∨
      ∃ extra, Carries source extra ∧ up = source ++ extra) :
    middle.view up = none := by
  cases found : middle.view up with
  | none =>
      rfl
  | some node =>
      rcases moving.origin_of_shifted shifted found with
        ⟨extra, -, -, rfl, -⟩ | ⟨stays, -, old⟩
      · -- nothing at or below the destination is above it
        have longer := above.length_le
        rw [List.length_append] at longer
        have empty : extra = [] := List.length_eq_zero_iff.mp (by omega)
        rw [empty, List.append_nil] at different
        exact absurd rfl different
      · rcases missing with absent | ⟨extra, carries, same⟩
        · rw [absent] at old
          cases old
        · exact absurd same (stays extra carries)

end Loop

/-- The tree after a rename that gets as far as its moving loop. -/
theorem moved (moving : Moving fs cleared source target node)
    (hash : HashOrder) {path : Text} (lexical : Lexical path)
    (names : namesOf path = target) (name : Text) :
    Moved Node.isDir fs.view
      (insertAncestorDirs path
        (moveLoop (keyOf source) (keyOf target) name
          (toMove hash cleared (keyOf source)) cleared)).view
      source target (Carries source) := by
  have shifted := moving.shifted hash name
  have filled := filled_insertAncestorDirs lexical.1
    (undotted_of_safe lexical.2)
    (moveLoop (keyOf source) (keyOf target) name
      (toMove hash cleared (keyOf source)) cleared)
  rw [names] at filled
  generalize moveLoop (keyOf source) (keyOf target) name
    (toMove hash cleared (keyOf source)) cleared = middle at shifted filled ⊢
  refine ⟨?_, ?_, ?_, ?_⟩
  · intro extra found carries present
    obtain ⟨there, arrived, sameKind⟩ :=
      moving.arrived_of_shifted shifted carries present
    exact ⟨there, filled.kept _ _ arrived, sameKind⟩
  · intro other found present
    cases between : middle.view other with
    | none =>
        -- only a directory that was filled in can be new
        by_cases above : other <+: target ∧ other ≠ target
        · exact Or.inr (Or.inr above)
        · rw [view, filled.rest _ between] at present
          · cases present
          · intro up inside same
            rw [keyOf_inj] at same
            exact above (same ▸ inside)
    | some before =>
        rw [view, filled.kept _ _ between, Option.some.injEq] at present
        subst present
        exact (moving.origin_of_shifted shifted between).imp_right Or.inl
  · intro other found stays notTarget present
    exact filled.kept _ _
      (moving.kept_of_shifted shifted stays notTarget present)
  · intro up above different missing
    obtain ⟨name, made⟩ := filled.made up ⟨above, different⟩
      (moving.missing_of_shifted shifted above different missing)
    exact ⟨.dir name, made, rfl⟩

theorem canonical_moved (moving : Moving fs cleared source target node)
    (hash : HashOrder) {path : Text} (lexical : Lexical path)
    (name : Text) :
    (insertAncestorDirs path
      (moveLoop (keyOf source) (keyOf target) name
        (toMove hash cleared (keyOf source)) cleared)).Canonical := by
  have shifted := moving.shifted hash name
  apply (filled_insertAncestorDirs lexical.1
    (undotted_of_safe lexical.2) _).canonical
  intro key found present
  by_cases arrived : ∃ old ∈ toMove hash cleared (keyOf source),
      key = rekey old (keyOf source) (keyOf target)
  · obtain ⟨old, member, rfl⟩ := arrived
    obtain ⟨extra, -, carries, rfl, -⟩ := (moving.mem_toMove hash).mp member
    exact ⟨_, rekey_keyOf carries moving.target_ne_nil⟩
  · by_cases leaves : key ∈ toMove hash cleared (keyOf source)
    · rw [shifted.departed key leaves] at present
      cases present
    · rw [shifted.rest key leaves fun old member same =>
        arrived ⟨old, member, same⟩] at present
      exact moving.canonical_cleared key found present

/-- A rename that gets as far as its moving loop keeps the tree well-formed
exactly when no ancestor of the destination, other than the source, is a
file. -/
theorem grounded_iff (moving : Moving fs cleared source target node)
    (hash : HashOrder) {path : Text} (lexical : Lexical path)
    (names : namesOf path = target) (name : Text) :
    Grounded Node.isDir
        (insertAncestorDirs path
          (moveLoop (keyOf source) (keyOf target) name
            (toMove hash cleared (keyOf source)) cleared)).view ↔
      ∀ up found, up <+: target → up ≠ target → up ≠ source →
        fs.view up = some found → found.isDir = true := by
  apply (moving.moved hash lexical names name).grounded_iff
    ((wellFormed_iff moving.canonical).mp moving.wellFormed) moving.present
    (Or.inl rfl)
  · rintro extra last (impossible | nonempty)
    · simp at impossible
    · exact Or.inr nonempty
  · intro extra last carries
    by_cases root : source = []
    · have empty := carries.resolve_right fun nonempty => nonempty root
      rw [root, empty]
      exact Or.inr ⟨List.nil_prefix, Ne.symm moving.target_ne_nil⟩
    · exact Or.inl (Or.inr root)
  · exact fun extra found carries nonempty present =>
      moving.not_prefix carries nonempty present
  · intro last found present
    rw [moving.view_below_target (List.cons_ne_nil last [])] at present
    cases present

end Moving

end MemoryFs

end Hookfs.Memory
