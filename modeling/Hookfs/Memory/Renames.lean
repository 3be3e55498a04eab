import Hookfs.Memory.Subtrees

/-!
# What a rename does

A rename that succeeds on two different keys carries the subtree of the
source to the target, replaces at most the file or empty directory there,
makes the missing ancestors of the target, and leaves everything else alone,
in whatever order the hash map hands out its keys.
-/

namespace Hookfs.Memory

open Hookfs.Lib Hookfs.Posix

namespace MemoryFs

/-- What can follow the key of a subtree in the keys of its entries. -/
def Suffix (suffix : Text) : Prop :=
  suffix = [] ∨ suffix.head? = some '/'

theorem Suffix.cases {suffix : Text} (boundary : Suffix suffix) :
    suffix = [] ∨ ∃ rest, suffix = '/' :: rest := by
  rcases boundary with empty | starts
  · exact Or.inl empty
  · cases suffix with
    | nil =>
        exact Or.inl rfl
    | cons char rest =>
        rw [List.head?_cons, Option.some.injEq] at starts
        exact Or.inr ⟨rest, by rw [starts]⟩

theorem covers_append_iff {source key : Text} :
    covers source key = true ↔
      ∃ suffix, Suffix suffix ∧ key = source ++ suffix := by
  rw [covers_iff]
  constructor
  · rintro (rfl | ⟨rest, rfl⟩)
    · exact ⟨[], Or.inl rfl, (List.append_nil key).symm⟩
    · exact ⟨'/' :: rest, Or.inr rfl, rfl⟩
  · rintro ⟨suffix, boundary, rfl⟩
    rcases boundary.cases with rfl | ⟨rest, rfl⟩
    · exact Or.inl (List.append_nil source)
    · exact Or.inr ⟨rest, rfl⟩

theorem rekey_append (source target suffix : Text) :
    rekey (source ++ suffix) source target = target ++ suffix := by
  unfold rekey
  split
  · rename_i same
    have empty : suffix = [] := by simpa using same
    rw [empty, List.append_nil]
  · rw [List.drop_left]

/-- The whole effect of a rename on the tree and its files: what is carried
from below `source` to below `target`, what that replaces, and which of the
keys `above` the target are made. -/
structure MovedExactly (before after : MemoryFs)
    (source target : Text) (above : List Text) (name : Text) : Prop where
  carried : ∀ suffix, Suffix suffix →
    after.entries.lookup (target ++ suffix) =
      (before.entries.lookup (source ++ suffix)).map fun node =>
        if suffix = [] then node.rename name else node
  vacated : ∀ suffix, Suffix suffix →
    after.entries.lookup (source ++ suffix) = none
  replaced : ∀ suffix node, Suffix suffix →
    before.entries.lookup (target ++ suffix) = some node →
      suffix = [] ∧ before.NothingBelow target
  kept : ∀ key node, covers source key = false →
    covers target key = false → before.entries.lookup key = some node →
      after.entries.lookup key = some node
  made : ∀ key, covers source key = false → covers target key = false →
    before.entries.lookup key = none →
      if key ∈ above then
        ∃ label, after.entries.lookup key = some (.dir label)
      else after.entries.lookup key = none
  files : ∀ file, (∀ label,
      before.entries.lookup target ≠ some (.memFile file label)) →
    after.files.lookup file = before.files.lookup file

/-- A rename that gets as far as its moving loop, on keys as texts. -/
structure Relocation (fs cleared : MemoryFs) (source target : Text)
    (node : Node) : Prop where
  wellFormed : fs.WellFormed
  present : fs.entries.lookup source = some node
  notRoot : source ≠ ['/']
  different : target ≠ source
  outside : isUnder source target = false
  nonempty : target ≠ []
  passed : clearDestination node.isDir target fs = .ok cleared

namespace Relocation

variable {fs cleared : MemoryFs} {source target key : Text} {node : Node}

theorem bare (relocation : Relocation fs cleared source target node) :
    fs.NothingBelow target :=
  (clearDestination_spec relocation.wellFormed relocation.passed).1

theorem lookup_cleared (relocation : Relocation fs cleared source target node)
    (key : Text) :
    cleared.entries.lookup key =
      if key = target then none else fs.entries.lookup key :=
  (clearDestination_spec relocation.wellFormed relocation.passed).2 key

/-- The two subtrees have no key in common. -/
theorem disjoint (relocation : Relocation fs cleared source target node)
    (bySource : covers source key = true) : covers target key = false := by
  rw [Bool.eq_false_iff]
  intro byTarget
  rcases nested_of_covers bySource byTarget with same | inside | inside
  · exact relocation.different same.symm
  · rw [relocation.outside] at inside
    cases inside
  · obtain ⟨rest, rfl⟩ := isUnder_iff.mp inside
    have absent := absent_below relocation.wellFormed relocation.nonempty
      relocation.bare rest
    rw [relocation.present] at absent
    cases absent

/-- The target's subtree is free once the destination is cleared. -/
theorem lookup_cleared_target
    (relocation : Relocation fs cleared source target node)
    (byTarget : covers target key = true) :
    cleared.entries.lookup key = none := by
  rw [relocation.lookup_cleared]
  split
  · rfl
  · rename_i different
    obtain ⟨rest, rfl⟩ := (covers_iff.mp byTarget).resolve_left different
    exact absent_below relocation.wellFormed relocation.nonempty
      relocation.bare rest

theorem lookup_cleared_source
    (relocation : Relocation fs cleared source target node)
    (byTarget : covers target key = false) :
    cleared.entries.lookup key = fs.entries.lookup key := by
  rw [relocation.lookup_cleared, if_neg]
  rintro rfl
  rw [covers_iff.mpr (Or.inl rfl)] at byTarget
  cases byTarget

theorem mem_toMove (relocation : Relocation fs cleared source target node)
    (hash : HashOrder) :
    key ∈ Moving.toMove hash cleared source ↔
      covers source key = true ∧
        ∃ found, fs.entries.lookup key = some found := by
  rw [Moving.toMove, List.mem_filter, (hash.perm _).mem_iff, mem_keys_iff,
    and_comm]
  constructor
  · rintro ⟨covered, found, present⟩
    rw [relocation.lookup_cleared_source (relocation.disjoint covered)]
      at present
    exact ⟨covered, found, present⟩
  · rintro ⟨covered, found, present⟩
    refine ⟨covered, found, ?_⟩
    rw [relocation.lookup_cleared_source (relocation.disjoint covered),
      present]

theorem covers_rekey (covered : covers source key = true) :
    covers target (rekey key source target) = true := by
  obtain ⟨suffix, boundary, rfl⟩ := covers_append_iff.mp covered
  rw [rekey_append]
  exact covers_append_iff.mpr ⟨suffix, boundary, rfl⟩

theorem rekey_injective {other : Text} (covered : covers source key = true)
    (otherCovered : covers source other = true)
    (same : rekey key source target = rekey other source target) :
    key = other := by
  obtain ⟨suffix, -, rfl⟩ := covers_append_iff.mp covered
  obtain ⟨otherSuffix, -, rfl⟩ := covers_append_iff.mp otherCovered
  rw [rekey_append, rekey_append, List.append_cancel_left_eq] at same
  rw [same]

theorem shifted (relocation : Relocation fs cleared source target node)
    (hash : HashOrder) (name : Text) :
    Shifted source target name (Moving.toMove hash cleared source)
      cleared.entries
      (moveLoop source target name (Moving.toMove hash cleared source)
        cleared).entries := by
  apply shifted_moveLoop
  · exact Moving.nodup_toMove hash cleared source
  · intro key member
    exact Moving.present_of_mem_toMove member
  · intro key member inside
    have covered := ((relocation.mem_toMove hash).mp member).1
    have again := ((relocation.mem_toMove hash).mp inside).1
    have apart := relocation.disjoint again
    rw [covers_rekey covered] at apart
    cases apart
  · intro key member other otherMember same
    exact rekey_injective ((relocation.mem_toMove hash).mp member).1
      ((relocation.mem_toMove hash).mp otherMember).1 same

/-! ## After the moving loop -/

section Loop

variable {middle : MemoryFs} {hash : HashOrder} {name : Text}
  (relocation : Relocation fs cleared source target node)
  (shifted : Shifted source target name (Moving.toMove hash cleared source)
    cleared.entries middle.entries)
include relocation shifted

theorem lookup_carried {suffix : Text} (boundary : Suffix suffix) :
    middle.entries.lookup (target ++ suffix) =
      (fs.entries.lookup (source ++ suffix)).map fun node =>
        if suffix = [] then node.rename name else node := by
  have bySource : covers source (source ++ suffix) = true :=
    covers_append_iff.mpr ⟨suffix, boundary, rfl⟩
  have byTarget : covers target (target ++ suffix) = true :=
    covers_append_iff.mpr ⟨suffix, boundary, rfl⟩
  cases present : fs.entries.lookup (source ++ suffix) with
  | some found =>
      have member := (relocation.mem_toMove hash).mpr
        ⟨bySource, found, present⟩
      have old := relocation.lookup_cleared_source
        (relocation.disjoint bySource)
      have arrived := shifted.arrived _ member found (old.trans present)
      rw [rekey_append] at arrived
      simpa using arrived
  | none =>
      -- nothing of the source arrives here, and nothing stood here
      rw [shifted.rest]
      · exact relocation.lookup_cleared_target byTarget
      · intro member
        have apart := relocation.disjoint
          ((relocation.mem_toMove hash).mp member).1
        rw [byTarget] at apart
        cases apart
      · intro key member same
        obtain ⟨covered, found, keyPresent⟩ :=
          (relocation.mem_toMove hash).mp member
        have back : key = source ++ suffix :=
          rekey_injective covered bySource
            (same.symm.trans (rekey_append source target suffix).symm)
        rw [back, present] at keyPresent
        cases keyPresent

theorem lookup_vacated (covered : covers source key = true) :
    middle.entries.lookup key = none := by
  by_cases member : key ∈ Moving.toMove hash cleared source
  · exact shifted.departed key member
  · have apart := relocation.disjoint covered
    rw [shifted.rest key member, relocation.lookup_cleared_source apart]
    · cases present : fs.entries.lookup key with
      | none =>
          rfl
      | some found =>
          exact absurd ((relocation.mem_toMove hash).mpr
            ⟨covered, found, present⟩) member
    · rintro other otherMember rfl
      rw [covers_rekey ((relocation.mem_toMove hash).mp otherMember).1]
        at apart
      cases apart

theorem lookup_elsewhere (bySource : covers source key = false)
    (byTarget : covers target key = false) :
    middle.entries.lookup key = fs.entries.lookup key := by
  rw [shifted.rest, relocation.lookup_cleared_source byTarget]
  · intro member
    rw [((relocation.mem_toMove hash).mp member).1] at bySource
    cases bySource
  · rintro other member rfl
    rw [covers_rekey ((relocation.mem_toMove hash).mp member).1] at byTarget
    cases byTarget

end Loop

end Relocation

/-- The moving loop drops no file as long as the new places are free. -/
theorem files_moveLoop {source target name : Text} :
    ∀ (keys : List Text) (fs : MemoryFs), keys.Nodup →
      (∀ key ∈ keys, fs.entries.lookup (rekey key source target) = none) →
      (∀ key ∈ keys, ∀ other ∈ keys,
        rekey key source target = rekey other source target →
          key = other) →
        (moveLoop source target name keys fs).files = fs.files
  | [], _, _, _, _ => rfl
  | key :: rest, fs, distinct, free, apart => by
      have notLater : key ∉ rest := (List.nodup_cons.mp distinct).1
      have restApart : ∀ left ∈ rest, ∀ right ∈ rest,
          rekey left source target = rekey right source target →
            left = right :=
        fun left leftMember right rightMember =>
          apart left (List.mem_cons_of_mem _ leftMember) right
            (List.mem_cons_of_mem _ rightMember)
      cases present : fs.entries.lookup key with
      | none =>
          rw [moveLoop, present]
          exact files_moveLoop rest fs (List.nodup_cons.mp distinct).2
            (fun other member => free other (List.mem_cons_of_mem _ member))
            restApart
      | some node =>
          rw [moveLoop_present present]
          generalize (if key = source then node.rename name else node) =
            placed
          have here := free key List.mem_cons_self
          have gap : (fs.entries.erase key).lookup
              (rekey key source target) = none := by
            by_cases same : rekey key source target = key
            · rw [same]
              exact AList.lookup_erase _ _
            · rw [AList.lookup_erase_ne same, here]
          have kept : (({ fs with entries := fs.entries.erase key } :
              MemoryFs).place (rekey key source target) placed).files =
                fs.files := by
            simp only [place, evict, gap]
          rw [files_moveLoop rest _ (List.nodup_cons.mp distinct).2 ?_
            restApart, kept]
          intro other member
          rw [lookup_place_erase, if_neg]
          · split
            · rfl
            · exact free other (List.mem_cons_of_mem _ member)
          · intro same
            have equal := apart other (List.mem_cons_of_mem _ member) key
              List.mem_cons_self same
            exact notLater (equal ▸ member)

theorem files_clearDestination {fs cleared : MemoryFs} {kind : Bool}
    {key : Text} (passed : clearDestination kind key fs = .ok cleared)
    {file : Nat} (other : ∀ label,
      fs.entries.lookup key ≠ some (.memFile file label)) :
    cleared.files.lookup file = fs.files.lookup file := by
  have evicted : (fs.evict key).files.lookup file =
      fs.files.lookup file := by
    unfold evict
    cases found : fs.entries.lookup key with
    | none =>
        rfl
    | some node =>
        cases node with
        | file source label mtime =>
            rfl
        | dir label =>
            rfl
        | memFile id label =>
            have different : file ≠ id := by
              rintro rfl
              exact other label found
            simp only [dropNode, dropFile]
            split
            · rfl
            · split
              · exact AList.lookup_erase_ne different
              · exact AList.lookup_insert_ne different
  unfold clearDestination at passed
  split at passed
  · injection passed with same
    rw [← same]
  · split at passed
    · cases passed
    · cases passed
    · split at passed
      · cases passed
      · injection passed with same
        rw [← same, evicted]
    · injection passed with same
      rw [← same, evicted]

/-! ## The order of the keys -/

/-- Lookups after filling in ancestors depend on lookups before. -/
theorem lookup_ancestorLoop_congr :
    ∀ (rounds : Nat) (dir : Option Text) (left right : Store Text Node),
      (∀ key, left.lookup key = right.lookup key) → ∀ key,
        (ancestorLoop rounds dir left).lookup key =
          (ancestorLoop rounds dir right).lookup key
  | 0, _, _, _, same => same
  | _ + 1, none, _, _, same => same
  | rounds + 1, some dir, left, right, same => by
      intro key
      have next : ∀ other,
          (orInsert (normalizeKeyStr dir) (.dir (finalComponent dir))
            left).lookup other =
          (orInsert (normalizeKeyStr dir) (.dir (finalComponent dir))
            right).lookup other := by
        intro other
        rw [lookup_orInsert, lookup_orInsert, same]
      unfold ancestorLoop
      split
      · exact same key
      · simp only
        split
        · exact next key
        · exact lookup_ancestorLoop_congr rounds _ _ _ next key

/-- Two loops over the same keys end with the same entries. -/
theorem Shifted.unique {source target name : Text} {left right : List Text}
    {entries first second : Store Text Node}
    (byLeft : Shifted source target name left entries first)
    (byRight : Shifted source target name right entries second)
    (same : ∀ key, key ∈ left ↔ key ∈ right)
    (present : ∀ key ∈ left, ∃ node, entries.lookup key = some node)
    (key : Text) : first.lookup key = second.lookup key := by
  by_cases arrives : ∃ old ∈ left, key = rekey old source target
  · obtain ⟨old, member, rfl⟩ := arrives
    obtain ⟨node, oldPresent⟩ := present old member
    rw [byLeft.arrived old member node oldPresent,
      byRight.arrived old ((same old).mp member) node oldPresent]
  · by_cases leaves : key ∈ left
    · rw [byLeft.departed key leaves,
        byRight.departed key ((same key).mp leaves)]
    · have stays : key ∉ right := fun member =>
        leaves ((same key).mpr member)
      rw [byLeft.rest key leaves fun old member equal =>
          arrives ⟨old, member, equal⟩,
        byRight.rest key stays fun old member equal =>
          arrives ⟨old, (same old).mpr member, equal⟩]

/-! ## The whole rename -/

section Rename

variable {fs cleared : MemoryFs} {source target : Text} {node : Node}

/-- A rename that returns `Ok` on two keys gets as far as its moving loop. -/
theorem exists_relocation (wellFormed : fs.WellFormed) (hash : HashOrder)
    (lexicalTarget : Lexical target)
    (notRoot : normalizeKeyStr source ≠ ['/'])
    (clear : fs.NoFileAbove (normalizeKeyStr target))
    (different : normalizeKeyStr target ≠ normalizeKeyStr source)
    (renamed : (fs.rename hash source target).1 = some (.ok ())) :
    ∃ cleared node,
      Relocation fs cleared (normalizeKeyStr source)
        (normalizeKeyStr target) node ∧
      ∀ other, (fs.rename other source target).2 =
        insertAncestorDirs target
          (moveLoop (normalizeKeyStr source) (normalizeKeyStr target)
            (finalComponent target)
            (Moving.toMove other cleared (normalizeKeyStr source))
            cleared) := by
  unfold rename at renamed ⊢
  simp only at renamed ⊢
  cases present : fs.entries.lookup (normalizeKeyStr source) with
  | none =>
      simp [present] at renamed
  | some node =>
      simp only [present, if_neg different] at renamed ⊢
      split at renamed
      · cases renamed
      · rename_i outside
        split at renamed
        · cases renamed
        · rename_i cleared passed
          refine ⟨cleared, node, ⟨wellFormed, present, notRoot, different,
            ?_, ?_, passed⟩, fun other => ?_⟩
          · -- a file as the source would be a file above the target
            rw [Bool.eq_false_iff]
            intro inside
            have above : isAncestor (normalizeKeyStr source)
                (normalizeKeyStr target) = true := by
              simp [isAncestor, Ne.symm different, inside]
            have isDirectory := clear _ node present above
            exact outside (by rw [isDirectory, inside]; rfl)
          · rw [normalizeKeyStr_eq_keyOf lexicalTarget.1]
            exact keyOf_namesOf_ne_nil target
          · rw [if_neg outside]
            rfl

namespace Relocation

variable {path : Text}

/-- The moving loop drops no file of the cleared tree. -/
theorem files_moved (relocation : Relocation fs cleared source target node)
    (hash : HashOrder) (name : Text) {file : Nat}
    (other : ∀ label,
      fs.entries.lookup target ≠ some (.memFile file label)) :
    (moveLoop source target name (Moving.toMove hash cleared source)
      cleared).files.lookup file = fs.files.lookup file := by
  rw [files_moveLoop, files_clearDestination relocation.passed other]
  · exact Moving.nodup_toMove hash cleared source
  · intro key member
    have covered := ((relocation.mem_toMove hash).mp member).1
    exact relocation.lookup_cleared_target (covers_rekey covered)
  · intro left leftMember right rightMember same
    exact rekey_injective ((relocation.mem_toMove hash).mp leftMember).1
      ((relocation.mem_toMove hash).mp rightMember).1 same

/-- The ancestors of the target lie outside of both subtrees. -/
theorem ancestors_outside
    (relocation : Relocation fs cleared source (normalizeKeyStr path) node)
    (absolute : isAbsolute path = true) {key : Text}
    (member : key ∈ ancestorKeys path) :
    covers source key = false ∧
      covers (normalizeKeyStr path) key = false := by
  obtain ⟨up, above, rfl⟩ := mem_ancestorKeys.mp member
  have outside := relocation.outside
  rw [normalizeKeyStr_eq_keyOf absolute] at outside ⊢
  exact ⟨covers_ancestor_source relocation.notRoot outside above,
    covers_ancestor_target above⟩

/-- What a relocation and the ancestors after it leave behind. -/
theorem movedExactly
    (relocation : Relocation fs cleared source (normalizeKeyStr path) node)
    (hash : HashOrder) (lexical : Lexical path) :
    MovedExactly fs
      (insertAncestorDirs path
        (moveLoop source (normalizeKeyStr path) (finalComponent path)
          (Moving.toMove hash cleared source) cleared))
      source (normalizeKeyStr path) (ancestorKeys path)
      (finalComponent path) := by
  have shifted := relocation.shifted hash (finalComponent path)
  have files (file : Nat) (other : ∀ label,
      fs.entries.lookup (normalizeKeyStr path) ≠
        some (.memFile file label)) :=
    relocation.files_moved hash (finalComponent path) other
  have filled := filled_insertAncestorDirs lexical.1
    (undotted_of_safe lexical.2)
    (moveLoop source (normalizeKeyStr path) (finalComponent path)
      (Moving.toMove hash cleared source) cleared)
  generalize moveLoop source (normalizeKeyStr path) (finalComponent path)
    (Moving.toMove hash cleared source) cleared = middle
      at shifted files filled ⊢
  have untouched : ∀ key, key ∉ ancestorKeys path →
      (insertAncestorDirs path middle).entries.lookup key =
        middle.entries.lookup key := by
    intro key outside
    cases between : middle.entries.lookup key with
    | some found =>
        exact filled.kept key found between
    | none =>
        apply filled.rest key between
        rintro up inside rfl
        exact outside (mem_ancestorKeys.mpr ⟨up, inside, rfl⟩)
  refine ⟨?_, ?_, ?_, ?_, ?_, files⟩
  · intro suffix boundary
    rw [untouched, relocation.lookup_carried shifted boundary]
    intro member
    have byTarget := (relocation.ancestors_outside lexical.1 member).2
    rw [covers_append_iff.mpr ⟨suffix, boundary, rfl⟩] at byTarget
    cases byTarget
  · intro suffix boundary
    have covered : covers source (source ++ suffix) = true :=
      covers_append_iff.mpr ⟨suffix, boundary, rfl⟩
    rw [untouched, relocation.lookup_vacated shifted covered]
    intro member
    rw [(relocation.ancestors_outside lexical.1 member).1] at covered
    cases covered
  · intro suffix found boundary present
    refine ⟨?_, relocation.bare⟩
    rcases boundary.cases with empty | ⟨rest, rfl⟩
    · exact empty
    · rw [absent_below relocation.wellFormed relocation.nonempty
        relocation.bare rest] at present
      cases present
  · intro key found bySource byTarget present
    apply filled.kept
    rw [relocation.lookup_elsewhere shifted bySource byTarget, present]
  · intro key bySource byTarget absent
    have missing : middle.entries.lookup key = none := by
      rw [relocation.lookup_elsewhere shifted bySource byTarget, absent]
    split
    · rename_i member
      obtain ⟨up, inside, rfl⟩ := mem_ancestorKeys.mp member
      exact filled.made up inside missing
    · rename_i outside
      rw [untouched key outside, missing]

end Relocation

/-- A rename that returns `Ok` on two keys moves exactly the subtree of the
source, and the order of the hash map does not show. -/
theorem rename_moves_subtree (wellFormed : fs.WellFormed) (hash : HashOrder)
    (lexicalTarget : Lexical target)
    (notRoot : normalizeKeyStr source ≠ ['/'])
    (clear : fs.NoFileAbove (normalizeKeyStr target))
    (different : normalizeKeyStr target ≠ normalizeKeyStr source)
    (renamed : (fs.rename hash source target).1 = some (.ok ())) :
    MovedExactly fs (fs.rename hash source target).2
        (normalizeKeyStr source) (normalizeKeyStr target)
        (ancestorKeys target) (finalComponent target) ∧
      ∀ other key,
        (fs.rename other source target).2.entries.lookup key =
          (fs.rename hash source target).2.entries.lookup key := by
  obtain ⟨cleared, node, relocation, result⟩ := exists_relocation wellFormed
    hash lexicalTarget notRoot clear different renamed
  constructor
  · rw [result]
    exact relocation.movedExactly hash lexicalTarget
  · intro other key
    rw [result, result]
    apply lookup_ancestorLoop_congr
    apply Shifted.unique (relocation.shifted other (finalComponent target))
      (relocation.shifted hash (finalComponent target))
    · intro key
      rw [relocation.mem_toMove, relocation.mem_toMove]
    · intro key member
      obtain ⟨covered, found, present⟩ :=
        (relocation.mem_toMove other).mp member
      exact ⟨found, by rw [relocation.lookup_cleared_source
        (relocation.disjoint covered), present]⟩

end Rename

/-- A tree with one file in one directory. -/
def furnished : MemoryFs :=
  (insertWritable 1 "/a/b".toList (withCapacity 8)).2

theorem rename_moves_subtree_furnished :
    let hash : HashOrder := ⟨id, fun keys => List.Perm.refl keys⟩
    MovedExactly furnished
        (furnished.rename hash "/a".toList "/c/d".toList).2
        "/a".toList "/c/d".toList (ancestorKeys "/c/d".toList) "d".toList ∧
      ∀ other key,
        (furnished.rename other "/a".toList
            "/c/d".toList).2.entries.lookup key =
          (furnished.rename hash "/a".toList
            "/c/d".toList).2.entries.lookup key :=
  let hash : HashOrder := ⟨id, fun keys => List.Perm.refl keys⟩
  rename_moves_subtree (by decide) hash (by decide) (by decide) (by decide)
    (by decide) (by decide)

end MemoryFs

end Hookfs.Memory
