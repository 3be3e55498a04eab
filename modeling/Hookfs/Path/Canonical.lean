import Hookfs.Path.Posix

/-!
# Keys are canonical

`normalize_key_str` gives one key to all the spellings of a path, and
`parent_key` steps through the keys as `Path::parent` does through the paths.
A relative path is an absolute one without its first separator, and so is its
key.
-/

namespace Hookfs.Posix

open Hookfs.Lib

/-! ## Relative paths -/

theorem ne_sep_of_relative {char : Char} {rest : Text}
    (relative : isAbsolute (char :: rest) = false) : char ≠ '/' := by
  intro same
  rw [same] at relative
  cases relative

theorem isAbsolute_cons_of_ne {char : Char} (different : char ≠ '/')
    (rest : Text) : isAbsolute (char :: rest) = false := by
  simp [isAbsolute, different]

theorem collapse_of_ne {char : Char} (different : char ≠ '/')
    (prevSep : Bool) (rest : Text) :
    collapse prevSep (char :: rest) = char :: collapse false rest := by
  rw [collapse, if_neg different]

/-- A trailing separator goes whether or not another one stands in front. -/
theorem dropTrailing_sep_cons {char : Char} (different : char ≠ '/')
    (rest : Text) :
    dropTrailing ('/' :: char :: rest) =
      '/' :: dropTrailing (char :: rest) := by
  unfold dropTrailing
  by_cases trailing : (char :: rest).getLast? = some '/'
  · have long : 1 < (char :: rest).length := by
      cases rest with
      | nil =>
          rw [List.getLast?_singleton, Option.some.injEq] at trailing
          exact absurd trailing different
      | cons next later =>
          simp
    rw [if_pos ⟨by simp, by rw [List.getLast?_cons_cons]; exact trailing⟩,
      if_pos ⟨long, trailing⟩]
    rfl
  · rw [if_neg fun both => trailing (by
        rw [List.getLast?_cons_cons] at both
        exact both.2),
      if_neg fun both => trailing both.2]

/-- With a separator in front, the key of a relative path renders its
components. -/
theorem sep_cons_normalizeKeyStr {path : Text}
    (relative : isAbsolute path = false) :
    '/' :: normalizeKeyStr path = render '/' (parts path) := by
  cases path with
  | nil =>
      simp [normalizeKeyStr, collapse, dropTrailing, render]
  | cons char rest =>
      have different := ne_sep_of_relative relative
      have whole := normalizeKeyStr_of_absolute
        (show isAbsolute ('/' :: char :: rest) = true from rfl)
      rw [parts, components_sep_cons] at whole
      have opened : collapse false ('/' :: char :: rest) =
          '/' :: collapse true (char :: rest) := rfl
      rw [parts, ← whole, normalizeKeyStr, normalizeKeyStr, opened,
        collapse_of_ne different, collapse_of_ne different,
        dropTrailing_sep_cons different]

/-! ## One key for all spellings -/

theorem isAbsolute_render (names : List Text) :
    isAbsolute (render '/' names) = true := by
  cases names with
  | nil =>
      rfl
  | cons name rest =>
      rw [render, body_cons]
      rfl

/-- A key is absolute as its path is. -/
theorem isAbsolute_normalizeKeyStr (path : Text) :
    isAbsolute (normalizeKeyStr path) = isAbsolute path := by
  cases absolute : isAbsolute path with
  | true =>
      rw [normalizeKeyStr_of_absolute absolute, isAbsolute_render]
  | false =>
      cases path with
      | nil =>
          rfl
      | cons char rest =>
          have different := ne_sep_of_relative absolute
          rw [normalizeKeyStr, collapse_of_ne different]
          unfold dropTrailing
          split
          · rename_i long
            cases later : collapse false rest with
            | nil =>
                rw [later] at long
                exact absurd long.1 (by simp)
            | cons next others =>
                rw [List.dropLast_cons_cons]
                exact isAbsolute_cons_of_ne different _
          · exact isAbsolute_cons_of_ne different _

/-- A key has the components of its path. -/
theorem parts_normalizeKeyStr (path : Text) :
    parts (normalizeKeyStr path) = parts path := by
  cases absolute : isAbsolute path with
  | true =>
      rw [normalizeKeyStr_of_absolute absolute, parts,
        components_render (clean_parts path)]
  | false =>
      rw [parts, ← components_sep_cons, sep_cons_normalizeKeyStr absolute,
        components_render (clean_parts path)]

theorem normalizeKeyStr_eq_iff {left right : Text} :
    normalizeKeyStr left = normalizeKeyStr right ↔
      isAbsolute left = isAbsolute right ∧ parts left = parts right := by
  constructor
  · intro same
    rw [← isAbsolute_normalizeKeyStr left, ← parts_normalizeKeyStr left,
      same, isAbsolute_normalizeKeyStr, parts_normalizeKeyStr]
    exact ⟨rfl, rfl⟩
  · intro given
    cases absolute : isAbsolute right with
    | true =>
        rw [normalizeKeyStr_of_absolute (given.1.trans absolute),
          normalizeKeyStr_of_absolute absolute, given.2]
    | false =>
        have fromLeft := sep_cons_normalizeKeyStr (given.1.trans absolute)
        rw [given.2, ← sep_cons_normalizeKeyStr absolute] at fromLeft
        exact List.tail_eq_of_cons_eq fromLeft

theorem normalizeKeyStr_idempotent (path : Text) :
    normalizeKeyStr (normalizeKeyStr path) = normalizeKeyStr path :=
  normalizeKeyStr_eq_iff.mpr
    ⟨isAbsolute_normalizeKeyStr path, parts_normalizeKeyStr path⟩

/-! ## Stepping up -/

/-- So many steps up from a key. -/
def ancestorKey (key : Text) : Nat → Option Text
  | 0 => some key
  | steps + 1 => (ancestorKey key steps).bind parentKey

/-- The steps lead to the root, and no fewer do. -/
def ReachesRoot (key : Text) (steps : Nat) : Prop :=
  ancestorKey key steps = some ['/'] ∧
    ∀ fewer, fewer < steps → ∃ up, ancestorKey key fewer = some up ∧ up ≠ ['/']

/-- Every step drops a component. -/
theorem ancestorKey_render {names : List Text} (clean : Clean '/' names) :
    ∀ steps, steps ≤ names.length →
      ancestorKey (render '/' names) steps =
        some (render '/' (names.take (names.length - steps)))
  | 0, _ => by
      rw [ancestorKey, Nat.sub_zero, List.take_length]
  | steps + 1, few => by
      have before := ancestorKey_render clean steps (by omega)
      have inside : names.length - (steps + 1) < names.length := by omega
      have more : names.length - steps =
          names.length - (steps + 1) + 1 := by omega
      rw [ancestorKey, before, more, List.take_succ_eq_append_getElem inside]
      apply parentKey_render
      rw [← List.take_succ_eq_append_getElem inside]
      exact fun part member => clean part (List.mem_of_mem_take member)

theorem reachesRoot_render {names : List Text} (clean : Clean '/' names) :
    ReachesRoot (render '/' names) names.length := by
  constructor
  · rw [ancestorKey_render clean names.length (Nat.le_refl _), Nat.sub_self]
    rfl
  · intro fewer few
    refine ⟨_, ancestorKey_render clean fewer (Nat.le_of_lt few), ?_⟩
    intro root
    have cleanTake : Clean '/' (names.take (names.length - fewer)) :=
      fun part member => clean part (List.mem_of_mem_take member)
    have empty : Clean '/' ([] : List Text) := nofun
    have none := render_injective cleanTake empty root
    have length := congrArg List.length none
    rw [List.length_take, List.length_nil] at length
    omega

/-- The key of the parent is the parent of the key. -/
theorem parentKey_normalizeKeyStr {path : Text}
    (absolute : isAbsolute path = true) (undotted : Undotted path)
    (some : parts path ≠ []) :
    ∃ up, parent path = Option.some up ∧
      parentKey (normalizeKeyStr path) = Option.some (normalizeKeyStr up) := by
  rcases parent_of_absolute absolute undotted with none | found
  · exact absurd none.1 some
  · obtain ⟨up, parentEq, upAbsolute, _, _, upParts⟩ := found
    refine ⟨up, parentEq, ?_⟩
    obtain ⟨front, last, shape⟩ :=
      (List.eq_nil_or_concat (parts path)).resolve_left some
    rw [List.concat_eq_append] at shape
    have clean := clean_parts path
    rw [shape] at clean
    rw [normalizeKeyStr_of_absolute absolute,
      normalizeKeyStr_of_absolute upAbsolute, upParts, shape,
      List.dropLast_concat]
    exact parentKey_render clean

/-- Keys are a canonical form: normalizing twice changes nothing, two paths
have one key exactly when they agree on the leading separator and on their
components, the two notions of parent agree, and stepping up from the key of a
path takes as many steps to the root as the path has components. -/
theorem normalizeKeyStr_canonical :
    (∀ path, normalizeKeyStr (normalizeKeyStr path) = normalizeKeyStr path) ∧
      (∀ left right, normalizeKeyStr left = normalizeKeyStr right ↔
        isAbsolute left = isAbsolute right ∧ parts left = parts right) ∧
      ∀ path, isAbsolute path = true → isLexicallySafe path = true →
        parts path ≠ [] →
          (∃ up, parent path = some up ∧
            parentKey (normalizeKeyStr path) = some (normalizeKeyStr up)) ∧
          ReachesRoot (normalizeKeyStr path) (parts path).length := by
  refine ⟨normalizeKeyStr_idempotent, fun left right =>
    normalizeKeyStr_eq_iff, ?_⟩
  intro path absolute safe some
  constructor
  · exact parentKey_normalizeKeyStr absolute (undotted_of_safe safe) some
  · rw [normalizeKeyStr_of_absolute absolute]
    exact reachesRoot_render (clean_parts path)

/-- A spelling with repeated and trailing separators. -/
theorem normalizeKeyStr_canonical_spelling :
    ReachesRoot (normalizeKeyStr "//a///b/".toList) 2 :=
  ((normalizeKeyStr_canonical.2.2 "//a///b/".toList (by decide) (by decide)
    (by decide)).2 : ReachesRoot _ (parts "//a///b/".toList).length)

end Hookfs.Posix
