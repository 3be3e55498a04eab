import Hookfs.Path.Posix

/-!
# Keys as lists of names

A name is a non-empty text without `/`; a key is the rendering of a list of
names.  On keys of this form the text operations of the tree are list
operations: the parent drops the last name, a descendant extends the list.
-/

namespace Hookfs.Posix

open Hookfs.Lib

@[ext]
structure Name where
  text : Text
  nonempty : text ≠ []
  free : '/' ∉ text
  deriving DecidableEq

theorem Name.text_injective : Function.Injective Name.text :=
  fun _ _ equal => Name.ext equal

def keyOf (names : List Name) : Text :=
  render '/' (names.map Name.text)

def namesOf (path : Text) : List Name :=
  (parts path).attach.map fun part =>
    ⟨part.1, (clean_parts path part.1 part.2).1,
      (clean_parts path part.1 part.2).2⟩

theorem clean_names (names : List Name) :
    Clean '/' (names.map Name.text) := by
  intro part member
  obtain ⟨name, -, rfl⟩ := List.mem_map.mp member
  exact ⟨name.nonempty, name.free⟩

theorem namesOf_val (path : Text) :
    (namesOf path).map Name.text = parts path := by
  rw [namesOf, List.map_map]
  exact List.attach_map_subtype_val (parts path)

theorem keyOf_nil : keyOf [] = ['/'] := rfl

theorem keyOf_injective : Function.Injective keyOf := by
  intro left right equal
  have parts := render_injective (clean_names left) (clean_names right)
    equal
  exact List.map_injective_iff.mpr Name.text_injective parts

@[simp]
theorem keyOf_inj {left right : List Name} :
    keyOf left = keyOf right ↔ left = right :=
  keyOf_injective.eq_iff

theorem keyOf_eq_root {names : List Name} :
    keyOf names = ['/'] ↔ names = [] :=
  keyOf_injective.eq_iff' rfl

theorem isEmpty_keyOf (names : List Name) :
    (keyOf names).isEmpty = false := by
  cases names with
  | nil =>
      rfl
  | cons name rest =>
      rfl

/-- The key of an absolute path is the key of its names. -/
theorem normalizeKeyStr_eq_keyOf {path : Text}
    (absolute : isAbsolute path = true) :
    normalizeKeyStr path = keyOf (namesOf path) := by
  rw [normalizeKeyStr_of_absolute absolute, keyOf, namesOf_val]

theorem parentKey_keyOf (names : List Name) (name : Name) :
    parentKey (keyOf (names ++ [name])) = some (keyOf names) := by
  have clean := clean_names (names ++ [name])
  rw [List.map_append] at clean
  unfold keyOf
  rw [List.map_append]
  exact parentKey_render clean

/-- The only keys with a given parent are its children, and the root for the
root. -/
theorem parentKey_keyOf_eq {names up : List Name} :
    parentKey (keyOf names) = some (keyOf up) ↔
      (∃ name, names = up ++ [name]) ∨ (names = [] ∧ up = []) := by
  rcases List.eq_nil_or_concat names with rfl | ⟨front, last, rfl⟩
  · rw [keyOf_nil, parentKey_root, Option.some.injEq, eq_comm,
      keyOf_eq_root]
    simp
  · rw [List.concat_eq_append, parentKey_keyOf, Option.some.injEq,
      keyOf_inj]
    constructor
    · rintro rfl
      exact Or.inl ⟨last, rfl⟩
    · rintro (⟨name, equal⟩ | ⟨impossible, -⟩)
      · exact (List.append_inj' equal rfl).1
      · simp at impossible

/-- Below a key other than the root lie the keys that extend it. -/
theorem isUnder_keyOf {lead whole : List Name} (nonempty : lead ≠ []) :
    isUnder (keyOf lead) (keyOf whole) = true ↔
      ∃ extra, extra ≠ [] ∧ whole = lead ++ extra := by
  have leadNonempty : lead.map Name.text ≠ [] := by
    simpa using nonempty
  rw [keyOf, keyOf, isUnder_render leadNonempty (clean_names lead)
    (clean_names whole)]
  constructor
  · rintro ⟨extra, extraNonempty, equal⟩
    obtain ⟨front, rest, rfl, frontEq, restEq⟩ :=
      List.map_eq_append_iff.mp equal
    have same : front = lead :=
      List.map_injective_iff.mpr Name.text_injective frontEq
    refine ⟨rest, ?_, by rw [same]⟩
    rintro rfl
    exact extraNonempty restEq.symm
  · rintro ⟨extra, extraNonempty, rfl⟩
    exact ⟨extra.map Name.text, by simpa using extraNonempty,
      List.map_append⟩

theorem isUnder_root_keyOf (whole : List Name) :
    isUnder ['/'] (keyOf whole) = false :=
  isUnder_root (clean_names whole)

/-- The parent of an absolute path, on names. -/
theorem parent_names {path : Text} (absolute : isAbsolute path = true)
    (undotted : Undotted path) :
    (namesOf path = [] ∧ parent path = none) ∨
      ∃ up last, parent path = some up ∧ isAbsolute up = true ∧
        Undotted up ∧ namesOf path = namesOf up ++ [last] := by
  rcases parent_of_absolute absolute undotted with
    ⟨noParts, noParent⟩ | ⟨up, found, upAbsolute, upUndotted, some, drop⟩
  · left
    refine ⟨?_, noParent⟩
    rw [← List.map_eq_nil_iff, namesOf_val, noParts]
  · right
    have nonempty : namesOf path ≠ [] := by
      rw [← namesOf_val] at some
      simpa using some
    obtain ⟨front, last, shape⟩ :=
      (List.eq_nil_or_concat _).resolve_left nonempty
    rw [List.concat_eq_append] at shape
    refine ⟨up, last, found, upAbsolute, upUndotted, ?_⟩
    rw [shape]
    congr 1
    apply List.map_injective_iff.mpr Name.text_injective
    rw [namesOf_val, drop, ← namesOf_val path, shape]
    simp

end Hookfs.Posix
