import Hookfs.Router.Engine
import Hookfs.Windows.Keys
import Hookfs.Windows.Shims

/-!
# What a namespace contains

`Namespace::from_root` decides membership on the text of two keys.  Away from
filesystem roots this is the prefix test on their components, on POSIX and
for drive-absolute paths on Windows; a filesystem root as the prefix contains
nothing but itself.
-/

namespace Hookfs.Router

open Hookfs.Lib

/-- The components of one key start with those of the other. -/
def ComponentPrefix (sep : Char) (lead key : Text) : Prop :=
  Lib.components sep lead <+: Lib.components sep key

instance (sep : Char) (lead key : Text) :
    Decidable (ComponentPrefix sep lead key) :=
  inferInstanceAs (Decidable (_ <+: _))

/-! ## POSIX -/

section Posix

open Hookfs.Posix

variable {root path : Text}

/-- If the prefix is the filesystem root, so is the path. -/
def ApartFromRoot (root path : Text) : Prop :=
  normalizeKeyStr root = ['/'] → normalizeKeyStr path = ['/']

theorem render_eq_root {whole : List Text} (clean : Clean '/' whole) :
    render '/' whole = ['/'] ↔ whole = [] := by
  constructor
  · exact fun same => render_injective clean (fun _ none => by cases none) same
  · rintro rfl
    rfl

theorem isVirtual_fromRoot_iff (rootAbsolute : isAbsolute root = true)
    (pathAbsolute : isAbsolute path = true) :
    (Namespace.fromRoot root).isVirtual path = true ↔
      parts root <+: parts path ∧ (parts root = [] → parts path = []) := by
  rw [Namespace.fromRoot, keyHasPrefix_iff,
    normalizeKeyStr_of_absolute rootAbsolute,
    normalizeKeyStr_of_absolute pathAbsolute,
    boundary_prefix_iff (clean_parts root) (clean_parts path)]

theorem fromRoot_component_iff (rootAbsolute : isAbsolute root = true)
    (pathAbsolute : isAbsolute path = true) :
    ((Namespace.fromRoot root).isVirtual path = true ↔
        ComponentPrefix '/' (normalizeKeyStr root) (normalizeKeyStr path)) ↔
      ApartFromRoot root path := by
  have rootClean := clean_parts root
  have pathClean := clean_parts path
  rw [isVirtual_fromRoot_iff rootAbsolute pathAbsolute, ComponentPrefix,
    ApartFromRoot, normalizeKeyStr_of_absolute rootAbsolute,
    normalizeKeyStr_of_absolute pathAbsolute, components_render rootClean,
    components_render pathClean, render_eq_root rootClean,
    render_eq_root pathClean]
  constructor
  · intro same bare
    exact (same.mpr (bare ▸ List.nil_prefix)).2 bare
  · intro apart
    exact ⟨And.left, fun before => ⟨before, apart⟩⟩

end Posix

/-! ## Windows -/

section Windows

open Hookfs.Windows

variable {cases : CaseMap} {root path : Text}

/-- If the prefix is the root of a drive, the path is that root or lies on
another drive. -/
def ApartFromDriveRoot (cases : CaseMap) (root path : Text) : Prop :=
  (normalizeKeyStr cases root).length = 3 →
    (normalizeKeyStr cases path).take 2 =
        (normalizeKeyStr cases root).take 2 →
      normalizeKeyStr cases path = normalizeKeyStr cases root

/-- Keys on drives, taken apart. -/
theorem append_drive_iff {leadDrive wholeDrive lead whole : Text}
    (sameLength : wholeDrive.length = leadDrive.length) :
    (wholeDrive ++ whole = leadDrive ++ lead ∨
        ∃ rest, wholeDrive ++ whole = leadDrive ++ lead ++ '\\' :: rest) ↔
      wholeDrive = leadDrive ∧
        (whole = lead ∨ ∃ rest, whole = lead ++ '\\' :: rest) := by
  constructor
  · rintro (same | ⟨rest, extended⟩)
    · obtain ⟨drives, texts⟩ := List.append_inj same sameLength
      exact ⟨drives, Or.inl texts⟩
    · rw [List.append_assoc] at extended
      obtain ⟨drives, texts⟩ := List.append_inj extended sameLength
      exact ⟨drives, Or.inr ⟨rest, texts⟩⟩
  · rintro ⟨rfl, rfl | ⟨rest, rfl⟩⟩
    · exact Or.inl rfl
    · exact Or.inr ⟨rest, by rw [List.append_assoc]⟩

theorem components_key (proper : cases.Proper)
    (absolute : isDriveAbsolute path = true) :
    Lib.components '\\' (normalizeKeyStr cases path) =
      drive path :: parts cases path := by
  have free := sep_not_mem_drive absolute
  have nonempty : drive path ≠ [] := by
    intro empty
    have two := length_drive absolute
    rw [empty] at two
    cases two
  have clean := clean_parts cases path
  rw [normalizeKeyStr_of_drive proper absolute]
  cases shape : parts cases path with
  | nil =>
      rw [render, ← List.append_nil ['\\'], List.singleton_append,
        components_append_sep, components_of_free nonempty free,
        components_nil, List.append_nil]
  | cons part rest =>
      rw [shape] at clean
      have whole := components_body clean
      rw [render, body_cons] at *
      rw [components_append_sep, components_of_free nonempty free,
        List.singleton_append]
      rw [components_sep_cons] at whole
      rw [whole]

theorem isVirtual_namespaceFromRoot_iff (proper : cases.Proper)
    (rootAbsolute : isDriveAbsolute root = true)
    (pathAbsolute : isDriveAbsolute path = true) :
    (namespaceFromRoot cases root).isVirtual path = true ↔
      drive path = drive root ∧ parts cases root <+: parts cases path ∧
        (parts cases root = [] → parts cases path = []) := by
  have sameLength : (drive path).length = (drive root).length := by
    rw [length_drive pathAbsolute, length_drive rootAbsolute]
  rw [namespaceFromRoot, keyHasPrefix_iff,
    normalizeKeyStr_of_drive proper rootAbsolute,
    normalizeKeyStr_of_drive proper pathAbsolute,
    append_drive_iff sameLength,
    boundary_prefix_iff (clean_parts cases root) (clean_parts cases path)]

theorem length_key_eq_three (proper : cases.Proper)
    (absolute : isDriveAbsolute path = true) :
    (normalizeKeyStr cases path).length = 3 ↔ parts cases path = [] := by
  have clean := clean_parts cases path
  rw [normalizeKeyStr_of_drive proper absolute, List.length_append,
    length_drive absolute]
  cases shape : parts cases path with
  | nil =>
      simp [render]
  | cons part rest =>
      have nonempty := (clean part (shape ▸ List.mem_cons_self)).1
      have positive := List.length_pos_iff.mpr nonempty
      rw [render, body_cons, List.length_cons, List.length_append]
      simp only [reduceCtorEq, iff_false]
      omega

theorem namespaceFromRoot_component_iff (proper : cases.Proper)
    (rootAbsolute : isDriveAbsolute root = true)
    (pathAbsolute : isDriveAbsolute path = true) :
    ((namespaceFromRoot cases root).isVirtual path = true ↔
        ComponentPrefix '\\' (normalizeKeyStr cases root)
          (normalizeKeyStr cases path)) ↔
      ApartFromDriveRoot cases root path := by
  have rootTwo := length_drive rootAbsolute
  have pathTwo := length_drive pathAbsolute
  have pathClean := clean_parts cases path
  rw [isVirtual_namespaceFromRoot_iff proper rootAbsolute pathAbsolute,
    ComponentPrefix, components_key proper rootAbsolute,
    components_key proper pathAbsolute, List.cons_prefix_cons,
    ApartFromDriveRoot, length_key_eq_three proper rootAbsolute,
    normalizeKeyStr_of_drive proper rootAbsolute,
    normalizeKeyStr_of_drive proper pathAbsolute,
    List.take_left' rootTwo, List.take_left' pathTwo]
  constructor
  · intro same bare drives
    have inside := same.mpr ⟨drives.symm, bare ▸ List.nil_prefix⟩
    rw [drives, bare, inside.2.2 bare]
  · intro apart
    constructor
    · rintro ⟨drives, before, -⟩
      exact ⟨drives.symm, before⟩
    · rintro ⟨drives, before⟩
      refine ⟨drives.symm, before, fun bare => ?_⟩
      have same := apart bare drives.symm
      rw [drives, bare, List.append_cancel_left_eq] at same
      exact render_injective pathClean (fun _ none => by cases none) same

end Windows

/-- Membership is the prefix test on components exactly where the prefix is
no filesystem root, or the path does not lie below that root. -/
theorem isVirtual_component_prefix_iff (cases : Windows.CaseMap)
    (proper : cases.Proper) :
    (∀ root path, Posix.isAbsolute root = true →
        Posix.isAbsolute path = true →
          (((Namespace.fromRoot root).isVirtual path = true ↔
              ComponentPrefix '/' (Posix.normalizeKeyStr root)
                (Posix.normalizeKeyStr path)) ↔
            ApartFromRoot root path)) ∧
      ∀ root path, Windows.isDriveAbsolute root = true →
        Windows.isDriveAbsolute path = true →
          (((Windows.namespaceFromRoot cases root).isVirtual path = true ↔
              ComponentPrefix '\\' (Windows.normalizeKeyStr cases root)
                (Windows.normalizeKeyStr cases path)) ↔
            ApartFromDriveRoot cases root path) :=
  ⟨fun _ _ => fromRoot_component_iff,
    fun _ _ => namespaceFromRoot_component_iff proper⟩

/-- A directory and a name that shares its text, and a drive root. -/
theorem isVirtual_component_prefix_iff_ascii :
    ((Namespace.fromRoot "/a".toList).isVirtual "/ab".toList = true ↔
        ComponentPrefix '/' "/a".toList "/ab".toList) ∧
      ¬ ((Windows.namespaceFromRoot .asciiOnly "C:\\".toList).isVirtual
          "c:/x".toList = true ↔
        ComponentPrefix '\\' "c:\\".toList "c:\\x".toList) := by
  have whole := isVirtual_component_prefix_iff .asciiOnly
    Windows.CaseMap.asciiOnly_proper
  have posix := (whole.1 "/a".toList "/ab".toList (by decide)
    (by decide)).mpr (by unfold ApartFromRoot; decide)
  have windows := (whole.2 "C:\\".toList "c:/x".toList (by decide)
    (by decide)).not.mpr (by unfold ApartFromDriveRoot; decide)
  exact ⟨posix, windows⟩

/-- The root as the prefix does not contain a file right below it. -/
theorem root_contains_no_file :
    ¬ ∀ root path, Posix.isAbsolute root = true →
      Posix.isAbsolute path = true →
        ((Namespace.fromRoot root).isVirtual path = true ↔
          ComponentPrefix '/' (Posix.normalizeKeyStr root)
            (Posix.normalizeKeyStr path)) := by
  intro always
  have here := always "/".toList "/a".toList (by decide) (by decide)
  revert here
  decide

end Hookfs.Router
