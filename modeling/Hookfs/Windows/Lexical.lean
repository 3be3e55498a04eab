import Hookfs.Windows.Keys

/-!
# What the lexical check of Windows accepts

`is_lexically_safe` looks at one component at a time, so it cannot see where
in the path a drive designator stands.  It rejects every other colon, every
NUL and every component of dots and spaces; a designator passes it at any
place.
-/

namespace Hookfs.Windows

open Hookfs.Lib Hookfs.Posix

/-! ## Safe paths -/

abbrev Padding (char : Char) : Prop := char = '.' ∨ char = ' '

/-- Made of dots and spaces, with at least one dot. -/
def DotsOnly (comp : Text) : Prop :=
  (∀ char ∈ comp, Padding char) ∧ '.' ∈ comp

/-- A letter and a colon, with dots and spaces behind them. -/
def IsDesignator (comp : Text) : Prop :=
  ∃ letter padding, letter.isAlpha = true ∧ (∀ char ∈ padding, Padding char) ∧
    comp = letter :: ':' :: padding

/-- Where a drive designator may stand: in the first component, or in the
first one behind `\\?\`, which is made of three components. -/
def DrivePlace (path : Text) (place : Nat) : Prop :=
  place = 0 ∨ (place = 3 ∧ "\\\\?\\".toList <+: path)

/-- No NUL, no component of dots, no colon but that of the path's drive. -/
structure LexicallySafe (path : Text) : Prop where
  noNul : '\x00' ∉ path
  noDots : ∀ comp ∈ path.splitOnP isSep, ¬ DotsOnly comp
  colons : ∀ place comp, (path.splitOnP isSep)[place]? = some comp →
    ':' ∈ comp → IsDesignator comp ∧ DrivePlace path place

/-- A NUL, a component of dots, or a colon outside of every designator. -/
def Flawed (path : Text) : Prop :=
  '\x00' ∈ path ∨ ∃ comp ∈ path.splitOnP isSep,
    DotsOnly comp ∨ (':' ∈ comp ∧ ¬ IsDesignator comp)

/-- A designator where the path's drive cannot be. -/
def MisplacedDrive (path : Text) : Prop :=
  ∃ place comp, (path.splitOnP isSep)[place]? = some comp ∧
    IsDesignator comp ∧ ¬ DrivePlace path place

/-! ## One component -/

theorem isDotComponent_iff {comp : Text} :
    isDotComponent comp = true ↔ DotsOnly comp := by
  unfold isDotComponent DotsOnly
  constructor
  · intro dots
    simp only [Bool.and_eq_true, List.all_eq_true, Bool.or_eq_true,
      decide_eq_true_eq, List.contains_iff_mem] at dots
    exact ⟨dots.1.2, dots.2⟩
  · rintro ⟨padded, dot⟩
    have nonempty : comp ≠ [] := List.ne_nil_of_mem dot
    simpa [nonempty, dot] using padded

/-- What `trim_end_matches` takes off. -/
theorem exists_padding (raw : Text) :
    ∃ padding, (∀ char ∈ padding, Padding char) ∧
      raw = trimEnd raw ++ padding := by
  refine ⟨raw.rtakeWhile fun char => char = ' ' || char = '.', ?_, ?_⟩
  · intro char member
    have stripped := List.mem_rtakeWhile_imp member
    simp only [Bool.or_eq_true, decide_eq_true_eq] at stripped
    exact stripped.symm
  · exact List.rdropWhile_append_rtakeWhile.symm

theorem colon_mem_trimEnd {raw : Text} : ':' ∈ trimEnd raw ↔ ':' ∈ raw := by
  obtain ⟨padding, padded, whole⟩ := exists_padding raw
  constructor
  · intro member
    rw [whole]
    exact List.mem_append_left padding member
  · intro member
    rw [whole] at member
    rcases List.mem_append.mp member with front | back
    · exact front
    · rcases padded ':' back with dot | space
      · exact absurd dot (by decide)
      · exact absurd space (by decide)

/-- Two bytes that start with a letter and have a colon are the letter and
the colon. -/
theorem eq_designator {comp : Text} (colon : ':' ∈ comp)
    (short : (Text.utf8 comp).length = 2)
    (headed : comp.head?.any Char.isAlpha = true) :
    ∃ letter, letter.isAlpha = true ∧ comp = [letter, ':'] := by
  cases comp with
  | nil =>
      cases colon
  | cons letter rest =>
      have alpha : letter.isAlpha = true := headed
      have one : (String.utf8EncodeChar letter).length = 1 := by
        rw [String.length_utf8EncodeChar]
        exact utf8Size_ascii (isAlpha_ascii alpha)
      have sum : (Text.utf8 (letter :: rest)).length =
          (String.utf8EncodeChar letter).length +
            (Text.utf8 rest).length := by
        simp [Text.utf8]
      have brief : rest.length ≤ 1 := by
        have bytes := length_le_utf8 rest
        omega
      have behind : ':' ∈ rest := by
        rcases List.mem_cons.mp colon with same | later
        · rw [← same] at alpha
          exact absurd alpha (by decide)
        · exact later
      obtain ⟨last, rfl⟩ : ∃ last, rest = [last] := by
        have nonempty := List.length_pos_of_mem behind
        exact List.length_eq_one_iff.mp (by omega)
      rw [← List.mem_singleton.mp behind]
      exact ⟨letter, alpha, rfl⟩

theorem trimEnd_designator {letter : Char} {padding : Text}
    (padded : ∀ char ∈ padding, Padding char) :
    trimEnd (letter :: ':' :: padding) = [letter, ':'] := by
  unfold trimEnd
  induction padding using List.reverseRecOn with
  | nil =>
      exact List.rdropWhile_concat_neg _ [letter] ':' (by decide)
  | append_singleton front last inductionHypothesis =>
      have smaller := inductionHypothesis
        fun char member => padded char (List.mem_append_left _ member)
      have stripped : (last = ' ' || last = '.') = true := by
        rcases padded last (by simp) with rfl | rfl
        · rfl
        · rfl
      exact (List.rdropWhile_concat_pos _ (letter :: ':' :: front) last
        stripped).trans smaller

theorem isSafeComponent_iff {comp : Text} :
    isSafeComponent comp = true ↔
      ¬ DotsOnly comp ∧ (':' ∈ comp → IsDesignator comp) := by
  have colon : (trimEnd comp).contains ':' = true ↔ ':' ∈ comp := by
    rw [List.contains_iff_mem]
    exact colon_mem_trimEnd
  unfold isSafeComponent
  simp only [Bool.and_eq_true, Bool.not_eq_true', Bool.or_eq_true,
    decide_eq_true_eq, ← Bool.not_eq_true, isDotComponent_iff, colon]
  apply and_congr_right
  intro _
  constructor
  · intro accepted member
    obtain ⟨short, headed⟩ := accepted.resolve_left (· member)
    obtain ⟨letter, alpha, trimmed⟩ :=
      eq_designator (colon_mem_trimEnd.mpr member) short headed
    obtain ⟨padding, padded, whole⟩ := exists_padding comp
    rw [trimmed] at whole
    exact ⟨letter, padding, alpha, padded, whole⟩
  · intro designated
    by_cases member : ':' ∈ comp
    · obtain ⟨letter, padding, alpha, padded, rfl⟩ := designated member
      have one : (String.utf8EncodeChar letter).length = 1 := by
        rw [String.length_utf8EncodeChar]
        exact utf8Size_ascii (isAlpha_ascii alpha)
      rw [trimEnd_designator padded]
      refine .inr ⟨?_, alpha⟩
      simp only [Text.utf8, List.flatMap_cons, List.flatMap_nil,
        List.length_append, one]
      rfl
    · exact .inl member

/-! ## The whole path -/

theorem isLexicallySafe_iff {path : Text} :
    isLexicallySafe path = true ↔ ¬ Flawed path := by
  unfold isLexicallySafe Flawed
  simp only [Bool.and_eq_true, Bool.not_eq_true', ← Bool.not_eq_true,
    List.contains_iff_mem, List.all_eq_true, isSafeComponent_iff, not_or,
    not_exists, not_and, not_not]

theorem LexicallySafe.not_flawed {path : Text} (safe : LexicallySafe path) :
    ¬ Flawed path := by
  rintro (nul | ⟨comp, member, dots | ⟨colon, undesignated⟩⟩)
  · exact safe.noNul nul
  · exact safe.noDots comp member dots
  · obtain ⟨place, found⟩ := List.mem_iff_getElem?.mp member
    exact undesignated (safe.colons place comp found colon).1

theorem IsDesignator.colon {comp : Text} (designator : IsDesignator comp) :
    ':' ∈ comp := by
  obtain ⟨letter, padding, -, -, rfl⟩ := designator
  simp

theorem lexicallySafe_iff {path : Text} :
    LexicallySafe path ↔ ¬ Flawed path ∧ ¬ MisplacedDrive path := by
  constructor
  · intro safe
    refine ⟨safe.not_flawed, ?_⟩
    rintro ⟨place, comp, found, designator, misplaced⟩
    exact misplaced (safe.colons place comp found designator.colon).2
  · rintro ⟨sound, placed⟩
    refine ⟨fun nul => sound (.inl nul), ?_, ?_⟩
    · intro comp member dots
      exact sound (.inr ⟨comp, member, .inl dots⟩)
    · intro place comp found colon
      have member := List.mem_of_getElem? found
      have designator : IsDesignator comp := by
        by_contra undesignated
        exact sound (.inr ⟨comp, member, .inr ⟨colon, undesignated⟩⟩)
      refine ⟨designator, ?_⟩
      by_contra misplaced
      exact placed ⟨place, comp, found, designator, misplaced⟩

/-- The check is exact unless all that is wrong with the path is a drive
designator in another component than that of its drive. -/
theorem lexical_check_exact_iff (path : Text) :
    (isLexicallySafe path = true ↔ LexicallySafe path) ↔
      (MisplacedDrive path → Flawed path) := by
  rw [isLexicallySafe_iff, lexicallySafe_iff]
  constructor
  · intro same misplaced
    by_contra sound
    exact (same.mp sound).2 misplaced
  · intro explained
    refine ⟨fun sound => ⟨sound, fun misplaced => ?_⟩, And.left⟩
    exact sound (explained misplaced)

/-- A drive designator below a directory passes. -/
theorem lexical_check_accepts_inner_drive :
    ¬ (isLexicallySafe "C:\\v\\d:\\x".toList = true ↔
      LexicallySafe "C:\\v\\d:\\x".toList) := by
  have accepted : isLexicallySafe "C:\\v\\d:\\x".toList = true := by decide
  intro exact
  have safe := exact.mp accepted
  have place := (safe.colons 2 "d:".toList (by decide) (by decide)).2
  rcases place with first | ⟨fourth, -⟩
  · exact absurd first (by decide)
  · exact absurd fourth (by decide)

end Hookfs.Windows
