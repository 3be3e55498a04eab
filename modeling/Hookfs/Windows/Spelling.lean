import Hookfs.Windows.Keys
import Mathlib.Data.List.Forall2

/-!
# The spellings of a Windows path

Two spellings differ in the kind of their separators and in the case of their
ASCII letters.  The collapsing loop does not see the difference, but the
long-path prefixes are looked for before it runs: two spellings have one key
exactly when the code finds the same prefixes on both.
-/

namespace Hookfs.Windows

open Hookfs.Lib Hookfs.Posix

/-! ## Spellings -/

/-- The same character, two separators, or one ASCII letter in both cases. -/
def SameChar (left right : Char) : Prop :=
  left = right ∨ (isSep left = true ∧ isSep right = true) ∨
    (left.isAlpha = true ∧ right.isAlpha = true ∧
      left.toLower = right.toLower)

/-- Two spellings of one path. -/
abbrev SameSpelling (left right : Text) : Prop :=
  List.Forall₂ SameChar left right

theorem SameChar.symm {left right : Char} (same : SameChar left right) :
    SameChar right left := by
  rcases same with equal | seps | letters
  · exact Or.inl equal.symm
  · exact Or.inr (Or.inl ⟨seps.2, seps.1⟩)
  · exact Or.inr (Or.inr ⟨letters.2.1, letters.1, letters.2.2.symm⟩)

theorem SameSpelling.symm {left right : Text}
    (same : SameSpelling left right) : SameSpelling right left :=
  List.Forall₂.flip (same.imp fun _ _ => SameChar.symm)

/-- `\\?\`. -/
def longLead : Text := "\\\\?\\".toList

/-- `\\?\UNC\`. -/
def uncLead : Text := "\\\\?\\UNC\\".toList

/-- The code finds the same long-path prefixes on both spellings. -/
inductive PrefixesAgree : Text → Text → Prop where
  | plain {left right : Text} (leftPlain : ¬ longLead <+: left)
      (rightPlain : ¬ longLead <+: right) : PrefixesAgree left right
  | long {left right : Text} (leftLong : ¬ "UNC\\".toList <+: left)
      (rightLong : ¬ "UNC\\".toList <+: right) :
      PrefixesAgree (longLead ++ left) (longLead ++ right)
  | unc {left right : Text}
      (later : PrefixesAgree ('\\' :: '\\' :: left) ('\\' :: '\\' :: right)) :
      PrefixesAgree (uncLead ++ left) (uncLead ++ right)

/-! ## The collapsing loop -/

/-- A character is a separator in both spellings, or it is folded alike. -/
theorem SameChar.cases {left right : Char} (same : SameChar left right)
    (cases : CaseMap) :
    (isSep left = true ∧ isSep right = true) ∨
      (isSep left = false ∧ isSep right = false ∧
        cases.lower left = cases.lower right) := by
  rcases same with equal | seps | letters
  · subst equal
    cases kind : isSep left with
    | true =>
        exact Or.inl ⟨rfl, rfl⟩
    | false =>
        exact Or.inr ⟨rfl, rfl, rfl⟩
  · exact Or.inl seps
  · right
    refine ⟨isSep_eq_false_of_isAlpha letters.1,
      isSep_eq_false_of_isAlpha letters.2.1, ?_⟩
    rw [cases.ascii left (isAlpha_ascii letters.1),
      cases.ascii right (isAlpha_ascii letters.2.1), letters.2.2]

theorem collapse_spelling (cases : CaseMap) {left right : Text}
    (same : SameSpelling left right) (prevSep : Bool) :
    collapse cases prevSep left = collapse cases prevSep right := by
  induction same generalizing prevSep with
  | nil =>
      rfl
  | cons here later inductionHypothesis =>
      unfold collapse
      rcases here.cases cases with seps | others
      · rw [if_pos seps.1, if_pos seps.2]
        simp only [inductionHypothesis]
      · rw [if_neg (by rw [others.1]; exact Bool.false_ne_true),
          if_neg (by rw [others.2.1]; exact Bool.false_ne_true),
          others.2.2, inductionHypothesis]

/-! ## Long-path prefixes -/

theorem longLead_of_uncLead {text : Text} (unc : uncLead <+: text) :
    longLead <+: text :=
  List.IsPrefix.trans (by decide) unc

theorem stripPrefix_of_not_prefix {lead text : Text}
    (different : ¬ lead <+: text) : stripPrefix lead text = none := by
  unfold stripPrefix
  rw [if_neg]
  intro isPrefix
  exact different (List.isPrefixOf_iff_prefix.mp isPrefix)

theorem unwrapUnc_succ_of_unc (rounds : Nat) (rest : Text) :
    unwrapUnc (rounds + 1) (uncLead ++ rest) =
      unwrapUnc rounds ('\\' :: '\\' :: rest) := by
  have stripped : stripPrefix "\\\\?\\UNC\\".toList (uncLead ++ rest) =
      some rest := stripPrefix_eq_some_iff.mpr rfl
  rw [unwrapUnc, stripped]

theorem unwrapUnc_of_not_unc {text : Text} (bare : ¬ uncLead <+: text)
    (rounds : Nat) : unwrapUnc rounds text = text := by
  cases rounds with
  | zero =>
      rfl
  | succ rounds =>
      have none : stripPrefix "\\\\?\\UNC\\".toList text = none :=
        stripPrefix_of_not_prefix bare
      rw [unwrapUnc, none]

theorem length_uncLead_append (rest : Text) :
    (uncLead ++ rest).length = rest.length + 7 + 1 := by
  have eight : uncLead.length = 8 := by decide
  rw [List.length_append]
  omega

/-- As many rounds as characters are enough. -/
theorem unwrapUnc_eq {rounds : Nat} {text : Text}
    (enough : text.length ≤ rounds) :
    unwrapUnc rounds text = unwrapUnc text.length text := by
  induction rounds using Nat.strongRecOn generalizing text with
  | ind rounds inductionHypothesis =>
      by_cases unc : uncLead <+: text
      · obtain ⟨rest, rfl⟩ := unc
        rw [length_uncLead_append] at enough ⊢
        obtain ⟨less, rfl⟩ := Nat.exists_eq_add_of_le' enough
        have short : ('\\' :: '\\' :: rest).length = rest.length + 2 := rfl
        rw [← Nat.add_assoc, unwrapUnc_succ_of_unc, unwrapUnc_succ_of_unc,
          inductionHypothesis _ (by omega) (by omega),
          inductionHypothesis (rest.length + 7) (by omega) (by omega)]
      · rw [unwrapUnc_of_not_unc unc, unwrapUnc_of_not_unc unc]

theorem normalizeKeyStr_unc (cases : CaseMap) (rest : Text) :
    normalizeKeyStr cases (uncLead ++ rest) =
      normalizeKeyStr cases ('\\' :: '\\' :: rest) := by
  have enough : ('\\' :: '\\' :: rest).length ≤ rest.length + 7 := by
    simp
  unfold normalizeKeyStr
  rw [length_uncLead_append, unwrapUnc_succ_of_unc, unwrapUnc_eq enough]

theorem normalizeKeyStr_long (cases : CaseMap) {rest : Text}
    (bare : ¬ "UNC\\".toList <+: rest) :
    normalizeKeyStr cases (longLead ++ rest) =
      dropTrailing (collapse cases false rest) := by
  have notUnc : ¬ uncLead <+: longLead ++ rest := by
    intro unc
    apply bare
    exact (List.prefix_append_right_inj longLead).mp unc
  have stripped : stripPrefix "\\\\?\\".toList (longLead ++ rest) = some rest :=
    stripPrefix_eq_some_iff.mpr rfl
  simp only [normalizeKeyStr, unwrapUnc_of_not_unc notUnc, stripped,
    Option.getD_some]

theorem normalizeKeyStr_of_not_long (cases : CaseMap) {text : Text}
    (plain : ¬ longLead <+: text) :
    normalizeKeyStr cases text = dropTrailing (collapse cases false text) := by
  have notUnc : ¬ uncLead <+: text := fun unc =>
    plain (longLead_of_uncLead unc)
  have bare : stripPrefix "\\\\?\\".toList text = none :=
    stripPrefix_of_not_prefix plain
  simp only [normalizeKeyStr, unwrapUnc_of_not_unc notUnc, bare,
    Option.getD_none]

/-- What is looked for in front of a text, in the order of the code. -/
theorem prefix_cases (text : Text) :
    (¬ longLead <+: text) ∨
      (∃ rest, text = longLead ++ rest ∧ ¬ "UNC\\".toList <+: rest) ∨
      ∃ rest, text = uncLead ++ rest := by
  by_cases long : longLead <+: text
  · obtain ⟨rest, rfl⟩ := long
    by_cases unc : "UNC\\".toList <+: rest
    · obtain ⟨later, rfl⟩ := unc
      exact Or.inr (Or.inr ⟨later, rfl⟩)
    · exact Or.inr (Or.inl ⟨rest, rfl, unc⟩)
  · exact Or.inl long

/-! ## How long a key is -/

theorem length_dropTrailing (out : Text) :
    (dropTrailing out).length ≤ out.length ∧
      out.length ≤ (dropTrailing out).length + 1 := by
  unfold dropTrailing
  split
  · rw [List.length_dropLast]
    omega
  · omega

/-- The first separator counts unless there is one before it. -/
theorem length_collapse_false (cases : CaseMap) (text : Text) :
    (collapse cases false text).length ≤
      (collapse cases true text).length + 1 := by
  cases text with
  | nil =>
      exact Nat.zero_le _
  | cons char rest =>
      unfold collapse
      split
      · simp
      · omega

theorem collapse_longLead (cases : CaseMap) (rest : Text) :
    collapse cases false (longLead ++ rest) =
      longLead.tail ++ collapse cases true rest := by
  have mark : cases.lower '?' = ['?'] := cases.ascii '?' (by decide)
  have shape : longLead ++ rest = '\\' :: '\\' :: '?' :: '\\' :: rest := rfl
  rw [shape]
  simp [collapse, isSep, mark, longLead]

theorem collapse_unc (cases : CaseMap) (rest : Text) (prevSep : Bool) :
    collapse cases prevSep ("UNC\\".toList ++ rest) =
      "unc\\".toList ++ collapse cases true rest := by
  have u : cases.lower 'U' = ['u'] := cases.ascii 'U' (by decide)
  have n : cases.lower 'N' = ['n'] := cases.ascii 'N' (by decide)
  have c : cases.lower 'C' = ['c'] := cases.ascii 'C' (by decide)
  have shape : "UNC\\".toList ++ rest = 'U' :: 'N' :: 'C' :: '\\' :: rest := rfl
  rw [shape]
  simp [collapse, isSep, u, n, c]

theorem collapse_uncLead (cases : CaseMap) (rest : Text) :
    collapse cases false (uncLead ++ rest) =
      "\\?\\unc\\".toList ++ collapse cases true rest := by
  have split : uncLead ++ rest = longLead ++ ("UNC\\".toList ++ rest) := rfl
  rw [split, collapse_longLead, collapse_unc]
  rfl

/-- The two separators of a share. -/
theorem collapse_share (cases : CaseMap) (rest : Text) :
    collapse cases false ('\\' :: '\\' :: rest) =
      '\\' :: collapse cases true rest := by
  simp [collapse, isSep]

/-- Taking prefixes off makes no key longer. -/
theorem length_normalizeKeyStr (cases : CaseMap) (text : Text) :
    (normalizeKeyStr cases text).length ≤
      (collapse cases false text).length := by
  induction count : text.length using Nat.strongRecOn generalizing text with
  | ind count inductionHypothesis =>
      rcases prefix_cases text with plain | long | unc
      · rw [normalizeKeyStr_of_not_long cases plain]
        exact (length_dropTrailing _).1
      · obtain ⟨rest, rfl, bare⟩ := long
        have shorter := (length_dropTrailing (collapse cases false rest)).1
        have separator := length_collapse_false cases rest
        rw [normalizeKeyStr_long cases bare, collapse_longLead,
          List.length_append]
        have three : longLead.tail.length = 3 := by decide
        omega
      · obtain ⟨rest, rfl⟩ := unc
        rw [length_uncLead_append] at count
        have unwrapped := inductionHypothesis (rest.length + 2) (by omega)
          ('\\' :: '\\' :: rest) rfl
        rw [collapse_share, List.length_cons] at unwrapped
        rw [normalizeKeyStr_unc, collapse_uncLead, List.length_append]
        have seven : ("\\?\\unc\\".toList : Text).length = 7 := by decide
        omega

/-! ## One key for the spellings -/

section Spellings

variable (cases : CaseMap) {left right : Text}

/-- A prefix that is found on one spelling only gives two keys. -/
theorem key_ne_of_long_plain {rest : Text}
    (bare : ¬ "UNC\\".toList <+: rest) (plain : ¬ longLead <+: right)
    (same : SameSpelling (longLead ++ rest) right) :
    normalizeKeyStr cases (longLead ++ rest) ≠ normalizeKeyStr cases right := by
  intro equal
  have lengths := congrArg List.length equal
  rw [normalizeKeyStr_long cases bare,
    normalizeKeyStr_of_not_long cases plain,
    ← collapse_spelling cases same, collapse_longLead] at lengths
  have stripped := (length_dropTrailing (collapse cases false rest)).1
  have separator := length_collapse_false cases rest
  have kept := (length_dropTrailing
    (longLead.tail ++ collapse cases true rest)).2
  rw [List.length_append] at kept
  have three : longLead.tail.length = 3 := by decide
  omega

theorem key_ne_of_unc_other {rest : Text} (bare : ¬ uncLead <+: right)
    (same : SameSpelling (uncLead ++ rest) right) :
    normalizeKeyStr cases (uncLead ++ rest) ≠ normalizeKeyStr cases right := by
  intro equal
  have lengths := congrArg List.length equal
  have share := length_normalizeKeyStr cases ('\\' :: '\\' :: rest)
  rw [collapse_share, List.length_cons] at share
  rw [normalizeKeyStr_unc] at lengths
  rcases prefix_cases right with plain | long | unc
  · have kept := (length_dropTrailing
      (collapse cases false (uncLead ++ rest))).2
    rw [normalizeKeyStr_of_not_long cases plain,
      ← collapse_spelling cases same] at lengths
    rw [collapse_uncLead] at kept lengths
    rw [List.length_append] at kept
    have seven : ("\\?\\unc\\".toList : Text).length = 7 := by decide
    omega
  · obtain ⟨later, rfl, noUnc⟩ := long
    have tails : SameSpelling ("UNC\\".toList ++ rest) later :=
      List.forall₂_drop 4 same
    have kept := (length_dropTrailing
      (collapse cases false ("UNC\\".toList ++ rest))).2
    rw [normalizeKeyStr_long cases noUnc,
      ← collapse_spelling cases tails] at lengths
    rw [collapse_unc] at kept lengths
    rw [List.length_append] at kept
    have four : ("unc\\".toList : Text).length = 4 := by decide
    omega
  · obtain ⟨later, rfl⟩ := unc
    exact bare (List.prefix_append uncLead later)

end Spellings

theorem uncLead_prefix_iff (rest : Text) :
    uncLead <+: longLead ++ rest ↔ "UNC\\".toList <+: rest :=
  List.prefix_append_right_inj longLead

theorem PrefixesAgree.long_iff {left right : Text}
    (agree : PrefixesAgree left right) :
    longLead <+: left ↔ longLead <+: right := by
  cases agree with
  | plain leftPlain rightPlain =>
      exact ⟨fun long => absurd long leftPlain,
        fun long => absurd long rightPlain⟩
  | long _ _ =>
      exact ⟨fun _ => List.prefix_append _ _, fun _ => List.prefix_append _ _⟩
  | unc _ =>
      exact ⟨fun _ => longLead_of_uncLead (List.prefix_append _ _),
        fun _ => longLead_of_uncLead (List.prefix_append _ _)⟩

theorem PrefixesAgree.unc_iff {left right : Text}
    (agree : PrefixesAgree left right) :
    uncLead <+: left ↔ uncLead <+: right := by
  cases agree with
  | plain leftPlain rightPlain =>
      exact ⟨fun unc => absurd (longLead_of_uncLead unc) leftPlain,
        fun unc => absurd (longLead_of_uncLead unc) rightPlain⟩
  | long leftLong rightLong =>
      rw [uncLead_prefix_iff, uncLead_prefix_iff]
      exact ⟨fun unc => absurd unc leftLong, fun unc => absurd unc rightLong⟩
  | unc _ =>
      exact ⟨fun _ => List.prefix_append _ _, fun _ => List.prefix_append _ _⟩

theorem prefixesAgree_unc_iff {left right : Text} :
    PrefixesAgree (uncLead ++ left) (uncLead ++ right) ↔
      PrefixesAgree ('\\' :: '\\' :: left) ('\\' :: '\\' :: right) := by
  constructor
  · intro agree
    generalize wholeLeft : uncLead ++ left = first at agree
    generalize wholeRight : uncLead ++ right = second at agree
    cases agree with
    | plain leftPlain _ =>
        apply absurd _ leftPlain
        rw [← wholeLeft]
        exact longLead_of_uncLead (List.prefix_append _ _)
    | @long rest _ leftLong _ =>
        apply absurd _ leftLong
        rw [← uncLead_prefix_iff, ← wholeLeft]
        exact List.prefix_append _ _
    | unc later =>
        rw [List.append_cancel_left wholeLeft,
          List.append_cancel_left wholeRight]
        exact later
  · exact PrefixesAgree.unc

end Hookfs.Windows
