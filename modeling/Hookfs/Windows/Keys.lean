import Hookfs.Windows.Paths

/-!
# Keys of drive-absolute paths

The key of a drive-absolute path is its drive in lower case and the
rendering of its lower-case components.
-/

namespace Hookfs.Windows

open Hookfs.Lib Hookfs.Posix

/-! ## Lower case -/

/-- What `char::to_lowercase` documents beyond ASCII: at least one character,
and a backslash only for a backslash. -/
structure CaseMap.Proper (cases : CaseMap) : Prop where
  nonempty : ∀ char, cases.lower char ≠ []
  free : ∀ char, '\\' ∈ cases.lower char → char = '\\'

theorem isAlpha_eq (char : Char) :
    char.isAlpha =
      (decide (char.val ≥ 65 ∧ char.val ≤ 90) ||
        (decide (char.val ≥ 97) && decide (char.val ≤ 122))) := rfl

theorem toLower_range {char : Char} (alpha : char.isAlpha = true) :
    97 ≤ char.toLower.toNat ∧ char.toLower.toNat ≤ 122 := by
  rw [isAlpha_eq] at alpha
  unfold Char.toLower Char.toNat
  simp only [Bool.or_eq_true, decide_eq_true_eq, ge_iff_le,
    UInt32.le_iff_toNat_le] at alpha ⊢
  split
  · simp only [UInt32.toNat_add]
    simp at *
    omega
  · simp at *
    omega

theorem toLower_of_not_isAlpha {char : Char} (plain : char.isAlpha = false) :
    char.toLower = char := by
  unfold Char.toLower
  rw [dif_neg]
  intro upper
  have capital : char.val ≥ 65 ∧ char.val ≤ 90 := upper
  rw [isAlpha_eq, decide_eq_true capital, Bool.true_or] at plain
  exact Bool.noConfusion plain

/-- A letter in lower case is no separator and no colon. -/
theorem toLower_ne {char other : Char} (alpha : char.isAlpha = true)
    (low : other.toNat < 97) : char.toLower ≠ other := by
  intro same
  have range := (toLower_range alpha).1
  rw [same] at range
  omega

theorem CaseMap.asciiOnly_proper : CaseMap.asciiOnly.Proper where
  nonempty := fun _ => List.cons_ne_nil _ _
  free := by
    intro char member
    have lowered : '\\' = char.toLower := by simpa [asciiOnly] using member
    cases alpha : char.isAlpha with
    | true =>
        exact absurd lowered.symm (toLower_ne alpha (by decide))
    | false =>
        rw [lowered, toLower_of_not_isAlpha alpha]

theorem isSep_eq_false_of_isAlpha {char : Char}
    (alpha : char.isAlpha = true) : isSep char = false := by
  rw [Bool.eq_false_iff]
  intro sep
  unfold isSep at sep
  rw [Bool.or_eq_true, decide_eq_true_eq, decide_eq_true_eq] at sep
  rcases sep with rfl | rfl
  · revert alpha
    decide
  · revert alpha
    decide

/-! ## Folding -/

/-- Separators unified and everything else in lower case. -/
def fold (cases : CaseMap) (text : Text) : Text :=
  text.flatMap fun char => if isSep char then ['\\'] else cases.lower char

theorem fold_append (cases : CaseMap) (left right : Text) :
    fold cases (left ++ right) = fold cases left ++ fold cases right := by
  simp [fold]

theorem fold_sep {cases : CaseMap} {sep : Char} (isSeparator : isSep sep = true)
    (rest : Text) : fold cases (sep :: rest) = '\\' :: fold cases rest := by
  simp [fold, isSeparator]

theorem fold_other {cases : CaseMap} {char : Char} (other : isSep char = false)
    (rest : Text) :
    fold cases (char :: rest) = cases.lower char ++ fold cases rest := by
  simp [fold, other]

theorem CaseMap.Proper.lower_free {cases : CaseMap} (proper : cases.Proper)
    {char : Char} (other : isSep char = false) :
    '\\' ∉ cases.lower char := by
  intro member
  have same := proper.free char member
  rw [same] at other
  revert other
  decide

theorem collapse_eq_squeeze {cases : CaseMap} (proper : cases.Proper)
    (prevSep : Bool) (text : Text) :
    collapse cases prevSep text = squeeze '\\' prevSep (fold cases text) := by
  induction text generalizing prevSep with
  | nil =>
      rfl
  | cons char rest inductionHypothesis =>
      unfold collapse
      cases kind : isSep char with
      | true =>
          rw [fold_sep kind]
          simp only [squeeze, if_true, inductionHypothesis]
      | false =>
          rw [fold_other kind, squeeze_append (proper.lower_free kind),
            if_neg (proper.nonempty char), if_neg Bool.false_ne_true,
            inductionHypothesis]

/-! ## Drive-absolute paths -/

/-- A drive letter, a colon and a separator in front. -/
def isDriveAbsolute (path : Text) : Bool :=
  match path with
  | letter :: ':' :: sep :: _ => letter.isAlpha && isSep sep
  | _ => false

/-- The drive of a drive-absolute path, as its key spells it. -/
def drive (path : Text) : Text :=
  (path.take 2).map Char.toLower

/-- The components behind the drive, as the key spells them. -/
def parts (cases : CaseMap) (path : Text) : List Text :=
  Lib.components '\\' (fold cases (path.drop 2))

theorem clean_parts (cases : CaseMap) (path : Text) :
    Clean '\\' (parts cases path) :=
  components_clean '\\' _

theorem exists_eq_drive {path : Text}
    (absolute : isDriveAbsolute path = true) :
    ∃ letter sep rest, path = letter :: ':' :: sep :: rest ∧
      letter.isAlpha = true ∧ isSep sep = true := by
  unfold isDriveAbsolute at absolute
  split at absolute
  · rename_i letter sep rest
    rw [Bool.and_eq_true] at absolute
    exact ⟨letter, sep, rest, rfl, absolute⟩
  · cases absolute

theorem drive_cons (letter : Char) (rest : Text) :
    drive (letter :: ':' :: rest) = [letter.toLower, ':'] := rfl

theorem length_drive {path : Text} (absolute : isDriveAbsolute path = true) :
    (drive path).length = 2 := by
  obtain ⟨letter, sep, rest, rfl, -, -⟩ := exists_eq_drive absolute
  rfl

theorem sep_not_mem_drive {path : Text}
    (absolute : isDriveAbsolute path = true) : '\\' ∉ drive path := by
  obtain ⟨letter, sep, rest, rfl, alpha, -⟩ := exists_eq_drive absolute
  rw [drive_cons]
  have different : letter.toLower ≠ '\\' := toLower_ne alpha (by decide)
  simp [Ne.symm different]

/-! ## Their keys -/

theorem keyHasPrefix_iff {key lead : Text} :
    keyHasPrefix key lead = true ↔
      key = lead ∨ ∃ rest, key = lead ++ '\\' :: rest := by
  rw [← stripPrefix_any_iff]
  unfold keyHasPrefix
  cases stripPrefix lead key with
  | none =>
      rfl
  | some rest =>
      rfl

theorem stripPrefix_cons_of_ne {first letter : Char}
    (different : letter ≠ first) (lead rest : Text) :
    stripPrefix (first :: lead) (letter :: rest) = none := by
  have unequal : (first == letter) = false := by
    simpa using Ne.symm different
  simp [stripPrefix, List.isPrefixOf, unequal]

/-- Text that does not start with a backslash has no long-path prefix. -/
theorem normalizeKeyStr_of_plain (cases : CaseMap) {letter : Char}
    (different : letter ≠ '\\') (rest : Text) :
    normalizeKeyStr cases (letter :: rest) =
      dropTrailing (collapse cases false (letter :: rest)) := by
  have unwrapped : ∀ rounds,
      unwrapUnc rounds (letter :: rest) = letter :: rest := by
    intro rounds
    cases rounds with
    | zero =>
        rfl
    | succ rounds =>
        have bare : stripPrefix "\\\\?\\UNC\\".toList (letter :: rest) = none :=
          stripPrefix_cons_of_ne different _ rest
        rw [unwrapUnc, bare]
  have bare : stripPrefix "\\\\?\\".toList (letter :: rest) = none :=
    stripPrefix_cons_of_ne different _ rest
  simp only [normalizeKeyStr, unwrapped, bare, Option.getD_none]

theorem length_le_utf8 (text : Text) :
    text.length ≤ (Text.utf8 text).length := by
  induction text with
  | nil =>
      exact Nat.le_refl 0
  | cons char rest inductionHypothesis =>
      have positive : 1 ≤ (String.utf8EncodeChar char).length := by
        rw [String.length_utf8EncodeChar]
        exact char.utf8Size_pos
      simp only [Text.utf8, List.flatMap_cons, List.length_append,
        List.length_cons] at inductionHypothesis ⊢
      omega

theorem utf8Size_ascii {char : Char} (ascii : char.toNat < 128) :
    char.utf8Size = 1 := by
  rw [Char.utf8Size_eq_one_iff, UInt32.le_iff_toNat_le]
  exact Nat.le_of_lt_succ ascii

theorem isAlpha_ascii {char : Char} (alpha : char.isAlpha = true) :
    char.toNat < 128 := by
  have code : char.toNat = char.val.toNat := rfl
  rw [isAlpha_eq] at alpha
  simp only [Bool.or_eq_true, decide_eq_true_eq, ge_iff_le,
    UInt32.le_iff_toNat_le] at alpha
  rw [code]
  simp at alpha
  omega

theorem dropTrailing_solid {out : Text}
    (solid : out.getLast? ≠ some '\\') : dropTrailing out = out := by
  rw [dropTrailing, if_neg fun both => solid both.2]

theorem dropTrailing_concat {out : Text} (long : 3 ≤ out.length) :
    dropTrailing (out ++ ['\\']) = out := by
  have bytes := length_le_utf8 (out ++ ['\\'])
  rw [List.length_append, List.length_singleton] at bytes
  rw [dropTrailing, if_pos ⟨by omega, by simp⟩, List.dropLast_concat]

/-- The bare root of a drive keeps its separator. -/
theorem dropTrailing_root {path : Text}
    (absolute : isDriveAbsolute path = true) :
    dropTrailing (drive path ++ ['\\']) = drive path ++ ['\\'] := by
  obtain ⟨letter, sep, rest, rfl, alpha, -⟩ := exists_eq_drive absolute
  have range := toLower_range alpha
  have one : letter.toLower.utf8Size = 1 := utf8Size_ascii (by omega)
  have three : (Text.utf8 (drive (letter :: ':' :: sep :: rest) ++
      ['\\'])).length = 3 := by
    have two : (String.utf8EncodeChar ':').length +
        (String.utf8EncodeChar '\\').length = 2 := by decide
    simp only [drive_cons, List.cons_append, List.nil_append, Text.utf8,
      List.flatMap_cons, List.flatMap_nil, List.append_nil,
      List.length_append, two, String.length_utf8EncodeChar letter.toLower,
      one]
  rw [dropTrailing, if_neg (by omega)]

/-- The collapsed text of a drive-absolute path, before its trailing
separator is popped. -/
theorem collapse_of_drive {cases : CaseMap} (proper : cases.Proper)
    {path : Text} (absolute : isDriveAbsolute path = true) :
    ∃ tail, (tail = [] ∨ tail = ['\\']) ∧
      body '\\' (parts cases path) ++ tail ≠ [] ∧
      normalizeKeyStr cases path = dropTrailing
        (drive path ++ (body '\\' (parts cases path) ++ tail)) := by
  obtain ⟨letter, sep, rest, rfl, alpha, isSeparator⟩ :=
    exists_eq_drive absolute
  have letterOther := isSep_eq_false_of_isAlpha alpha
  have different : letter ≠ '\\' := by
    rintro rfl
    revert alpha
    decide
  have lowerLetter : cases.lower letter = [letter.toLower] :=
    cases.ascii letter (isAlpha_ascii alpha)
  have lowerColon : cases.lower ':' = [':'] := cases.ascii ':' (by decide)
  have colonOther : isSep ':' = false := by decide
  have partsEq : parts cases (letter :: ':' :: sep :: rest) =
      Lib.components '\\' (fold cases rest) := by
    rw [parts, List.drop_succ_cons, List.drop_succ_cons, List.drop_zero,
      fold_sep isSeparator, components_sep_cons]
  have collapsed := sep_cons_squeeze '\\' (fold cases rest)
  rw [← collapse_eq_squeeze proper] at collapsed
  refine ⟨if ((fold cases rest).splitOn '\\').getLast? = some [] then
    ['\\'] else [], ?_, ?_, ?_⟩
  · split
    · exact Or.inr rfl
    · exact Or.inl rfl
  · rw [partsEq, ← collapsed]
    exact List.cons_ne_nil _ _
  · rw [normalizeKeyStr_of_plain cases different, partsEq, drive_cons,
      ← collapsed]
    simp only [collapse, letterOther, colonOther, isSeparator, lowerLetter,
      lowerColon, Bool.false_eq_true, if_false, if_true]
    rfl

/-- The key of a drive-absolute path. -/
theorem normalizeKeyStr_of_drive {cases : CaseMap} (proper : cases.Proper)
    {path : Text} (absolute : isDriveAbsolute path = true) :
    normalizeKeyStr cases path =
      drive path ++ render '\\' (parts cases path) := by
  have clean := clean_parts cases path
  have driveLength := length_drive absolute
  obtain ⟨tail, either, nonempty, shape⟩ :=
    collapse_of_drive proper absolute
  rw [shape]
  by_cases root : parts cases path = []
  · rw [root, body_nil, List.nil_append] at nonempty ⊢
    rw [either.resolve_left nonempty]
    exact dropTrailing_root absolute
  · rw [render_of_ne_nil root]
    obtain ⟨part, others, split⟩ := List.exists_cons_of_ne_nil root
    rcases either with rfl | rfl
    · rw [List.append_nil]
      apply dropTrailing_solid
      rw [List.getLast?_append_of_ne_nil]
      · exact getLast?_body_ne root clean
      · rw [split, body_cons]
        exact List.cons_ne_nil _ _
    · rw [← List.append_assoc]
      apply dropTrailing_concat
      rw [List.length_append, driveLength, split, body_cons,
        List.length_cons]
      omega

end Hookfs.Windows
