import Hookfs.Mount.Context
import Hookfs.Windows.Keys
import Hookfs.Windows.StdPath

/-!
# Mount names and the reserved root

`validate_logical` is meant to keep `root.join(name)` below the reserved root.
On POSIX it does; on Windows a name that starts with a bare drive designator
passes it, and joining such a name replaces the root.
-/

namespace Hookfs.Mount

open Hookfs.Lib

/-! ## The reserved root -/

def reservedName : Text :=
  "__hookfs__".toList

def hexDigit (value : Nat) : Char :=
  if value < 10 then Char.ofNat (48 + value) else Char.ofNat (87 + value)

/-- `{value:016x}` of a 64-bit word. -/
def hex16 (value : UInt64) : Text :=
  (List.range 16).reverse.map fun place =>
    hexDigit (value.toNat / 16 ^ place % 16)

/-- `random_mount_id`, for the two hashes it draws. -/
def mountId (first second : UInt64) : Text :=
  hex16 first ++ hex16 second

/-- `reserved_root` on POSIX. -/
def reservedRoot (first second : UInt64) : Text :=
  '/' :: (reservedName ++ '/' :: mountId first second)

/-- A key strictly below another one. -/
def StrictlyBelow (sep : Char) (lead key : Text) : Prop :=
  ∃ rest, rest ≠ [] ∧ key = lead ++ sep :: rest

theorem isSep_hexDigit :
    ∀ value < 16, Windows.isSep (hexDigit value) = false := by
  decide

theorem getLast?_mountId (first second : UInt64) :
    ∃ digit, (mountId first second).getLast? = some digit ∧
      Windows.isSep digit = false := by
  have nonempty : hex16 second ≠ [] := by
    simp [hex16]
  obtain ⟨digit, last⟩ : ∃ digit, (hex16 second).getLast? = some digit :=
    ⟨_, List.getLast?_eq_some_getLast nonempty⟩
  refine ⟨digit, ?_, ?_⟩
  · rw [mountId, List.getLast?_append, last, Option.some_or]
  · obtain ⟨place, -, rfl⟩ := List.mem_map.mp (List.mem_of_getLast? last)
    exact isSep_hexDigit _ (Nat.mod_lt _ (by decide))

/-! ## POSIX -/

section Posix

open Hookfs.Posix

theorem isAbsolute_reservedRoot (first second : UInt64) :
    isAbsolute (reservedRoot first second) = true := rfl

theorem parts_reservedRoot_ne_nil (first second : UInt64) :
    parts (reservedRoot first second) ≠ [] := by
  have whole : parts (reservedRoot first second) =
      reservedName :: components '/' (mountId first second) := by
    rw [parts, reservedRoot, components_sep_cons, components_append_sep,
      components_of_free (by decide) (by decide), List.singleton_append]
  rw [whole]
  exact List.cons_ne_nil _ _

theorem validateLogical_ok {name : Text}
    (valid : validateLogical name = .ok ()) :
    ∃ char rest, name = char :: rest ∧ char ≠ '/' := by
  cases name with
  | nil =>
      cases valid
  | cons char rest =>
      refine ⟨char, rest, rfl, ?_⟩
      rintro rfl
      unfold validateLogical at valid
      simp [isAbsolute] at valid
      split at valid
      · cases valid
      · cases valid

theorem join_strictlyBelow (first second : UInt64) {name : Text}
    (valid : validateLogical name = .ok ()) :
    StrictlyBelow '/' (normalizeKeyStr (reservedRoot first second))
      (normalizeKeyStr (join (reservedRoot first second) name)) := by
  have rootAbsolute := isAbsolute_reservedRoot first second
  obtain ⟨char, rest, rfl, different⟩ := validateLogical_ok valid
  have relative : isAbsolute (char :: rest) = false := by
    simpa [isAbsolute] using different
  have joined := parts_join (reservedRoot first second) relative
  have joinAbsolute : isAbsolute
      (join (reservedRoot first second) (char :: rest)) = true := by
    unfold join
    rw [if_neg (by rw [relative]; decide)]
    split
    · rfl
    · rfl
  rw [normalizeKeyStr_of_absolute rootAbsolute,
    normalizeKeyStr_of_absolute joinAbsolute, joined]
  apply (strictly_extends_iff (parts_reservedRoot_ne_nil first second)
    (clean_parts _) (joined ▸ clean_parts _)).mpr
  exact ⟨parts (char :: rest), components_cons_ne_nil different rest, rfl⟩

end Posix

end Hookfs.Mount

namespace Hookfs.Windows

open Hookfs.Lib
open Hookfs.Mount (StrictlyBelow mountId reservedName getLast?_mountId)

/-! ## Windows -/

/-- `reserved_root` on Windows. -/
def reservedRoot (first second : UInt64) : Text :=
  'C' :: ':' :: '\\' :: (reservedName ++ '\\' :: mountId first second)

/-- `validate_logical` on Windows. -/
def validateLogical (name : Text) : Except String Unit :=
  if name.isEmpty then .error "empty name"
  else if name.contains '\x00' then .error "embedded NUL"
  else if isAbsolute name || name.head? = some '\\' ||
      name.head? = some '/' then
    .error "must be a relative name"
  else if !isLexicallySafe name then
    .error "`..` escape or stream/device marker"
  else .ok ()

theorem isDriveAbsolute_reservedRoot (first second : UInt64) :
    isDriveAbsolute (reservedRoot first second) = true := rfl

theorem isAbsolute_of_drive {path : Text}
    (absolute : isDriveAbsolute path = true) : isAbsolute path = true := by
  obtain ⟨letter, sep, rest, rfl, alpha, separator⟩ :=
    exists_eq_drive absolute
  unfold isAbsolute
  split
  · rfl
  · rfl
  · rename_i same
    simp only [List.cons.injEq, true_and] at same
    obtain ⟨rfl, rfl, -⟩ := same
    rw [alpha, separator]
    rfl
  · rename_i outside
    exact absurd rfl (outside letter sep rest)

/-- An accepted name is not empty, does not start with a separator, and has
none behind a drive designator. -/
theorem validateLogical_ok {name : Text}
    (valid : validateLogical name = .ok ()) :
    ∃ char rest, name = char :: rest ∧ isSep char = false ∧
      isDriveAbsolute name = false := by
  unfold validateLogical at valid
  split at valid
  · cases valid
  · rename_i nonempty
    split at valid
    · cases valid
    · split at valid
      · cases valid
      · rename_i relative
        simp only [Bool.or_eq_true, decide_eq_true_eq, not_or] at relative
        cases name with
        | nil =>
            exact absurd rfl nonempty
        | cons char rest =>
            refine ⟨char, rest, rfl, ?_, ?_⟩
            · simp only [List.head?_cons, Option.some.injEq] at relative
              simp [isSep, relative]
            · rw [Bool.eq_false_iff]
              exact fun absolute => relative.1.1
                (isAbsolute_of_drive absolute)

/-- The prefix of a path that does not start with a separator. -/
theorem parsePrefix_of_plain {char : Char} (plain : isSep char = false)
    (rest : Text) :
    parsePrefix (char :: rest) =
      if hasDrive (char :: rest) then some ⟨.disk, 2⟩ else none := by
  have different : char ≠ '\\' := by
    rintro rfl
    revert plain
    decide
  cases rest with
  | nil =>
      unfold parsePrefix
      split
      · rename_i same
        injection same with same
        exact absurd same different
      · rename_i same
        cases same
      · rfl
  | cons second later =>
      unfold parsePrefix
      split
      · rename_i same
        injection same with same
        exact absurd same different
      · rename_i same
        injection same with first same
        subst first
        rw [plain, Bool.false_and, if_neg Bool.false_ne_true]
      · rename_i outside
        exact absurd rfl (outside char second later)

/-- Joining a name without a drive designator puts it below the root. -/
theorem join_reservedRoot_of_plain (first second : UInt64) {char : Char}
    (plain : isSep char = false) {rest : Text}
    (bare : hasDrive (char :: rest) = false) :
    join (reservedRoot first second) (char :: rest) =
      reservedRoot first second ++ '\\' :: char :: rest := by
  have noPrefix : parsePrefix (char :: rest) = none := by
    rw [parsePrefix_of_plain plain, bare, if_neg Bool.false_ne_true]
  have noRoot : hasRoot (char :: rest) = false := by
    simp [hasRoot, hasPhysicalRoot, hasImplicitRoot, prefixLength, noPrefix,
      plain]
  have rootPrefix : parsePrefix (reservedRoot first second) =
      some ⟨.disk, 2⟩ := parsePrefix_of_plain (by decide) _
  have verbatim : underVerbatim (reservedRoot first second) = false := by
    rw [underVerbatim, rootPrefix]
    rfl
  obtain ⟨digit, last, notSep⟩ := getLast?_mountId first second
  have rootLast : (reservedRoot first second).getLast? = some digit := by
    have split : reservedRoot first second =
        ('C' :: ':' :: '\\' :: (reservedName ++ ['\\'])) ++
          mountId first second := by
      simp [reservedRoot]
    rw [split, List.getLast?_append, last, Option.some_or]
  have long : (reservedRoot first second).length ≠ 2 := by
    simp [reservedRoot]
  unfold join
  rw [noPrefix, verbatim, noRoot, rootLast, rootPrefix]
  simp [hasPrefixAndRoot, noPrefix, notSep, Ne.symm long]

theorem join_of_drive {base name : Text} {char : Char} {rest : Text}
    (shape : name = char :: rest) (plain : isSep char = false)
    (driven : hasDrive name = true) : join base name = name := by
  subst shape
  unfold join
  rw [parsePrefix_of_plain plain, driven]
  simp

theorem dropTrailing_prefix (out : Text) : dropTrailing out <+: out := by
  unfold dropTrailing
  split
  · exact List.dropLast_prefix out
  · exact List.prefix_refl out

section Below

variable {cases : CaseMap} (proper : cases.Proper)
include proper

theorem components_fold_ne_nil {char : Char} (plain : isSep char = false)
    (rest : Text) : Lib.components '\\' (fold cases (char :: rest)) ≠ [] := by
  have free := proper.lower_free plain
  obtain ⟨first, others, lowered⟩ :=
    List.exists_cons_of_ne_nil (proper.nonempty char)
  rw [lowered] at free
  rw [fold_other plain, lowered, List.cons_append]
  exact components_cons_ne_nil (fun same => free (by simp [same])) _

theorem parts_reservedRoot_ne_nil (first second : UInt64) :
    parts cases (reservedRoot first second) ≠ [] := by
  have split : parts cases (reservedRoot first second) =
      Lib.components '\\'
        (fold cases (reservedName ++ '\\' :: mountId first second)) := by
    rw [parts, reservedRoot, List.drop_succ_cons, List.drop_succ_cons,
      List.drop_zero, fold_sep (by decide), components_sep_cons]
  rw [split]
  exact components_fold_ne_nil proper (by decide) _

theorem strictlyBelow_of_plain (first second : UInt64) {char : Char}
    (plain : isSep char = false) {rest : Text}
    (bare : hasDrive (char :: rest) = false) :
    StrictlyBelow '\\' (normalizeKeyStr cases (reservedRoot first second))
      (normalizeKeyStr cases
        (join (reservedRoot first second) (char :: rest))) := by
  have rootAbsolute := isDriveAbsolute_reservedRoot first second
  have joinAbsolute : isDriveAbsolute
      (reservedRoot first second ++ '\\' :: char :: rest) = true := rfl
  have joined : parts cases
      (reservedRoot first second ++ '\\' :: char :: rest) =
        parts cases (reservedRoot first second) ++
          Lib.components '\\' (fold cases (char :: rest)) := by
    have behind : (reservedRoot first second ++
        '\\' :: char :: rest).drop 2 =
          (reservedRoot first second).drop 2 ++ '\\' :: char :: rest := rfl
    rw [parts, behind, fold_append, fold_sep (by decide),
      components_append_sep]
    rfl
  have sameDrive : drive (reservedRoot first second ++
      '\\' :: char :: rest) = drive (reservedRoot first second) := rfl
  obtain ⟨tail, nonempty, extended⟩ := (strictly_extends_iff
    (parts_reservedRoot_ne_nil proper first second) (clean_parts cases _)
    (joined ▸ clean_parts cases _)).mpr
      ⟨_, components_fold_ne_nil proper plain rest, rfl⟩
  rw [join_reservedRoot_of_plain first second plain bare,
    normalizeKeyStr_of_drive proper rootAbsolute,
    normalizeKeyStr_of_drive proper joinAbsolute, joined, sameDrive]
  exact ⟨tail, nonempty, by rw [extended, List.append_assoc]⟩

/-- Behind a drive designator without a separator the key has none either. -/
theorem getElem?_key_of_drive {letter : Char} (alpha : letter.isAlpha = true)
    {rest : Text}
    (bare : isDriveAbsolute (letter :: ':' :: rest) = false) :
    (normalizeKeyStr cases (letter :: ':' :: rest))[2]? ≠ some '\\' := by
  intro third
  have letterOther := isSep_eq_false_of_isAlpha alpha
  have colonOther : isSep ':' = false := by decide
  have different : letter ≠ '\\' := by
    rintro rfl
    revert alpha
    decide
  have lowerLetter := cases.ascii letter (isAlpha_ascii alpha)
  have lowerColon := cases.ascii ':' (by decide)
  rw [normalizeKeyStr_of_plain cases different] at third
  obtain ⟨tail, whole⟩ := dropTrailing_prefix
    (collapse cases false (letter :: ':' :: rest))
  have outer : (collapse cases false (letter :: ':' :: rest))[2]? =
      some '\\' := by
    obtain ⟨short, _⟩ := List.getElem?_eq_some_iff.mp third
    rw [← whole, List.getElem?_append_left short, third]
  simp only [collapse, letterOther, colonOther, lowerLetter, lowerColon,
    Bool.false_eq_true, if_false, List.singleton_append,
    List.getElem?_cons_succ] at outer
  cases rest with
  | nil =>
      simp [collapse] at outer
  | cons char later =>
      have plain : isSep char = false := by
        simpa [isDriveAbsolute, alpha] using bare
      have free := proper.lower_free plain
      obtain ⟨low, others, lowered⟩ :=
        List.exists_cons_of_ne_nil (proper.nonempty char)
      simp only [collapse, plain, Bool.false_eq_true, if_false, lowered,
        List.cons_append, List.getElem?_cons_zero, Option.some.injEq]
        at outer
      exact free (by rw [lowered, outer]; exact List.mem_cons_self)

theorem not_strictlyBelow_of_drive (first second : UInt64) {name : Text}
    (driven : hasDrive name = true) (bare : isDriveAbsolute name = false) :
    ¬ StrictlyBelow '\\'
      (normalizeKeyStr cases (reservedRoot first second))
      (normalizeKeyStr cases name) := by
  rintro ⟨rest, -, below⟩
  have rootAbsolute := isDriveAbsolute_reservedRoot first second
  have third : (normalizeKeyStr cases name)[2]? = some '\\' := by
    have leads : ∃ later, drive (reservedRoot first second) ++
        render '\\' (parts cases (reservedRoot first second)) =
          'c' :: ':' :: '\\' :: later := by
      cases parts cases (reservedRoot first second) with
      | nil =>
          exact ⟨[], rfl⟩
      | cons part others =>
          exact ⟨part ++ body '\\' others, rfl⟩
    obtain ⟨later, shape⟩ := leads
    rw [below, normalizeKeyStr_of_drive proper rootAbsolute, shape]
    rfl
  unfold hasDrive at driven
  split at driven
  · exact getElem?_key_of_drive proper driven bare third
  · cases driven

/-- What an accepted name is joined to lies below the root exactly when the
name has no drive designator. -/
theorem join_strictlyBelow_iff (first second : UInt64) {name : Text}
    (valid : validateLogical name = .ok ()) :
    StrictlyBelow '\\' (normalizeKeyStr cases (reservedRoot first second))
        (normalizeKeyStr cases (join (reservedRoot first second) name)) ↔
      hasDrive name = false := by
  obtain ⟨char, rest, rfl, plain, bare⟩ := validateLogical_ok valid
  cases driven : hasDrive (char :: rest) with
  | true =>
      rw [join_of_drive rfl plain driven]
      simp only [reduceCtorEq, iff_false]
      exact not_strictlyBelow_of_drive proper first second driven bare
  | false =>
      simp only [iff_true]
      exact strictlyBelow_of_plain proper first second plain driven

end Below

end Hookfs.Windows

namespace Hookfs.Mount

open Hookfs.Lib

/-- Accepted names stay strictly below the reserved root: on POSIX all of
them, on Windows exactly those without a drive designator. -/
theorem joined_name_below_root_iff (cases : Windows.CaseMap)
    (proper : cases.Proper) (first second : UInt64) (name : Text) :
    (validateLogical name = .ok () →
        StrictlyBelow '/' (Posix.normalizeKeyStr (reservedRoot first second))
          (Posix.normalizeKeyStr
            (Posix.join (reservedRoot first second) name))) ∧
      (Windows.validateLogical name = .ok () →
        (StrictlyBelow '\\'
            (Windows.normalizeKeyStr cases
              (Windows.reservedRoot first second))
            (Windows.normalizeKeyStr cases
              (Windows.join (Windows.reservedRoot first second) name)) ↔
          Windows.hasDrive name = false)) :=
  ⟨join_strictlyBelow first second,
    Windows.join_strictlyBelow_iff proper first second⟩

/-- A plain name, on both systems. -/
theorem joined_name_below_root_iff_plain :
    StrictlyBelow '/' (Posix.normalizeKeyStr (reservedRoot 1 2))
        (Posix.normalizeKeyStr
          (Posix.join (reservedRoot 1 2) "clip".toList)) ∧
      StrictlyBelow '\\'
        (Windows.normalizeKeyStr .asciiOnly (Windows.reservedRoot 1 2))
        (Windows.normalizeKeyStr .asciiOnly
          (Windows.join (Windows.reservedRoot 1 2) "clip".toList)) := by
  have whole := joined_name_below_root_iff .asciiOnly
    Windows.CaseMap.asciiOnly_proper 1 2 "clip".toList
  exact ⟨whole.1 (by decide), (whole.2 (by decide)).mpr (by decide)⟩

/-- The name `D:` replaces the root. -/
theorem drive_name_leaves_root :
    ¬ ∀ (cases : Windows.CaseMap) (first second : UInt64) (name : Text),
      cases.Proper → Windows.validateLogical name = .ok () →
        StrictlyBelow '\\'
          (Windows.normalizeKeyStr cases (Windows.reservedRoot first second))
          (Windows.normalizeKeyStr cases
            (Windows.join (Windows.reservedRoot first second) name)) := by
  intro always
  obtain ⟨rest, -, below⟩ := always .asciiOnly 1 2 "D:".toList
    Windows.CaseMap.asciiOnly_proper (by decide)
  have short : (Windows.normalizeKeyStr .asciiOnly
      (Windows.join (Windows.reservedRoot 1 2) "D:".toList)).length = 2 := by
    decide
  have long : 3 ≤ (Windows.normalizeKeyStr .asciiOnly
      (Windows.reservedRoot 1 2)).length := by
    decide
  rw [below, List.length_append] at short
  omega

end Hookfs.Mount
