import Hookfs.Path.Canonical
import Hookfs.Path.Decode
import Mathlib.Data.List.Forall2

/-!
# Names as bytes

POSIX names are byte strings, and their keys are text.  The lossy decoding
gives every well-formed sequence its own character and every ill-formed one
U+FFFD, so two names have one key exactly when they differ in nothing but
sequences that are read as U+FFFD.
-/

namespace Hookfs.Posix

open Hookfs.Lib

/-! ## Well-formed sequences -/

/-- A byte that continues a sequence. -/
def IsTail (byte : UInt8) : Prop :=
  0x80 ≤ byte.toNat ∧ byte.toNat ≤ 0xBF

/-- A well-formed sequence and its code point. -/
inductive Spells : List UInt8 → Nat → Prop where
  | one {first : UInt8} (ascii : first.toNat < 0x80) :
      Spells [first] first.toNat
  | two {first second : UInt8}
      (lead : 0xC2 ≤ first.toNat ∧ first.toNat ≤ 0xDF)
      (tail : IsTail second) :
      Spells [first, second] (first.toNat % 32 * 64 + payload second)
  | three {first second third : UInt8}
      (lead : 0xE0 ≤ first.toNat ∧ first.toNat ≤ 0xEF)
      (tail : IsTail second ∧ IsTail third)
      (long : first.toNat = 0xE0 → 0xA0 ≤ second.toNat)
      (noSurrogate : first.toNat = 0xED → second.toNat ≤ 0x9F) :
      Spells [first, second, third] (first.toNat % 16 * 4096 +
        payload second * 64 + payload third)
  | four {first second third fourth : UInt8}
      (lead : 0xF0 ≤ first.toNat ∧ first.toNat ≤ 0xF4)
      (tail : IsTail second ∧ IsTail third ∧ IsTail fourth)
      (long : first.toNat = 0xF0 → 0x90 ≤ second.toNat)
      (inRange : first.toNat = 0xF4 → second.toNat ≤ 0x8F) :
      Spells [first, second, third, fourth] (first.toNat % 8 * 262144 +
        payload second * 4096 + payload third * 64 + payload fourth)

theorem Spells.isValidChar {bytes : List UInt8} {code : Nat}
    (spells : Spells bytes code) : code.isValidChar := by
  cases spells with
  | one ascii =>
      exact Or.inl (by omega)
  | two lead tail =>
      unfold payload
      exact Or.inl (by omega)
  | three lead tail long noSurrogate =>
      obtain ⟨⟨second, secondTop⟩, third, thirdTop⟩ := tail
      unfold payload Nat.isValidChar
      omega
  | four lead tail long inRange =>
      obtain ⟨⟨second, secondTop⟩, third, fourth⟩ := tail
      unfold payload Nat.isValidChar
      omega

/-- The code points of sequences of different lengths are apart. -/
theorem Spells.range {bytes : List UInt8} {code : Nat}
    (spells : Spells bytes code) :
    (bytes.length = 1 ∧ code < 0x80) ∨
      (bytes.length = 2 ∧ 0x80 ≤ code ∧ code < 0x800) ∨
      (bytes.length = 3 ∧ 0x800 ≤ code ∧ code < 0x10000) ∨
      (bytes.length = 4 ∧ 0x10000 ≤ code) := by
  cases spells with
  | one ascii =>
      exact Or.inl ⟨rfl, ascii⟩
  | two lead tail =>
      unfold payload
      exact Or.inr (Or.inl ⟨rfl, by omega, by omega⟩)
  | three lead tail long _ =>
      obtain ⟨⟨second, secondTop⟩, third, thirdTop⟩ := tail
      unfold payload
      exact Or.inr (Or.inr (Or.inl ⟨rfl, by omega, by omega⟩))
  | four lead tail long _ =>
      obtain ⟨⟨second, secondTop⟩, third, fourth⟩ := tail
      unfold payload
      exact Or.inr (Or.inr (Or.inr ⟨rfl, by omega⟩))

/-- A code point has one well-formed sequence. -/
theorem Spells.unique {left right : List UInt8} {code other : Nat}
    (leftSpells : Spells left code) (rightSpells : Spells right other)
    (same : code = other) : left = right := by
  have leftRange := leftSpells.range
  have rightRange := rightSpells.range
  have byte : ∀ {first second : UInt8}, first.toNat = second.toNat →
      first = second := fun equal => UInt8.toNat_inj.mp equal
  cases leftSpells with
  | @one a ascii =>
      cases rightSpells with
      | @one a' otherAscii =>
          rw [byte same]
      | _ =>
          simp only [List.length_cons, List.length_nil] at *
          omega
  | @two a b lead tail =>
      cases rightSpells with
      | @two a' b' otherLead otherTail =>
          unfold IsTail payload at *
          have first : a = a' := byte (by omega)
          have second : b = b' := byte (by omega)
          rw [first, second]
      | _ =>
          simp only [List.length_cons, List.length_nil] at *
          omega
  | @three a b c lead tail long _ =>
      cases rightSpells with
      | @three a' b' c' otherLead otherTail otherLong _ =>
          unfold IsTail payload at *
          have first : a = a' := byte (by omega)
          have second : b = b' := byte (by omega)
          have third : c = c' := byte (by omega)
          rw [first, second, third]
      | _ =>
          simp only [List.length_cons, List.length_nil] at *
          omega
  | @four a b c d lead tail long _ =>
      cases rightSpells with
      | @four a' b' c' d' otherLead otherTail otherLong _ =>
          unfold IsTail payload at *
          have first : a = a' := byte (by omega)
          have second : b = b' := byte (by omega)
          have third : c = c' := byte (by omega)
          have fourth : d = d' := byte (by omega)
          rw [first, second, third, fourth]
      | _ =>
          simp only [List.length_cons, List.length_nil] at *
          omega

theorem toNat_ofNat_of_valid {code : Nat} (valid : code.isValidChar) :
    (Char.ofNat code).toNat = code := by
  unfold Char.ofNat
  rw [dif_pos valid]
  rfl

/-! ## The first sequence -/

theorem isContinuation_iff {byte : UInt8} :
    isContinuation byte = true ↔ IsTail byte := by
  unfold isContinuation IsTail
  rw [Bool.and_eq_true, decide_eq_true_eq, decide_eq_true_eq,
    UInt8.le_iff_toNat_le, UInt8.le_iff_toNat_le]
  rfl

theorem threeByteSecond_iff {first second : UInt8} :
    threeByteSecond first second = true ↔
      IsTail second ∧ (first.toNat = 0xE0 → 0xA0 ≤ second.toNat) ∧
        (first.toNat = 0xED → second.toNat ≤ 0x9F) := by
  have byte : ∀ {other : UInt8}, first = other ↔ first.toNat = other.toNat :=
    UInt8.toNat_inj.symm
  unfold threeByteSecond isContinuation IsTail
  simp only [byte, UInt8.le_iff_toNat_le, UInt8.reduceToNat]
  split
  · simp only [Bool.and_eq_true, decide_eq_true_eq]
    omega
  · split
    · simp only [Bool.and_eq_true, decide_eq_true_eq]
      omega
    · simp only [Bool.and_eq_true, decide_eq_true_eq]
      omega

theorem fourByteSecond_iff {first second : UInt8} :
    fourByteSecond first second = true ↔
      IsTail second ∧ (first.toNat = 0xF0 → 0x90 ≤ second.toNat) ∧
        (first.toNat = 0xF4 → second.toNat ≤ 0x8F) := by
  have byte : ∀ {other : UInt8}, first = other ↔ first.toNat = other.toNat :=
    UInt8.toNat_inj.symm
  unfold fourByteSecond isContinuation IsTail
  simp only [byte, UInt8.le_iff_toNat_le, UInt8.reduceToNat]
  split
  · simp only [Bool.and_eq_true, decide_eq_true_eq]
    omega
  · split
    · simp only [Bool.and_eq_true, decide_eq_true_eq]
      omega
    · simp only [Bool.and_eq_true, decide_eq_true_eq]
      omega

theorem not_isTail_zero : ¬ IsTail 0 := by
  unfold IsTail
  decide

/-- A tail byte is one of the bytes that are there. -/
theorem exists_cons_of_isTail {rest : List UInt8}
    (tail : IsTail (rest.getD 0 0)) : ∃ head later, rest = head :: later := by
  cases rest with
  | nil =>
      exact absurd tail not_isTail_zero
  | cons head later =>
      exact ⟨head, later, rfl⟩

/-- What `firstChar` takes: U+FFFD for an ill-formed sequence, or the
character of a well-formed one. -/
def Takes (first : UInt8) (rest : List UInt8) (read : Char × Nat) : Prop :=
  1 ≤ read.2 ∧ read.2 ≤ rest.length + 1 ∧
    (read.1 = '\uFFFD' ∨
      ∃ code, Spells ((first :: rest).take read.2) code ∧
        read.1 = Char.ofNat code)

theorem takes_of_spells {first : UInt8} {rest bytes : List UInt8}
    {code : Nat} (spells : Spells (first :: bytes) code)
    (lead : bytes <+: rest) :
    Takes first rest (Char.ofNat code, bytes.length + 1) := by
  obtain ⟨more, rfl⟩ := lead
  refine ⟨by omega, by rw [List.length_append]; omega, Or.inr ⟨code, ?_, rfl⟩⟩
  rw [List.take_succ_cons, List.take_left]
  exact spells

theorem takes_replacement {first : UInt8} {rest : List UInt8} {taken : Nat}
    (positive : 1 ≤ taken) (inside : taken ≤ rest.length + 1) :
    Takes first rest ('\uFFFD', taken) :=
  ⟨positive, inside, Or.inl rfl⟩

theorem takes_firstChar (first : UInt8) (rest : List UInt8) :
    Takes first rest (firstChar first rest) := by
  unfold firstChar
  simp only [Bool.and_eq_true, decide_eq_true_eq, UInt8.le_iff_toNat_le,
    UInt8.lt_iff_toNat_lt, UInt8.reduceToNat]
  split
  · rename_i ascii
    exact takes_of_spells (.one ascii) List.nil_prefix
  · split
    · rename_i lead
      split
      · rename_i continues
        have second := isContinuation_iff.mp continues
        obtain ⟨b, later, rfl⟩ := exists_cons_of_isTail second
        exact takes_of_spells (.two lead second) ⟨later, rfl⟩
      · exact takes_replacement (Nat.le_refl 1) (by omega)
    · split
      · rename_i lead
        split
        · rename_i continues
          have second := threeByteSecond_iff.mp continues
          obtain ⟨b, more, rfl⟩ := exists_cons_of_isTail second.1
          split
          · rename_i goesOn
            have third := isContinuation_iff.mp goesOn
            obtain ⟨c, later, rfl⟩ := @exists_cons_of_isTail more third
            exact takes_of_spells
              (.three lead ⟨second.1, third⟩ second.2.1 second.2.2)
              ⟨later, rfl⟩
          · exact takes_replacement (by omega) (by simp)
        · exact takes_replacement (Nat.le_refl 1) (by omega)
      · split
        · rename_i lead
          split
          · rename_i continues
            have second := fourByteSecond_iff.mp continues
            obtain ⟨b, more, rfl⟩ := exists_cons_of_isTail second.1
            split
            · rename_i goesOn
              have third := isContinuation_iff.mp goesOn
              obtain ⟨c, others, rfl⟩ := @exists_cons_of_isTail more third
              split
              · rename_i last
                have fourth := isContinuation_iff.mp last
                obtain ⟨d, later, rfl⟩ := @exists_cons_of_isTail others fourth
                exact takes_of_spells
                  (.four lead ⟨second.1, third, fourth⟩ second.2.1 second.2.2)
                  ⟨later, rfl⟩
              · exact takes_replacement (by omega) (by simp)
            · exact takes_replacement (by omega) (by simp)
          · exact takes_replacement (Nat.le_refl 1) (by omega)
        · exact takes_replacement (Nat.le_refl 1) (by omega)

/-- A separator behind the bytes changes nothing before it. -/
theorem firstChar_append (first : UInt8) (rest more : List UInt8) :
    firstChar first (rest ++ 0x2F :: more) = firstChar first rest := by
  have notTail : ¬ IsTail 0x2F := by
    unfold IsTail
    decide
  have bare : isContinuation 0x2F = false ∧ isContinuation 0 = false := by
    decide
  have three : threeByteSecond first 0x2F = false ∧
      threeByteSecond first 0 = false := by
    rw [Bool.eq_false_iff, Bool.eq_false_iff, Ne, Ne, threeByteSecond_iff,
      threeByteSecond_iff]
    exact ⟨fun given => notTail given.1, fun given => not_isTail_zero given.1⟩
  have four : fourByteSecond first 0x2F = false ∧
      fourByteSecond first 0 = false := by
    rw [Bool.eq_false_iff, Bool.eq_false_iff, Ne, Ne, fourByteSecond_iff,
      fourByteSecond_iff]
    exact ⟨fun given => notTail given.1, fun given => not_isTail_zero given.1⟩
  match rest with
  | [] =>
      simp [firstChar, bare, three, four]
  | [b] =>
      simp [firstChar, bare]
  | [b, c] =>
      simp [firstChar, bare]
  | b :: c :: d :: later =>
      rfl

/-! ## The whole decoding -/

theorem lossyLoop_cons (rounds : Nat) (first : UInt8) (rest : List UInt8) :
    lossyLoop (rounds + 1) (first :: rest) =
      (firstChar first rest).1 ::
        lossyLoop rounds (rest.drop ((firstChar first rest).2 - 1)) := rfl

/-- As many rounds as bytes are enough. -/
theorem lossyLoop_eq {rounds : Nat} {bytes : List UInt8}
    (enough : bytes.length ≤ rounds) :
    lossyLoop rounds bytes = fromUtf8Lossy bytes := by
  unfold fromUtf8Lossy
  induction rounds using Nat.strongRecOn generalizing bytes with
  | ind rounds inductionHypothesis =>
      cases bytes with
      | nil =>
          cases rounds with
          | zero =>
              rfl
          | succ less =>
              rfl
      | cons first rest =>
          cases rounds with
          | zero =>
              cases enough
          | succ less =>
              rw [List.length_cons] at enough ⊢
              have short : (rest.drop ((firstChar first rest).2 - 1)).length ≤
                  rest.length := by
                rw [List.length_drop]
                omega
              rw [lossyLoop_cons, lossyLoop_cons,
                inductionHypothesis less (by omega) (by omega)]
              congr 1
              by_cases same : rest.length = less
              · rw [same, inductionHypothesis less (by omega) (by omega)]
              · rw [inductionHypothesis rest.length (by omega) short]

theorem fromUtf8Lossy_cons (first : UInt8) (rest : List UInt8) :
    fromUtf8Lossy (first :: rest) =
      (firstChar first rest).1 ::
        fromUtf8Lossy (rest.drop ((firstChar first rest).2 - 1)) := by
  rw [fromUtf8Lossy, List.length_cons, lossyLoop_cons, lossyLoop_eq]
  rw [List.length_drop]
  omega

/-- Names are decoded one by one. -/
theorem fromUtf8Lossy_append (more : List UInt8) (bytes : List UInt8) :
    fromUtf8Lossy (bytes ++ 0x2F :: more) =
      fromUtf8Lossy bytes ++ '/' :: fromUtf8Lossy more := by
  induction count : bytes.length using Nat.strongRecOn generalizing bytes with
  | ind count inductionHypothesis =>
      cases bytes with
      | nil =>
          rw [List.nil_append, fromUtf8Lossy_cons]
          rfl
      | cons first rest =>
          have inside := (takes_firstChar first rest).2.1
          rw [List.length_cons] at count
          rw [List.cons_append, fromUtf8Lossy_cons, firstChar_append,
            List.drop_append_of_le_length (by omega),
            inductionHypothesis _ (by rw [List.length_drop]; omega) _ rfl,
            ← List.cons_append, ← fromUtf8Lossy_cons]

/-- Only the separator is decoded as the separator. -/
theorem sep_not_mem_fromUtf8Lossy {bytes : List UInt8}
    (free : 0x2F ∉ bytes) : '/' ∉ fromUtf8Lossy bytes := by
  induction count : bytes.length using Nat.strongRecOn generalizing bytes with
  | ind count inductionHypothesis =>
      cases bytes with
      | nil =>
          exact List.not_mem_nil
      | cons first rest =>
          rw [List.mem_cons, not_or] at free
          rw [List.length_cons] at count
          rw [fromUtf8Lossy_cons, List.mem_cons, not_or]
          constructor
          · intro same
            rcases (takes_firstChar first rest).2.2 with replaced | spelled
            · rw [replaced] at same
              exact absurd same (by decide)
            · obtain ⟨code, spells, charEq⟩ := spelled
              have codeEq : code = 0x2F := by
                rw [← toNat_ofNat_of_valid spells.isValidChar, ← charEq, ← same]
                rfl
              have slash : Spells [0x2F] 0x2F := .one (by decide)
              have shape := spells.unique slash codeEq
              have positive := (takes_firstChar first rest).1
              obtain ⟨less, lessEq⟩ :=
                Nat.exists_eq_add_of_le' positive
              rw [lessEq, List.take_succ_cons, List.cons.injEq] at shape
              exact free.1 shape.1.symm
          · apply inductionHypothesis _ _ _ rfl
            · rw [List.length_drop]
              omega
            · exact fun member => free.2 (List.mem_of_mem_drop member)

/-- The names of a path, as bytes. -/
abbrev byteParts (bytes : List UInt8) : List (List UInt8) :=
  components 0x2F bytes

/-- The components of the decoded path are the decoded names. -/
theorem parts_fromUtf8Lossy (bytes : List UInt8) :
    parts (fromUtf8Lossy bytes) = (byteParts bytes).map fromUtf8Lossy := by
  induction count : bytes.length using Nat.strongRecOn generalizing bytes with
  | ind count inductionHypothesis =>
      by_cases member : 0x2F ∈ bytes
      · obtain ⟨front, more, rfl, free⟩ := List.eq_append_cons_of_mem member
        rw [List.length_append, List.length_cons] at count
        rw [fromUtf8Lossy_append, parts, components_append_sep, byteParts,
          components_append_sep, List.map_append,
          ← inductionHypothesis front.length (by omega) front rfl,
          ← inductionHypothesis more.length (by omega) more rfl]
      · cases bytes with
        | nil =>
            rfl
        | cons first rest =>
            have nonempty : fromUtf8Lossy (first :: rest) ≠ [] := by
              rw [fromUtf8Lossy_cons]
              exact List.cons_ne_nil _ _
            rw [parts, components_of_free nonempty
                (sep_not_mem_fromUtf8Lossy member), byteParts,
              components_of_free (List.cons_ne_nil first rest) member]
            rfl

/-! ## Names that are decoded alike -/

/-- The sequences that a decoding takes, each with its character. -/
def lossyPieces : Nat → List UInt8 → List (Char × List UInt8)
  | 0, _ => []
  | _, [] => []
  | rounds + 1, first :: rest =>
      let (char, taken) := firstChar first rest
      (char, (first :: rest).take taken) ::
        lossyPieces rounds (rest.drop (taken - 1))

/-- The two sequences are the same, or both are read as U+FFFD. -/
def AlikePiece (left right : Char × List UInt8) : Prop :=
  left = right ∨ (left.1 = '\uFFFD' ∧ right.1 = '\uFFFD')

/-- Sequence by sequence, two names differ only where both are read as
U+FFFD. -/
def Alike (left right : List UInt8) : Prop :=
  List.Forall₂ AlikePiece (lossyPieces left.length left)
    (lossyPieces right.length right)

/-- A character and the bytes it is decoded from. -/
def Decodes (piece : Char × List UInt8) : Prop :=
  piece.1 = '\uFFFD' ∨
    ∃ code, Spells piece.2 code ∧ piece.1 = Char.ofNat code

theorem map_fst_lossyPieces : ∀ (rounds : Nat) (bytes : List UInt8),
    (lossyPieces rounds bytes).map Prod.fst = lossyLoop rounds bytes
  | 0, _ => rfl
  | _ + 1, [] => rfl
  | rounds + 1, first :: rest => by
      rw [lossyLoop_cons, lossyPieces, List.map_cons, map_fst_lossyPieces]

theorem decodes_of_mem_lossyPieces {piece : Char × List UInt8} :
    ∀ (rounds : Nat) (bytes : List UInt8),
      piece ∈ lossyPieces rounds bytes → Decodes piece
  | 0, _, member => nomatch member
  | _ + 1, [], member => nomatch member
  | rounds + 1, first :: rest, member => by
      rw [lossyPieces] at member
      rcases List.mem_cons.mp member with here | later
      · rw [here]
        exact (takes_firstChar first rest).2.2
      · exact decodes_of_mem_lossyPieces rounds _ later

theorem alikePiece_iff {left right : Char × List UInt8}
    (leftDecodes : Decodes left) (rightDecodes : Decodes right) :
    AlikePiece left right ↔ left.1 = right.1 := by
  constructor
  · intro alike
    rcases alike with same | replaced
    · rw [same]
    · rw [replaced.1, replaced.2]
  · intro same
    by_cases replaced : left.1 = '\uFFFD'
    · exact Or.inr ⟨replaced, same ▸ replaced⟩
    · obtain ⟨code, spells, charEq⟩ := leftDecodes.resolve_left replaced
      rw [same] at replaced
      obtain ⟨other, otherSpells, otherEq⟩ :=
        rightDecodes.resolve_left replaced
      have codes : code = other := by
        rw [← toNat_ofNat_of_valid spells.isValidChar, ← charEq, same,
          otherEq, toNat_ofNat_of_valid otherSpells.isValidChar]
      exact Or.inl (Prod.ext same (spells.unique otherSpells codes))

/-- Names that are decoded alike have one decoding, and no others do. -/
theorem fromUtf8Lossy_eq_iff {left right : List UInt8} :
    fromUtf8Lossy left = fromUtf8Lossy right ↔ Alike left right := by
  have pieceByPiece : ∀ {first second : List (Char × List UInt8)},
      (∀ piece ∈ first, Decodes piece) → (∀ piece ∈ second, Decodes piece) →
        (first.map Prod.fst = second.map Prod.fst ↔
          List.Forall₂ AlikePiece first second) := by
    intro first
    induction first with
    | nil =>
        intro second _ _
        cases second with
        | nil =>
            exact ⟨fun _ => .nil, fun _ => rfl⟩
        | cons piece rest =>
            exact ⟨nofun, nofun⟩
    | cons piece rest inductionHypothesis =>
        intro second firstDecodes secondDecodes
        cases second with
        | nil =>
            exact ⟨nofun, nofun⟩
        | cons other others =>
            rw [List.forall_mem_cons] at firstDecodes secondDecodes
            rw [List.map_cons, List.map_cons, List.cons.injEq,
              List.forall₂_cons,
              alikePiece_iff firstDecodes.1 secondDecodes.1,
              inductionHypothesis firstDecodes.2 secondDecodes.2]
  unfold fromUtf8Lossy Alike
  rw [← map_fst_lossyPieces, ← map_fst_lossyPieces]
  exact pieceByPiece (fun _ => decodes_of_mem_lossyPieces _ _)
    fun _ => decodes_of_mem_lossyPieces _ _

/-! ## Keys of byte names -/

/-- The key of a C string: `decode_cstr` and `normalize_key`. -/
def cstrKey (bytes : List UInt8) : Option Text :=
  (decodeCstr (some bytes)).map normalizeKeyStr

/-- An absolute path as the shims get it. -/
structure IsCPath (bytes : List UInt8) : Prop where
  absolute : bytes.head? = some 0x2F
  free : 0 ∉ bytes
  short : bytes.length < 0x8000

theorem IsCPath.isAbsolute {bytes : List UInt8} (path : IsCPath bytes) :
    isAbsolute (fromUtf8Lossy bytes) = true := by
  cases bytes with
  | nil =>
      cases path.absolute
  | cons first rest =>
      have slash : first = 0x2F := Option.some.inj path.absolute
      rw [slash, fromUtf8Lossy_cons]
      rfl

theorem cstrKey_eq_iff {left right : List UInt8} (leftPath : IsCPath left)
    (rightPath : IsCPath right) :
    cstrKey left = cstrKey right ↔
      List.Forall₂ Alike (byteParts left) (byteParts right) := by
  unfold cstrKey
  rw [decodeCstr_eq leftPath.free leftPath.short,
    decodeCstr_eq rightPath.free rightPath.short, Option.map_some,
    Option.map_some, Option.some.injEq, normalizeKeyStr_eq_iff,
    leftPath.isAbsolute, rightPath.isAbsolute, parts_fromUtf8Lossy,
    parts_fromUtf8Lossy, eq_self, true_and, ← List.forall₂_eq_eq_eq,
    List.forall₂_map_left_iff, List.forall₂_map_right_iff]
  simp only [fromUtf8Lossy_eq_iff]

/-- The paths name different files, and differ only in what is read as
U+FFFD. -/
def DifferOnlyInReplaced (left right : List UInt8) : Prop :=
  byteParts left ≠ byteParts right ∧
    List.Forall₂ Alike (byteParts left) (byteParts right)

end Hookfs.Posix
