import Hookfs.Path.Bytes

/-!
# Decoding what was encoded

`from_utf8_lossy` returns the text whose UTF-8 encoding it is given.
-/

namespace Hookfs.Posix

open Hookfs.Lib

/-- The first sequence, if the bytes begin with a well-formed one. -/
theorem firstChar_of_spells {first : UInt8} {tail more : List UInt8}
    {code : Nat} (spells : Spells (first :: tail) code) :
    firstChar first (tail ++ more) = (Char.ofNat code, tail.length + 1) := by
  unfold firstChar
  simp only [Bool.and_eq_true, decide_eq_true_eq, UInt8.le_iff_toNat_le,
    UInt8.lt_iff_toNat_lt, UInt8.reduceToNat]
  cases spells with
  | one ascii =>
      rw [if_pos ascii]
      rfl
  | two lead next =>
      have second := isContinuation_iff.mpr next
      rw [if_neg (by omega), if_pos lead]
      exact if_pos second
  | @three _ b c lead next long noSurrogate =>
      have second : threeByteSecond first b = true :=
        threeByteSecond_iff.mpr ⟨next.1, long, noSurrogate⟩
      have third := isContinuation_iff.mpr next.2
      rw [if_neg (by omega), if_neg (by omega), if_pos lead]
      exact (if_pos second).trans (if_pos third)
  | @four _ b c d lead next long inRange =>
      have second : fourByteSecond first b = true :=
        fourByteSecond_iff.mpr ⟨next.1, long, inRange⟩
      have third := isContinuation_iff.mpr next.2.1
      have fourth := isContinuation_iff.mpr next.2.2
      rw [if_neg (by omega), if_neg (by omega), if_neg (by omega),
        if_pos lead]
      exact (if_pos second).trans ((if_pos third).trans (if_pos fourth))

theorem toNat_ofNat_of_lt {code : Nat} (small : code < 256) :
    (UInt8.ofNat code).toNat = code := by
  rw [UInt8.toNat_ofNat', Nat.mod_eq_of_lt small]

theorem isTail_ofNat {code : Nat} :
    IsTail (UInt8.ofNat (code % 64 + 0x80)) := by
  have byte := @toNat_ofNat_of_lt (code % 64 + 0x80) (by omega)
  unfold IsTail
  omega

theorem payload_ofNat {code : Nat} :
    payload (UInt8.ofNat (code % 64 + 0x80)) = code % 64 := by
  have byte := @toNat_ofNat_of_lt (code % 64 + 0x80) (by omega)
  unfold payload
  omega

theorem spells_two {code : Nat} (long : 0x80 ≤ code) (short : code < 0x800) :
    Spells [UInt8.ofNat (code / 64 % 32 + 0xc0),
      UInt8.ofNat (code % 64 + 0x80)] code := by
  have lead := @toNat_ofNat_of_lt (code / 64 % 32 + 0xc0) (by omega)
  have spells := @Spells.two (UInt8.ofNat (code / 64 % 32 + 0xc0)) _
    (by omega) (@isTail_ofNat code)
  have same : (code / 64 % 32 + 0xc0) % 32 * 64 + code % 64 = code := by
    omega
  rw [lead, payload_ofNat, same] at spells
  exact spells

theorem spells_three {code : Nat} (long : 0x800 ≤ code)
    (short : code < 0x10000) (valid : code.isValidChar) :
    Spells [UInt8.ofNat (code / 4096 % 16 + 0xe0),
      UInt8.ofNat (code / 64 % 64 + 0x80),
      UInt8.ofNat (code % 64 + 0x80)] code := by
  have lead := @toNat_ofNat_of_lt (code / 4096 % 16 + 0xe0) (by omega)
  have second := @toNat_ofNat_of_lt (code / 64 % 64 + 0x80) (by omega)
  unfold Nat.isValidChar at valid
  have spells := @Spells.three (UInt8.ofNat (code / 4096 % 16 + 0xe0)) _ _
    (by omega) ⟨@isTail_ofNat (code / 64), @isTail_ofNat code⟩
    (by omega) (by omega)
  have same : (code / 4096 % 16 + 0xe0) % 16 * 4096 + code / 64 % 64 * 64 +
      code % 64 = code := by
    omega
  rw [lead, payload_ofNat, payload_ofNat, same] at spells
  exact spells

theorem spells_four {code : Nat} (long : 0x10000 ≤ code)
    (valid : code.isValidChar) :
    Spells [UInt8.ofNat (code / 262144 % 8 + 0xf0),
      UInt8.ofNat (code / 4096 % 64 + 0x80),
      UInt8.ofNat (code / 64 % 64 + 0x80),
      UInt8.ofNat (code % 64 + 0x80)] code := by
  have lead := @toNat_ofNat_of_lt (code / 262144 % 8 + 0xf0) (by omega)
  have second := @toNat_ofNat_of_lt (code / 4096 % 64 + 0x80) (by omega)
  unfold Nat.isValidChar at valid
  have spells := @Spells.four (UInt8.ofNat (code / 262144 % 8 + 0xf0)) _ _ _
    (by omega)
    ⟨@isTail_ofNat (code / 4096), @isTail_ofNat (code / 64),
      @isTail_ofNat code⟩ (by omega) (by omega)
  have same : (code / 262144 % 8 + 0xf0) % 8 * 262144 +
      code / 4096 % 64 * 4096 + code / 64 % 64 * 64 + code % 64 = code := by
    omega
  rw [lead, payload_ofNat, payload_ofNat, payload_ofNat, same] at spells
  exact spells

/-- The encoding of a character spells its code point. -/
theorem spells_utf8EncodeChar (char : Char) :
    Spells (String.utf8EncodeChar char) char.toNat := by
  have valid : char.toNat.isValidChar := char.valid
  have value : char.val.toNat = char.toNat := rfl
  unfold String.utf8EncodeChar
  rw [value]
  generalize char.toNat = code at valid
  simp only
  split
  · rename_i ascii
    have byte := @toNat_ofNat_of_lt code (by omega)
    have spells := @Spells.one (UInt8.ofNat code) (by omega)
    rw [byte] at spells
    exact spells
  · split
    · exact spells_two (by omega) (by omega)
    · split
      · exact spells_three (by omega) (by omega) valid
      · exact spells_four (by omega) valid

theorem fromUtf8Lossy_utf8 (text : Text) :
    fromUtf8Lossy (Text.utf8 text) = text := by
  induction text with
  | nil =>
      rfl
  | cons char rest inductionHypothesis =>
      have spells := spells_utf8EncodeChar char
      have encoded : Text.utf8 (char :: rest) =
          String.utf8EncodeChar char ++ Text.utf8 rest := rfl
      rw [encoded]
      cases bytes : String.utf8EncodeChar char with
      | nil =>
          exact absurd bytes String.utf8EncodeChar_ne_nil
      | cons first tail =>
          rw [bytes] at spells
          have code : Char.ofNat char.toNat = char := Char.ofNat_toNat char
          rw [List.cons_append, fromUtf8Lossy_cons,
            firstChar_of_spells spells, code, Nat.add_sub_cancel,
            List.drop_left, inductionHypothesis]

/-- Only the code point zero has a zero byte. -/
theorem Spells.zero_not_mem {bytes : List UInt8} {code : Nat}
    (spells : Spells bytes code) (present : code ≠ 0) : 0 ∉ bytes := by
  have high : ∀ {byte : UInt8}, 0 < byte.toNat → 0 ≠ byte := by
    intro byte positive same
    rw [← same] at positive
    cases positive
  cases spells with
  | one ascii =>
      simp only [List.mem_singleton]
      exact high (Nat.pos_of_ne_zero present)
  | two lead tail =>
      unfold IsTail at tail
      simp only [List.mem_cons, List.not_mem_nil, or_false, not_or]
      exact ⟨high (by omega), high (by omega)⟩
  | three lead tail long noSurrogate =>
      unfold IsTail at tail
      simp only [List.mem_cons, List.not_mem_nil, or_false, not_or]
      exact ⟨high (by omega), high (by omega), high (by omega)⟩
  | four lead tail long inRange =>
      unfold IsTail at tail
      simp only [List.mem_cons, List.not_mem_nil, or_false, not_or]
      exact ⟨high (by omega), high (by omega), high (by omega),
        high (by omega)⟩

theorem zero_not_mem_utf8 {text : Text} (present : '\x00' ∉ text) :
    0 ∉ Text.utf8 text := by
  intro member
  obtain ⟨char, inside, byte⟩ := List.mem_flatMap.mp member
  have code : char.toNat ≠ 0 := by
    intro zero
    have same : char = '\x00' := Char.toNat_inj.mp zero
    exact present (same ▸ inside)
  exact (spells_utf8EncodeChar char).zero_not_mem code byte

end Hookfs.Posix
