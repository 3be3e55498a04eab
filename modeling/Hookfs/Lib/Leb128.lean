import Mathlib.Algebra.Group.Nat.Defs
import Mathlib.Data.List.Basic

/-!
# LEB128 numbers

A number as bytes of seven bits each, lowest first, where every byte but the
last has its highest bit set.
-/

namespace Hookfs.Lib.Leb128

/-- The seven bits that a byte adds to the number. -/
def payload (byte : UInt8) : Nat :=
  byte.toNat % 128

/-- The number that the bytes spell, of any size. -/
def value : List UInt8 → Nat
  | [] => 0
  | byte :: rest => payload byte + 128 * value rest

/-- The last byte, and no byte before it, ends the number. -/
inductive Terminated : List UInt8 → Prop where
  | last {byte : UInt8} (ends : byte.toNat < 128) : Terminated [byte]
  | more {byte : UInt8} {rest : List UInt8} (continues : 128 ≤ byte.toNat)
      (later : Terminated rest) : Terminated (byte :: rest)

/-- The shortest bytes that spell a number. -/
def encode (number : Nat) : List UInt8 :=
  if number < 128 then [UInt8.ofNat number]
  else UInt8.ofNat (number % 128 + 128) :: encode (number / 128)
termination_by number
decreasing_by omega

/-! ## Bytes -/

theorem payload_lt (byte : UInt8) : payload byte < 128 :=
  Nat.mod_lt _ (by decide)

theorem toNat_and_low (byte : UInt8) :
    (byte &&& 0x7f).toNat = payload byte := by
  rw [UInt8.toNat_and]
  exact Nat.and_two_pow_sub_one_eq_mod byte.toNat 7

theorem and_high_eq_zero_iff (byte : UInt8) :
    byte &&& 0x80 = 0 ↔ byte.toNat < 128 := by
  have everyByte : ∀ word : Fin 256, word.val &&& 128 = 0 ↔ word.val < 128 := by
    decide +kernel
  have here := everyByte ⟨byte.toNat, byte.toNat_lt⟩
  rw [← here, ← UInt8.toNat_inj, UInt8.toNat_and]
  exact Iff.rfl

theorem toNat_ofNat_small {number : Nat} (small : number < 256) :
    (UInt8.ofNat number).toNat = number := by
  rw [UInt8.toNat_ofNat']
  exact Nat.mod_eq_of_lt small

theorem value_singleton {byte : UInt8} (small : byte.toNat < 128) :
    value [byte] = byte.toNat := by
  simp only [value, payload]
  omega

theorem value_append (front rest : List UInt8) :
    value (front ++ rest) =
      value front + 128 ^ front.length * value rest := by
  induction front with
  | nil =>
      simp [value]
  | cons byte front inductionHypothesis =>
      rw [List.cons_append, value, value, inductionHypothesis,
        List.length_cons, Nat.pow_succ', Nat.mul_add, ← Nat.add_assoc,
        Nat.mul_assoc]

/-- Bytes that continue a number may stand before one. -/
theorem Terminated.prepend {front rest : List UInt8}
    (continues : ∀ byte ∈ front, 128 ≤ byte.toNat)
    (ends : Terminated rest) : Terminated (front ++ rest) := by
  induction front with
  | nil =>
      exact ends
  | cons byte front inductionHypothesis =>
      apply Terminated.more
      · exact continues byte List.mem_cons_self
      · apply inductionHypothesis
        intro other member
        exact continues other (List.mem_cons_of_mem byte member)

/-- The last byte of a number. -/
theorem Terminated.eq_append {bytes : List UInt8} (ends : Terminated bytes) :
    ∃ front last, bytes = front ++ [last] ∧ last.toNat < 128 := by
  induction ends with
  | @last byte small =>
      exact ⟨[], byte, rfl, small⟩
  | @more byte rest _ _ inductionHypothesis =>
      obtain ⟨front, last, same, small⟩ := inductionHypothesis
      exact ⟨byte :: front, last, by rw [same, List.cons_append], small⟩

/-! ## The shortest bytes -/

theorem value_lt : ∀ bytes : List UInt8, value bytes < 128 ^ bytes.length
  | [] => Nat.one_pos
  | byte :: rest => by
      have here := payload_lt byte
      have later := value_lt rest
      rw [value, List.length_cons, Nat.pow_succ]
      omega

theorem encode_of_lt {number : Nat} (small : number < 128) :
    encode number = [UInt8.ofNat number] := by
  rw [encode, if_pos small]

theorem encode_of_le {number : Nat} (large : 128 ≤ number) :
    encode number =
      UInt8.ofNat (number % 128 + 128) :: encode (number / 128) := by
  rw [encode, if_neg (Nat.not_lt.mpr large)]

theorem terminated_encode (number : Nat) : Terminated (encode number) := by
  induction number using Nat.strongRecOn with
  | ind number inductionHypothesis =>
      by_cases small : number < 128
      · rw [encode_of_lt small]
        apply Terminated.last
        rw [toNat_ofNat_small (by omega)]
        exact small
      · have large := Nat.not_lt.mp small
        rw [encode_of_le large]
        apply Terminated.more
        · rw [toNat_ofNat_small (by omega)]
          omega
        · exact inductionHypothesis (number / 128) (by omega)

theorem value_encode (number : Nat) : value (encode number) = number := by
  induction number using Nat.strongRecOn with
  | ind number inductionHypothesis =>
      by_cases small : number < 128
      · rw [encode_of_lt small]
        simp only [value, payload]
        rw [toNat_ofNat_small (by omega)]
        omega
      · have large := Nat.not_lt.mp small
        have later := inductionHypothesis (number / 128) (by omega)
        rw [encode_of_le large, value, later, payload,
          toNat_ofNat_small (by omega)]
        omega

/-- No bytes that spell the same number are fewer. -/
theorem length_encode_le {bytes : List UInt8} (ends : Terminated bytes) :
    (encode (value bytes)).length ≤ bytes.length := by
  induction ends with
  | @last byte ends =>
      have small : value [byte] < 128 := by
        rw [value_singleton ends]
        exact ends
      have single : (encode (value [byte])).length = 1 := by
        rw [encode_of_lt small, List.length_singleton]
      exact Nat.le_of_eq single
  | @more byte rest continues later inductionHypothesis =>
      by_cases small : value (byte :: rest) < 128
      · rw [encode_of_lt small, List.length_singleton, List.length_cons]
        omega
      · have large := Nat.not_lt.mp small
        have quotient : value (byte :: rest) / 128 = value rest := by
          have low := payload_lt byte
          rw [value]
          omega
        rw [encode_of_le large, quotient, List.length_cons,
          List.length_cons]
        omega

theorem length_encode_of_lt : ∀ (width : Nat) {number : Nat},
    number < 128 ^ (width + 1) → (encode number).length ≤ width + 1
  | 0, number, small => by
      rw [encode_of_lt (by omega)]
      exact Nat.le_refl 1
  | width + 1, number, small => by
      by_cases single : number < 128
      · rw [encode_of_lt single, List.length_singleton]
        omega
      · have quotient : number / 128 < 128 ^ (width + 1) := by
          rw [Nat.pow_succ] at small
          omega
        rw [encode_of_le (Nat.not_lt.mp single), List.length_cons]
        exact Nat.succ_le_succ (length_encode_of_lt width quotient)

/-! ## Adding bits to a word -/

/-- Bits above those of a word are added by `|`, and those that leave the
64 bits are lost. -/
theorem or_shiftLeft {low shift : Nat} (fits : low < 2 ^ shift)
    (narrow : shift < 64) (bits : Nat) :
    low ||| (bits <<< shift) % 2 ^ 64 =
      (low + bits * 2 ^ shift) % 2 ^ 64 := by
  have width : 2 ^ 64 = 2 ^ shift * 2 ^ (64 - shift) := by
    rw [← Nat.pow_add]
    congr 1
    omega
  have kept : (bits * 2 ^ shift) % 2 ^ 64 =
      2 ^ shift * (bits % 2 ^ (64 - shift)) := by
    rw [width, Nat.mul_comm bits, Nat.mul_mod_mul_left]
  have room : 2 ^ shift * (bits % 2 ^ (64 - shift)) + low < 2 ^ 64 := by
    have short : bits % 2 ^ (64 - shift) + 1 ≤ 2 ^ (64 - shift) :=
      Nat.mod_lt _ (Nat.two_pow_pos _)
    have scaled := Nat.mul_le_mul_left (2 ^ shift) short
    rw [Nat.mul_add, ← width] at scaled
    omega
  calc low ||| (bits <<< shift) % 2 ^ 64
      = 2 ^ shift * (bits % 2 ^ (64 - shift)) ||| low := by
        rw [Nat.shiftLeft_eq, kept, Nat.or_comm]
    _ = 2 ^ shift * (bits % 2 ^ (64 - shift)) + low :=
        (Nat.two_pow_add_eq_or_of_lt fits _).symm
    _ = (2 ^ shift * (bits % 2 ^ (64 - shift)) + low) % 2 ^ 64 :=
        (Nat.mod_eq_of_lt room).symm
    _ = (low + bits * 2 ^ shift) % 2 ^ 64 := by
        rw [← kept, Nat.mod_add_mod, Nat.add_comm]

end Hookfs.Lib.Leb128
