import Mathlib.Algebra.Group.Nat.Defs
import Mathlib.Data.List.Basic

/-!
# Bit fields

The fields of a machine word, lowest first, each with its width in bits; the
number that they are packed into, and what shifts and masks read from it.
-/

namespace Hookfs.Lib

/-- A bit field. -/
structure Field where
  width : Nat
  value : Nat
  deriving DecidableEq, Repr

namespace Field

/-- The value has no bits outside its field. -/
abbrev Fits (field : Field) : Prop :=
  field.value < 2 ^ field.width

def totalWidth : List Field → Nat
  | [] => 0
  | field :: rest => field.width + totalWidth rest

def pack : List Field → Nat
  | [] => 0
  | field :: rest => field.value + 2 ^ field.width * pack rest

variable {field : Field} {first rest : List Field}

theorem totalWidth_append :
    totalWidth (first ++ rest) = totalWidth first + totalWidth rest := by
  induction first with
  | nil =>
      exact (Nat.zero_add _).symm
  | cons head tail inductionHypothesis =>
      rw [List.cons_append, totalWidth, inductionHypothesis, totalWidth,
        Nat.add_assoc]

theorem pack_append :
    pack (first ++ rest) = pack first + 2 ^ totalWidth first * pack rest := by
  induction first with
  | nil =>
      exact (Nat.zero_add _).symm.trans
        (congrArg (0 + ·) (Nat.one_mul _).symm)
  | cons head tail inductionHypothesis =>
      rw [List.cons_append, pack, pack, inductionHypothesis, totalWidth,
        Nat.pow_add, Nat.mul_add, Nat.add_assoc, Nat.mul_assoc]

theorem pack_lt (fits : ∀ field ∈ first, field.Fits) :
    pack first < 2 ^ totalWidth first := by
  induction first with
  | nil =>
      exact Nat.one_pos
  | cons head tail inductionHypothesis =>
      obtain ⟨here, later⟩ := List.forall_mem_cons.mp fits
      have more : pack tail + 1 ≤ 2 ^ totalWidth tail :=
        inductionHypothesis later
      rw [pack, totalWidth, Nat.pow_add]
      calc
        head.value + 2 ^ head.width * pack tail
          < 2 ^ head.width + 2 ^ head.width * pack tail :=
            Nat.add_lt_add_right here _
        _ = 2 ^ head.width * (pack tail + 1) := by
            rw [Nat.mul_add_one, Nat.add_comm]
        _ ≤ 2 ^ head.width * 2 ^ totalWidth tail :=
            Nat.mul_le_mul_left _ more

/-- A shift drops the fields below. -/
theorem pack_shiftRight (fits : ∀ field ∈ first, field.Fits) :
    pack (first ++ rest) >>> totalWidth first = pack rest := by
  have positive : 0 < 2 ^ totalWidth first := Nat.two_pow_pos _
  rw [pack_append, Nat.shiftRight_eq_div_pow,
    Nat.add_mul_div_left _ _ positive, Nat.div_eq_of_lt (pack_lt fits),
    Nat.zero_add]

/-- A mask keeps the lowest field. -/
theorem pack_cons_and (here : field.Fits) :
    pack (field :: rest) &&& (2 ^ field.width - 1) = field.value := by
  rw [Nat.and_two_pow_sub_one_eq_mod, pack, Nat.add_mul_mod_self_left,
    Nat.mod_eq_of_lt here]

/-- A shift and a mask read one field. -/
theorem extract (fits : ∀ field ∈ first, field.Fits) (here : field.Fits) :
    (pack (first ++ field :: rest) >>> totalWidth first) &&&
        (2 ^ field.width - 1) = field.value := by
  rw [pack_shiftRight fits, pack_cons_and here]

/-! ## Signed fields -/

/-- A number in two's complement. -/
def signed (width : Nat) (number : Int) : Field where
  width := width
  value := (number % (2 ^ width : Nat)).toNat

theorem fits_signed (width : Nat) (number : Int) :
    (signed width number).Fits := by
  have positive : (0 : Int) < (2 ^ width : Nat) :=
    Int.natCast_pos.mpr (Nat.two_pow_pos width)
  have low := Int.emod_nonneg number (Int.ne_of_gt positive)
  have high := Int.emod_lt_of_pos number positive
  unfold Fits signed
  rw [Int.toNat_lt low]
  exact high

end Field

end Hookfs.Lib
