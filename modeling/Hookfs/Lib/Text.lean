import Mathlib.Algebra.Group.Nat.Defs
import Mathlib.Data.List.Basic

/-!
# Text and machine words

A Rust `str` is a sequence of Unicode scalar values, here a list of `Char`;
its length in memory is the length of its UTF-8 encoding.  Machine words are
natural numbers with the saturating, checked and wrapping operations of the
target spelled out.
-/

namespace Hookfs.Lib

/-- A Rust `str` or `String`. -/
abbrev Text := List Char

namespace Text

/-- `str::as_bytes`. -/
def utf8 (text : Text) : List UInt8 :=
  text.flatMap String.utf8EncodeChar

/-- `u8::to_ascii_lowercase`. -/
def asciiLower (byte : UInt8) : UInt8 :=
  if 65 ≤ byte ∧ byte ≤ 90 then byte + 32 else byte

def eqIgnoreAsciiCase (left right : List UInt8) : Bool :=
  left.map asciiLower = right.map asciiLower

end Text

/-- Largest value of a 64-bit word (`u64::MAX`, and `usize::MAX` on a 64-bit
target). -/
def wordMax : Nat := 2 ^ 64 - 1

/-- `saturating_add` on 64-bit words. -/
def saturatingAdd (left right : Nat) : Nat :=
  min (left + right) wordMax

/-- `checked_add` on 64-bit words. -/
def checkedAdd (left right : Nat) : Option Nat :=
  if left + right ≤ wordMax then some (left + right) else none

/-- `checked_mul` on 64-bit words. -/
def checkedMul (left right : Nat) : Option Nat :=
  if left * right ≤ wordMax then some (left * right) else none

/-- `+` on 64-bit words in a release build. -/
def wrappingAdd (left right : Nat) : Nat :=
  (left + right) % 2 ^ 64

theorem eq_of_checkedAdd {left right sum : Nat}
    (reached : checkedAdd left right = some sum) :
    sum = left + right ∧ left + right < 2 ^ 64 := by
  unfold checkedAdd wordMax at reached
  split at reached
  · injection reached with same
    omega
  · cases reached

theorem checkedAdd_eq_some {left right : Nat} (fits : left + right < 2 ^ 64) :
    checkedAdd left right = some (left + right) := by
  unfold checkedAdd wordMax
  rw [if_pos (by omega)]

theorem le_of_checkedAdd_none {left right : Nat}
    (overflows : checkedAdd left right = none) : 2 ^ 64 ≤ left + right := by
  unfold checkedAdd wordMax at overflows
  split at overflows
  · cases overflows
  · omega

theorem checkedAdd_any_iff {left right bound : Nat} (word : bound ≤ wordMax) :
    (checkedAdd left right).any (· ≤ bound) = true ↔
      left + right ≤ bound := by
  unfold checkedAdd
  split
  · rw [Option.any_some, decide_eq_true_eq]
  · constructor
    · intro impossible
      cases impossible
    · intro below
      omega

theorem saturatingAdd_le (left right : Nat) :
    saturatingAdd left right ≤ wordMax :=
  Nat.min_le_right _ _

theorem saturatingAdd_assoc (first second third : Nat) :
    saturatingAdd (first + second) third =
      saturatingAdd first (second + third) := by
  unfold saturatingAdd
  rw [Nat.add_assoc]

theorem saturatingAdd_mono (base : Nat) {small large : Nat}
    (below : small ≤ large) :
    saturatingAdd base small ≤ saturatingAdd base large := by
  have sums : base + small ≤ base + large := Nat.add_le_add_left below base
  unfold saturatingAdd
  exact Nat.le_min.mpr
    ⟨Nat.le_trans (Nat.min_le_left _ _) sums, Nat.min_le_right _ _⟩

theorem wrappingAdd_eq {left right : Nat}
    (fits : left + right ≤ wordMax) :
    wrappingAdd left right = left + right := by
  unfold wrappingAdd
  apply Nat.mod_eq_of_lt
  unfold wordMax at fits
  omega

end Hookfs.Lib
