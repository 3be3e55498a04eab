import Hookfs.Lib.Text

/-!
# Decoding C strings

`decode_cstr`: the bytes before the terminator, at most `0x8000` of them,
read as UTF-8 with every ill-formed sequence replaced by U+FFFD, as
`String::from_utf8_lossy` does it.
-/

namespace Hookfs.Posix

open Hookfs.Lib

/-! ## `String::from_utf8_lossy` -/

def isContinuation (byte : UInt8) : Bool :=
  0x80 ≤ byte && byte ≤ 0xBF

/-- Which second bytes may follow the first byte of a three-byte sequence. -/
def threeByteSecond (first second : UInt8) : Bool :=
  if first = 0xE0 then 0xA0 ≤ second && second ≤ 0xBF
  else if first = 0xED then 0x80 ≤ second && second ≤ 0x9F
  else isContinuation second

/-- Which second bytes may follow the first byte of a four-byte sequence. -/
def fourByteSecond (first second : UInt8) : Bool :=
  if first = 0xF0 then 0x90 ≤ second && second ≤ 0xBF
  else if first = 0xF4 then 0x80 ≤ second && second ≤ 0x8F
  else isContinuation second

/-- The low six bits of a continuation byte. -/
def payload (byte : UInt8) : Nat :=
  byte.toNat % 64

/-- The first character of a byte string and the number of bytes it takes;
an ill-formed sequence gives U+FFFD for its longest valid beginning. -/
def firstChar (first : UInt8) (rest : List UInt8) : Char × Nat :=
  let second := rest.getD 0 0
  let third := rest.getD 1 0
  let fourth := rest.getD 2 0
  if first < 0x80 then (Char.ofNat first.toNat, 1)
  else if 0xC2 ≤ first && first ≤ 0xDF then
    if isContinuation second then
      (Char.ofNat ((first.toNat % 32) * 64 + payload second), 2)
    else ('\uFFFD', 1)
  else if 0xE0 ≤ first && first ≤ 0xEF then
    if threeByteSecond first second then
      if isContinuation third then
        (Char.ofNat ((first.toNat % 16) * 4096 + payload second * 64 +
          payload third), 3)
      else ('\uFFFD', 2)
    else ('\uFFFD', 1)
  else if 0xF0 ≤ first && first ≤ 0xF4 then
    if fourByteSecond first second then
      if isContinuation third then
        if isContinuation fourth then
          (Char.ofNat ((first.toNat % 8) * 262144 + payload second * 4096 +
            payload third * 64 + payload fourth), 4)
        else ('\uFFFD', 3)
      else ('\uFFFD', 2)
    else ('\uFFFD', 1)
  else ('\uFFFD', 1)

/-- One character at a time; every round takes at least one byte. -/
def lossyLoop : Nat → List UInt8 → Text
  | 0, _ => []
  | _, [] => []
  | rounds + 1, first :: rest =>
      let (char, taken) := firstChar first rest
      char :: lossyLoop rounds (rest.drop (taken - 1))

def fromUtf8Lossy (bytes : List UInt8) : Text :=
  lossyLoop bytes.length bytes

/-! ## `decode_cstr` -/

/-- A `*const c_char`: null, or the bytes from there on; behind the listed
bytes stands the terminator. -/
abbrev CStr := Option (List UInt8)

/-- The scanning loop of `decode_cstr`, `decode_ansi` and `decode_wide`. -/
def scanUntil {Element : Type} [DecidableEq Element] (stop : Element) :
    Nat → List Element → Option (List Element)
  | 0, _ => none
  | _ + 1, [] => some []
  | rounds + 1, head :: rest =>
      if head = stop then some []
      else (scanUntil stop rounds rest).map (head :: ·)

def decodeCstr (ptr : CStr) : Option Text :=
  match ptr with
  | none => none
  | some bytes => (scanUntil 0 0x8000 bytes).map fromUtf8Lossy

theorem scanUntil_eq {Element : Type} [DecidableEq Element]
    {stop : Element} {rounds : Nat} {elements : List Element}
    (free : stop ∉ elements) (short : elements.length < rounds) :
    scanUntil stop rounds elements = some elements := by
  induction elements generalizing rounds with
  | nil =>
      cases rounds with
      | zero =>
          cases short
      | succ less =>
          rfl
  | cons head rest inductionHypothesis =>
      cases rounds with
      | zero =>
          cases short
      | succ less =>
          rw [List.length_cons, Nat.succ_lt_succ_iff] at short
          rw [List.mem_cons, not_or] at free
          rw [scanUntil, if_neg (Ne.symm free.1),
            inductionHypothesis free.2 short]
          rfl

/-- A terminated string shorter than `0x8000` bytes is decoded whole. -/
theorem decodeCstr_eq {bytes : List UInt8} (free : 0 ∉ bytes)
    (short : bytes.length < 0x8000) :
    decodeCstr (some bytes) = some (fromUtf8Lossy bytes) := by
  rw [decodeCstr, scanUntil_eq free short]
  rfl

end Hookfs.Posix
