import Hookfs.Lib.Bitfields
import Hookfs.Path.Utf8
import Hookfs.Plthook.MachOChains
import Hookfs.Plthook.MachOOpcodes

/-!
# The encoding of chained fixups

What `fixup-chains.h` describes: the chain entries of the seven pointer
formats and the records of the three import formats, as bit fields; and how
the parser reads one of them.
-/

namespace Hookfs.Plthook.MachO

open Hookfs.Lib Hookfs.Posix Hookfs.Plthook

/-! ## Chain entries -/

inductive PointerFormat where
  | arm64e
  | ptr64
  | ptr64Offset
  | arm64eKernel
  | arm64eUserland
  | arm64eFirmware
  | arm64eUserland24
  deriving DecidableEq, Repr

namespace PointerFormat

def number : PointerFormat → Nat
  | .arm64e => 1
  | .ptr64 => 2
  | .ptr64Offset => 6
  | .arm64eKernel => 7
  | .arm64eUserland => 9
  | .arm64eFirmware => 10
  | .arm64eUserland24 => 12

/-- Whether entries can be authenticated. -/
def signs : PointerFormat → Bool
  | .ptr64 => false
  | .ptr64Offset => false
  | _ => true

def stride : PointerFormat → Nat
  | .arm64e => 8
  | .arm64eUserland => 8
  | .arm64eUserland24 => 8
  | _ => 4

def nextBits (format : PointerFormat) : Nat :=
  if format.signs then 11 else 12

def ordinalBits : PointerFormat → Nat
  | .ptr64 => 24
  | .ptr64Offset => 24
  | .arm64eUserland24 => 24
  | _ => 16

theorem stride_ne_zero (format : PointerFormat) : format.stride ≠ 0 := by
  cases format <;> decide

end PointerFormat

inductive Fixup where
  | bind (ordinal addend : Nat)
  | authBind (ordinal diversity addrDiv key : Nat)
  | rebase (target high8 : Nat)
  | authRebase (target diversity addrDiv key : Nat)
  deriving DecidableEq, Repr

namespace Fixup

def isBind : Fixup → Bool
  | .bind _ _ => true
  | .authBind _ _ _ _ => true
  | _ => false

def authenticated : Fixup → Bool
  | .authBind _ _ _ _ => true
  | .authRebase _ _ _ _ => true
  | _ => false

def ordinal : Fixup → Option Nat
  | .bind ordinal _ => some ordinal
  | .authBind ordinal _ _ _ => some ordinal
  | _ => none

theorem isBind_eq (fixup : Fixup) :
    fixup.isBind = fixup.ordinal.isSome := by
  cases fixup <;> rfl

theorem isBind_of_ordinal {fixup : Fixup} {ordinal : Nat}
    (given : fixup.ordinal = some ordinal) : fixup.isBind = true := by
  rw [isBind_eq, given]
  rfl

/-- The 51 bits below `next`. -/
def payload (format : PointerFormat) : Fixup → List Field
  | .bind ordinal addend =>
      if format.signs then
        [⟨format.ordinalBits, ordinal⟩, ⟨32 - format.ordinalBits, 0⟩,
          ⟨19, addend⟩]
      else [⟨format.ordinalBits, ordinal⟩, ⟨8, addend⟩, ⟨19, 0⟩]
  | .authBind ordinal diversity addrDiv key =>
      [⟨format.ordinalBits, ordinal⟩, ⟨32 - format.ordinalBits, 0⟩,
        ⟨16, diversity⟩, ⟨1, addrDiv⟩, ⟨2, key⟩]
  | .rebase target high8 =>
      if format.signs then [⟨43, target⟩, ⟨8, high8⟩]
      else [⟨36, target⟩, ⟨8, high8⟩, ⟨7, 0⟩]
  | .authRebase target diversity addrDiv key =>
      [⟨32, target⟩, ⟨16, diversity⟩, ⟨1, addrDiv⟩, ⟨2, key⟩]

/-- All fields of an entry; `bind` and `auth` are above `next`. -/
def fields (format : PointerFormat) (fixup : Fixup) (next : Nat) :
    List Field :=
  fixup.payload format ++ ⟨format.nextBits, next⟩ ::
    ⟨1, fixup.isBind.toNat⟩ ::
      if format.signs then [⟨1, fixup.authenticated.toNat⟩] else []

theorem totalWidth_payload (format : PointerFormat) (fixup : Fixup) :
    Field.totalWidth (fixup.payload format) = 51 := by
  cases fixup <;> cases format <;> rfl

theorem totalWidth_fields (format : PointerFormat) (fixup : Fixup)
    (next : Nat) : Field.totalWidth (fixup.fields format next) = 64 := by
  unfold fields
  rw [Field.totalWidth_append, totalWidth_payload]
  cases format <;> rfl

end Fixup

/-- A fixup that its format can encode, with the strides to the next one. -/
structure Link (format : PointerFormat) where
  fixup : Fixup
  next : Nat
  signed : fixup.authenticated = true → format.signs = true
  fits : ∀ field ∈ fixup.fields format next, field.Fits

namespace Link

variable {format : PointerFormat} (link : Link format)

def raw : UInt64 :=
  UInt64.ofNat (Field.pack (link.fixup.fields format link.next))

theorem toNat_raw :
    link.raw.toNat = Field.pack (link.fixup.fields format link.next) := by
  have small := Field.pack_lt link.fits
  rw [Fixup.totalWidth_fields] at small
  unfold raw
  rw [UInt64.toNat_ofNat', Nat.mod_eq_of_lt small]

end Link

/-! ## Reading an entry -/

/-- `decode_chain`, in the words of the format. -/
theorem decodeChain_eq (format : PointerFormat) (raw : UInt64) :
    decodeChain raw format.number = some {
      isBind := chainBit raw (51 + format.nextBits)
      ordinal :=
        if (format.signs || chainBit raw 63) = true then
          raw.toNat &&& (2 ^ format.ordinalBits - 1)
        else 0
      authenticated := format.signs && chainBit raw 63
      next := ((raw.toNat >>> 51) &&& (2 ^ format.nextBits - 1)) *
        format.stride } := by
  cases format <;> rfl

namespace Link

variable {format : PointerFormat} (link : Link format)

/-- Any field of the word. -/
theorem raw_field {first rest : List Field} {field : Field}
    (layout : link.fixup.fields format link.next = first ++ field :: rest) :
    (link.raw.toNat >>> Field.totalWidth first) &&& (2 ^ field.width - 1) =
      field.value := by
  have fits := link.fits
  rw [layout] at fits
  obtain ⟨before, others⟩ := List.forall_mem_append.mp fits
  rw [toNat_raw, layout]
  exact Field.extract before (List.forall_mem_cons.mp others).1

theorem raw_bit {first rest : List Field} {bit : Bool}
    (layout : link.fixup.fields format link.next =
      first ++ ⟨1, bit.toNat⟩ :: rest) :
    chainBit link.raw (Field.totalWidth first) = bit := by
  have read := link.raw_field layout
  change (link.raw.toNat >>> Field.totalWidth first) &&& 1 = bit.toNat at read
  unfold chainBit
  rw [read]
  cases bit <;> rfl

theorem raw_next :
    (link.raw.toNat >>> 51) &&& (2 ^ format.nextBits - 1) = link.next := by
  have read := link.raw_field rfl
  rw [Fixup.totalWidth_payload] at read
  exact read

theorem raw_bind :
    chainBit link.raw (51 + format.nextBits) = link.fixup.isBind := by
  have width : Field.totalWidth
      (link.fixup.payload format ++ [⟨format.nextBits, link.next⟩]) =
        51 + format.nextBits := by
    rw [Field.totalWidth_append, Fixup.totalWidth_payload]
    rfl
  rw [← width]
  apply link.raw_bit
  unfold Fixup.fields
  rw [List.append_assoc]
  rfl

theorem raw_auth (signs : format.signs = true) :
    chainBit link.raw 63 = link.fixup.authenticated := by
  have bits : format.nextBits = 11 := if_pos signs
  have width : Field.totalWidth
      (link.fixup.payload format ++ [⟨format.nextBits, link.next⟩,
        ⟨1, link.fixup.isBind.toNat⟩]) = 63 := by
    rw [Field.totalWidth_append, Fixup.totalWidth_payload, bits]
    rfl
  rw [← width]
  apply link.raw_bit
  unfold Fixup.fields
  rw [if_pos signs, List.append_assoc]
  rfl

theorem raw_ordinal {ordinal : Nat}
    (given : link.fixup.ordinal = some ordinal) :
    link.raw.toNat &&& (2 ^ format.ordinalBits - 1) = ordinal := by
  have layout : ∃ rest, link.fixup.fields format link.next =
      ⟨format.ordinalBits, ordinal⟩ :: rest := by
    unfold Fixup.fields Fixup.payload
    cases kind : link.fixup with
    | bind first addend =>
        rw [kind] at given
        rw [Option.some.inj given]
        cases format.signs
        · exact ⟨_, rfl⟩
        · exact ⟨_, rfl⟩
    | authBind first diversity addrDiv key =>
        rw [kind] at given
        rw [Option.some.inj given]
        exact ⟨_, rfl⟩
    | rebase target high8 =>
        rw [kind] at given
        cases given
    | authRebase target diversity addrDiv key =>
        rw [kind] at given
        cases given
  obtain ⟨rest, layout⟩ := layout
  exact @raw_field format link [] rest _ layout

/-- An entry is decoded as it was encoded; the ordinal of a rebase is not
looked at. -/
theorem decodeChain_raw :
    ∃ entry, decodeChain link.raw format.number = some entry ∧
      entry.isBind = link.fixup.isBind ∧
      entry.authenticated = link.fixup.authenticated ∧
      entry.next = link.next * format.stride ∧
      ∀ ordinal, link.fixup.ordinal = some ordinal →
        entry.ordinal = ordinal := by
  refine ⟨_, decodeChain_eq format link.raw, link.raw_bind, ?_, ?_, ?_⟩
  · cases signs : format.signs with
    | true =>
        exact link.raw_auth signs
    | false =>
        have plain : link.fixup.authenticated ≠ true := by
          intro authenticated
          rw [link.signed authenticated] at signs
          cases signs
        exact (Bool.eq_false_iff.mpr plain).symm
  · exact congrArg (· * format.stride) link.raw_next
  · intro ordinal given
    have read : (format.signs || chainBit link.raw 63) = true := by
      cases signs : format.signs with
      | true =>
          rfl
      | false =>
          have bits : format.nextBits = 12 :=
            if_neg (Bool.eq_false_iff.mp signs)
          have bound := link.raw_bind
          rw [bits] at bound
          exact bound.trans (Fixup.isBind_of_ordinal given)
    exact (if_pos read).trans (link.raw_ordinal given)

end Link

/-! ## Signed ordinals -/

/-- The bits of a signed number, shifted to the top of a word. -/
theorem asI64_signed {less shift : Nat} {number : Int}
    (whole : less + 1 + shift = 64) (low : -2 ^ less ≤ number)
    (high : number < 2 ^ less) :
    asI64 ((Field.signed (less + 1) number).value * 2 ^ shift) =
      number * 2 ^ shift := by
  have positive : (0 : Int) < (2 ^ (less + 1) : Nat) :=
    Int.natCast_pos.mpr (Nat.two_pow_pos _)
  have value : (((Field.signed (less + 1) number).value : Nat) : Int) =
      number % (2 ^ (less + 1) : Nat) :=
    Int.toNat_of_nonneg (Int.emod_nonneg _ (Int.ne_of_gt positive))
  push_cast at value positive
  have double : (2 : Int) ^ (less + 1) = 2 ^ less + 2 ^ less := by
    rw [Int.pow_succ]
    omega
  have word : ((2 : Int) ^ less + 2 ^ less) * 2 ^ shift = 2 ^ 64 := by
    rw [← double, ← Int.pow_add, whole]
  have half : 2 ^ less * 2 ^ shift = 2 ^ 63 := by
    rw [← Nat.pow_add]
    congr 1
    omega
  generalize (Field.signed (less + 1) number).value = field at value ⊢
  unfold asI64
  rw [← half]
  rcases Int.lt_or_le number 0 with negative | natural
  · have field_eq : (field : Int) = number + 2 ^ (less + 1) := by
      rw [value, ← Int.add_emod_right,
        Int.emod_eq_of_lt (by omega) (by omega)]
    have above : ¬ field * 2 ^ shift < 2 ^ less * 2 ^ shift := by
      have reached : (2 : Int) ^ less ≤ field := by omega
      rw [Nat.mul_lt_mul_right (Nat.two_pow_pos shift), Nat.not_lt]
      exact_mod_cast reached
    rw [if_neg above, Int.natCast_mul, field_eq, double, Int.add_mul, ← word]
    exact Int.add_sub_cancel _ _
  · have field_eq : (field : Int) = number := by
      rw [value, Int.emod_eq_of_lt natural (by omega)]
    have below : field * 2 ^ shift < 2 ^ less * 2 ^ shift := by
      have short : (field : Int) < 2 ^ less := by omega
      rw [Nat.mul_lt_mul_right (Nat.two_pow_pos shift)]
      exact_mod_cast short
    rw [if_pos below, Int.natCast_mul, field_eq]
    rfl

/-- A signed field is extended to the number that it holds. -/
theorem signExtend_signed {bits : Nat} {number : Int} (some : 0 < bits)
    (few : bits ≤ 64) (low : -2 ^ (bits - 1) ≤ number)
    (high : number < 2 ^ (bits - 1)) :
    signExtend (Field.signed bits number).value bits = .ok number := by
  obtain ⟨less, rfl⟩ : ∃ less, bits = less + 1 := ⟨bits - 1, by omega⟩
  rw [Nat.add_sub_cancel] at low high
  obtain ⟨shift, whole⟩ : ∃ shift, less + 1 + shift = 64 :=
    ⟨64 - (less + 1), by omega⟩
  have fits : (Field.signed (less + 1) number).value * 2 ^ shift < 2 ^ 64 := by
    have word : 2 ^ (less + 1) * 2 ^ shift = 2 ^ 64 := by
      rw [← Nat.pow_add, whole]
    rw [← word]
    exact Nat.mul_lt_mul_of_pos_right (Field.fits_signed (less + 1) number)
      (Nat.two_pow_pos shift)
  have taken : (Checked.sub 64 (less + 1) : Parse Nat) = .ok shift := by
    unfold Checked.sub
    rw [if_pos few]
    congr 1
    omega
  have power : (2 : Int) ^ shift ≠ 0 :=
    Int.ne_of_gt (Int.pow_pos (by decide))
  unfold signExtend
  rw [taken, Checked.bind_ok, Checked.shl_eq_ok _ (by omega), Checked.bind_ok,
    Nat.shiftLeft_eq, Nat.mod_eq_of_lt fits, asI64_signed whole low high,
    Int.shiftRight_eq_div_pow]
  exact congrArg Except.ok (Int.mul_ediv_cancel _ power)

/-! ## Import records -/

inductive ImportsFormat where
  | plain
  | addend
  | addend64
  deriving DecidableEq, Repr

namespace ImportsFormat

def number : ImportsFormat → Nat
  | .plain => 1
  | .addend => 2
  | .addend64 => 3

/-- Bytes of the word with the bit fields. -/
def wordSize : ImportsFormat → Nat
  | .addend64 => 8
  | _ => 4

def addendSize : ImportsFormat → Nat
  | .plain => 0
  | .addend => 4
  | .addend64 => 8

def recordSize (format : ImportsFormat) : Nat :=
  format.wordSize + format.addendSize

def ordinalBits : ImportsFormat → Nat
  | .addend64 => 16
  | _ => 8

def reservedBits : ImportsFormat → Nat
  | .addend64 => 15
  | _ => 0

def nameBits : ImportsFormat → Nat
  | .addend64 => 32
  | _ => 23

end ImportsFormat

/-- An import that its format can encode, with its name in the pool. -/
structure ImportRecord (format : ImportsFormat) where
  ordinal : Int
  weak : Bool
  nameOffset : Nat
  addend : Nat
  name : Text
  low : -2 ^ (format.ordinalBits - 1) ≤ ordinal
  high : ordinal < 2 ^ (format.ordinalBits - 1)
  near : nameOffset < 2 ^ format.nameBits
  present : '\x00' ∉ name
  short : (Text.utf8 name).length ≤ maxNameLen

namespace ImportRecord

variable {format : ImportsFormat}

def fields (record : ImportRecord format) : List Field :=
  [.signed format.ordinalBits record.ordinal, ⟨1, record.weak.toNat⟩,
    ⟨format.reservedBits, 0⟩, ⟨format.nameBits, record.nameOffset⟩]

def bytes (record : ImportRecord format) : List UInt8 :=
  toLittleEndian format.wordSize (Field.pack record.fields) ++
    toLittleEndian format.addendSize record.addend

/-- The name as it stands in the pool, without its terminator. -/
def rawName (record : ImportRecord format) : RawName :=
  ⟨Text.utf8 record.name, zero_not_mem_utf8 record.present⟩

variable (record : ImportRecord format)

theorem length_bytes :
    record.bytes.length = format.recordSize := by
  unfold bytes ImportsFormat.recordSize
  rw [List.length_append, length_toLittleEndian, length_toLittleEndian]

theorem fits : ∀ field ∈ record.fields, field.Fits := by
  have weak : record.weak.toNat < 2 ^ 1 := Bool.toNat_lt record.weak
  have reserved : 0 < 2 ^ format.reservedBits := Nat.two_pow_pos _
  simp only [fields, List.forall_mem_cons]
  exact ⟨Field.fits_signed _ _, weak, reserved, record.near, nofun⟩

theorem word_lt : Field.pack record.fields < 256 ^ format.wordSize := by
  have small := Field.pack_lt record.fits
  have width : Field.totalWidth record.fields = 8 * format.wordSize := by
    cases format <;> rfl
  rw [width, Nat.pow_mul] at small
  exact small

theorem word_ordinal :
    Field.pack record.fields &&& (2 ^ format.ordinalBits - 1) =
      (Field.signed format.ordinalBits record.ordinal).value :=
  Field.pack_cons_and (Field.fits_signed _ _)

theorem word_name :
    (Field.pack record.fields >>>
        (format.ordinalBits + (1 + format.reservedBits))) &&&
      (2 ^ format.nameBits - 1) = record.nameOffset := by
  have fits := record.fits
  have layout : record.fields =
      [.signed format.ordinalBits record.ordinal, ⟨1, record.weak.toNat⟩,
        ⟨format.reservedBits, 0⟩] ++
        [⟨format.nameBits, record.nameOffset⟩] := rfl
  rw [layout] at fits ⊢
  obtain ⟨before, last⟩ := List.forall_mem_append.mp fits
  exact Field.extract before (List.forall_mem_singleton.mp last)

theorem signExtend_ordinal :
    signExtend (Field.signed format.ordinalBits record.ordinal).value
      format.ordinalBits = .ok record.ordinal := by
  apply signExtend_signed _ _ record.low record.high
  · cases format <;> decide
  · cases format <;> decide

end ImportRecord

/-! ## Reading a record -/

namespace MachOView

variable {view : MachOView} {off : Nat}

theorem readUint_of_shows {width number : Nat}
    (shown : view.Shows off (toLittleEndian width number))
    (fits : number < 256 ^ width) :
    view.readUint width off = .ok number := by
  have length := length_toLittleEndian width number
  have read := shown 0 width (by omega)
  rw [Nat.add_zero, List.drop_zero, List.take_of_length_le (by omega)] at read
  unfold readUint
  rw [read]
  change Except.ok (littleEndian (toLittleEndian width number)) = _
  rw [littleEndian_toLittleEndian, Nat.mod_eq_of_lt fits]

/-- The word of a record. -/
theorem readWord_of_shows {format : ImportsFormat}
    {record : ImportRecord format} (shown : view.Shows off record.bytes) :
    view.readUint format.wordSize off = .ok (Field.pack record.fields) := by
  unfold ImportRecord.bytes at shown
  exact readUint_of_shows shown.left record.word_lt

theorem narrowRecord_of_word {ordinal : Int} {word nameOffset field : Nat}
    (read : view.readUint 4 off = .ok word)
    (low : word &&& 0xff = field)
    (high : (word >>> 9) &&& 0x7fffff = nameOffset)
    (extended : signExtend field 8 = .ok ordinal) :
    view.narrowRecord off = .ok (nameOffset, ordinal) := by
  unfold narrowRecord readU32
  rw [read, Checked.bind_ok, low, high, extended]
  rfl

theorem wideRecord_of_word {ordinal : Int} {word nameOffset field : Nat}
    (read : view.readUint 8 off = .ok word)
    (low : word &&& 0xffff = field)
    (high : (word >>> 32) &&& 0xffffffff = nameOffset)
    (extended : signExtend field 16 = .ok ordinal) :
    view.wideRecord off = .ok (nameOffset, ordinal) := by
  unfold wideRecord readU64
  rw [read, Checked.bind_ok, low, high, extended]
  rfl

theorem recordAt_eq {Final : Type} {reading : Nat → Parse Final}
    {base ordinal stride : Nat} (word : base + ordinal * stride < 2 ^ 64) :
    (do
      let skipped ← Checked.mul ordinal stride
      Checked.add base skipped >>= reading) =
        reading (base + ordinal * stride) := by
  have room : ordinal * stride < 2 ^ 64 :=
    Nat.lt_of_le_of_lt (Nat.le_add_left _ _) word
  rw [Checked.mul_eq_ok room, Checked.bind_ok, Checked.add_eq_ok word,
    Checked.bind_ok]

/-- Every record is read as it was encoded. -/
theorem importRecord_of_shows {format : ImportsFormat}
    {record : ImportRecord format} {imports : ImportsTable} {ordinal : Nat}
    (kind : imports.format = format.number)
    (word : imports.base + ordinal * format.recordSize < 2 ^ 64)
    (shown : view.Shows (imports.base + ordinal * format.recordSize)
      record.bytes) :
    view.importRecord imports ordinal =
      .ok (record.nameOffset, record.ordinal) := by
  have read := readWord_of_shows shown
  have low := record.word_ordinal
  have high := record.word_name
  have extended := record.signExtend_ordinal
  unfold importRecord
  rw [kind]
  cases format with
  | plain =>
      have mask : 2 ^ ImportsFormat.plain.ordinalBits - 1 = 0xff := rfl
      have names : 2 ^ ImportsFormat.plain.nameBits - 1 = 0x7fffff := rfl
      rw [mask] at low
      rw [names] at high
      have returned := narrowRecord_of_word read low high extended
      exact (if_pos rfl).trans ((recordAt_eq word).trans returned)
  | addend =>
      have mask : 2 ^ ImportsFormat.addend.ordinalBits - 1 = 0xff := rfl
      have names : 2 ^ ImportsFormat.addend.nameBits - 1 = 0x7fffff := rfl
      rw [mask] at low
      rw [names] at high
      have returned := narrowRecord_of_word read low high extended
      have different : ImportsFormat.addend.number ≠ 1 := by decide
      rw [if_neg different]
      exact (if_pos rfl).trans ((recordAt_eq word).trans returned)
  | addend64 =>
      have mask : 2 ^ ImportsFormat.addend64.ordinalBits - 1 = 0xffff := rfl
      have names : 2 ^ ImportsFormat.addend64.nameBits - 1 = 0xffffffff := rfl
      rw [mask] at low
      rw [names] at high
      have returned := wideRecord_of_word read low high extended
      have first : ImportsFormat.addend64.number ≠ 1 := by decide
      have second : ImportsFormat.addend64.number ≠ 2 := by decide
      rw [if_neg first, if_neg second]
      exact (if_pos rfl).trans ((recordAt_eq word).trans returned)

end MachOView

end Hookfs.Plthook.MachO
