import Hookfs.Plthook.MachOLeb

/-!
# Bind opcodes and what they denote

A bind stream as a list of instructions with complete operands, its bytes, and
the binds that it denotes: the registers of every bind, repeats expanded.
Then the operands, as the replay reads them.
-/

namespace Hookfs.Plthook.MachO

open Hookfs.Lib Hookfs.Posix Hookfs.Plthook

/-! ## Instructions -/

/-- A ULEB128 operand: a number of 64 bits in at most ten bytes. -/
structure Uleb where
  bytes : List UInt8
  ends : Leb128.Terminated bytes
  short : bytes.length ≤ 10
  word : Leb128.value bytes < 2 ^ 64

def Uleb.value (operand : Uleb) : Nat :=
  Leb128.value operand.bytes

structure Sleb where
  bytes : List UInt8
  ends : Leb128.Terminated bytes
  short : bytes.length ≤ 10

/-- The bytes of a symbol name before its terminator. -/
structure RawName where
  bytes : List UInt8
  present : 0 ∉ bytes

inductive BindOp where
  | done
  | setDylibOrdinalImm
  | setDylibOrdinalUleb (ordinal : Uleb)
  | setDylibSpecialImm
  | setSymbolTrailingFlagsImm (name : RawName)
  | setTypeImm
  | setAddendSleb (addend : Sleb)
  | setSegmentAndOffsetUleb (offset : Uleb)
  | addAddrUleb (amount : Uleb)
  | doBind
  | doBindAddAddrUleb (amount : Uleb)
  | doBindAddAddrImmScaled
  | doBindUlebTimesSkippingUleb (count skip : Uleb)

namespace BindOp

def opcode : BindOp → BindOpcode
  | .done => .done
  | .setDylibOrdinalImm => .setDylibOrdinalImm
  | .setDylibOrdinalUleb _ => .setDylibOrdinalUleb
  | .setDylibSpecialImm => .setDylibSpecialImm
  | .setSymbolTrailingFlagsImm _ => .setSymbolTrailingFlagsImm
  | .setTypeImm => .setTypeImm
  | .setAddendSleb _ => .setAddendSleb
  | .setSegmentAndOffsetUleb _ => .setSegmentAndOffsetUleb
  | .addAddrUleb _ => .addAddrUleb
  | .doBind => .doBind
  | .doBindAddAddrUleb _ => .doBindAddAddrUleb
  | .doBindAddAddrImmScaled => .doBindAddAddrImmScaled
  | .doBindUlebTimesSkippingUleb _ _ => .doBindUlebTimesSkippingUleb

def operands : BindOp → List UInt8
  | .setDylibOrdinalUleb ordinal => ordinal.bytes
  | .setSymbolTrailingFlagsImm name => name.bytes ++ [0]
  | .setAddendSleb addend => addend.bytes
  | .setSegmentAndOffsetUleb offset => offset.bytes
  | .addAddrUleb amount => amount.bytes
  | .doBindAddAddrUleb amount => amount.bytes
  | .doBindUlebTimesSkippingUleb count skip => count.bytes ++ skip.bytes
  | _ => []

def count : BindOp → Nat
  | .doBindUlebTimesSkippingUleb count _ => count.value
  | _ => 0

/-- A repeat count within the limit. -/
abbrev Counted (op : BindOp) : Prop :=
  op.count ≤ maxChainSteps

def nameLength : BindOp → Nat
  | .setSymbolTrailingFlagsImm name => name.bytes.length
  | _ => 0

/-- A name within the limit. -/
abbrev ShortName (op : BindOp) : Prop :=
  op.nameLength ≤ maxNameLen

end BindOp

/-- The upper half of the byte of an opcode. -/
def BindOpcode.number : BindOpcode → Nat
  | .done => 0
  | .setDylibOrdinalImm => 1
  | .setDylibOrdinalUleb => 2
  | .setDylibSpecialImm => 3
  | .setSymbolTrailingFlagsImm => 4
  | .setTypeImm => 5
  | .setAddendSleb => 6
  | .setSegmentAndOffsetUleb => 7
  | .addAddrUleb => 8
  | .doBind => 9
  | .doBindAddAddrUleb => 10
  | .doBindAddAddrImmScaled => 11
  | .doBindUlebTimesSkippingUleb => 12

/-- An operation with the immediate of its byte, which some ignore. -/
structure BindInstr where
  op : BindOp
  imm : Fin 16

def BindInstr.byte (instr : BindInstr) : UInt8 :=
  UInt8.ofNat (16 * instr.op.opcode.number + instr.imm)

def BindInstr.bytes (instr : BindInstr) : List UInt8 :=
  instr.byte :: instr.op.operands

/-- The bytes of a stream. -/
def streamBytes (code : List BindInstr) : List UInt8 :=
  code.flatMap BindInstr.bytes

theorem ofByte_byte (instr : BindInstr) :
    BindOpcode.ofByte instr.byte = some instr.op.opcode := by
  have every : ∀ imm : Fin 16,
      BindOpcode.ofByte
        (UInt8.ofNat (16 * instr.op.opcode.number + imm)) =
          some instr.op.opcode := by
    cases instr.op.opcode <;> decide
  exact every instr.imm

theorem bindImmediate_byte (instr : BindInstr) :
    bindImmediate instr.byte = instr.imm := by
  have every : ∀ imm : Fin 16,
      bindImmediate (UInt8.ofNat (16 * instr.op.opcode.number + imm)) =
        imm := by
    cases instr.op.opcode <;> decide
  exact every instr.imm

/-! ## Denotation -/

/-- The registers of the reference interpreter; the symbol is the name as it
stands in the stream. -/
structure BindRegisters where
  segIndex : Nat
  segOffset : Nat
  ordinal : Int
  symbol : Option (List UInt8)
  deriving DecidableEq, Repr

namespace BindRegisters

def start : BindRegisters :=
  ⟨0, 0, 0, none⟩

/-- Offsets are 64-bit words; amounts may be negative in two's complement. -/
def advance (registers : BindRegisters) (amount : Nat) : BindRegisters :=
  { registers with
    segOffset := (registers.segOffset + amount) % 2 ^ 64 }

/-- `count` binds, `skip` bytes apart, and the registers after them. -/
def repeatBind (skip : Nat) :
    Nat → BindRegisters → BindRegisters × List BindRegisters
  | 0, registers => (registers, [])
  | count + 1, registers =>
      let rest := repeatBind skip count (registers.advance (skip + 8))
      (rest.1, registers :: rest.2)

/-- The name of the symbol, if anything is left of it. -/
def name (registers : BindRegisters) : Option Text :=
  registers.symbol.bind fun raw => normalizeSymbolName (fromUtf8Lossy raw)

end BindRegisters

/-- The registers after an instruction, and those of every bind it does. -/
def BindInstr.run (instr : BindInstr) (registers : BindRegisters) :
    BindRegisters × List BindRegisters :=
  match instr.op with
  | .done => (registers, [])
  | .setTypeImm => (registers, [])
  | .setAddendSleb _ => (registers, [])
  | .setDylibOrdinalImm => ({ registers with ordinal := instr.imm }, [])
  | .setDylibOrdinalUleb ordinal =>
      ({ registers with ordinal := saturatingI64 ordinal.value }, [])
  | .setDylibSpecialImm =>
      ({ registers with ordinal := specialOrdinal instr.imm }, [])
  | .setSymbolTrailingFlagsImm name =>
      ({ registers with symbol := some name.bytes }, [])
  | .setSegmentAndOffsetUleb offset =>
      ({ registers with
        segIndex := instr.imm
        segOffset := offset.value }, [])
  | .addAddrUleb amount => (registers.advance amount.value, [])
  | .doBind => (registers.advance 8, [registers])
  | .doBindAddAddrUleb amount =>
      (registers.advance (amount.value + 8), [registers])
  | .doBindAddAddrImmScaled =>
      (registers.advance (instr.imm * 8 + 8), [registers])
  | .doBindUlebTimesSkippingUleb count skip =>
      registers.repeatBind skip.value count.value

/-- The registers of every bind that a stream denotes. -/
def bindsOf : List BindInstr → BindRegisters → List BindRegisters
  | [], _ => []
  | instr :: rest, registers =>
      (instr.run registers).2 ++ bindsOf rest (instr.run registers).1

/-- What a bind contributes, once a symbol is set: nothing if no name is left
of it or if it is that of the TLS bootstrap, else one import at its place. -/
inductive BindGives (view : MachOView) (info : LoadInfo)
    (registers : BindRegisters) : List RawImport → Prop
  | skipped {raw : List UInt8} (set : registers.symbol = some raw)
      (unnamed : registers.name = none) : BindGives view info registers []
  | bootstrap (named : registers.name = some tlvBootstrap) :
      BindGives view info registers []
  | found {name : Text} {segment : Segment} {slot : UInt64}
      (named : registers.name = some name) (other : name ≠ tlvBootstrap)
      (mapped : info.segments[registers.segIndex]? = some segment)
      (fits : segment.fileoff + registers.segOffset < 2 ^ 64)
      (placed : view.slotAddress (segment.fileoff + registers.segOffset) =
        .ok slot) :
      BindGives view info registers
        [⟨libraryOf registers.ordinal info.dylibs, some (.name name), none,
          slot.toNat, .standard, false⟩]

/-! ## Operands -/

namespace MachOView

variable {view : MachOView} {stop cursor : Nat}

theorem uleb128_of_shows (short : stop < 2 ^ 64) (operand : Uleb)
    (shown : view.Shows cursor operand.bytes)
    (inside : cursor + operand.bytes.length ≤ stop) :
    view.uleb128 cursor stop =
      .ok (operand.value, cursor + operand.bytes.length) := by
  apply (uleb128_eq_ok_iff short operand.ends shown).mpr
  refine ⟨inside, operand.short, ?_⟩
  rw [Nat.mod_eq_of_lt operand.word]
  rfl

/-- One round of the loop of `sleb128`. -/
def slebRound (view : MachOView) (stop : Nat) (state : Leb) :
    Parse (Round Leb (Int × Nat)) := do
  let read ← view.lebByte stop "SLEB128 runs past the bind stream"
    "SLEB128 overflow" state
  if read.1 &&& 0x80 = 0 then do
    let result ← signBits read.1 read.2
    pure (.done (asI64 result, read.2.cursor))
  else pure (.next read.2)

theorem exists_signBits (byte : UInt8) (state : Leb) :
    ∃ result, signBits byte state = .ok result := by
  unfold signBits
  split
  · rename_i narrow
    rw [Checked.shl_eq_ok wordMax narrow.1]
    exact ⟨_, rfl⟩
  · exact ⟨_, rfl⟩

/-- A signed number is consumed whole, whatever its value. -/
theorem slebLoop_of_shows {bytes : List UInt8} {state : Leb} {rounds : Nat}
    (short : stop < 2 ^ 64) (ends : Leb128.Terminated bytes)
    (shown : view.Shows state.cursor bytes)
    (inside : state.cursor + bytes.length ≤ stop)
    (room : state.shift + 7 * bytes.length ≤ 70)
    (enough : bytes.length ≤ rounds)
    (fits : state.result < 2 ^ state.shift) :
    ∃ value, loop (view.slebRound stop) rounds state =
      .ok (value, state.cursor + bytes.length) := by
  induction ends generalizing state rounds with
  | @last byte ends =>
      rw [List.length_singleton] at inside room enough ⊢
      obtain ⟨left, rfl⟩ : ∃ left, rounds = left + 1 :=
        ⟨rounds - 1, by omega⟩
      obtain ⟨result, signed⟩ := exists_signBits byte (state.behind byte)
      have last := (Leb128.and_high_eq_zero_iff byte).mpr ends
      rw [loop, slebRound,
        lebByte_of_shows short shown (by omega) (by omega) fits,
        Checked.bind_ok, if_pos last, signed]
      exact ⟨_, rfl⟩
  | @more byte rest continues later inductionHypothesis =>
      rw [List.length_cons] at inside room enough ⊢
      obtain ⟨left, rfl⟩ : ∃ left, rounds = left + 1 :=
        ⟨rounds - 1, by omega⟩
      have further := mt (Leb128.and_high_eq_zero_iff byte).mp
        (Nat.not_lt.mpr continues)
      obtain ⟨value, returned⟩ :=
        @inductionHypothesis (state.behind byte) left shown.tail
          (by simp only [Leb.behind]; omega)
          (by simp only [Leb.behind]; omega) (by omega)
          (Leb.fits_behind fits byte)
      refine ⟨value, ?_⟩
      rw [loop, slebRound,
        lebByte_of_shows short shown (by omega) (by omega) fits,
        Checked.bind_ok, if_neg further]
      rw [Nat.add_comm rest.length 1, ← Nat.add_assoc]
      exact returned

theorem sleb128_of_shows (short : stop < 2 ^ 64) (operand : Sleb)
    (shown : view.Shows cursor operand.bytes)
    (inside : cursor + operand.bytes.length ≤ stop) :
    ∃ value, view.sleb128 cursor stop =
      .ok (value, cursor + operand.bytes.length) := by
  have few := operand.short
  have all := @slebLoop_of_shows view stop operand.bytes ⟨cursor, 0, 0⟩
    lebRounds short operand.ends shown inside (by simp only; omega)
    (by unfold lebRounds; omega) Nat.one_pos
  exact all

/-- One round of the loop of `read_cstr_raw`. -/
def cstrRound (view : MachOView) (off position : Nat) (bytes : List UInt8) :
    Parse (Round (List UInt8) (Text × Nat)) := do
  let byte ← Checked.add off position >>= view.readByte
  pure (if byte = 0 then .done (fromUtf8Lossy bytes, position)
    else .next (bytes ++ [byte]))

theorem cstrRound_of_shows {off position : Nat} {bytes rest : List UInt8}
    {byte : UInt8} (word : off + position < 2 ^ 64)
    (shown : view.Shows (off + position) (byte :: rest)) :
    view.cstrRound off position bytes =
      .ok (if byte = 0 then .done (fromUtf8Lossy bytes, position)
        else .next (bytes ++ [byte])) := by
  unfold cstrRound
  rw [Checked.add_eq_ok word, Checked.bind_ok, readByte_of_shows shown]
  rfl

theorem cstrLoop_eq_ok_iff {off : Nat} {read : Text × Nat}
    (rest : List UInt8) :
    ∀ (bytes : List UInt8) (count position : Nat), 0 ∉ rest →
      view.Shows (off + position) (rest ++ [0]) →
      off + position + rest.length < 2 ^ 64 →
      (forRange (view.cstrRound off)
          (fun _ => malformed "unterminated Mach-O string") count position
          bytes = .ok read ↔
        rest.length < count ∧
          read = (fromUtf8Lossy (bytes ++ rest), position + rest.length)) := by
  induction rest with
  | nil =>
      intro bytes count position _ shown word
      have here : off + position < 2 ^ 64 := word
      cases count with
      | zero =>
          constructor
          · intro impossible
            cases impossible
          · intro impossible
            cases impossible.1
      | succ count =>
          rw [forRange, cstrRound_of_shows here shown, if_pos rfl,
            List.append_nil]
          constructor
          · intro returned
            exact ⟨Nat.succ_pos count, (Except.ok.inj returned).symm⟩
          · intro given
            rw [given.2]
            rfl
  | cons byte rest inductionHypothesis =>
      intro bytes count position present shown word
      rw [List.mem_cons, not_or] at present
      rw [List.length_cons] at word ⊢
      cases count with
      | zero =>
          constructor
          · intro impossible
            cases impossible
          · intro impossible
            cases impossible.1
      | succ count =>
          have behind : off + (position + 1) + rest.length < 2 ^ 64 := by
            omega
          have later := inductionHypothesis (bytes ++ [byte]) count
            (position + 1) present.2 shown.tail behind
          rw [forRange, cstrRound_of_shows (by omega) shown,
            if_neg (Ne.symm present.1)]
          simp only
          rw [later, List.append_assoc, List.singleton_append,
            Nat.add_assoc, Nat.add_comm 1]
          constructor
          · intro given
            exact ⟨by omega, given.2⟩
          · intro given
            exact ⟨by omega, given.2⟩

/-- A name is read if its terminator is within the limit. -/
theorem readCstrRaw_eq_ok_iff {off : Nat} {read : Text × Nat}
    (name : RawName) (shown : view.Shows off (name.bytes ++ [0]))
    (word : off + name.bytes.length < 2 ^ 64) :
    view.readCstrRaw off = .ok read ↔
      name.bytes.length ≤ maxNameLen ∧
        read = (fromUtf8Lossy name.bytes, name.bytes.length) := by
  have all := @cstrLoop_eq_ok_iff view off read name.bytes []
    (maxNameLen + 1) 0 name.present shown word
  rw [List.nil_append, Nat.zero_add, Nat.lt_succ_iff] at all
  exact all

end MachOView

end Hookfs.Plthook.MachO
