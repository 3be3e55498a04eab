import Hookfs.Lib.Store
import Hookfs.Plthook.MachO

/-!
# The imports of a Mach-O image

The three sources of imports, `parse_indirect`, `parse_bind_stream` and
`parse_chained_fixups`, and `parse_imports`, which merges the first with one
of the other two.
-/

namespace Hookfs.Plthook.MachO

open Hookfs.Lib Hookfs.Posix Hookfs.Plthook

/-! ## Constants -/

def ptrSize : Nat := 8

def maxIndirect : Nat := 2 ^ 24

def maxBindBytes : Nat := 2 ^ 24

def maxChainSteps : Nat := 2 ^ 24

def maxFixupSegments : Nat := 2 ^ 12

def ulebMaxShift : Nat := 63

def dyldChainedPtrStartNone : Nat := 0xffff

/-- The `i64` with the bits of a word. -/
def asI64 (word : Nat) : Int :=
  if word < 2 ^ 63 then (word : Int) else word - 2 ^ 64

/-- `INDIRECT_SYMBOL_LOCAL` or `INDIRECT_SYMBOL_ABS`. -/
def isSentinel (symIndex : Nat) : Bool :=
  symIndex &&& 0xc0000000 ≠ 0

/-- An undefined external symbol, and no debugging entry: `N_STAB`, `N_TYPE`
and `N_EXT`. -/
def isImported (nType : UInt8) : Bool :=
  nType &&& 0xe0 = 0 && nType &&& 0x0e = 0 && nType &&& 0x01 ≠ 0

namespace MachOView

/-- An import as all three sources push it; on a 64-bit target
`usize::try_from` keeps the address. -/
def pushImport (view : MachOView) (library name : Text) (slotOff : Nat)
    (authenticated : Bool) (out : List RawImport) :
    Parse (List RawImport) := do
  let slot ← Checked.propagate (view.slotAddress slotOff)
  pure (out ++ [{
    library := library
    symbol := some (.name name)
    version := none
    slot := slot.toNat
    kind := .standard
    authenticated := authenticated }])

/-! ## The indirect symbol table -/

/-- What an undefined symbol of a symbol-pointer slot contributes. -/
def indirectSymbol (view : MachOView) (info : LoadInfo) (sec : PointerSection)
    (position nDesc : Nat) (raw : Text) (out : List RawImport) :
    Parse (List RawImport) :=
  match normalizeSymbolName raw with
  | none => pure out
  | some name =>
      if name = tlvBootstrap then pure out
      else do
        let skipped ← Checked.mul position ptrSize
        let slotOff ← Checked.require (checkedAdd sec.fileoff skipped)
          (.malformed "slot offset overflow")
        view.pushImport (libraryOf (nDesc / 256) info.dylibs) name slotOff
          view.isArm64e out

/-- One `nlist_64`. -/
def indirectNlist (view : MachOView) (info : LoadInfo) (table : Symtab)
    (sec : PointerSection) (position symIndex : Nat)
    (out : List RawImport) : Parse (List RawImport) := do
  Checked.ensure (symIndex < table.nsyms)
    (.malformed "indirect symbol index past nsyms")
  let skipped ← Checked.mul symIndex nlist64Size
  let nlist ← Checked.add table.symoff skipped
  let nStrx ← view.readU32 nlist
  let nType ← Checked.add nlist 4 >>= view.readByte
  let nDesc ← Checked.add nlist 6 >>= view.readU16
  if isImported nType then do
    let raw ← view.readStrInTable table.stroff table.strsize nStrx
    view.indirectSymbol info sec position nDesc raw out
  else pure out

/-- One slot of a symbol-pointer section. -/
def indirectSlot (view : MachOView) (info : LoadInfo) (table : Symtab)
    (indirect : Indirect) (sec : PointerSection) (position : Nat)
    (out : List RawImport) : Parse (List RawImport) := do
  let indirectIdx ← Checked.require (checkedAdd sec.indirectIndex position)
    (.malformed "indirect index overflow")
  Checked.ensure (indirectIdx < indirect.nindirectsyms)
    (.malformed "indirect index past nindirectsyms")
  let skipped ← Checked.mul indirectIdx 4
  let symIndex ← Checked.add indirect.indirectsymoff skipped >>= view.readU32
  if isSentinel symIndex then pure out
  else view.indirectNlist info table sec position symIndex out

/-- One symbol-pointer section. -/
def indirectSection (view : MachOView) (info : LoadInfo) (table : Symtab)
    (indirect : Indirect) (sec : PointerSection) (out : List RawImport) :
    Parse (List RawImport) := do
  Checked.ensure (sec.size / ptrSize ≤ maxIndirect)
    (.malformed "implausible symbol-pointer section length")
  forRange
    (fun position out => do
      let out ← view.indirectSlot info table indirect sec position out
      pure (.next out))
    pure (sec.size / ptrSize) 0 out

def parseIndirect (view : MachOView) (info : LoadInfo) :
    Parse (List RawImport) :=
  match info.symtab, info.indirect with
  | some table, some indirect =>
      forEach
        (fun sec out => do
          let out ← view.indirectSection info table indirect sec out
          pure (.next out))
        pure info.pointerSections []
  | _, _ => pure []

/-! ## Bind opcodes -/

/-- A cursor, the bits read so far, and the shift of the next ones. -/
structure Leb where
  cursor : Nat
  result : Nat
  shift : Nat

/-- The part that the loops of `uleb128` and `sleb128` share: the next byte,
with its seven bits added. -/
def lebByte (view : MachOView) (stop : Nat) (past long : String) (state : Leb) :
    Parse (UInt8 × Leb) := do
  Checked.ensure (state.cursor < stop) (.malformed past)
  let byte ← view.readByte state.cursor
  let cursor ← Checked.add state.cursor 1
  Checked.ensure (state.shift ≤ ulebMaxShift) (.malformed long)
  let bits ← Checked.shl (byte &&& 0x7f).toNat state.shift
  let shift ← Checked.add state.shift 7
  pure (byte, ⟨cursor, state.result ||| bits, shift⟩)

/-- No number has more than ten bytes; the eleventh is an error. -/
def lebRounds : Nat := 11

/-- The value and the cursor after it. -/
def uleb128 (view : MachOView) (cursor stop : Nat) : Parse (Nat × Nat) :=
  loop
    (fun state => do
      let read ← view.lebByte stop "ULEB128 runs past the bind stream"
        "ULEB128 overflow" state
      pure (if read.1 &&& 0x80 = 0 then .done (read.2.result, read.2.cursor)
        else .next read.2))
    lebRounds ⟨cursor, 0, 0⟩

/-- The last byte of a signed number carries its sign. -/
def signBits (byte : UInt8) (state : Leb) : Parse Nat :=
  if state.shift < 64 ∧ byte &&& 0x40 ≠ 0 then do
    let bits ← Checked.shl wordMax state.shift
    pure (state.result ||| bits)
  else pure state.result

def sleb128 (view : MachOView) (cursor stop : Nat) : Parse (Int × Nat) :=
  loop
    (fun state => do
      let read ← view.lebByte stop "SLEB128 runs past the bind stream"
        "SLEB128 overflow" state
      if read.1 &&& 0x80 = 0 then do
        let result ← signBits read.1 read.2
        pure (.done (asI64 result, read.2.cursor))
      else pure (.next read.2))
    lebRounds ⟨cursor, 0, 0⟩

end MachOView

structure BindState where
  segIndex : Nat
  segOffset : Nat
  libraryOrdinal : Int
  symbol : Option Text
  deriving DecidableEq, Repr

/-- `BIND_SPECIAL_DYLIB_SELF` and no symbol. -/
def BindState.start : BindState :=
  ⟨0, 0, 0, none⟩

/-- `wrapping_add` on the running offset. -/
def BindState.advance (state : BindState) (amount : Nat) : BindState :=
  { state with segOffset := wrappingAdd state.segOffset amount }

/-- The bind opcodes that the replay knows. -/
inductive BindOpcode where
  | done
  | setDylibOrdinalImm
  | setDylibOrdinalUleb
  | setDylibSpecialImm
  | setSymbolTrailingFlagsImm
  | setTypeImm
  | setAddendSleb
  | setSegmentAndOffsetUleb
  | addAddrUleb
  | doBind
  | doBindAddAddrUleb
  | doBindAddAddrImmScaled
  | doBindUlebTimesSkippingUleb
  deriving DecidableEq, Repr

/-- The opcode in the upper half of a byte. -/
def BindOpcode.ofByte (byte : UInt8) : Option BindOpcode :=
  let opcode := byte &&& 0xf0
  if opcode = 0x00 then some .done
  else if opcode = 0x10 then some .setDylibOrdinalImm
  else if opcode = 0x20 then some .setDylibOrdinalUleb
  else if opcode = 0x30 then some .setDylibSpecialImm
  else if opcode = 0x40 then some .setSymbolTrailingFlagsImm
  else if opcode = 0x50 then some .setTypeImm
  else if opcode = 0x60 then some .setAddendSleb
  else if opcode = 0x70 then some .setSegmentAndOffsetUleb
  else if opcode = 0x80 then some .addAddrUleb
  else if opcode = 0x90 then some .doBind
  else if opcode = 0xa0 then some .doBindAddAddrUleb
  else if opcode = 0xb0 then some .doBindAddAddrImmScaled
  else if opcode = 0xc0 then some .doBindUlebTimesSkippingUleb
  else none

/-- The operand in the lower half of a byte. -/
def bindImmediate (byte : UInt8) : Nat :=
  (byte &&& 0x0f).toNat

/-- A special ordinal, its four bits sign-extended; zero is the image. -/
def specialOrdinal (imm : Nat) : Int :=
  if imm = 0 then 0 else (imm : Int) - 16

/-- `i64::try_from(value).unwrap_or(i64::MAX)`. -/
def saturatingI64 (value : Nat) : Int :=
  if value < 2 ^ 63 then (value : Int) else 2 ^ 63 - 1

/-- A replay in progress: where it is, its registers, and what it found. -/
structure Replay where
  cursor : Nat
  state : BindState
  out : List RawImport

namespace MachOView

def emitBind (view : MachOView) (info : LoadInfo) (state : BindState)
    (out : List RawImport) : Parse (List RawImport) := do
  let name ← Checked.require state.symbol
    (.malformed "DO_BIND with no symbol set")
  if name = tlvBootstrap then pure out
  else do
    let segment ← Checked.require info.segments[state.segIndex]?
      (.malformed "bind segment index out of range")
    let slotOff ← Checked.require
      (checkedAdd segment.fileoff state.segOffset)
      (.malformed "bind slot offset overflow")
    view.pushImport (libraryOf state.libraryOrdinal info.dylibs) name slotOff
      false out

/-- `count` binds, `skip` bytes apart. -/
def emitTimes (view : MachOView) (info : LoadInfo) (count skip : Nat)
    (state : BindState) (out : List RawImport) :
    Parse (BindState × List RawImport) :=
  forRange
    (fun _ (running : BindState × List RawImport) => do
      let out ← view.emitBind info running.1 running.2
      pure (.next ((running.1.advance skip).advance ptrSize, out)))
    pure count 0 (state, out)

/-- One opcode, with the cursor behind its byte. -/
def replayOpcode (view : MachOView) (info : LoadInfo) (stop imm : Nat)
    (replay : Replay) : BindOpcode → Parse Replay
  | .done => pure replay
  | .setTypeImm => pure replay
  | .setDylibOrdinalImm =>
      pure { replay with
        state := { replay.state with libraryOrdinal := imm } }
  | .setDylibOrdinalUleb => do
      let (value, cursor) ← view.uleb128 replay.cursor stop
      pure { replay with
        cursor := cursor
        state := { replay.state with libraryOrdinal := saturatingI64 value } }
  | .setDylibSpecialImm =>
      pure { replay with
        state := { replay.state with libraryOrdinal := specialOrdinal imm } }
  | .setSymbolTrailingFlagsImm => do
      let (name, nameBytes) ← view.readCstrRaw replay.cursor
      let taken ← Checked.add nameBytes 1
      let cursor ← Checked.add replay.cursor taken
      pure { replay with
        cursor := cursor
        state := { replay.state with symbol := normalizeSymbolName name } }
  | .setAddendSleb => do
      let (_, cursor) ← view.sleb128 replay.cursor stop
      pure { replay with cursor := cursor }
  | .setSegmentAndOffsetUleb => do
      let (offset, cursor) ← view.uleb128 replay.cursor stop
      pure { replay with
        cursor := cursor
        state := { replay.state with segIndex := imm, segOffset := offset } }
  | .addAddrUleb => do
      let (amount, cursor) ← view.uleb128 replay.cursor stop
      pure { replay with
        cursor := cursor
        state := replay.state.advance amount }
  | .doBind => do
      let out ← view.emitBind info replay.state replay.out
      pure { replay with
        state := replay.state.advance ptrSize
        out := out }
  | .doBindAddAddrUleb => do
      let out ← view.emitBind info replay.state replay.out
      let (amount, cursor) ← view.uleb128 replay.cursor stop
      pure {
        cursor := cursor
        state := (replay.state.advance amount).advance ptrSize
        out := out }
  | .doBindAddAddrImmScaled => do
      let out ← view.emitBind info replay.state replay.out
      pure { replay with
        -- an immediate is less than 16, so the product does not wrap
        state := (replay.state.advance (imm * ptrSize)).advance ptrSize
        out := out }
  | .doBindUlebTimesSkippingUleb => do
      let (count, cursor) ← view.uleb128 replay.cursor stop
      let (skip, cursor) ← view.uleb128 cursor stop
      Checked.ensure (count ≤ maxChainSteps)
        (.malformed "implausible bind repeat count")
      let (state, out) ← view.emitTimes info count skip replay.state
        replay.out
      pure ⟨cursor, state, out⟩

/-- One round of the replay. -/
def replayStep (view : MachOView) (info : LoadInfo) (stop : Nat)
    (replay : Replay) : Parse Replay := do
  let byte ← view.readByte replay.cursor
  let cursor ← Checked.add replay.cursor 1
  let opcode ← Checked.require (BindOpcode.ofByte byte)
    (.malformed "unknown bind opcode")
  view.replayOpcode info stop (bindImmediate byte)
    { replay with cursor := cursor } opcode

/-- The imports of one stream, after those found before it. -/
def parseBindStream (view : MachOView) (info : LoadInfo) (stream : Blob)
    (out : List RawImport) : Parse (List RawImport) := do
  Checked.ensure (stream.size ≤ maxBindBytes)
    (.malformed "implausible bind-stream size")
  let stop ← Checked.require (checkedAdd stream.off stream.size)
    (.malformed "bind stream overflow")
  loop
    (fun replay =>
      if replay.cursor < stop then do
        let replay ← view.replayStep info stop replay
        pure (.next replay)
      else pure (.done replay.out))
    (stream.size + 1) ⟨stream.off, .start, out⟩

/-- `try_for_each` over the bind streams. -/
def parseBindStreams (view : MachOView) (info : LoadInfo) :
    Parse (List RawImport) :=
  forEach
    (fun stream out => do
      let out ← view.parseBindStream info stream out
      pure (.next out))
    pure info.binds []

end MachOView

/-! ## Chained fixups -/

structure ChainEntry where
  isBind : Bool
  ordinal : Nat
  authenticated : Bool
  next : Nat
  deriving DecidableEq, Repr

/-- A bit of a raw chain value. -/
def chainBit (raw : UInt64) (position : Nat) : Bool :=
  (raw.toNat >>> position) &&& 1 = 1

def decodeChain (raw : UInt64) (format : Nat) : Option ChainEntry :=
  if format = 2 ∨ format = 6 then
    let isBind := chainBit raw 63
    some {
      isBind := isBind
      ordinal := if isBind then raw.toNat &&& 0xffffff else 0
      authenticated := false
      next := ((raw.toNat >>> 51) &&& 0xfff) * 4 }
  else if format = 1 ∨ format = 7 ∨ format = 9 ∨ format = 10 ∨
      format = 12 then
    some {
      isBind := chainBit raw 62
      -- the ordinal of `USERLAND24` has 24 bits, the others have 16
      ordinal := raw.toNat &&& (if format = 12 then 0xffffff else 0xffff)
      authenticated := chainBit raw 63
      -- the stride of `KERNEL` and `FIRMWARE` is 4
      next := ((raw.toNat >>> 51) &&& 0x7ff) *
        (if format = 7 ∨ format = 10 then 4 else 8) }
  else none

structure ImportsTable where
  base : Nat
  count : Nat
  format : Nat
  symbolsBase : Nat
  blobEnd : Nat
  deriving DecidableEq, Repr

/-- The low `bits` bits of a word as a signed number. -/
def signExtend (value bits : Nat) : Parse Int := do
  let shift ← Checked.sub 64 bits
  let shifted ← Checked.shl value shift
  pure (asI64 shifted >>> shift)

namespace MachOView

/-- Name offset and library ordinal of a 32-bit record word. -/
def narrowRecord (view : MachOView) (off : Nat) : Parse (Nat × Int) := do
  let word ← view.readU32 off
  let ordinal ← signExtend (word &&& 0xff) 8
  pure ((word >>> 9) &&& 0x7fffff, ordinal)

/-- Name offset and library ordinal of a 64-bit record word. -/
def wideRecord (view : MachOView) (off : Nat) : Parse (Nat × Int) := do
  let word ← view.readU64 off
  let ordinal ← signExtend (word &&& 0xffff) 16
  pure ((word >>> 32) &&& 0xffffffff, ordinal)

/-- The record of an import; the format implies its stride. -/
def importRecord (view : MachOView) (imports : ImportsTable)
    (ordinal : Nat) : Parse (Nat × Int) :=
  if imports.format = 1 then do
    let skipped ← Checked.mul ordinal 4
    Checked.add imports.base skipped >>= view.narrowRecord
  else if imports.format = 2 then do
    let skipped ← Checked.mul ordinal 8
    Checked.add imports.base skipped >>= view.narrowRecord
  else if imports.format = 3 then do
    let skipped ← Checked.mul ordinal 16
    Checked.add imports.base skipped >>= view.wideRecord
  else malformed "unsupported chained-fixups imports_format"

/-- `ImportsTable::resolve`. -/
def resolve (view : MachOView) (imports : ImportsTable) (ordinal : Nat)
    (dylibs : List Text) : Parse (Text × Option Text) := do
  Checked.ensure (ordinal < imports.count)
    (.malformed "chained-fixups import ordinal out of range")
  let (nameOff, libOrdinal) ← view.importRecord imports ordinal
  let nameAddr ← Checked.require (checkedAdd imports.symbolsBase nameOff)
    (.malformed "chained-fixups name offset overflow")
  Checked.ensure (nameAddr < imports.blobEnd)
    (.malformed "chained-fixups name offset past blob")
  let name ← view.readCstr nameAddr
  pure (libraryOf libOrdinal dylibs, normalizeSymbolName name)

/-- What a bind entry of a chain contributes. -/
def chainBind (view : MachOView) (info : LoadInfo) (imports : ImportsTable)
    (offset : Nat) (entry : ChainEntry) (out : List RawImport) :
    Parse (List RawImport) :=
  if entry.isBind then do
    let (library, found) ← view.resolve imports entry.ordinal info.dylibs
    match found.filter (· ≠ tlvBootstrap) with
    | none => pure out
    | some name => view.pushImport library name offset entry.authenticated out
  else pure out

/-- One step of a chain. -/
def chainStep (view : MachOView) (info : LoadInfo) (imports : ImportsTable)
    (format : Nat) (state : Nat × List RawImport) :
    Parse (Round (Nat × List RawImport) (List RawImport)) := do
  let raw ← Checked.propagate (view.readSlotEncoding state.1)
  let entry ← Checked.require (decodeChain raw format)
    (.unsupported "unsupported chained-pointer format")
  let out ← view.chainBind info imports state.1 entry state.2
  if entry.next = 0 then pure (.done out)
  else do
    let offset ← Checked.require (checkedAdd state.1 entry.next)
      (.malformed "fixup chain offset overflow")
    pure (.next (offset, out))

/-- The offset of the first fixup of a page. -/
def pageOffset (segmentOffset skipped pageStart : Nat) : Option Nat :=
  (checkedAdd segmentOffset skipped).bind fun page =>
    checkedAdd page pageStart

/-- The chain of one page; a chain that does not end is cut off. -/
def walkPage (view : MachOView) (info : LoadInfo) (imports : ImportsTable)
    (segStarts pageSize format segmentOffset position : Nat)
    (out : List RawImport) : Parse (List RawImport) := do
  let table ← Checked.add segStarts 22
  let skipped ← Checked.mul position 2
  let pageStart ← Checked.add table skipped >>= view.readU16
  if pageStart = dyldChainedPtrStartNone then pure out
  else do
    let pages ← Checked.mul position pageSize
    let offset ← Checked.require (pageOffset segmentOffset pages pageStart)
      (.malformed "fixup page offset overflow")
    forRange (fun _ => view.chainStep info imports format)
      (fun state => pure state.2) maxChainSteps 0 (offset, out)

def walkSegmentChains (view : MachOView) (info : LoadInfo)
    (imports : ImportsTable) (segStarts : Nat) (out : List RawImport) :
    Parse (List RawImport) := do
  let pageSize ← Checked.add segStarts 4 >>= view.readU16
  let format ← Checked.add segStarts 6 >>= view.readU16
  let segmentOffset ← Checked.add segStarts 8 >>= view.readU64
  let pageCount ← Checked.add segStarts 20 >>= view.readU16
  Checked.ensure (pageSize ≠ 0) (.malformed "zero fixup page size")
  forRange
    (fun position out => do
      let out ← view.walkPage info imports segStarts pageSize format
        segmentOffset position out
      pure (.next out))
    pure pageCount 0 out

/-- One segment of the image. -/
def segmentFixups (view : MachOView) (info : LoadInfo)
    (imports : ImportsTable) (starts position : Nat)
    (out : List RawImport) : Parse (List RawImport) := do
  let table ← Checked.add starts 4
  let skipped ← Checked.mul position 4
  let segInfoOffset ← Checked.add table skipped >>= view.readU32
  if segInfoOffset = 0 then pure out
  else do
    let segStarts ← Checked.require (checkedAdd starts segInfoOffset)
      (.malformed "segment starts overflow")
    view.walkSegmentChains info imports segStarts out

/-- The part of `parse_chained_fixups` that needs the file. -/
def walkFixups (view : MachOView) (info : LoadInfo) (blob : Blob) :
    Parse (List RawImport) := do
  let blobEnd ← Checked.require (checkedAdd blob.off blob.size)
    (.malformed "chained blob overflow")
  Checked.ensure (28 ≤ blob.size)
    (.malformed "truncated chained-fixups header")
  let fixupsVersion ← view.readU32 blob.off
  Checked.ensure (fixupsVersion = 0)
    (.unsupported "unknown chained-fixups version")
  let startsOffset ← Checked.add blob.off 4 >>= view.readU32
  let importsOffset ← Checked.add blob.off 8 >>= view.readU32
  let symbolsOffset ← Checked.add blob.off 12 >>= view.readU32
  let importsCount ← Checked.add blob.off 16 >>= view.readU32
  let importsFormat ← Checked.add blob.off 20 >>= view.readU32
  let base ← Checked.require (checkedAdd blob.off importsOffset)
    (.malformed "imports off overflow")
  let symbolsBase ← Checked.require (checkedAdd blob.off symbolsOffset)
    (.malformed "symbols off overflow")
  let starts ← Checked.require (checkedAdd blob.off startsOffset)
    (.malformed "starts off overflow")
  let segCount ← view.readU32 starts
  Checked.ensure (segCount ≤ maxFixupSegments)
    (.malformed "implausible fixup segment count")
  forRange
    (fun position out => do
      let out ← view.segmentFixups info
        ⟨base, importsCount, importsFormat, symbolsBase, blobEnd⟩ starts
        position out
      pure (.next out))
    pure segCount 0 []

/-- Without the original file there are no chains to walk. -/
def parseChainedFixups (view : MachOView) (info : LoadInfo) (blob : Blob) :
    Parse (List RawImport) :=
  if view.fileBacked then view.walkFixups info blob else pure []

/-- Chained fixups, or else the bind streams. -/
def parseComplement (view : MachOView) (info : LoadInfo) :
    Parse (List RawImport) :=
  match info.chained with
  | some blob => view.parseChainedFixups info blob
  | none => view.parseBindStreams info

end MachOView

/-! ## Merging -/

/-- `slot_to_index`: for every slot, the first import that has it. -/
def slotToIndex (imports : List RawImport) : Store Nat Nat :=
  imports.zipIdx.foldl
    (fun store item =>
      match store.lookup item.1.slot with
      | some _ => store
      | none => store.insert item.1.slot item.2)
    ∅

/-- One import of the complement. -/
def mergeOne (state : Store Nat Nat × List RawImport) (found : RawImport) :
    Store Nat Nat × List RawImport :=
  match state.1.lookup found.slot with
  | some position =>
      (state.1, state.2.modify position fun existing =>
        { existing with authenticated := found.authenticated })
  | none =>
      (state.1.insert found.slot state.2.length, state.2 ++ [found])

def mergeComplement (out complement : List RawImport) : List RawImport :=
  (complement.foldl mergeOne (slotToIndex out, out)).2

/-- `retain(|import| seen.insert(import.slot))`. -/
def retainFirst : List Nat → List RawImport → List RawImport
  | _, [] => []
  | seen, found :: rest =>
      if found.slot ∈ seen then retainFirst seen rest
      else found :: retainFirst (found.slot :: seen) rest

/-- The primary imports, refined by a complement that could be parsed. -/
def adoptComplement (out : List RawImport) :
    Except ParseError (List RawImport) → List RawImport
  | .ok complement => mergeComplement out complement
  | .error _ => out

namespace MachOView

def parseImports (view : MachOView) : Parse (List RawImport) := do
  Checked.ensure (machoCpuSupported view.cpuType = true)
    (.unsupported "Mach-O cputype is not x86-64 or arm64")
  let info ← view.readLoadCommands
  let primary ← view.parseIndirect info
  let complement ← Checked.attempt (view.parseComplement info)
  pure (retainFirst [] (adoptComplement primary complement))

end MachOView

end Hookfs.Plthook.MachO
