import Hookfs.Plthook.MachOEncoding

/-!
# Chained fixups in bytes

The chains of an image and its imports table, as data; their bytes, wherever
the header of the blob places them; and what the parser has to find in them.
-/

namespace Hookfs.Plthook.MachO

open Hookfs.Lib Hookfs.Posix Hookfs.Plthook

/-! ## Records -/

/-- Fields of a record, each with its width in bytes. -/
def recordBytes : List (Nat × Nat) → List UInt8
  | [] => []
  | field :: rest =>
      toLittleEndian field.1 field.2 ++ recordBytes rest

theorem length_recordBytes (fields : List (Nat × Nat)) :
    (recordBytes fields).length = (fields.map Prod.fst).sum := by
  induction fields with
  | nil =>
      rfl
  | cons field rest inductionHypothesis =>
      rw [recordBytes, List.length_append, length_toLittleEndian,
        inductionHypothesis, List.map_cons, List.sum_cons]

/-! ## Chains -/

/-- The chain of a page: only its last entry has no next one. -/
inductive LinkChain (format : PointerFormat) where
  | last (link : Link format) (ends : link.next = 0)
  | more (link : Link format) (goesOn : link.next ≠ 0)
      (rest : LinkChain format)

namespace LinkChain

variable {format : PointerFormat}

def length : LinkChain format → Nat
  | .last _ _ => 1
  | .more _ _ rest => rest.length + 1

/-- The entries, each with its offset in the file. -/
def slots : LinkChain format → Nat → List (Nat × Link format)
  | .last link _, offset => [(offset, link)]
  | .more link _ rest, offset =>
      (offset, link) :: rest.slots (offset + link.next * format.stride)

/-- The first entry is at the start. -/
theorem exists_mem_slots (chain : LinkChain format) (offset : Nat) :
    ∃ link, (offset, link) ∈ chain.slots offset := by
  cases chain with
  | last link ends =>
      exact ⟨link, List.mem_cons_self⟩
  | more link goesOn rest =>
      exact ⟨link, List.mem_cons_self⟩

end LinkChain

structure PageChain (format : PointerFormat) where
  start : Nat
  single : start < 0x8000
  chain : LinkChain format
  short : chain.length < maxChainSteps

/-- `page_start`. -/
def pageStart {format : PointerFormat} : Option (PageChain format) → Nat
  | none => dyldChainedPtrStartNone
  | some page => page.start

/-- A segment with fixups, and where its `dyld_chained_starts_in_segment`
is. -/
structure FixupSegment where
  infoOffset : Nat
  size : Nat
  pageSize : Nat
  format : PointerFormat
  segmentOffset : Nat
  maxValidPointer : Nat
  pages : List (Option (PageChain format))
  somewhere : infoOffset ≠ 0
  near : infoOffset < 2 ^ 32
  paged : pageSize ≠ 0
  small : pageSize < 2 ^ 16
  word : segmentOffset < 2 ^ 64
  few : pages.length < 2 ^ 16

namespace FixupSegment

variable (segment : FixupSegment)

def starts : MachOView.SegmentStarts where
  pageSize := segment.pageSize
  format := segment.format.number
  segmentOffset := segment.segmentOffset
  pageCount := segment.pages.length

def headerFields : List (Nat × Nat) :=
  [(4, segment.size), (2, segment.pageSize), (2, segment.format.number),
    (8, segment.segmentOffset), (4, segment.maxValidPointer),
    (2, segment.pages.length)]

def bytes : List UInt8 :=
  recordBytes segment.headerFields ++
    segment.pages.flatMap fun page => toLittleEndian 2 (pageStart page)

/-- The fixups of the pages from one on. -/
def slotsFrom : List (Option (PageChain segment.format)) → Nat →
    List (Nat × Link segment.format)
  | [], _ => []
  | none :: rest, page => slotsFrom rest (page + 1)
  | some first :: rest, page =>
      first.chain.slots (segment.starts.place page first.start).offset ++
        slotsFrom rest (page + 1)

/-- All fixups: `segment_offset` is taken for an offset in the file. -/
def slots : List (Nat × Link segment.format) :=
  segment.slotsFrom segment.pages 0

end FixupSegment

/-! ## The blob -/

/-- Chains, imports and the places of both in the blob. -/
structure ChainedFixups where
  startsOffset : Nat
  importsOffset : Nat
  symbolsOffset : Nat
  importsFormat : ImportsFormat
  symbolsFormat : Nat
  imports : List (ImportRecord importsFormat)
  segments : List (Option FixupSegment)
  nearStarts : startsOffset < 2 ^ 32
  nearImports : importsOffset < 2 ^ 32
  nearSymbols : symbolsOffset < 2 ^ 32
  fewImports : imports.length < 2 ^ 32
  fewSegments : segments.length ≤ maxFixupSegments
  bound : ∀ segment, some segment ∈ segments → ∀ slot ∈ segment.slots,
    ∀ ordinal, slot.2.fixup.ordinal = some ordinal →
      ordinal < imports.length

namespace ChainedFixups

variable (fixups : ChainedFixups)

/-- `dyld_chained_fixups_header`. -/
def headerFields : List (Nat × Nat) :=
  [(4, 0), (4, fixups.startsOffset), (4, fixups.importsOffset),
    (4, fixups.symbolsOffset), (4, fixups.imports.length),
    (4, fixups.importsFormat.number), (4, fixups.symbolsFormat)]

/-- `seg_info_offset`. -/
def infoOffset : Option FixupSegment → Nat
  | none => 0
  | some segment => segment.infoOffset

/-- `dyld_chained_starts_in_image`. -/
def startsBytes : List UInt8 :=
  recordBytes [(4, fixups.segments.length)] ++
    fixups.segments.flatMap fun segment =>
      toLittleEndian 4 (infoOffset segment)

/-- The import of a fixup, if it is a bind whose symbol has a name that is
not that of the TLS bootstrap. -/
def found (info : LoadInfo) (address : Nat → UInt64) (offset : Nat)
    (fixup : Fixup) : Option RawImport := do
  let ordinal ← fixup.ordinal
  let record ← fixups.imports[ordinal]?
  let name ← (normalizeSymbolName record.name).filter (· ≠ tlvBootstrap)
  some ⟨libraryOf record.ordinal info.dylibs, some (.name name), none,
    (address offset).toNat, .standard, fixup.authenticated⟩

def segmentBinds (info : LoadInfo) (address : Nat → UInt64) :
    Option FixupSegment → List RawImport
  | none => []
  | some segment => segment.slots.filterMap fun slot =>
      fixups.found info address slot.1 slot.2.fixup

/-- The imports of all binds, in the order of their chains. -/
def binds (info : LoadInfo) (address : Nat → UInt64) : List RawImport :=
  fixups.segments.flatMap (fixups.segmentBinds info address)

end ChainedFixups

/-- These bytes, inside the blob. -/
def MachOView.HoldsAt (view : MachOView) (blob : Blob) (off : Nat)
    (bytes : List UInt8) : Prop :=
  view.Shows (blob.off + off) bytes ∧ off + bytes.length ≤ blob.size

/-- The view shows the blob and the chains: every structure is where the
header says, and every fixup is encoded at its offset in the file. -/
structure MachOView.Encodes (view : MachOView) (blob : Blob)
    (fixups : ChainedFixups) : Prop where
  backed : view.fileBacked = true
  word : blob.off + blob.size < 2 ^ 64
  header : view.HoldsAt blob 0 (recordBytes fixups.headerFields)
  starts : view.HoldsAt blob fixups.startsOffset fixups.startsBytes
  segments : ∀ segment, some segment ∈ fixups.segments →
    view.HoldsAt blob (fixups.startsOffset + segment.infoOffset)
      segment.bytes
  imports : view.HoldsAt blob fixups.importsOffset
    (fixups.imports.flatMap ImportRecord.bytes)
  pool : fixups.symbolsOffset ≤ blob.size
  names : ∀ record ∈ fixups.imports,
    view.HoldsAt blob (fixups.symbolsOffset + record.nameOffset)
      (record.rawName.bytes ++ [0])
  slots : ∀ segment, some segment ∈ fixups.segments →
    ∀ slot ∈ segment.slots, slot.1 < 2 ^ 64 ∧
      view.readSlotEncoding slot.1 = .ok slot.2.raw

/-- The view maps every bind to its address. -/
def MachOView.MapsBinds (view : MachOView) (fixups : ChainedFixups)
    (address : Nat → UInt64) : Prop :=
  ∀ segment, some segment ∈ fixups.segments → ∀ slot ∈ segment.slots,
    slot.2.fixup.isBind = true →
      view.slotAddress slot.1 = .ok (address slot.1)

end Hookfs.Plthook.MachO
