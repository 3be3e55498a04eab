import Hookfs.Plthook.MachOChains
import Hookfs.Plthook.MachOLive

/-!
# Where dyld applies the fixups

`segment_offset` of a chain is an offset in memory, from the header of the
image.  The walk takes it for an offset in the file.  The two agree on a fixup
if and only if the segment that holds the offset in the file is as far behind
the header in memory as it is in the file.
-/

namespace Hookfs.Plthook.MachO

open Hookfs.Lib Hookfs.Posix Hookfs.Plthook

namespace MachOView

variable {view : MachOView} {info : LoadInfo} {imports : ImportsTable}

/-- The slot of a bind is the address of its offset. -/
theorem slot_of_chainBind {offset : Nat} {entry : ChainEntry}
    {founds : List RawImport}
    (bound : view.chainBind info imports offset entry [] = .ok founds) :
    ∀ found ∈ founds, ∃ address,
      view.slotAddress offset = .ok address ∧
        found.slot = address.toNat := by
  intro found member
  unfold chainBind at bound
  split at bound
  · obtain ⟨resolved, _, bound⟩ := Checked.eq_ok_of_bind bound
    obtain ⟨library, name⟩ := resolved
    simp only at bound
    split at bound
    · rw [← Except.ok.inj bound] at member
      cases member
    · obtain ⟨address, given, rfl⟩ := pushImport_eq_ok_iff.mp bound
      have same := List.mem_singleton.mp member
      exact ⟨address, given, same ▸ rfl⟩
  · rw [← Except.ok.inj bound] at member
    cases member

/-- An item that has the address of its place as its slot. -/
def Located (view : MachOView) (item : Place × RawImport) : Prop :=
  ∃ address, view.slotAddress item.1.offset = .ok address ∧
    item.2.slot = address.toNat

theorem located_of_bind {place : Place} {entry : ChainEntry}
    {founds : List RawImport}
    (bound : view.chainBind info imports place.offset entry [] =
      .ok founds) :
    ∀ item ∈ founds.map fun found => (place, found),
      view.Located item := by
  intro item member
  obtain ⟨found, foundMember, rfl⟩ := List.mem_map.mp member
  exact slot_of_chainBind bound found foundMember

theorem Chain.located {format rounds : Nat} {place : Place}
    {emitted : List (Place × RawImport)}
    (run : view.Chain info imports format rounds place emitted) :
    ∀ item ∈ emitted, view.Located item := by
  induction run with
  | cut place =>
      exact nofun
  | last encoded decoded bound ends =>
      exact located_of_bind bound
  | more encoded decoded bound goesOn fits rest inductionHypothesis =>
      intro item member
      rcases List.mem_append.mp member with here | later
      · exact located_of_bind bound item here
      · exact inductionHypothesis item later

theorem Pages.located {starts : SegmentStarts} {segStarts count page : Nat}
    {emitted : List (Place × RawImport)}
    (pages : view.Pages info imports starts segStarts count page emitted) :
    ∀ item ∈ emitted, view.Located item := by
  induction pages with
  | done page =>
      exact nofun
  | next here rest inductionHypothesis =>
      intro item member
      rcases List.mem_append.mp member with first | later
      · cases here with
        | none none =>
            cases first
        | chain start present fits run =>
            exact run.located item first
      · exact inductionHypothesis item later

end MachOView

namespace Module

variable (live : Module)

/-- The eight bytes of the file at an offset are mapped at an address. -/
def Backs (address off : Nat) : Prop :=
  ∃ seg ∈ live.segments, ∃ within,
    within + ptrSize ≤ seg.filesize ∧ off = seg.fileoff + within ∧
      address = wrappingAddSigned (seg.vmaddr + within) live.slide

/-- The slot is where dyld applies the fixup: as far behind the header as the
place says, and the encoding, which is read at that offset of the file, is
what is mapped there. -/
def AtDyldAddress (item : Place × RawImport) : Prop :=
  item.2.slot = wrappingAdd live.base item.1.offset ∧
    live.Backs (wrappingAdd live.base item.1.offset) item.1.offset

/-- The segment that holds an offset of the file is as far behind the header
in memory as it is in the file. -/
def MappedAlike (off : Nat) : Prop :=
  ∀ seg,
    live.segments.find? (fun seg => FileView.containsFileoff seg off) =
      some seg →
    wrappingAddSigned seg.vmaddr live.slide =
      wrappingAdd live.base seg.fileoff

variable {live}

theorem atDyldAddress_iff {item : Place × RawImport}
    (located : live.toView.Located item) :
    live.AtDyldAddress item ↔ live.MappedAlike item.1.offset := by
  obtain ⟨slot, given, slotEq⟩ := located
  have address := (exists_of_slotAddress given).1
  obtain ⟨seg, found, inside, fits, addressEq⟩ := locate_eq_ok_iff.mp address
  have member := List.mem_of_find?_eq_some found
  have contains := List.find?_some found
  unfold FileView.containsFileoff at contains
  rw [Bool.and_eq_true, decide_eq_true_eq, decide_eq_true_eq] at contains
  have room : saturatingAdd seg.fileoff seg.filesize ≤
      seg.fileoff + seg.filesize := Nat.min_le_left _ _
  have alike : live.MappedAlike item.1.offset ↔
      wrappingAddSigned seg.vmaddr live.slide =
        wrappingAdd live.base seg.fileoff := by
    constructor
    · intro every
      exact every seg found
    · intro holds other otherFound
      rw [found] at otherFound
      rw [← Option.some.inj otherFound]
      exact holds
  rw [alike]
  unfold AtDyldAddress
  rw [slotEq, addressEq]
  unfold wrappingAddSigned wrappingAdd
  constructor
  · intro given
    omega
  · intro holds
    have same : (((seg.vmaddr + (item.1.offset - seg.fileoff) : Nat) +
        live.slide) % 2 ^ 64).toNat =
          (live.base + item.1.offset) % 2 ^ 64 := by
      omega
    refine ⟨same, seg, member, item.1.offset - seg.fileoff, by omega,
      by omega, ?_⟩
    unfold wrappingAddSigned
    rw [same]

end Module

/-- For every live image: the walk of a segment returns what its chains emit,
and all of it is at the addresses of dyld if and only if every emitted fixup
lies in a segment that is mapped as it is in the file. -/
theorem chained_slots_at_dyld_addresses_iff (live : Module)
    (info : LoadInfo) (imports : ImportsTable) (segStarts : Nat) :
    (∀ found,
      live.toView.walkSegmentChains info imports segStarts [] = .ok found →
      ∃ emitted, live.toView.Emits info imports segStarts emitted ∧
        found = emitted.map Prod.snd) ∧
    ∀ emitted, live.toView.Emits info imports segStarts emitted →
      live.toView.walkSegmentChains info imports segStarts [] =
        .ok (emitted.map Prod.snd) ∧
      ((∀ item ∈ emitted, live.AtDyldAddress item) ↔
        ∀ item ∈ emitted, live.MappedAlike item.1.offset) := by
  constructor
  · intro found walked
    exact MachOView.walkSegmentChains_eq_ok_iff.mp walked
  · intro emitted emits
    have walked := MachOView.walkSegmentChains_eq_ok_iff.mpr
      ⟨emitted, emits, (List.nil_append _).symm⟩
    obtain ⟨starts, _, pages⟩ := emits
    have each := fun item member =>
      Module.atDyldAddress_iff (pages.located item member)
    refine ⟨walked, ?_⟩
    constructor
    · intro holds item member
      exact (each item member).mp (holds item member)
    · intro holds item member
      exact (each item member).mpr (holds item member)

/-- An image whose chain has one bind, at `segment_offset` 768; its file holds
that word at 512 and at 768. -/
def oneBind (segments : List Segment) : Module where
  base := 4096
  slide := 0
  segments := segments
  cpuType := cpuTypeX8664
  cpuSubtype := 3
  file := some {
    bytes := toLittleEndian 512 mhMagic64 ++ toLittleEndian 256 (2 ^ 63) ++
      toLittleEndian 256 (2 ^ 63)
    short := by
      simp only [List.length_append, length_toLittleEndian]
      decide }
  memory address :=
    -- at 64 the starts of the segment, at 100 an import, at 104 its name
    (toLittleEndian 68 0 ++ toLittleEndian 2 4096 ++ toLittleEndian 2 6 ++
      toLittleEndian 12 768 ++ toLittleEndian 2 1 ++ toLittleEndian 14 0 ++
      toLittleEndian 4 1 ++ [0x5f, 0x66, 0]).getD (address - 4096) 0

def oneImportTable : ImportsTable :=
  ⟨100, 1, 1, 104, 107⟩

def firstPlace : Place :=
  ⟨768, 4096, 0, 0, []⟩

/-- The import with the given slot. -/
def importAt (slot : Nat) : RawImport :=
  ⟨[], some (.name ['f']), none, slot, .standard, false⟩

/-- All of it is mapped as it is in the file. -/
def plainImage : Module :=
  oneBind [⟨4096, 1024, 0, 1024⟩]

/-- 256 bytes of the second segment are in memory only. -/
def bssImage : Module :=
  oneBind [⟨4096, 256, 0, 256⟩, ⟨4352, 512, 256, 256⟩, ⟨4864, 512, 512, 512⟩]

theorem emits_firstPlace {live : Module} {found : RawImport}
    (header : live.toView.Starts 64 ⟨4096, 6, 768, 1⟩)
    (start : live.toView.pageStartAt 64 0 = .ok 0)
    (encoded : live.readSlotEncoding 768 = .ok (UInt64.ofNat (2 ^ 63)))
    (bound : live.toView.chainBind default oneImportTable 768
      ⟨true, 0, false, 0⟩ [] = .ok [found]) :
    live.toView.Emits default oneImportTable 64 [(firstPlace, found)] := by
  have rounds : maxChainSteps = maxChainSteps - 1 + 1 := by decide
  have offset : 768 = firstPlace.offset := by decide
  have decoded : decodeChain (UInt64.ofNat (2 ^ 63)) 6 =
      some ⟨true, 0, false, 0⟩ := by decide
  rw [offset] at encoded bound
  have run : live.toView.Chain default oneImportTable 6 maxChainSteps
      firstPlace [(firstPlace, found)] := by
    rw [rounds]
    exact .last encoded decoded bound rfl
  have page : live.toView.Page default oneImportTable ⟨4096, 6, 768, 1⟩ 64 0
      [(firstPlace, found)] :=
    .chain start (by decide) (by decide) run
  exact ⟨⟨4096, 6, 768, 1⟩, header, .next page (.done 1)⟩

/-- In the plain image the bind is at 4096 + 768. -/
theorem chained_slots_at_dyld_addresses_iff_plain :
    plainImage.toView.walkSegmentChains default oneImportTable 64 [] =
        .ok [importAt 4864] ∧
      plainImage.AtDyldAddress (firstPlace, importAt 4864) := by
  have header : plainImage.toView.Starts 64 ⟨4096, 6, 768, 1⟩ :=
    ⟨by decide +kernel, by decide +kernel, by decide +kernel,
      by decide +kernel, by decide⟩
  have emits : plainImage.toView.Emits default oneImportTable 64
      [(firstPlace, importAt 4864)] :=
    emits_firstPlace header (by decide +kernel) (by decide +kernel)
      (by decide +kernel)
  obtain ⟨walked, placed⟩ := (chained_slots_at_dyld_addresses_iff plainImage
    default oneImportTable 64).2 _ emits
  refine ⟨walked, placed.mpr ?_ _ (List.mem_singleton_self _)⟩
  intro item member seg found
  rw [List.mem_singleton.mp member] at found
  have first : plainImage.segments.find? (fun seg =>
      FileView.containsFileoff seg 768) = some ⟨4096, 1024, 0, 1024⟩ := by
    decide
  have same := Option.some.inj (first.symm.trans found)
  rw [← same]
  decide

/-- dyld applies the fixup at 4096 + 768 = 4864; the walk emits the slot 256
bytes behind. -/
theorem bssImage_slot_misplaced :
    bssImage.toView.walkSegmentChains default oneImportTable 64 [] =
        .ok [importAt 5120] ∧
      ¬∀ (live : Module) (info : LoadInfo) (imports : ImportsTable)
        (segStarts : Nat) (emitted : List (Place × RawImport)),
        live.toView.Emits info imports segStarts emitted →
          ∀ item ∈ emitted, live.AtDyldAddress item := by
  have header : bssImage.toView.Starts 64 ⟨4096, 6, 768, 1⟩ :=
    ⟨by decide +kernel, by decide +kernel, by decide +kernel,
      by decide +kernel, by decide⟩
  have emits : bssImage.toView.Emits default oneImportTable 64
      [(firstPlace, importAt 5120)] :=
    emits_firstPlace header (by decide +kernel) (by decide +kernel)
      (by decide +kernel)
  constructor
  · exact MachOView.walkSegmentChains_eq_ok_iff.mpr ⟨_, emits, rfl⟩
  · intro every
    have slot := (every _ _ _ _ _ emits _ (List.mem_singleton_self _)).1
    exact absurd slot (by decide)

end Hookfs.Plthook.MachO
