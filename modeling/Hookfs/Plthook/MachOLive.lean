import Hookfs.Plthook.MachOImports

/-!
# Live Mach-O images

The view of an image that dyld has loaded: its load commands are read from
memory behind the header, its metadata from memory through the segment table,
and its chain encodings from the file on disk.
-/

namespace Hookfs.Plthook.MachO

open Hookfs.Lib Hookfs.Posix Hookfs.Plthook

/-- `wrapping_add_signed` on 64-bit words. -/
def wrappingAddSigned (word : Nat) (offset : Int) : Nat :=
  ((word + offset) % 2 ^ 64).toNat

theorem wrappingAddSigned_lt (word : Nat) (offset : Int) :
    wrappingAddSigned word offset < 2 ^ 64 := by
  unfold wrappingAddSigned
  omega

theorem wrappingAddSigned_eq {word sum : Nat} {offset : Int}
    (same : word + offset = sum) (fits : sum < 2 ^ 64) :
    wrappingAddSigned word offset = sum := by
  unfold wrappingAddSigned
  rw [same]
  omega

/-! ## File offsets and addresses -/

/-- The address of a file offset: the first segment whose range in the file
contains it has to hold all of `len` bytes. -/
def locate (segments : List Segment) (slide : Int) (off len : Nat) :
    Except ParseError Nat := do
  let some seg := segments.find? fun seg => FileView.containsFileoff seg off
    | .error (.malformed "file offset outside any segment")
  if (checkedAdd off len).any
      (· ≤ saturatingAdd seg.fileoff seg.filesize) then do
    let some vaddr := checkedAdd seg.vmaddr (off - seg.fileoff)
      | .error (.malformed "segment vaddr overflow")
    pure (wrappingAddSigned vaddr slide)
  else .error (.malformed "read spans past the segment")

theorem locate_eq_ok_iff {segments : List Segment} {slide : Int}
    {off len address : Nat} :
    locate segments slide off len = .ok address ↔
      ∃ seg,
        segments.find? (fun seg => FileView.containsFileoff seg off) =
          some seg ∧
        off + len ≤ saturatingAdd seg.fileoff seg.filesize ∧
        seg.vmaddr + (off - seg.fileoff) < 2 ^ 64 ∧
        address =
          wrappingAddSigned (seg.vmaddr + (off - seg.fileoff)) slide := by
  unfold locate
  cases found : segments.find? fun seg =>
      FileView.containsFileoff seg off with
  | none =>
      constructor
      · intro returned
        cases returned
      · intro given
        obtain ⟨_, impossible, _⟩ := given
        cases impossible
  | some seg =>
      simp only [Option.some.injEq, exists_eq_left']
      have room := saturatingAdd_le seg.fileoff seg.filesize
      by_cases inside : off + len ≤ saturatingAdd seg.fileoff seg.filesize
      · rw [if_pos ((checkedAdd_any_iff room).mpr inside)]
        simp only [inside, true_and]
        cases reached : checkedAdd seg.vmaddr (off - seg.fileoff) with
        | none =>
            have large := le_of_checkedAdd_none reached
            constructor
            · intro returned
              cases returned
            · intro given
              omega
        | some vaddr =>
            obtain ⟨rfl, fits⟩ := eq_of_checkedAdd reached
            constructor
            · intro returned
              exact ⟨fits, (Except.ok.inj returned).symm⟩
            · intro given
              rw [given.2]
              rfl
      · rw [if_neg (mt (checkedAdd_any_iff room).mp inside)]
        constructor
        · intro returned
          cases returned
        · intro given
          exact absurd given.1 inside

/-- The bytes of a file for the architecture that is loaded. -/
def loadThinSlice (file : Option File) (cpuType cpuSubtype : Nat) :
    Option (List UInt8) := do
  let file ← file
  match file.thinSliceRange cpuType cpuSubtype with
  | .error _ => none
  | .ok range =>
      if range.start ≤ range.stop ∧ range.stop ≤ file.bytes.length then
        some ((file.bytes.drop range.start).take (range.stop - range.start))
      else none

/-! ## The module -/

/-- A loaded image with the memory of the process, and the file of its path
if that can be read.  The slide is an `isize`. -/
structure Module where
  base : Nat
  slide : Int
  segments : List Segment
  cpuType : Nat
  cpuSubtype : Nat
  file : Option File
  memory : Nat → UInt8

namespace Module

def thinSlice (module : Module) : Option (List UInt8) :=
  loadThinSlice module.file module.cpuType module.cpuSubtype

def read (module : Module) (off len : Nat) :
    Except ParseError (List UInt8) := do
  let address ← locate module.segments module.slide off len
  pure (bytesAt module.memory address len)

def readSlotEncoding (module : Module) (off : Nat) :
    Except ParseError UInt64 := do
  let some bytes := module.thinSlice
    | .error (.malformed "no on-disk file bytes")
  let some stop := checkedAdd off 8 | .error (.malformed "read overflow")
  if stop ≤ bytes.length then
    pure (UInt64.ofNat (littleEndian ((bytes.drop off).take 8)))
  else .error (.malformed "chain read past file end")

def slotAddress (module : Module) (off : Nat) :
    Except ParseError UInt64 := do
  let address ← locate module.segments module.slide off ptrSize
  if address % 8 = 0 then pure (UInt64.ofNat address)
  else .error (.malformed "slot is not pointer-aligned")

theorem exists_of_slotAddress {module : Module} {off : Nat} {slot : UInt64}
    (given : module.slotAddress off = .ok slot) :
    locate module.segments module.slide off ptrSize = .ok slot.toNat ∧
      slot.toNat % 8 = 0 := by
  unfold slotAddress at given
  cases located : locate module.segments module.slide off ptrSize with
  | error error =>
      rw [located] at given
      cases given
  | ok address =>
      obtain ⟨_, _, _, _, addressEq⟩ := locate_eq_ok_iff.mp located
      have word : address < 2 ^ 64 := by
        rw [addressEq]
        exact wrappingAddSigned_lt _ _
      rw [located] at given
      change (if address % 8 = 0 then _ else _) = _ at given
      split at given
      · rename_i aligned
        rw [← Except.ok.inj given, UInt64.toNat_ofNat_of_lt' word]
        exact ⟨rfl, aligned⟩
      · cases given

theorem length_read (module : Module) (off len : Nat) (bytes : List UInt8)
    (returned : module.read off len = .ok bytes) : bytes.length = len := by
  unfold read at returned
  cases located : locate module.segments module.slide off len with
  | error error =>
      rw [located] at returned
      cases returned
  | ok address =>
      rw [located] at returned
      rw [← Except.ok.inj returned]
      exact length_bytesAt _ _ _

def toView (module : Module) : MachOView where
  cpuType := module.cpuType
  cpuSubtype := module.cpuSubtype
  read := module.read
  fileBacked := module.thinSlice.isSome
  readSlotEncoding := module.readSlotEncoding
  slotAddress := module.slotAddress
  length_read := module.length_read

end Module

/-! ## The bootstrap view -/

/-- The header and the load commands of a live image. -/
structure HeaderView where
  base : Nat
  limit : Nat
  memory : Nat → UInt8

namespace HeaderView

def read (view : HeaderView) (off len : Nat) :
    Except ParseError (List UInt8) := do
  let some stop := checkedAdd off len | .error (.malformed "read overflow")
  if view.limit < stop then .error (.malformed "header read out of range")
  else do
    let some address := checkedAdd view.base off
      | .error (.malformed "header address overflow")
    pure (bytesAt view.memory address len)

/-- What a read of the header gives, and that its address is a word. -/
theorem eq_of_read {view : HeaderView} {off len : Nat} {bytes : List UInt8}
    (returned : view.read off len = .ok bytes) :
    bytes = bytesAt view.memory (view.base + off) len ∧
      view.base + off < 2 ^ 64 := by
  unfold read at returned
  cases reached : checkedAdd off len with
  | none =>
      simp only [reached] at returned
      cases returned
  | some stop =>
      simp only [reached] at returned
      split at returned
      · cases returned
      · cases summed : checkedAdd view.base off with
        | none =>
            simp only [summed] at returned
            cases returned
        | some address =>
            have addressEq := eq_of_checkedAdd summed
            simp only [summed] at returned
            rw [← Except.ok.inj returned, addressEq.1]
            exact ⟨rfl, addressEq.2⟩

theorem length_read (view : HeaderView) (off len : Nat) (bytes : List UInt8)
    (returned : view.read off len = .ok bytes) : bytes.length = len := by
  rw [(eq_of_read returned).1]
  exact length_bytesAt _ _ _

/-- It resolves no slots. -/
def toView (view : HeaderView) : MachOView where
  cpuType := littleEndian (bytesAt view.memory (view.base + 4) 4)
  cpuSubtype := littleEndian (bytesAt view.memory (view.base + 8) 4)
  read := view.read
  fileBacked := false
  readSlotEncoding _ := .error
    (.malformed "bootstrap view has no slot encodings")
  slotAddress _ := .error (.malformed "bootstrap view resolves no slots")
  length_read := view.length_read

end HeaderView

def maxHeaderSpan : Nat := 2 ^ 26

/-- `mapped_extent_from`, given the region that `mach_vm_region` reports. -/
def mappedExtentFrom (address : Nat) (region : Option (Nat × Nat)) : Nat :=
  match region with
  | none => maxHeaderSpan
  | some (start, size) =>
      match checkedAdd start size with
      | none => maxHeaderSpan
      | some stop =>
          if start ≤ address ∧ address < stop then stop - address
          else maxHeaderSpan

/-! ## Acquisition -/

def segmentsOf (view : MachOView) : Parse (List Segment) := do
  let info ← view.readLoadCommands
  pure info.segments

/-- An entry of dyld's image list: a mapped `mach_header_64` and the slide of
the image. -/
structure Image where
  header : Nat
  slide : Int
  present : header ≠ 0
  mapped : header + machHeader64Size < 2 ^ 64

/-- dyld's image list: an address holds one image. -/
structure Images where
  entries : List Image
  apart : (entries.map Image.header).Nodup

/-- `Module::from_index`. -/
def Module.fromIndex (memory : Nat → UInt8) (region : Option (Nat × Nat))
    (file : Option File) (image : Image) : Parse Module := do
  Checked.ensure
    (littleEndian (bytesAt memory image.header 4) = mhMagic64)
    (.unsupported "image is not a little-endian 64-bit Mach-O")
  let boot : HeaderView :=
    ⟨image.header, mappedExtentFrom image.header region, memory⟩
  Checked.ensure (machoCpuSupported boot.toView.cpuType = true)
    (.unsupported "Mach-O cputype is not x86-64 or arm64")
  let segments ← segmentsOf boot.toView
  Checked.ensure (segments ≠ []) (.malformed "image has no LC_SEGMENT_64")
  pure {
    base := image.header
    slide := image.slide
    segments := segments
    cpuType := boot.toView.cpuType
    cpuSubtype := boot.toView.cpuSubtype
    file := file
    memory := memory }

end Hookfs.Plthook.MachO
