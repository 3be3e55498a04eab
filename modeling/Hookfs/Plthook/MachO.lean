import Hookfs.Path.Decode
import Hookfs.Plthook.Import

/-!
# Mach-O images

The addressing-mode abstraction `MachOView`, reads through it, universal
containers, and the load commands of a thin 64-bit image.  A cursor is a file
offset; every plain `+`, `*` and `<<` of the source traps when it leaves a
64-bit word.
-/

namespace Hookfs.Plthook.MachO

open Hookfs.Lib Hookfs.Posix Hookfs.Plthook

/-! ## Constants -/

def mhMagic64 : Nat := 0xfeedfacf

def mhMagic32 : Nat := 0xfeedface

def mhCigam64 : Nat := 0xcffaedfe

def mhCigam32 : Nat := 0xcefaedfe

def fatMagic : Nat := 0xcafebabe

def fatMagic64 : Nat := 0xcafebabf

def machHeader64Size : Nat := 32

def segmentCommand64Size : Nat := 72

def section64Size : Nat := 80

def nlist64Size : Nat := 16

def maxCommands : Nat := 2 ^ 16

def maxSections : Nat := 2 ^ 16

def maxNameLen : Nat := 8192

def maxDylibs : Nat := 2 ^ 12

def cpuTypeX8664 : Nat := 0x01000007

def cpuTypeArm64 : Nat := 0x0100000c

/-- `cpusubtype` without the capability bits, `& !CPU_SUBTYPE_MASK`. -/
def maskSubtype (cpuSubtype : Nat) : Nat :=
  cpuSubtype &&& 0x00ffffff

def cpuSubtypeArm64e : Nat := 2

def machoCpuSupported (cpuType : Nat) : Bool :=
  cpuType = cpuTypeX8664 || cpuType = cpuTypeArm64

/-! ## The view -/

structure Segment where
  vmaddr : Nat
  vmsize : Nat
  fileoff : Nat
  filesize : Nat
  deriving DecidableEq, Repr

/-- The trait `MachOView`: a thin slice, in memory or in a file.  A read gives
exactly the bytes that were asked for, or fails. -/
structure MachOView where
  cpuType : Nat
  cpuSubtype : Nat
  read : Nat → Nat → Except ParseError (List UInt8)
  fileBacked : Bool
  readSlotEncoding : Nat → Except ParseError UInt64
  slotAddress : Nat → Except ParseError UInt64
  length_read : ∀ off len bytes, read off len = .ok bytes →
    bytes.length = len

namespace MachOView

def isArm64e (view : MachOView) : Bool :=
  view.cpuType = cpuTypeArm64 &&
    maskSubtype view.cpuSubtype = cpuSubtypeArm64e

/-! ## Reads through the view -/

/-- `read_u16`, `read_u32` and `read_u64`, by width. -/
def readUint (view : MachOView) (width off : Nat) : Parse Nat := do
  let bytes ← Checked.propagate (view.read off width)
  pure (littleEndian bytes)

def readU16 (view : MachOView) (off : Nat) : Parse Nat :=
  view.readUint 2 off

def readU32 (view : MachOView) (off : Nat) : Parse Nat :=
  view.readUint 4 off

def readU64 (view : MachOView) (off : Nat) : Parse Nat :=
  view.readUint 8 off

/-- A read into a buffer of one byte. -/
def readByte (view : MachOView) (off : Nat) : Parse UInt8 := do
  let bytes ← Checked.propagate (view.read off 1)
  Checked.index bytes 0

/-- The name and the number of raw bytes before its terminator. -/
def readCstrRaw (view : MachOView) (off : Nat) : Parse (Text × Nat) :=
  forRange
    (fun position bytes => do
      let byte ← Checked.add off position >>= view.readByte
      pure (if byte = 0 then .done (fromUtf8Lossy bytes, position)
        else .next (bytes ++ [byte])))
    (fun _ => malformed "unterminated Mach-O string")
    (maxNameLen + 1) 0 []

def readCstr (view : MachOView) (off : Nat) : Parse Text := do
  let found ← view.readCstrRaw off
  pure found.1

def readStrInTable (view : MachOView) (base size strx : Nat) :
    Parse Text := do
  Checked.ensure (strx < size)
    (.malformed "string-table offset past table size")
  forRange
    (fun position bytes => do
      let start ← Checked.add base strx
      let byte ← Checked.add start position >>= view.readByte
      pure (if byte = 0 then .done (fromUtf8Lossy bytes)
        else .next (bytes ++ [byte])))
    (fun _ => malformed "unterminated string-table entry")
    (min (size - strx) (maxNameLen + 1)) 0 []

end MachOView

/-! ## The offline view -/

/-- The view of the tests: the bytes of a file from `base` on. -/
structure FileView where
  bytes : List UInt8
  base : Nat
  segments : List Segment
  cpuType : Nat
  cpuSubtype : Nat

namespace FileView

def read (view : FileView) (off len : Nat) :
    Except ParseError (List UInt8) := do
  let some start := checkedAdd view.base off
    | .error (.malformed "cursor overflow")
  let some stop := checkedAdd start len
    | .error (.malformed "read overflow")
  if stop ≤ view.bytes.length then pure ((view.bytes.drop start).take len)
  else .error (.malformed "read past slice")

def readSlotEncoding (view : FileView) (off : Nat) :
    Except ParseError UInt64 := do
  let bytes ← view.read off 8
  pure (UInt64.ofNat (littleEndian bytes))

def containsFileoff (seg : Segment) (off : Nat) : Bool :=
  seg.fileoff ≤ off && off < saturatingAdd seg.fileoff seg.filesize

def slotAddress (view : FileView) (off : Nat) :
    Except ParseError UInt64 := do
  let some seg := view.segments.find? fun seg => containsFileoff seg off
    | .error (.malformed "slot offset outside any segment")
  let some address := checkedAdd seg.vmaddr (off - seg.fileoff)
    | .error (.malformed "slot vmaddr overflow")
  if address % 8 = 0 then pure (UInt64.ofNat address)
  else .error (.malformed "slot not pointer-aligned")

theorem length_read (view : FileView) (off len : Nat) (bytes : List UInt8)
    (returned : view.read off len = .ok bytes) : bytes.length = len := by
  unfold read at returned
  cases first : checkedAdd view.base off with
  | none =>
      simp [first] at returned
  | some start =>
      cases second : checkedAdd start len with
      | none =>
          simp [first, second] at returned
      | some stop =>
          have stopEq := eq_of_checkedAdd second
          simp only [first, second] at returned
          split at returned
          · injection returned with same
            rw [← same, List.length_take, List.length_drop]
            omega
          · cases returned

def toView (view : FileView) : MachOView where
  cpuType := view.cpuType
  cpuSubtype := view.cpuSubtype
  read := view.read
  fileBacked := true
  readSlotEncoding := view.readSlotEncoding
  slotAddress := view.slotAddress
  length_read := view.length_read

end FileView

/-! ## Names -/

/-- One leading underscore and everything from the first `$` on are dropped;
nothing may be left. -/
def normalizeSymbolName (raw : Text) : Option Text :=
  let withoutUnderscore :=
    match raw with
    | '_' :: rest => rest
    | other => other
  let base := withoutUnderscore.takeWhile (· ≠ '$')
  if base.isEmpty then none else some base

def tlvBootstrap : Text := "_tlv_bootstrap".toList

/-- What follows the last separator of an install name. -/
def basename (path : Text) : Text :=
  (path.reverse.takeWhile fun char => char ≠ '/' && char ≠ '\\').reverse

/-- The library of a two-level ordinal; ordinals count from one, and the
special ones below have no name. -/
def libraryOf (ordinal : Int) (dylibs : List Text) : Text :=
  if 1 ≤ ordinal then dylibs.getD (ordinal - 1).toNat [] else []

/-! ## Universal containers -/

/-- A file that was read into memory.  A Rust slice spans at most
`isize::MAX` bytes. -/
structure File where
  bytes : List UInt8
  short : bytes.length < 2 ^ 63

structure SliceRange where
  offset : Nat
  size : Nat
  deriving DecidableEq, Repr

structure FatArch where
  cpuType : Nat
  cpuSubtype : Nat
  range : SliceRange
  deriving DecidableEq, Repr

inductive Container where
  | thin
  | fat (slices : List FatArch)
  deriving DecidableEq, Repr

/-- `Range<usize>`. -/
structure ByteRange where
  start : Nat
  stop : Nat
  deriving DecidableEq, Repr

namespace File

/-- `bytes.get(off..off + width)`. -/
def readSlice (file : File) (width off : Nat) : Parse (List UInt8) := do
  let stop ← Checked.add off width
  Checked.ensure (stop ≤ file.bytes.length)
    (.malformed "read past slice bounds")
  pure ((file.bytes.drop off).take width)

def readSliceU32Le (file : File) (off : Nat) : Parse Nat := do
  let bytes ← file.readSlice 4 off
  pure (littleEndian bytes)

/-- `read_slice_u32_be` and `read_slice_u64_be`, by width. -/
def readSliceBe (file : File) (width off : Nat) : Parse Nat := do
  let bytes ← file.readSlice width off
  pure (littleEndian bytes.reverse)

def readSliceU32Be (file : File) (off : Nat) : Parse Nat :=
  file.readSliceBe 4 off

def readSliceU64Be (file : File) (off : Nat) : Parse Nat :=
  file.readSliceBe 8 off

/-- Offset and size of a table entry; `wide` selects `fat_arch_64`. -/
def fatRange (file : File) (wide : Bool) (entry : Nat) :
    Parse SliceRange :=
  if wide then do
    let offset ← Checked.add entry 8 >>= file.readSliceU64Be
    let size ← Checked.add entry 16 >>= file.readSliceU64Be
    pure ⟨offset, size⟩
  else do
    let offset ← Checked.add entry 8 >>= file.readSliceU32Be
    let size ← Checked.add entry 12 >>= file.readSliceU32Be
    pure ⟨offset, size⟩

/-- One entry of the table. -/
def fatEntry (file : File) (wide : Bool) (position : Nat)
    (slices : List FatArch) : Parse (List FatArch) := do
  let skipped ← Checked.mul position (if wide then 32 else 20)
  let entry ← Checked.add 8 skipped
  let cpuType ← file.readSliceU32Be entry
  let cpuSubtype ← Checked.add entry 4 >>= file.readSliceU32Be
  let range ← file.fatRange wide entry
  let stop ← Checked.require (checkedAdd range.offset range.size)
    (.malformed "fat slice overflow")
  Checked.ensure (stop ≤ file.bytes.length)
    (.malformed "fat slice out of bounds")
  pure (slices ++ [⟨cpuType, cpuSubtype, range⟩])

def parseFat (file : File) (wide : Bool) : Parse Container := do
  let nfat ← file.readSliceU32Be 4
  Checked.ensure (nfat ≤ 1024) (.malformed "implausible fat arch count")
  forRange
    (fun position slices => do
      let slices ← file.fatEntry wide position slices
      pure (.next slices))
    (fun slices => pure (.fat slices)) nfat 0 []

/-- The `_` arm of `classify`: fat headers are big-endian. -/
def classifyFat (file : File) : Parse Container := do
  let magic ← file.readSliceU32Be 0
  if magic = fatMagic then file.parseFat false
  else if magic = fatMagic64 then file.parseFat true
  else malformed "not a Mach-O or universal image"

def classify (file : File) : Parse Container := do
  let magic ← file.readSliceU32Le 0
  if magic = mhMagic64 then pure .thin
  else if magic = mhMagic32 ∨ magic = mhCigam32 then
    unsupported "32-bit Mach-O image"
  else if magic = mhCigam64 then
    unsupported "byte-swapped (foreign-endian) Mach-O image"
  else file.classifyFat

/-- The loop of `thin_slice_range` over the slices.  On a 64-bit target
`usize::try_from` keeps every `u64`. -/
def selectSlice (file : File) (cpuType cpuSubtype : Nat) (slice : FatArch) :
    Unit → Parse (Round Unit ByteRange)
  | () =>
      if slice.cpuType ≠ cpuType ∨
          maskSubtype slice.cpuSubtype ≠ maskSubtype cpuSubtype then
        pure (.next ())
      else do
        let stop ← Checked.require
          (checkedAdd slice.range.offset slice.range.size)
          (.malformed "fat slice end overflow")
        let magic ← file.readSliceU32Le slice.range.offset
        Checked.ensure (magic = mhMagic64)
          (.malformed "fat slice is not a thin 64-bit Mach-O")
        pure (.done ⟨slice.range.offset, stop⟩)

def thinSliceRange (file : File) (cpuType cpuSubtype : Nat) :
    Parse ByteRange := do
  let container ← file.classify
  match container with
  | .thin => pure ⟨0, file.bytes.length⟩
  | .fat slices =>
      forEach (file.selectSlice cpuType cpuSubtype)
        (fun _ => malformed
          "no universal slice matches the loaded architecture")
        slices ()

end File

/-! ## Load commands -/

/-- The load commands the walk looks into. -/
inductive LoadCommand where
  | segment64
  | symtab
  | dysymtab
  | dyldInfo
  | dyldChainedFixups
  | loadDylib
  | other
  deriving DecidableEq, Repr

/-- The ids of `<mach-o/loader.h>`, `LC_REQ_DYLD` included. -/
def LoadCommand.ofCmd (cmd : Nat) : LoadCommand :=
  if cmd = 0x19 then .segment64
  else if cmd = 0x2 then .symtab
  else if cmd = 0xb then .dysymtab
  else if cmd = 0x22 ∨ cmd = 0x80000022 then .dyldInfo
  else if cmd = 0x80000034 then .dyldChainedFixups
  else if cmd = 0xc ∨ cmd = 0x80000018 ∨ cmd = 0x8000001f ∨
      cmd = 0x80000023 ∨ cmd = 0x20 then .loadDylib
  else .other

structure PointerSection where
  fileoff : Nat
  size : Nat
  indirectIndex : Nat
  deriving DecidableEq, Repr

structure Symtab where
  symoff : Nat
  nsyms : Nat
  stroff : Nat
  strsize : Nat
  deriving DecidableEq, Repr

structure Indirect where
  indirectsymoff : Nat
  nindirectsyms : Nat
  deriving DecidableEq, Repr

/-- An offset and a size in the file. -/
structure Blob where
  off : Nat
  size : Nat
  deriving DecidableEq, Repr

/-- What the walk collects from the load commands. -/
structure LoadInfo where
  segments : List Segment
  pointerSections : List PointerSection
  symtab : Option Symtab
  indirect : Option Indirect
  binds : List Blob
  chained : Option Blob
  dylibs : List Text
  deriving DecidableEq, Repr, Inhabited

/-- Both kinds of symbol-pointer sections. -/
def isPointerSection (flags : Nat) : Bool :=
  flags &&& 0xff = 0x6 || flags &&& 0xff = 0x7

namespace MachOView

/-- One `section_64` of a segment command. -/
def readSection (view : MachOView) (base position : Nat)
    (info : LoadInfo) : Parse LoadInfo := do
  let skipped ← Checked.mul position section64Size
  let first ← Checked.add base segmentCommand64Size
  let sec ← Checked.add first skipped
  let size ← Checked.add sec 40 >>= view.readU64
  let offset ← Checked.add sec 48 >>= view.readU32
  let flags ← Checked.add sec 64 >>= view.readU32
  let reserved1 ← Checked.add sec 68 >>= view.readU32
  pure (if isPointerSection flags then
      { info with
        pointerSections := info.pointerSections ++ [⟨offset, size, reserved1⟩] }
    else info)

def readSegment (view : MachOView) (base cmdsize : Nat) (info : LoadInfo) :
    Parse LoadInfo := do
  Checked.ensure (segmentCommand64Size ≤ cmdsize)
    (.malformed "truncated LC_SEGMENT_64")
  let vmaddr ← Checked.add base 24 >>= view.readU64
  let vmsize ← Checked.add base 32 >>= view.readU64
  let fileoff ← Checked.add base 40 >>= view.readU64
  let filesize ← Checked.add base 48 >>= view.readU64
  let nsects ← Checked.add base 64 >>= view.readU32
  Checked.ensure (nsects ≤ maxSections)
    (.malformed "implausible section count")
  let sectionsBytes ← Checked.require (checkedMul nsects section64Size)
    (.malformed "section table overflow")
  let needed ← Checked.require
    (checkedAdd segmentCommand64Size sectionsBytes) (.malformed "overflow")
  Checked.ensure (needed ≤ cmdsize)
    (.malformed "section table extends past the segment command")
  forRange
    (fun position info => do
      let info ← view.readSection base position info
      pure (.next info))
    pure nsects 0
    { info with
      segments := info.segments ++ [⟨vmaddr, vmsize, fileoff, filesize⟩] }

def readSymtab (view : MachOView) (base cmdsize : Nat) (info : LoadInfo) :
    Parse LoadInfo := do
  Checked.ensure (24 ≤ cmdsize) (.malformed "truncated LC_SYMTAB")
  let symoff ← Checked.add base 8 >>= view.readU32
  let nsyms ← Checked.add base 12 >>= view.readU32
  let stroff ← Checked.add base 16 >>= view.readU32
  let strsize ← Checked.add base 20 >>= view.readU32
  pure { info with symtab := some ⟨symoff, nsyms, stroff, strsize⟩ }

def readDysymtab (view : MachOView) (base cmdsize : Nat) (info : LoadInfo) :
    Parse LoadInfo := do
  Checked.ensure (80 ≤ cmdsize) (.malformed "truncated LC_DYSYMTAB")
  let indirectsymoff ← Checked.add base 56 >>= view.readU32
  let nindirectsyms ← Checked.add base 60 >>= view.readU32
  pure { info with indirect := some ⟨indirectsymoff, nindirectsyms⟩ }

/-- One of the three streams of `LC_DYLD_INFO`; an empty one is skipped. -/
def readBind (view : MachOView) (base : Nat) (field : Nat × Nat)
    (info : LoadInfo) : Parse LoadInfo := do
  let off ← Checked.add base field.1 >>= view.readU32
  let size ← Checked.add base field.2 >>= view.readU32
  pure (if size = 0 then info
    else { info with binds := info.binds ++ [⟨off, size⟩] })

def readDyldInfo (view : MachOView) (base cmdsize : Nat) (info : LoadInfo) :
    Parse LoadInfo := do
  Checked.ensure (48 ≤ cmdsize) (.malformed "truncated LC_DYLD_INFO")
  forEach
    (fun field info => do
      let info ← view.readBind base field info
      pure (.next info))
    pure [(16, 20), (24, 28), (32, 36)] info

def readChained (view : MachOView) (base cmdsize : Nat) (info : LoadInfo) :
    Parse LoadInfo := do
  Checked.ensure (16 ≤ cmdsize)
    (.malformed "truncated LC_DYLD_CHAINED_FIXUPS")
  let dataoff ← Checked.add base 8 >>= view.readU32
  let datasize ← Checked.add base 12 >>= view.readU32
  pure { info with chained := some ⟨dataoff, datasize⟩ }

def unknownDylib : Text := "(unknown-dylib)".toList

/-- The install name of a dylib command; one that cannot be read is unknown,
not an error. -/
def dylibName (view : MachOView) (base cmdsize nameOff : Nat) :
    Parse Text :=
  if nameOff < cmdsize then do
    let outcome ← Checked.attempt (Checked.add base nameOff >>= view.readCstr)
    match outcome with
    | .ok name => pure name
    | .error _ => pure unknownDylib
  else pure unknownDylib

def readDylib (view : MachOView) (base cmdsize : Nat) (info : LoadInfo) :
    Parse LoadInfo :=
  if maxDylibs ≤ info.dylibs.length then pure info
  else do
    let nameOff ← Checked.add base 8 >>= view.readU32
    let name ← view.dylibName base cmdsize nameOff
    pure { info with dylibs := info.dylibs ++ [basename name] }

def parseOneCommand (view : MachOView) (cmd base cmdsize : Nat)
    (info : LoadInfo) : Parse LoadInfo :=
  match LoadCommand.ofCmd cmd with
  | .segment64 => view.readSegment base cmdsize info
  | .symtab => view.readSymtab base cmdsize info
  | .dysymtab => view.readDysymtab base cmdsize info
  | .dyldInfo => view.readDyldInfo base cmdsize info
  | .dyldChainedFixups => view.readChained base cmdsize info
  | .loadDylib => view.readDylib base cmdsize info
  | .other => pure info

/-- One round of the loop over the load commands. -/
def commandStep (view : MachOView) (regionEnd : Nat)
    (state : Nat × LoadInfo) : Parse (Nat × LoadInfo) := do
  let header ← Checked.require (checkedAdd state.1 8)
    (.malformed "command header overflow")
  Checked.ensure (header ≤ regionEnd)
    (.malformed "load command runs past sizeofcmds")
  let cmd ← view.readU32 state.1
  let cmdsize ← Checked.add state.1 4 >>= view.readU32
  Checked.ensure (8 ≤ cmdsize ∧ cmdsize % 8 = 0)
    (.malformed "invalid load-command size")
  let next ← Checked.require (checkedAdd state.1 cmdsize)
    (.malformed "command size overflow")
  Checked.ensure (next ≤ regionEnd)
    (.malformed "load command extends past sizeofcmds")
  let info ← view.parseOneCommand cmd state.1 cmdsize state.2
  pure (next, info)

def readLoadCommands (view : MachOView) : Parse LoadInfo := do
  let magic ← view.readU32 0
  Checked.ensure (magic = mhMagic64)
    (.malformed "not a little-endian 64-bit Mach-O header")
  let ncmds ← view.readU32 16
  let sizeofcmds ← view.readU32 20
  Checked.ensure (ncmds ≤ maxCommands)
    (.malformed "implausible load-command count")
  let regionEnd ← Checked.require (checkedAdd machHeader64Size sizeofcmds)
    (.malformed "load-command region overflow")
  forRange
    (fun _ state => do
      let state ← view.commandStep regionEnd state
      pure (.next state))
    (fun state => pure state.2) ncmds 0 (machHeader64Size, default)

end MachOView

end Hookfs.Plthook.MachO
