import Hookfs.Lib.Store
import Hookfs.Path.Decode
import Hookfs.Plthook.Import

/-!
# The ELF import walker

`elf::parse_imports` over the live view of a loaded module: its load bias, its
loadable segments, the address of its dynamic table, and the bytes of memory.
Addresses and table fields are numbers; every plain `+` and `*` of the source
traps when it leaves a 64-bit word, and every raw read traps outside of the
segments.
-/

namespace Hookfs.Plthook.Elf

open Hookfs.Lib Hookfs.Posix Hookfs.Plthook

/-! ## Constants -/

def dynSize : Nat := 16

def symSize : Nat := 24

def relaSize : Nat := 24

def maxDyn : Nat := 4096

def maxRelocs : Nat := 2 ^ 24

def maxVerneed : Nat := 4096

def maxVernaux : Nat := 4096

def maxNameLen : Nat := 8192

def versymVersionMask : Nat := 0x7fff

def verNdxGlobal : Nat := 1

def dtPltrelIsRela : Nat := 7

structure RelocKinds where
  jumpSlot : Nat
  globDat : Nat

/-- `arch::elf_reloc_kinds`: x86-64 and AArch64. -/
def relocKinds (machine : Nat) : Option RelocKinds :=
  if machine = 62 then some ⟨7, 6⟩
  else if machine = 183 then some ⟨1026, 1025⟩
  else none

/-! ## The live view -/

/-- A loadable segment, as far as the live view uses it. -/
structure Segment where
  vaddr : Nat
  memsz : Nat
  deriving DecidableEq, Repr

/-- A loaded ELF object, with the memory of the process. -/
structure Module where
  base : Nat
  loads : List Segment
  machine : Nat
  dynamicAddr : Nat
  dynamicWord : dynamicAddr < 2 ^ 64
  memory : Nat → UInt8

/-- Whether `[vaddr, vaddr + len)` lies in a segment. -/
def vaddrInLoad (loads : List Segment) (vaddr len : Nat) : Bool :=
  loads.any fun seg =>
    seg.vaddr ≤ vaddr &&
      (checkedAdd vaddr len).any (· ≤ saturatingAdd seg.vaddr seg.memsz)

namespace Module

/-- `[address, address + len)` lies in one of the mapped segments. -/
def Mapped (module : Module) (address len : Nat) : Prop :=
  ∃ seg ∈ module.loads, module.base + seg.vaddr ≤ address ∧
    address + len ≤ module.base + seg.vaddr + seg.memsz

instance (module : Module) (address len : Nat) :
    Decidable (module.Mapped address len) :=
  inferInstanceAs (Decidable (∃ seg ∈ module.loads, _ ∧ _))

/-- `copy_nonoverlapping` from an address. -/
def rawRead (module : Module) (address len : Nat) : Parse (List UInt8) :=
  if module.Mapped address len then .ok (bytesAt module.memory address len)
  else .error .wildRead

/-- `read_live`. -/
def read (module : Module) (cursor len : Nat) : Parse (List UInt8) := do
  Checked.ensure (module.base ≤ cursor)
    (.malformed "address below load base")
  Checked.ensure (vaddrInLoad module.loads (cursor - module.base) len = true)
    (.malformed "read outside loadable segments")
  module.rawRead cursor len

def dynptrCursor (module : Module) (pointer : Nat) : Parse Nat := do
  Checked.ensure (module.base ≤ pointer)
    (.malformed "dynamic pointer below load base")
  Checked.ensure (vaddrInLoad module.loads (pointer - module.base) 1 = true)
    (.malformed "dynamic pointer outside loadable segments")
  pure pointer

def vaddrCursor (module : Module) (vaddr : Nat) : Parse Nat := do
  Checked.ensure (vaddrInLoad module.loads vaddr 1 = true)
    (.malformed "version-table vaddr outside loadable segments")
  Checked.require (checkedAdd module.base vaddr)
    (.malformed "version-table address overflow")

def slotAddress (module : Module) (offset : Nat) : Parse Nat := do
  let address ← Checked.require (checkedAdd module.base offset)
    (.malformed "slot address overflow")
  Checked.ensure (vaddrInLoad module.loads offset ptrSize = true)
    (.malformed "relocation offset outside loadable segments")
  Checked.ensure (address % 8 = 0)
    (.malformed "relocation slot is not pointer-aligned")
  pure address

/-! ## Reads through the view -/

/-- `read_u16`, `read_u32` and `read_u64`, by width. -/
def readUint (module : Module) (width cursor : Nat) : Parse Nat := do
  let bytes ← module.read cursor width
  pure (littleEndian bytes)

def readU16 (module : Module) (cursor : Nat) : Parse Nat :=
  module.readUint 2 cursor

def readU32 (module : Module) (cursor : Nat) : Parse Nat :=
  module.readUint 4 cursor

def readU64 (module : Module) (cursor : Nat) : Parse Nat :=
  module.readUint 8 cursor

/-- `read_i64`, in two's complement. -/
def readI64 (module : Module) (cursor : Nat) : Parse Int := do
  let value ← module.readU64 cursor
  pure (if value < 2 ^ 63 then (value : Int) else value - 2 ^ 64)

def readStr (module : Module) (strtab strsz offset : Nat) : Parse Text := do
  Checked.ensure (offset < strsz)
    (.malformed "string-table offset past DT_STRSZ")
  forRange
    (fun position bytes => do
      let start ← Checked.add strtab offset
      let cursor ← Checked.add start position
      let read ← module.read cursor 1
      let byte ← Checked.index read 0
      pure (if byte = 0 then .done (fromUtf8Lossy bytes)
        else .next (bytes ++ [byte])))
    (fun _ => malformed "unterminated string-table entry")
    (min (strsz - offset) (maxNameLen + 1)) 0 []

end Module

/-! ## The dynamic table -/

structure DynamicInfo where
  symtab : Option Nat
  syment : Option Nat
  strtab : Option Nat
  strsz : Option Nat
  jmprel : Option Nat
  pltrelsz : Option Nat
  pltrel : Option Nat
  rela : Option Nat
  relasz : Option Nat
  relaent : Option Nat
  versym : Option Nat
  verneed : Option Nat
  verneednum : Option Nat
  deriving DecidableEq, Repr, Inhabited

/-- The `match tag` of `read_dynamic`. -/
def DynamicInfo.record (info : DynamicInfo) (tag : Int) (value : Nat) :
    DynamicInfo :=
  if tag = 6 then { info with symtab := some value }
  else if tag = 11 then { info with syment := some value }
  else if tag = 5 then { info with strtab := some value }
  else if tag = 10 then { info with strsz := some value }
  else if tag = 23 then { info with jmprel := some value }
  else if tag = 2 then { info with pltrelsz := some value }
  else if tag = 20 then { info with pltrel := some value }
  else if tag = 7 then { info with rela := some value }
  else if tag = 8 then { info with relasz := some value }
  else if tag = 9 then { info with relaent := some value }
  else if tag = 0x6ffffff0 then { info with versym := some value }
  else if tag = 0x6ffffffe then { info with verneed := some value }
  else if tag = 0x6fffffff then { info with verneednum := some value }
  else info

namespace Module

def readDynamic (module : Module) : Parse DynamicInfo :=
  forRange
    (fun position info => do
      let offset ← Checked.mul position dynSize
      let cursor ← Checked.add module.dynamicAddr offset
      let tag ← module.readI64 cursor
      if tag = 0 then pure (.done info)
      else do
        let valueAt ← Checked.add cursor 8
        let value ← module.readU64 valueAt
        pure (.next (info.record tag value)))
    (fun _ => malformed "dynamic array is not DT_NULL-terminated")
    maxDyn 0 default

/-! ## Versions -/

/-- `VersionMap`: version and SONAME by version index. -/
abbrev VersionMap := Store Nat (Text × Text)

/-- The loop over the `Elf64_Vernaux` entries of one `Elf64_Verneed`. -/
def vernauxLoop (module : Module) (strtab strsz count : Nat) (soname : Text)
    (aux : Nat) (map : VersionMap) : Parse VersionMap :=
  forRange
    (fun _ (state : Nat × VersionMap) => do
      let other ← Checked.add state.1 6 >>= module.readU16
      let name ← Checked.add state.1 8 >>= module.readU32
      let next ← Checked.add state.1 12 >>= module.readU32
      let version ← module.readStr strtab strsz name
      let map := state.2.insert (other &&& versymVersionMask)
        (version, soname)
      if next = 0 then pure (.done map)
      else do
        let cursor ← Checked.add state.1 next
        pure (.next (cursor, map)))
    (fun state => pure state.2)
    (min count maxVernaux) 0 (aux, map)

def buildVersionMap (module : Module) (dynamic : DynamicInfo)
    (strtab strsz : Nat) : Parse VersionMap :=
  match dynamic.verneed with
  | none => pure ∅
  | some pointer => do
      let first ← module.vaddrCursor pointer
      forRange
        (fun _ (state : Nat × VersionMap) => do
          let count ← Checked.add state.1 2 >>= module.readU16
          let file ← Checked.add state.1 4 >>= module.readU32
          let aux ← Checked.add state.1 8 >>= module.readU32
          let next ← Checked.add state.1 12 >>= module.readU32
          let soname ← module.readStr strtab strsz file
          let auxCursor ← Checked.add state.1 aux
          let map ← module.vernauxLoop strtab strsz count soname auxCursor
            state.2
          if next = 0 then pure (.done map)
          else do
            let cursor ← Checked.add state.1 next
            pure (.next (cursor, map)))
        (fun state => pure state.2)
        (min (dynamic.verneednum.getD maxVerneed) maxVerneed) 0 (first, ∅)

def versionOf (module : Module) (versions : VersionMap)
    (versymCursor : Option Nat) (symIndex : Nat) :
    Parse (Option Text × Text) :=
  match versymCursor with
  | none => pure (none, [])
  | some table => do
      let offset ← Checked.mul symIndex 2
      let raw ← Checked.add table offset >>= module.readU16
      let index := raw &&& versymVersionMask
      if index ≤ verNdxGlobal then pure (none, [])
      else
        match versions.lookup index with
        | some (version, soname) => pure (some version, soname)
        | none => pure (none, [])

/-! ## Relocations -/

/-- What `walk_rela` is given beside the table itself. -/
structure Tables where
  versymCursor : Option Nat
  symtab : Nat
  strtab : Nat
  strsz : Nat
  versions : VersionMap

/-- One entry of `walk_rela`. -/
def relaEntry (module : Module) (tables : Tables)
    (table entsize wantType position : Nat) (out : List RawImport) :
    Parse (Round (List RawImport) (List RawImport)) := do
  let offset ← Checked.mul position entsize
  let entry ← Checked.add table offset
  let rOffset ← module.readU64 entry
  let rInfo ← Checked.add entry 8 >>= module.readU64
  if rInfo % 2 ^ 32 ≠ wantType then pure (.next out)
  else do
    let symIndex := rInfo / 2 ^ 32
    Checked.ensure (symIndex < 2 ^ 32)
      (.malformed "relocation symbol index overflow")
    let symOffset ← Checked.mul symIndex symSize
    let stName ← Checked.add tables.symtab symOffset >>= module.readU32
    if stName = 0 then pure (.next out)
    else do
      let name ← module.readStr tables.strtab tables.strsz stName
      let (version, library) ← module.versionOf tables.versions
        tables.versymCursor symIndex
      let slot ← module.slotAddress rOffset
      pure (.next (out ++ [{
        library := library
        symbol := some (.name name)
        version := version
        slot := slot
        kind := .standard
        authenticated := false }]))

def walkRela (module : Module) (tables : Tables)
    (table tableSize entsize wantType : Nat) (out : List RawImport) :
    Parse (List RawImport) := do
  Checked.ensure (entsize ≠ 0) (.malformed "zero relocation entry size")
  Checked.ensure (tableSize / entsize ≤ maxRelocs)
    (.malformed "relocation table exceeds sanity cap")
  forRange (module.relaEntry tables table entsize wantType) pure
    (tableSize / entsize) 0 out

/-- The `DT_VERSYM` table, resolved once. -/
def versymTable (module : Module) (dynamic : DynamicInfo) :
    Parse (Option Nat) :=
  match dynamic.versym with
  | none => pure none
  | some pointer => do
      let cursor ← module.dynptrCursor pointer
      pure (some cursor)

/-- The walk over `.rela.plt`. -/
def walkPlt (module : Module) (dynamic : DynamicInfo) (tables : Tables)
    (jumpSlot : Nat) : Parse (List RawImport) :=
  match dynamic.jmprel, dynamic.pltrelsz with
  | some jmprel, some pltrelsz =>
      if dynamic.pltrel = some dtPltrelIsRela then do
        let table ← module.dynptrCursor jmprel
        module.walkRela tables table pltrelsz relaSize jumpSlot []
      else pure []
  | _, _ => pure []

/-- The walk over `.rela.dyn`. -/
def walkDyn (module : Module) (dynamic : DynamicInfo) (tables : Tables)
    (globDat : Nat) (out : List RawImport) : Parse (List RawImport) :=
  match dynamic.rela with
  | none => pure out
  | some rela => do
      let relasz ← Checked.require dynamic.relasz
        (.malformed "DT_RELA without DT_RELASZ")
      let table ← module.dynptrCursor rela
      module.walkRela tables table relasz
        (dynamic.relaent.getD relaSize) globDat out

def parseImports (module : Module) : Parse (List RawImport) := do
  let kinds ← Checked.require (relocKinds module.machine)
    (.unsupported "ELF machine is not EM_X86_64 or EM_AARCH64")
  let dynamic ← module.readDynamic
  Checked.ensure (dynamic.syment.getD symSize = symSize)
    (.malformed "DT_SYMENT != sizeof(Elf64_Sym)")
  let symtabPtr ← Checked.require dynamic.symtab
    (.malformed "missing DT_SYMTAB")
  let strtabPtr ← Checked.require dynamic.strtab
    (.malformed "missing DT_STRTAB")
  let strsz ← Checked.require dynamic.strsz (.malformed "missing DT_STRSZ")
  let symtab ← module.dynptrCursor symtabPtr
  let strtab ← module.dynptrCursor strtabPtr
  let versions ← module.buildVersionMap dynamic strtab strsz
  let versymCursor ← module.versymTable dynamic
  let tables : Tables := ⟨versymCursor, symtab, strtab, strsz, versions⟩
  let plt ← module.walkPlt dynamic tables kinds.jumpSlot
  module.walkDyn dynamic tables kinds.globDat plt

end Module

end Hookfs.Plthook.Elf
