import Hookfs.Plthook.Elf

/-!
# The ELF import walker over any view

`elf::parse_imports` takes its image through the trait `ElfView`: a module in
memory, or the bytes of a file.  Here the walker is written over any view; over
that of a loaded module it is the walker of `Module`.
-/

namespace Hookfs.Plthook.Elf

open Hookfs.Lib Hookfs.Posix Hookfs.Plthook

/-- The trait `ElfView`.  A read fills its buffer, or fails. -/
structure ElfView where
  machine : Nat
  dynamicCursor : Nat
  dynptrCursor : Nat → Parse Nat
  vaddrCursor : Nat → Parse Nat
  read : Nat → Nat → Parse (List UInt8)
  slotAddress : Nat → Parse Nat
  length_read : ∀ cursor len bytes, read cursor len = .ok bytes →
    bytes.length = len

namespace ElfView

/-! ## Reads -/

def readUint (view : ElfView) (width cursor : Nat) : Parse Nat := do
  let bytes ← view.read cursor width
  pure (littleEndian bytes)

def readU16 (view : ElfView) (cursor : Nat) : Parse Nat :=
  view.readUint 2 cursor

def readU32 (view : ElfView) (cursor : Nat) : Parse Nat :=
  view.readUint 4 cursor

def readU64 (view : ElfView) (cursor : Nat) : Parse Nat :=
  view.readUint 8 cursor

def readI64 (view : ElfView) (cursor : Nat) : Parse Int := do
  let value ← view.readU64 cursor
  pure (if value < 2 ^ 63 then (value : Int) else value - 2 ^ 64)

def readStr (view : ElfView) (strtab strsz offset : Nat) : Parse Text := do
  Checked.ensure (offset < strsz)
    (.malformed "string-table offset past DT_STRSZ")
  forRange
    (fun position bytes => do
      let start ← Checked.add strtab offset
      let cursor ← Checked.add start position
      let read ← view.read cursor 1
      let byte ← Checked.index read 0
      pure (if byte = 0 then .done (fromUtf8Lossy bytes)
        else .next (bytes ++ [byte])))
    (fun _ => malformed "unterminated string-table entry")
    (min (strsz - offset) (maxNameLen + 1)) 0 []

def readDynamic (view : ElfView) : Parse DynamicInfo :=
  forRange
    (fun position info => do
      let offset ← Checked.mul position dynSize
      let cursor ← Checked.add view.dynamicCursor offset
      let tag ← view.readI64 cursor
      if tag = 0 then pure (.done info)
      else do
        let valueAt ← Checked.add cursor 8
        let value ← view.readU64 valueAt
        pure (.next (info.record tag value)))
    (fun _ => malformed "dynamic array is not DT_NULL-terminated")
    maxDyn 0 default

/-! ## Versions -/

/-- The loop over the `Elf64_Vernaux` entries of one `Elf64_Verneed`. -/
def vernauxLoop (view : ElfView) (strtab strsz count : Nat) (soname : Text)
    (aux : Nat) (map : Module.VersionMap) : Parse Module.VersionMap :=
  forRange
    (fun _ (state : Nat × Module.VersionMap) => do
      let other ← Checked.add state.1 6 >>= view.readU16
      let name ← Checked.add state.1 8 >>= view.readU32
      let next ← Checked.add state.1 12 >>= view.readU32
      let version ← view.readStr strtab strsz name
      let map := state.2.insert (other &&& versymVersionMask)
        (version, soname)
      if next = 0 then pure (.done map)
      else do
        let cursor ← Checked.add state.1 next
        pure (.next (cursor, map)))
    (fun state => pure state.2)
    (min count maxVernaux) 0 (aux, map)

def buildVersionMap (view : ElfView) (dynamic : DynamicInfo)
    (strtab strsz : Nat) : Parse Module.VersionMap :=
  match dynamic.verneed with
  | none => pure ∅
  | some pointer => do
      let first ← view.vaddrCursor pointer
      forRange
        (fun _ (state : Nat × Module.VersionMap) => do
          let count ← Checked.add state.1 2 >>= view.readU16
          let file ← Checked.add state.1 4 >>= view.readU32
          let aux ← Checked.add state.1 8 >>= view.readU32
          let next ← Checked.add state.1 12 >>= view.readU32
          let soname ← view.readStr strtab strsz file
          let auxCursor ← Checked.add state.1 aux
          let map ← view.vernauxLoop strtab strsz count soname auxCursor
            state.2
          if next = 0 then pure (.done map)
          else do
            let cursor ← Checked.add state.1 next
            pure (.next (cursor, map)))
        (fun state => pure state.2)
        (min (dynamic.verneednum.getD maxVerneed) maxVerneed) 0 (first, ∅)

def versionOf (view : ElfView) (versions : Module.VersionMap)
    (versymCursor : Option Nat) (symIndex : Nat) :
    Parse (Option Text × Text) :=
  match versymCursor with
  | none => pure (none, [])
  | some table => do
      let offset ← Checked.mul symIndex 2
      let raw ← Checked.add table offset >>= view.readU16
      let index := raw &&& versymVersionMask
      if index ≤ verNdxGlobal then pure (none, [])
      else
        match versions.lookup index with
        | some (version, soname) => pure (some version, soname)
        | none => pure (none, [])

/-! ## Relocations -/

/-- One entry of `walk_rela`. -/
def relaEntry (view : ElfView) (tables : Module.Tables)
    (table entsize wantType position : Nat) (out : List RawImport) :
    Parse (Round (List RawImport) (List RawImport)) := do
  let offset ← Checked.mul position entsize
  let entry ← Checked.add table offset
  let rOffset ← view.readU64 entry
  let rInfo ← Checked.add entry 8 >>= view.readU64
  if rInfo % 2 ^ 32 ≠ wantType then pure (.next out)
  else do
    let symIndex := rInfo / 2 ^ 32
    Checked.ensure (symIndex < 2 ^ 32)
      (.malformed "relocation symbol index overflow")
    let symOffset ← Checked.mul symIndex symSize
    let stName ← Checked.add tables.symtab symOffset >>= view.readU32
    if stName = 0 then pure (.next out)
    else do
      let name ← view.readStr tables.strtab tables.strsz stName
      let (version, library) ← view.versionOf tables.versions
        tables.versymCursor symIndex
      let slot ← view.slotAddress rOffset
      pure (.next (out ++ [{
        library := library
        symbol := some (.name name)
        version := version
        slot := slot
        kind := .standard
        authenticated := false }]))

def walkRela (view : ElfView) (tables : Module.Tables)
    (table tableSize entsize wantType : Nat) (out : List RawImport) :
    Parse (List RawImport) := do
  Checked.ensure (entsize ≠ 0) (.malformed "zero relocation entry size")
  Checked.ensure (tableSize / entsize ≤ maxRelocs)
    (.malformed "relocation table exceeds sanity cap")
  forRange (view.relaEntry tables table entsize wantType) pure
    (tableSize / entsize) 0 out

def versymTable (view : ElfView) (dynamic : DynamicInfo) :
    Parse (Option Nat) :=
  match dynamic.versym with
  | none => pure none
  | some pointer => do
      let cursor ← view.dynptrCursor pointer
      pure (some cursor)

/-- What `parse_imports` finds before it walks the relocations. -/
def openTables (view : ElfView) :
    Parse (RelocKinds × DynamicInfo × Module.Tables) := do
  let kinds ← Checked.require (relocKinds view.machine)
    (.unsupported "ELF machine is not EM_X86_64 or EM_AARCH64")
  let dynamic ← view.readDynamic
  Checked.ensure (dynamic.syment.getD symSize = symSize)
    (.malformed "DT_SYMENT != sizeof(Elf64_Sym)")
  let symtabPtr ← Checked.require dynamic.symtab
    (.malformed "missing DT_SYMTAB")
  let strtabPtr ← Checked.require dynamic.strtab
    (.malformed "missing DT_STRTAB")
  let strsz ← Checked.require dynamic.strsz (.malformed "missing DT_STRSZ")
  let symtab ← view.dynptrCursor symtabPtr
  let strtab ← view.dynptrCursor strtabPtr
  let versions ← view.buildVersionMap dynamic strtab strsz
  let versymCursor ← view.versymTable dynamic
  pure (kinds, dynamic, ⟨versymCursor, symtab, strtab, strsz, versions⟩)

/-- The walk over `.rela.plt`. -/
def walkPlt (view : ElfView) (dynamic : DynamicInfo)
    (tables : Module.Tables) (jumpSlot : Nat) : Parse (List RawImport) :=
  match dynamic.jmprel, dynamic.pltrelsz with
  | some jmprel, some pltrelsz =>
      if dynamic.pltrel = some dtPltrelIsRela then do
        let table ← view.dynptrCursor jmprel
        view.walkRela tables table pltrelsz relaSize jumpSlot []
      else pure []
  | _, _ => pure []

/-- The walk over `.rela.dyn`. -/
def walkDyn (view : ElfView) (dynamic : DynamicInfo)
    (tables : Module.Tables) (globDat : Nat) (out : List RawImport) :
    Parse (List RawImport) :=
  match dynamic.rela with
  | none => pure out
  | some rela => do
      let relasz ← Checked.require dynamic.relasz
        (.malformed "DT_RELA without DT_RELASZ")
      let table ← view.dynptrCursor rela
      view.walkRela tables table relasz
        (dynamic.relaent.getD relaSize) globDat out

def parseImports (view : ElfView) : Parse (List RawImport) := do
  let (kinds, dynamic, tables) ← view.openTables
  let plt ← view.walkPlt dynamic tables kinds.jumpSlot
  view.walkDyn dynamic tables kinds.globDat plt

end ElfView

/-! ## The view of a loaded module -/

namespace Module

theorem length_read (module : Module) (cursor len : Nat)
    (bytes : List UInt8) (returned : module.read cursor len = .ok bytes) :
    bytes.length = len := by
  unfold read at returned
  obtain ⟨_, _, returned⟩ := Checked.eq_ok_of_bind returned
  obtain ⟨_, _, returned⟩ := Checked.eq_ok_of_bind returned
  unfold rawRead at returned
  split at returned
  · rw [← Except.ok.inj returned]
    exact length_bytesAt _ _ _
  · cases returned

def toView (module : Module) : ElfView where
  machine := module.machine
  dynamicCursor := module.dynamicAddr
  dynptrCursor := module.dynptrCursor
  vaddrCursor := module.vaddrCursor
  read := module.read
  slotAddress := module.slotAddress
  length_read := module.length_read

/-- Over the view of a module, the walker is that of the module. -/
theorem toView_parseImports (module : Module) :
    module.toView.parseImports = module.parseImports := by
  unfold ElfView.parseImports ElfView.openTables parseImports
  simp only [bind_assoc, pure_bind]
  rfl

end Module

end Hookfs.Plthook.Elf
