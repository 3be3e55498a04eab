import Hookfs.Lib.Keyed
import Hookfs.Plthook.ElfSafety

/-!
# Loaded ELF objects

The objects that `dl_iterate_phdr` reports, the acquisition of a `Module` from
one of them, and the check of a restore whether a slot still belongs to a
module.  Acquisition keeps the segments; the check parses the program headers
once more.
-/

namespace Hookfs.Plthook.Elf

open Hookfs.Lib Hookfs.Posix Hookfs.Plthook

/-! ## Program headers -/

def phdrSize : Nat := 56

def ptLoad : Nat := 1

def ptDynamic : Nat := 2

/-- `slice_le16`, `slice_le32` and `slice_le64`, by width. -/
def sliceLe (width : Nat) (bytes : List UInt8) (off : Nat) : Parse Nat := do
  let stop ← Checked.add off width
  Checked.ensure (stop ≤ bytes.length) (.malformed "read past slice bounds")
  pure (littleEndian ((bytes.drop off).take width))

structure ProgramHeaders where
  loads : List Segment
  dynamicVaddr : Option Nat
  ehdrVaddr : Nat
  deriving DecidableEq, Repr

/-- One `Elf64_Phdr`. -/
def programHeader (phdrs : List UInt8) (position : Nat)
    (found : ProgramHeaders) : Parse ProgramHeaders := do
  let base ← Checked.require (checkedMul position phdrSize)
    (.malformed "phdr offset overflow")
  let stop ← Checked.add base phdrSize
  Checked.ensure (stop ≤ phdrs.length)
    (.malformed "program-header table truncated")
  let entry := (phdrs.drop base).take phdrSize
  let type ← sliceLe 4 entry 0
  let offset ← sliceLe 8 entry 8
  let vaddr ← sliceLe 8 entry 16
  let _ ← sliceLe 8 entry 32
  let memsz ← sliceLe 8 entry 40
  pure (if type = ptLoad then
      { found with
        loads := found.loads ++ [⟨vaddr, memsz⟩]
        ehdrVaddr := if offset = 0 then vaddr else found.ehdrVaddr }
    else if type = ptDynamic then { found with dynamicVaddr := some vaddr }
    else found)

def parseProgramHeaders (phdrs : List UInt8) (phnum : Nat) :
    Parse ProgramHeaders :=
  forRange
    (fun position found => do
      let found ← programHeader phdrs position found
      pure (.next found))
    (fun found => do
      Checked.ensure (found.loads ≠ []) (.malformed "no PT_LOAD segments")
      pure found)
    phnum 0 ⟨[], none, 0⟩

/-- `e_machine` of an ELF64 header. -/
def validateEhdr (ehdr : List UInt8) : Parse Nat := do
  Checked.ensure (20 ≤ ehdr.length) (.malformed "truncated ELF header")
  Checked.ensure (ehdr.take 4 = [0x7f, 0x45, 0x4c, 0x46])
    (.malformed "missing ELF magic")
  Checked.ensure (ehdr[4]? = some 2) (.unsupported "not an ELF64 image")
  Checked.ensure (ehdr[5]? = some 1)
    (.unsupported "not a little-endian ELF image")
  let type ← sliceLe 2 ehdr 16
  let machine ← sliceLe 2 ehdr 18
  Checked.ensure (type = 2 ∨ type = 3)
    (.malformed "ELF e_type is neither ET_EXEC nor ET_DYN")
  Checked.ensure ((relocKinds machine).isSome)
    (.unsupported "ELF machine is not EM_X86_64 or EM_AARCH64")
  pure machine

/-! ## Objects -/

/-- One object of `dl_iterate_phdr`; `dlpi_phnum` is a `u16`. -/
structure Object where
  base : Nat
  phdrs : List UInt8
  phnum : Nat
  few : phnum < 2 ^ 16
  deriving DecidableEq, Repr

namespace Object

def programHeaders (object : Object) : Parse ProgramHeaders :=
  parseProgramHeaders object.phdrs object.phnum

/-- Whether an address falls inside a segment that starts at `base`. -/
def covers (base address : Nat) (seg : Segment) : Bool :=
  let start := wrappingAdd base seg.vaddr
  let stop := wrappingAdd start seg.memsz
  start ≤ address && address < stop

/-- An object whose headers cannot be parsed contains nothing. -/
def containsAddress (object : Object) (address : Nat) : Bool :=
  match object.programHeaders with
  | .ok headers => headers.loads.any (covers object.base address)
  | .error _ => false

end Object

/-- `find_base`: the first object with this load bias. -/
def findBase (objects : List Object) (base : Nat) : Option Object :=
  objects.find? fun object => object.base = base

def moduleStillLoaded (objects : List Object) (base : Nat) : Bool :=
  (findBase objects base).isSome

def slotBelongsToModule (objects : List Object) (address moduleBase : Nat) :
    Bool :=
  (findBase objects moduleBase).any (·.containsAddress address)

/-- `Module::from_raw`: validates the headers and captures the identity. -/
def Module.fromRaw (memory : Nat → UInt8) (object : Object) :
    Parse Module := do
  let headers ← object.programHeaders
  let dynVaddr ← Checked.require headers.dynamicVaddr
    (.malformed "object has no PT_DYNAMIC")
  let ehdrAddr ← Checked.require (checkedAdd object.base headers.ehdrVaddr)
    (.malformed "ELF header address overflow")
  -- `read_live` needs the base and the segments only
  let ehdr ← Module.read
    ⟨object.base, headers.loads, 0, 0, by decide, memory⟩ ehdrAddr 64
  let machine ← validateEhdr ehdr
  match reached : checkedAdd object.base dynVaddr with
  | none => malformed "dynamic table address overflow"
  | some address =>
      pure {
        base := object.base
        loads := headers.loads
        machine := machine
        dynamicAddr := address
        dynamicWord := (eq_of_checkedAdd reached).1 ▸
          (eq_of_checkedAdd reached).2
        memory := memory }

/-! ## Parsing twice -/

namespace Module

variable {memory : Nat → UInt8} {object : Object} {module : Module}

/-- A module has the load bias and the segments of its object. -/
theorem eq_of_fromRaw (acquired : fromRaw memory object = .ok module) :
    module.base = object.base ∧
      ∃ headers, object.programHeaders = .ok headers ∧
        headers.loads = module.loads := by
  unfold fromRaw at acquired
  obtain ⟨headers, parsed, acquired⟩ := Checked.eq_ok_of_bind acquired
  obtain ⟨_, _, acquired⟩ := Checked.eq_ok_of_bind acquired
  obtain ⟨_, _, acquired⟩ := Checked.eq_ok_of_bind acquired
  obtain ⟨_, _, acquired⟩ := Checked.eq_ok_of_bind acquired
  obtain ⟨_, _, acquired⟩ := Checked.eq_ok_of_bind acquired
  split at acquired
  · cases acquired
  · rw [← Except.ok.inj acquired]
    exact ⟨rfl, headers, parsed, rfl⟩

/-- The object of a module is still the one that its load bias finds. -/
def Loaded (objects : List Object) (object : Object) : Prop :=
  object ∈ objects ∧
    ∀ other ∈ objects, other.base = object.base → other = object

theorem findBase_of_loaded {objects : List Object}
    (loaded : Loaded objects object) :
    findBase objects object.base = some object :=
  find?_key_of_unique Object.base loaded.1 loaded.2

/-- A cell of a segment is covered by it, whichever way it is computed. -/
theorem covers_of_mapped {address len : Nat} (placed : module.Placed)
    (wide : 0 < len) (mapped : module.Mapped address len) :
    ∃ seg ∈ module.loads,
      Object.covers module.base address seg = true := by
  obtain ⟨seg, member, above, below⟩ := mapped
  have low := placed seg member
  refine ⟨seg, member, ?_⟩
  have start : wrappingAdd module.base seg.vaddr =
      module.base + seg.vaddr :=
    wrappingAdd_eq (by unfold wordMax; omega)
  have stop : wrappingAdd (module.base + seg.vaddr) seg.memsz =
      module.base + seg.vaddr + seg.memsz :=
    wrappingAdd_eq (by unfold wordMax; omega)
  unfold Object.covers
  simp only [start, stop, Bool.and_eq_true, decide_eq_true_eq]
  omega

/-- A slot of a module belongs to it for as long as its object is loaded. -/
theorem slotBelongsToModule_of_slot {objects : List Object} {slot : Nat}
    (acquired : fromRaw memory object = .ok module)
    (loaded : Loaded objects object) (placed : module.Placed)
    (cell : module.Slot slot) :
    slotBelongsToModule objects slot module.base = true := by
  obtain ⟨base, headers, parsed, loads⟩ := eq_of_fromRaw acquired
  have covered := covers_of_mapped placed (by decide) cell.2
  rw [base, ← loads] at covered
  unfold slotBelongsToModule
  rw [base, findBase_of_loaded loaded, Option.any_some]
  unfold Object.containsAddress
  rw [parsed]
  exact List.any_eq_true.mpr covered

end Module

end Hookfs.Plthook.Elf
