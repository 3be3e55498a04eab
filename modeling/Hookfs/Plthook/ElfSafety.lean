import Hookfs.Plthook.Elf

/-!
# The ELF walker is safe on arbitrary contents

Whatever the segments hold, the walk ends without a trap.  Every address it
computes comes from a table that a pointer in a segment leads to, by offsets
of bounded width, so it stays far below the end of the address space; the one
unbounded stride, `DT_RELAENT`, is held back by the read before it.
-/

namespace Hookfs.Plthook.Elf

open Hookfs.Lib Hookfs.Posix Hookfs.Plthook

namespace Module

variable {module : Module}

/-- The segments lie in the lower half of the address space. -/
def Placed (module : Module) : Prop :=
  ∀ seg ∈ module.loads, module.base + seg.vaddr + seg.memsz < 2 ^ 63

/-! ## Addresses -/

theorem mapped_of_vaddrInLoad {vaddr len : Nat}
    (inside : vaddrInLoad module.loads vaddr len = true) :
    module.Mapped (module.base + vaddr) len := by
  unfold vaddrInLoad at inside
  rw [List.any_eq_true] at inside
  obtain ⟨seg, member, bounds⟩ := inside
  rw [Bool.and_eq_true, decide_eq_true_eq, Option.any_eq_true] at bounds
  obtain ⟨above, stop, reached, below⟩ := bounds
  have stopEq := eq_of_checkedAdd reached
  have within : stop ≤ saturatingAdd seg.vaddr seg.memsz := by
    simpa using below
  unfold saturatingAdd at within
  exact ⟨seg, member, by omega, by omega⟩

theorem Placed.below {address len : Nat} (placed : module.Placed)
    (mapped : module.Mapped address len) : address + len < 2 ^ 63 := by
  obtain ⟨seg, member, -, upper⟩ := mapped
  have bound := placed seg member
  omega

/-! ## Reads -/

theorem sound_read (placed : module.Placed) (cursor len : Nat) :
    Sound (module.read cursor len) fun bytes =>
      bytes.length = len ∧ cursor + len < 2 ^ 63 := by
  unfold read
  refine Sound.bind (Sound.ensure _ _) ?_
  intro _ above
  refine Sound.bind (Sound.ensure _ _) ?_
  intro _ inside
  have mapped : module.Mapped cursor len := by
    have found := mapped_of_vaddrInLoad inside
    rw [Nat.add_sub_cancel' above] at found
    exact found
  unfold rawRead
  rw [if_pos mapped]
  exact ⟨length_bytesAt _ _ _, placed.below mapped⟩

theorem sound_readUint (placed : module.Placed) (width cursor : Nat) :
    Sound (module.readUint width cursor) fun value =>
      value < 256 ^ width ∧ cursor + width < 2 ^ 63 := by
  unfold readUint
  refine Sound.bind (sound_read placed cursor width) ?_
  intro bytes read
  refine Sound.pure ⟨?_, read.2⟩
  rw [← read.1]
  exact littleEndian_lt bytes

/-- Reading a field of a record at a cursor. -/
theorem sound_field (placed : module.Placed) (width : Nat)
    {cursor offset : Nat} (fits : cursor + offset < 2 ^ 64) :
    Sound (Checked.add cursor offset >>= module.readUint width) fun value =>
      value < 256 ^ width ∧ cursor + offset + width < 2 ^ 63 := by
  refine Sound.bind (Sound.add fits) ?_
  intro sum same
  rw [same]
  exact sound_readUint placed width _

theorem sound_readI64 (placed : module.Placed) (cursor : Nat) :
    Sound (module.readI64 cursor) fun _ => cursor + 8 < 2 ^ 63 := by
  unfold readI64
  refine Sound.bind (sound_readUint placed 8 cursor) ?_
  intro value read
  exact Sound.pure read.2

theorem sound_readStr (placed : module.Placed) {strtab offset : Nat}
    (strsz : Nat) (low : strtab < 2 ^ 63) (short : offset < 2 ^ 32) :
    Sound (module.readStr strtab strsz offset) fun _ => True := by
  unfold readStr
  refine Sound.bind (Sound.ensure _ _) ?_
  intro _ inside
  apply Sound.forRange (fun _ _ => True)
    (min (strsz - offset) (maxNameLen + 1))
  · intro position bytes before _
    have few : position < 2 ^ 14 := by
      unfold maxNameLen at before
      omega
    refine Sound.bind (Sound.add (by omega)) ?_
    intro start startEq
    refine Sound.bind (Sound.add (by omega)) ?_
    intro cursor _
    refine Sound.bind (sound_read placed cursor 1) ?_
    intro read length
    refine Sound.bind (Sound.index (by omega)) ?_
    intro byte _
    apply Sound.pure
    split
    · trivial
    · trivial
  · intro _ _
    exact Sound.fail _
  · exact Nat.zero_add _
  · trivial

theorem sound_dynptrCursor (placed : module.Placed) (pointer : Nat) :
    Sound (module.dynptrCursor pointer) fun cursor => cursor < 2 ^ 63 := by
  unfold dynptrCursor
  refine Sound.bind (Sound.ensure _ _) ?_
  intro _ above
  refine Sound.bind (Sound.ensure _ _) ?_
  intro _ inside
  have found := placed.below (mapped_of_vaddrInLoad inside)
  exact Sound.pure (by omega)

theorem sound_vaddrCursor (placed : module.Placed) (vaddr : Nat) :
    Sound (module.vaddrCursor vaddr) fun cursor => cursor < 2 ^ 63 := by
  unfold vaddrCursor
  refine Sound.bind (Sound.ensure _ _) ?_
  intro _ inside
  have found := placed.below (mapped_of_vaddrInLoad inside)
  refine Sound.mono (Sound.require _ _) ?_
  intro cursor reached
  have cursorEq := eq_of_checkedAdd reached
  omega

/-- An import slot that may be patched. -/
def Slot (module : Module) (slot : Nat) : Prop :=
  slot % 8 = 0 ∧ module.Mapped slot 8

theorem sound_slotAddress (module : Module) (offset : Nat) :
    Sound (module.slotAddress offset) module.Slot := by
  unfold slotAddress
  refine Sound.bind (Sound.require _ _) ?_
  intro address reached
  refine Sound.bind (Sound.ensure _ _) ?_
  intro _ inside
  refine Sound.bind (Sound.ensure _ _) ?_
  intro _ aligned
  have mapped := mapped_of_vaddrInLoad inside
  rw [← (eq_of_checkedAdd reached).1] at mapped
  exact Sound.pure ⟨aligned, mapped⟩

/-! ## The dynamic table and the versions -/

end Module

/-- The table sizes are words. -/
structure DynamicInfo.Words (info : DynamicInfo) : Prop where
  relasz : ∀ value, info.relasz = some value → value < 2 ^ 64
  pltrelsz : ∀ value, info.pltrelsz = some value → value < 2 ^ 64

theorem DynamicInfo.Words.record {info : DynamicInfo} (words : info.Words)
    (tag : Int) {value : Nat} (word : value < 2 ^ 64) :
    (info.record tag value).Words := by
  have set : ∀ found, some value = some found → found < 2 ^ 64 := by
    intro found same
    injection same with same
    omega
  have either : ∀ {condition : Prop} [Decidable condition]
      {left right : DynamicInfo}, left.Words → right.Words →
        (if condition then left else right).Words := by
    intro condition _ left right leftWords rightWords
    split
    · exact leftWords
    · exact rightWords
  unfold DynamicInfo.record
  repeat' apply either
  all_goals first
    | exact words
    | exact ⟨words.relasz, words.pltrelsz⟩
    | exact ⟨set, words.pltrelsz⟩
    | exact ⟨words.relasz, set⟩

namespace Module

variable {module : Module}

theorem sound_readDynamic (placed : module.Placed) :
    Sound module.readDynamic DynamicInfo.Words := by
  have word := module.dynamicWord
  unfold readDynamic
  -- from the second entry on, the table's start has been read
  apply Sound.forRange (fun position info => info.Words ∧
    (position = 0 ∨ module.dynamicAddr < 2 ^ 63)) maxDyn
  · intro position info before kept
    obtain ⟨words, started⟩ := kept
    unfold maxDyn at before
    refine Sound.bind (Sound.mul (by unfold dynSize; omega)) ?_
    intro offset offsetEq
    unfold dynSize at offsetEq
    refine Sound.bind (Sound.add (by omega)) ?_
    intro cursor cursorEq
    refine Sound.bind (sound_readI64 placed cursor) ?_
    intro tag low
    split
    · exact Sound.pure words
    · refine Sound.bind (Sound.add (by omega)) ?_
      intro valueAt _
      refine Sound.bind (sound_readUint placed 8 valueAt) ?_
      intro value read
      refine Sound.pure ⟨words.record tag ?_, Or.inr (by omega)⟩
      exact read.1
  · intro _ _
    exact Sound.fail _
  · exact Nat.zero_add _
  · exact ⟨⟨nofun, nofun⟩, Or.inl rfl⟩

/-- How far a version chain can lead from an entry that was read. -/
def chainLimit : Nat := 2 ^ 63 + 2 ^ 32

theorem sound_vernauxLoop (placed : module.Placed) {strtab aux : Nat}
    (strsz count : Nat) (soname : Text) (map : VersionMap)
    (low : strtab < 2 ^ 63) (near : aux < chainLimit) :
    Sound (module.vernauxLoop strtab strsz count soname aux map)
      fun _ => True := by
  unfold vernauxLoop
  unfold chainLimit at near
  apply Sound.forRange (fun _ (state : Nat × VersionMap) =>
    state.1 < 2 ^ 63 + 2 ^ 32) (min count maxVernaux)
  · intro _ state _ close
    refine Sound.bind (sound_field placed 2 (by omega)) ?_
    intro other _
    refine Sound.bind (sound_field placed 4 (by omega)) ?_
    intro name readName
    refine Sound.bind (sound_field placed 4 (by omega)) ?_
    intro next readNext
    refine Sound.bind (sound_readStr placed strsz low (by omega)) ?_
    intro version _
    split
    · exact Sound.pure trivial
    · refine Sound.bind (Sound.add (by omega)) ?_
      intro cursor cursorEq
      exact Sound.pure (show cursor < 2 ^ 63 + 2 ^ 32 by omega)
  · intro _ _
    exact Sound.pure trivial
  · exact Nat.zero_add _
  · exact near

theorem sound_buildVersionMap (placed : module.Placed) {strtab : Nat}
    (dynamic : DynamicInfo) (strsz : Nat) (low : strtab < 2 ^ 63) :
    Sound (module.buildVersionMap dynamic strtab strsz) fun _ => True := by
  unfold buildVersionMap
  split
  · exact Sound.pure trivial
  · refine Sound.bind (sound_vaddrCursor placed _) ?_
    intro first firstLow
    apply Sound.forRange (fun _ (state : Nat × VersionMap) =>
      state.1 < 2 ^ 63 + 2 ^ 32)
      (min (dynamic.verneednum.getD maxVerneed) maxVerneed)
    · intro _ state _ close
      refine Sound.bind (sound_field placed 2 (by omega)) ?_
      intro count _
      refine Sound.bind (sound_field placed 4 (by omega)) ?_
      intro file readFile
      refine Sound.bind (sound_field placed 4 (by omega)) ?_
      intro aux readAux
      refine Sound.bind (sound_field placed 4 (by omega)) ?_
      intro next readNext
      refine Sound.bind (sound_readStr placed strsz low (by omega)) ?_
      intro soname _
      refine Sound.bind (Sound.add (by omega)) ?_
      intro auxCursor auxEq
      refine Sound.bind (sound_vernauxLoop placed strsz count soname state.2
        low (by unfold chainLimit; omega)) ?_
      intro map _
      split
      · exact Sound.pure trivial
      · refine Sound.bind (Sound.add (by omega)) ?_
        intro cursor cursorEq
        exact Sound.pure (show cursor < 2 ^ 63 + 2 ^ 32 by omega)
    · intro _ _
      exact Sound.pure trivial
    · exact Nat.zero_add _
    · exact Nat.lt_add_right _ firstLow

theorem sound_versionOf (placed : module.Placed) (versions : VersionMap)
    {versymCursor : Option Nat} {symIndex : Nat}
    (low : ∀ table, versymCursor = some table → table < 2 ^ 63)
    (short : symIndex < 2 ^ 32) :
    Sound (module.versionOf versions versymCursor symIndex)
      fun _ => True := by
  unfold versionOf
  split
  · exact Sound.pure trivial
  · rename_i table
    have tableLow := low table rfl
    refine Sound.bind (Sound.mul (by omega)) ?_
    intro offset offsetEq
    refine Sound.bind (sound_field placed 2 (by omega)) ?_
    intro raw _
    simp only
    split
    · exact Sound.pure trivial
    · split
      · exact Sound.pure trivial
      · exact Sound.pure trivial

/-! ## Relocations -/

/-- The tables begin at addresses that were found in a segment. -/
structure Tables.Low (tables : Tables) : Prop where
  symtab : tables.symtab < 2 ^ 63
  strtab : tables.strtab < 2 ^ 63
  versym : ∀ table, tables.versymCursor = some table → table < 2 ^ 63

/-- Every import collected so far may be patched. -/
def Slots (module : Module) (imports : List RawImport) : Prop :=
  ∀ found ∈ imports, module.Slot found.slot

/-- One entry of a relocation table; the entry was read, so it is low. -/
theorem sound_relaEntry (placed : module.Placed) {tables : Tables}
    (low : tables.Low) {table entsize position : Nat} (wantType : Nat)
    {out : List RawImport} (slots : module.Slots out)
    (fits : table + position * entsize < 2 ^ 64) :
    Sound (module.relaEntry tables table entsize wantType position out)
      (Round.Meets (fun next => module.Slots next ∧
        table + position * entsize < 2 ^ 63) module.Slots) := by
  unfold relaEntry
  refine Sound.bind (Sound.mul (by omega)) ?_
  intro offset offsetEq
  refine Sound.bind (Sound.add (by omega)) ?_
  intro entry entryEq
  refine Sound.bind (sound_readUint placed 8 entry) ?_
  intro rOffset readOffset
  refine Sound.bind (sound_field placed 8 (by omega)) ?_
  intro rInfo readInfo
  have here : table + position * entsize < 2 ^ 63 := by omega
  split
  · exact Sound.pure ⟨slots, here⟩
  · refine Sound.bind (Sound.ensure _ _) ?_
    intro _ short
    have symtab := low.symtab
    refine Sound.bind (Sound.mul (by unfold symSize; omega)) ?_
    intro symOffset symOffsetEq
    unfold symSize at symOffsetEq
    refine Sound.bind (sound_field placed 4 (by omega)) ?_
    intro stName readName
    split
    · exact Sound.pure ⟨slots, here⟩
    · refine Sound.bind (sound_readStr placed tables.strsz low.strtab
        (by omega)) ?_
      intro name _
      refine Sound.bind (sound_versionOf placed tables.versions low.versym
        short) ?_
      intro version _
      refine Sound.bind (sound_slotAddress module rOffset) ?_
      intro slot good
      refine Sound.pure ⟨?_, here⟩
      intro found member
      rcases List.mem_append.mp member with old | new
      · exact slots found old
      · rw [List.mem_singleton.mp new]
        exact good

theorem sound_walkRela (placed : module.Placed) {tables : Tables}
    (low : tables.Low) {table tableSize : Nat} (entsize wantType : Nat)
    {out : List RawImport} (slots : module.Slots out)
    (start : table < 2 ^ 63) (word : tableSize < 2 ^ 64) :
    Sound (module.walkRela tables table tableSize entsize wantType out)
      module.Slots := by
  unfold walkRela
  refine Sound.bind (Sound.ensure _ _) ?_
  intro _ positive
  refine Sound.bind (Sound.ensure _ _) ?_
  intro _ few
  have whole := Nat.div_mul_le_self tableSize entsize
  apply Sound.forRange (fun position imports => module.Slots imports ∧
    (position < tableSize / entsize →
      table + position * entsize < 2 ^ 64)) (tableSize / entsize)
  · intro position imports before kept
    obtain ⟨good, fits⟩ := kept
    refine Sound.mono (sound_relaEntry placed low wantType good
      (fits before)) ?_
    intro round meets
    cases round with
    | done value =>
        exact meets
    | next imports =>
        refine ⟨meets.1, ?_⟩
        intro more
        -- two entries fit the table, so the stride is less than half a word
        have two : 2 * entsize ≤ tableSize / entsize * entsize :=
          Nat.mul_le_mul_right entsize (by omega)
        have low := meets.2
        rw [Nat.succ_mul]
        omega
  · intro imports done
    exact Sound.pure done.1
  · exact Nat.zero_add _
  · refine ⟨slots, ?_⟩
    intro _
    omega

theorem sound_versymTable (placed : module.Placed) (dynamic : DynamicInfo) :
    Sound (module.versymTable dynamic) fun found =>
      ∀ table, found = some table → table < 2 ^ 63 := by
  unfold versymTable
  split
  · exact Sound.pure nofun
  · refine Sound.bind (sound_dynptrCursor placed _) ?_
    intro cursor low
    apply Sound.pure
    intro table same
    injection same with same
    omega

theorem sound_walkPlt (placed : module.Placed) {dynamic : DynamicInfo}
    (words : dynamic.Words) {tables : Tables} (low : tables.Low)
    (jumpSlot : Nat) :
    Sound (module.walkPlt dynamic tables jumpSlot) module.Slots := by
  unfold walkPlt
  split
  · rename_i jmprel pltrelsz _ sized
    split
    · refine Sound.bind (sound_dynptrCursor placed jmprel) ?_
      intro table start
      exact sound_walkRela placed low _ _ nofun start
        (words.pltrelsz pltrelsz sized)
    · exact Sound.pure nofun
  · exact Sound.pure nofun

theorem sound_walkDyn (placed : module.Placed) {dynamic : DynamicInfo}
    (words : dynamic.Words) {tables : Tables} (low : tables.Low)
    (globDat : Nat) {out : List RawImport} (slots : module.Slots out) :
    Sound (module.walkDyn dynamic tables globDat out) module.Slots := by
  unfold walkDyn
  split
  · exact Sound.pure slots
  · rename_i rela _
    refine Sound.bind (Sound.require _ _) ?_
    intro relasz sized
    refine Sound.bind (sound_dynptrCursor placed rela) ?_
    intro table start
    exact sound_walkRela placed low _ _ slots start
      (words.relasz relasz sized)

theorem sound_parseImports (placed : module.Placed) :
    Sound module.parseImports module.Slots := by
  unfold parseImports
  refine Sound.bind (Sound.require _ _) ?_
  intro kinds _
  refine Sound.bind (sound_readDynamic placed) ?_
  intro dynamic words
  refine Sound.bind (Sound.ensure _ _) ?_
  intro _ _
  refine Sound.bind (Sound.require _ _) ?_
  intro symtabPtr _
  refine Sound.bind (Sound.require _ _) ?_
  intro strtabPtr _
  refine Sound.bind (Sound.require _ _) ?_
  intro strsz _
  refine Sound.bind (sound_dynptrCursor placed symtabPtr) ?_
  intro symtab symtabLow
  refine Sound.bind (sound_dynptrCursor placed strtabPtr) ?_
  intro strtab strtabLow
  refine Sound.bind (sound_buildVersionMap placed dynamic strsz strtabLow) ?_
  intro versions _
  refine Sound.bind (sound_versymTable placed dynamic) ?_
  intro versymCursor versymLow
  have low : Tables.Low ⟨versymCursor, symtab, strtab, strsz, versions⟩ :=
    ⟨symtabLow, strtabLow, versymLow⟩
  refine Sound.bind (sound_walkPlt placed words low _) ?_
  intro plt slots
  exact sound_walkDyn placed words low _ slots

/-- For any segments below `2 ^ 63` and any contents, the walk returns
imports or an error; no word overflows, no byte is read outside of the
segments, and every import it returns is an aligned cell of a segment. -/
theorem parseImports_safe (module : Module)
    (placed : ∀ seg ∈ module.loads,
      module.base + seg.vaddr + seg.memsz < 2 ^ 63) :
    (∃ imports, module.parseImports = .ok imports ∧
      ∀ found ∈ imports, found.slot % 8 = 0 ∧
        ∃ seg ∈ module.loads, module.base + seg.vaddr ≤ found.slot ∧
          found.slot + 8 ≤ module.base + seg.vaddr + seg.memsz) ∨
      ∃ error, module.parseImports = .error (.error error) :=
  Sound.iff_ok_or_error.mp (sound_parseImports placed)

/-- A dynamic table with one `GLOB_DAT` relocation, its symbol `f` and its
slot, in one segment at 4096. -/
def oneImport : Module where
  base := 4096
  loads := [⟨0, 256⟩]
  machine := 62
  dynamicAddr := 4096
  dynamicWord := by decide
  memory address :=
    -- byte by byte: the dynamic entries, then symbol, string, relocation
    if address = 4096 then 6 else if address = 4104 then 128
    else if address = 4105 then 16
    else if address = 4112 then 5 else if address = 4120 then 192
    else if address = 4121 then 16
    else if address = 4128 then 10 else if address = 4136 then 8
    else if address = 4144 then 7 else if address = 4152 then 208
    else if address = 4153 then 16
    else if address = 4160 then 8 else if address = 4168 then 24
    else if address = 4248 then 1
    else if address = 4289 then 102
    else if address = 4304 then 240
    else if address = 4312 then 6 else if address = 4316 then 1
    else 0

theorem parseImports_safe_one_import :
    oneImport.parseImports =
        .ok [⟨[], some (.name ['f']), none, 4336, .standard, false⟩] ∧
      ((∃ imports, oneImport.parseImports = .ok imports ∧
        ∀ found ∈ imports, found.slot % 8 = 0 ∧
          ∃ seg ∈ oneImport.loads, oneImport.base + seg.vaddr ≤ found.slot ∧
            found.slot + 8 ≤ oneImport.base + seg.vaddr + seg.memsz) ∨
        ∃ error, oneImport.parseImports = .error (.error error)) :=
  ⟨by decide +kernel, parseImports_safe oneImport (by decide)⟩

end Module

end Hookfs.Plthook.Elf
