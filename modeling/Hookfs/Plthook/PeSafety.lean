import Hookfs.Plthook.Pe

/-!
# The PE walker is safe on arbitrary bytes

RVAs come from 32-bit fields and the walks are bounded, so every offset stays
far below the end of the address space; the one 63-bit number, the RVA of a
symbol's name, is only moved past its hint before it is checked.
-/

namespace Hookfs.Plthook.Pe

open Hookfs.Lib Hookfs.Posix Hookfs.Plthook

namespace MappedImage

variable {image : MappedImage}

/-- The end of the range is a word. -/
def Placed (image : MappedImage) : Prop :=
  image.base + image.size < 2 ^ 64

/-! ## Reads -/

theorem sound_read (image : MappedImage) (len offset : Nat) :
    Sound (image.read len offset) fun bytes =>
      bytes.length = len ∧ offset + len ≤ image.size := by
  unfold read
  refine Sound.bind (Sound.require _ _) ?_
  intro stop stopAt
  have stopEq := eq_of_checkedAdd stopAt
  refine Sound.bind (Sound.ensure _ _) ?_
  intro _ inside
  refine Sound.bind (Sound.require _ _) ?_
  intro address addressAt
  have addressEq := eq_of_checkedAdd addressAt
  unfold rawRead
  rw [if_pos (by omega)]
  exact ⟨length_bytesAt _ _ _, by omega⟩

theorem sound_uint (image : MappedImage) (width offset : Nat) :
    Sound (image.uint width offset) fun value =>
      value < 256 ^ width ∧ offset + width ≤ image.size := by
  unfold uint
  refine Sound.bind (sound_read image width offset) ?_
  intro bytes read
  refine Sound.pure ⟨?_, read.2⟩
  rw [← read.1]
  exact littleEndian_lt bytes

/-- Reading a field of a record at an offset. -/
theorem sound_field (image : MappedImage) (width : Nat)
    {cursor offset : Nat} (fits : cursor + offset < 2 ^ 64) :
    Sound (Checked.add cursor offset >>= image.uint width) fun value =>
      value < 256 ^ width := by
  refine Sound.bind (Sound.add fits) ?_
  intro sum _
  exact Sound.mono (sound_uint image width sum) fun _ read => read.1

theorem sound_cstr (word : image.size < 2 ^ 64) (offset : Nat) :
    Sound (image.cstr offset) fun _ => True := by
  unfold cstr
  -- a round is left for every byte the name may still have
  apply Sound.loop (fun rounds (state : Nat × List UInt8) =>
    state.2.length + rounds = maxNameLen + 1 ∧
      state.2.length ≤ maxNameLen)
  · intro rounds state kept
    obtain ⟨cursor, bytes⟩ := state
    obtain ⟨total, short⟩ := kept
    simp only at total short
    refine ⟨rounds - 1, by omega, ?_⟩
    refine Sound.bind (sound_read image 1 cursor) ?_
    intro read length
    refine Sound.bind (Sound.index (by omega)) ?_
    intro byte _
    split
    · exact Sound.pure trivial
    · refine Sound.bind (Sound.ensure _ _) ?_
      intro _ enough
      refine Sound.bind (Sound.add (by simp only; omega)) ?_
      intro next _
      simp only [List.length_append, List.length_singleton] at enough
      refine Sound.pure ⟨?_, ?_⟩
      · simp only [List.length_append, List.length_singleton]
        omega
      · simp only [List.length_append, List.length_singleton]
        omega
  · exact ⟨Nat.zero_add _, Nat.zero_le _⟩

/-- An import slot that may be patched. -/
def Slot (image : MappedImage) (slot : Nat) : Prop :=
  slot % 8 = 0 ∧ image.base ≤ slot ∧ slot + 8 ≤ image.base + image.size

/-- An aligned offset inside the range. -/
def Cell (image : MappedImage) (slot : Nat) : Prop :=
  ∃ rva, slot = image.base + rva ∧ rva % 8 = 0 ∧ rva + 8 ≤ image.size

theorem Cell.slot {slot : Nat} (cell : image.Cell slot)
    (aligned : image.base % 8 = 0) : image.Slot slot := by
  obtain ⟨rva, rfl, even, inside⟩ := cell
  exact ⟨by omega, by omega, by omega⟩

theorem sound_slotAddress (image : MappedImage) (rva : Nat) :
    Sound (image.slotAddress rva) image.Cell := by
  unfold slotAddress
  refine Sound.bind (Sound.require _ _) ?_
  intro stop stopAt
  have stopEq := eq_of_checkedAdd stopAt
  unfold thunkSize at stopEq
  refine Sound.bind (Sound.ensure _ _) ?_
  intro _ inside
  refine Sound.bind (Sound.ensure _ _) ?_
  intro _ even
  refine Sound.mono (Sound.require _ _) ?_
  intro slot slotAt
  have slotEq := eq_of_checkedAdd slotAt
  exact ⟨rva, slotEq.1, even, by omega⟩

/-- An RVA resolved from a 32-bit field is no larger than the field. -/
theorem sound_fieldRva (image : MappedImage) (field : Nat) (usesRva : Bool) :
    Sound (image.fieldRva field usesRva) fun rva => rva ≤ field := by
  unfold fieldRva
  split
  · exact Sound.pure (Nat.le_refl _)
  · refine Sound.bind (Sound.ensure _ _) ?_
    intro _ _
    refine Sound.bind (Sound.ensure _ _) ?_
    intro _ _
    exact Sound.pure (Nat.sub_le _ _)

/-! ## Headers -/

theorem sound_directory (image : MappedImage) (count : Nat)
    {start position : Nat} (low : start < 2 ^ 33) (few : position < 16) :
    Sound (image.directory count start position) fun found =>
      ∀ rva, found = some rva → rva < 2 ^ 32 := by
  unfold directory
  split
  · exact Sound.pure nofun
  · refine Sound.bind (Sound.mul (by omega)) ?_
    intro offset offsetEq
    refine Sound.bind (sound_field image 4 (by omega)) ?_
    intro rva word
    apply Sound.pure
    intro found same
    split at same
    · cases same
    · injection same with same
      omega

/-- The directories lie at 32-bit RVAs. -/
structure Near (dirs : Directories) : Prop where
  standard : ∀ rva, dirs.importDir = some rva → rva < 2 ^ 32
  delay : ∀ rva, dirs.delay = some rva → rva < 2 ^ 32

theorem sound_parseHeaders (image : MappedImage) :
    Sound image.parseHeaders Near := by
  unfold parseHeaders
  refine Sound.bind (sound_uint image 2 _) ?_
  intro dosMagic _
  refine Sound.bind (Sound.ensure _ _) ?_
  intro _ _
  refine Sound.bind (sound_uint image 4 _) ?_
  intro eLfanew lfanew
  refine Sound.bind (sound_read image 4 eLfanew) ?_
  intro signature _
  refine Sound.bind (Sound.ensure _ _) ?_
  intro _ _
  refine Sound.bind (Sound.require _ _) ?_
  intro fileHeader fileHeaderAt
  have fileHeaderEq := eq_of_checkedAdd fileHeaderAt
  refine Sound.bind (sound_uint image 2 fileHeader) ?_
  intro machine _
  refine Sound.bind (sound_field image 2 (by omega)) ?_
  intro sizeOfOptional _
  refine Sound.bind (Sound.require _ _) ?_
  intro optional optionalAt
  have optionalEq := eq_of_checkedAdd optionalAt
  refine Sound.bind (Sound.ensure _ _) ?_
  intro _ _
  refine Sound.bind (sound_uint image 2 optional) ?_
  intro magic _
  refine Sound.bind (Sound.ensure _ _) ?_
  intro _ _
  refine Sound.bind (Sound.ensure _ _) ?_
  intro _ _
  refine Sound.bind (Sound.ensure _ _) ?_
  intro _ _
  refine Sound.bind (sound_field image 4 (by omega)) ?_
  intro count _
  refine Sound.bind (Sound.add (by omega)) ?_
  intro start startEq
  refine Sound.bind (sound_directory image count (by omega) (by decide)) ?_
  intro standard standardNear
  refine Sound.bind (sound_directory image count (by omega) (by decide)) ?_
  intro delay delayNear
  exact Sound.pure ⟨standardNear, delayNear⟩

/-! ## Thunks and descriptors -/

/-- Every import collected so far may be patched. -/
def Slots (image : MappedImage) (imports : List RawImport) : Prop :=
  ∀ found ∈ imports, image.Slot found.slot

def Cells (image : MappedImage) (imports : List RawImport) : Prop :=
  ∀ found ∈ imports, image.Cell found.slot

theorem Cells.slots {imports : List RawImport} (cells : image.Cells imports)
    (aligned : image.base % 8 = 0) : image.Slots imports :=
  fun found member => (cells found member).slot aligned

theorem sound_pushSlot (image : MappedImage) (library : Text)
    (kind : ImportKind) (symbol : Option Symbol) (rva : Nat)
    {out : List RawImport} (slots : image.Cells out) :
    Sound (image.pushSlot library kind symbol rva out) image.Cells := by
  unfold pushSlot
  refine Sound.bind (sound_slotAddress image rva) ?_
  intro slot good
  apply Sound.pure
  intro found member
  rcases List.mem_append.mp member with old | new
  · exact slots found old
  · rw [List.mem_singleton.mp new]
    exact good

theorem sound_thunkSymbol (word : image.size < 2 ^ 64) (library : Text)
    (entry : Nat) :
    Sound (image.thunkSymbol library entry) fun _ => True := by
  unfold thunkSymbol imageOrdinalFlag64
  split
  · simp only
    split
    · exact Sound.pure trivial
    · exact Sound.pure trivial
  · have moved : Sound (Checked.add entry 2 >>= image.cstr)
        fun _ => True := by
      refine Sound.bind (Sound.add (by omega)) ?_
      intro start _
      exact sound_cstr word start
    refine Sound.bind moved ?_
    intro name _
    exact Sound.pure trivial

theorem sound_collectThunks (word : image.size < 2 ^ 64)
    {namesRva slotsRva : Nat} (library : Text) (kind : ImportKind)
    (namesLow : namesRva < 2 ^ 32) (slotsLow : slotsRva < 2 ^ 32) {out : List RawImport}
    (slots : image.Cells out) :
    Sound (image.collectThunks namesRva slotsRva library kind out)
      image.Cells := by
  unfold collectThunks
  split
  · apply Sound.forRange (fun _ => image.Cells) maxThunks
    · intro position out few good
      unfold maxThunks at few
      refine Sound.bind (Sound.mul (by unfold thunkSize; omega)) ?_
      intro offset offsetEq
      unfold thunkSize at offsetEq
      refine Sound.bind (Sound.add (by omega)) ?_
      intro entryRva _
      refine Sound.bind (sound_uint image 8 entryRva) ?_
      intro entry _
      split
      · exact Sound.pure good
      · refine Sound.bind (sound_pushSlot image library kind none
          entryRva good) ?_
        intro next better
        exact Sound.pure better
    · intro _ _
      exact Sound.fail _
    · exact Nat.zero_add _
    · exact slots
  · apply Sound.forRange (fun _ => image.Cells) maxThunks
    · intro position out few good
      unfold maxThunks at few
      refine Sound.bind (Sound.mul (by unfold thunkSize; omega)) ?_
      intro offset offsetEq
      unfold thunkSize at offsetEq
      refine Sound.bind (sound_field image 8 (by omega)) ?_
      intro entry _
      split
      · exact Sound.pure good
      · refine Sound.bind (sound_thunkSymbol word library entry) ?_
        intro symbol _
        refine Sound.bind (Sound.mul (by unfold thunkSize; omega)) ?_
        intro slotOffset slotOffsetEq
        unfold thunkSize at slotOffsetEq
        refine Sound.bind (Sound.add (by omega)) ?_
        intro slotRva _
        refine Sound.bind (sound_pushSlot image library kind (some symbol)
          slotRva good) ?_
        intro next better
        exact Sound.pure better
    · intro _ _
      exact Sound.fail _
    · exact Nat.zero_add _
    · exact slots

theorem sound_parseStandard (word : image.size < 2 ^ 64) {dirRva : Nat}
    (low : dirRva < 2 ^ 32) :
    Sound (image.parseStandard dirRva) image.Cells := by
  unfold parseStandard
  apply Sound.forRange (fun _ => image.Cells) maxDescriptors
  · intro position out few good
    unfold maxDescriptors at few
    refine Sound.bind (Sound.mul (by unfold importDescriptorSize; omega)) ?_
    intro offset offsetEq
    unfold importDescriptorSize at offsetEq
    refine Sound.bind (Sound.add (by omega)) ?_
    intro desc descEq
    refine Sound.bind (sound_uint image 4 desc) ?_
    intro originalFirstThunk originalWord
    refine Sound.bind (sound_field image 4 (by omega)) ?_
    intro nameRva _
    refine Sound.bind (sound_field image 4 (by omega)) ?_
    intro firstThunk firstWord
    split
    · exact Sound.pure good
    · split
      · exact Sound.pure good
      · refine Sound.bind (sound_cstr word nameRva) ?_
        intro library _
        refine Sound.bind (sound_collectThunks word library
          .standard (by omega) (by omega) good) ?_
        intro next better
        exact Sound.pure better
  · intro _ _
    exact Sound.fail _
  · exact Nat.zero_add _
  · exact nofun

theorem sound_namesRva (image : MappedImage) (field : Nat) (usesRva : Bool) :
    Sound (image.namesRva field usesRva) fun rva => rva ≤ field := by
  unfold namesRva
  split
  · exact Sound.pure (Nat.zero_le _)
  · exact sound_fieldRva image field usesRva

theorem sound_parseDelay (word : image.size < 2 ^ 64) {dirRva : Nat}
    (low : dirRva < 2 ^ 32) :
    Sound (image.parseDelay dirRva) image.Cells := by
  unfold parseDelay
  apply Sound.forRange (fun _ => image.Cells) maxDescriptors
  · intro position out few good
    unfold maxDescriptors at few
    refine Sound.bind (Sound.mul (by unfold delayDescriptorSize; omega)) ?_
    intro offset offsetEq
    unfold delayDescriptorSize at offsetEq
    refine Sound.bind (Sound.add (by omega)) ?_
    intro desc descEq
    refine Sound.bind (sound_uint image 4 desc) ?_
    intro attributes _
    refine Sound.bind (sound_field image 4 (by omega)) ?_
    intro dllNameRva _
    refine Sound.bind (sound_field image 4 (by omega)) ?_
    intro slotsField slotsWord
    refine Sound.bind (sound_field image 4 (by omega)) ?_
    intro namesField namesWord
    split
    · exact Sound.pure good
    · refine Sound.bind (sound_cstr word dllNameRva) ?_
      intro library _
      split
      · exact Sound.pure good
      · split
        · exact Sound.pure good
        · refine Sound.bind (sound_namesRva image namesField _) ?_
          intro namesRva namesLow
          refine Sound.bind (sound_fieldRva image slotsField _) ?_
          intro slotsRva slotsLow
          refine Sound.bind (sound_collectThunks word library
            .delayLoad (by omega) (by omega) good) ?_
          intro next better
          exact Sound.pure better
  · intro _ _
    exact Sound.fail _
  · exact Nat.zero_add _
  · exact nofun

theorem sound_standardImports (word : image.size < 2 ^ 64)
    {dirs : Directories} (near : Near dirs) :
    Sound (image.standardImports dirs) image.Cells := by
  unfold standardImports
  split
  · exact Sound.pure nofun
  · rename_i rva here
    exact sound_parseStandard word (near.standard rva here)

theorem sound_delayImports (word : image.size < 2 ^ 64)
    {dirs : Directories} (near : Near dirs) :
    Sound (image.delayImports dirs) image.Cells := by
  unfold delayImports
  split
  · exact Sound.pure nofun
  · rename_i rva here
    refine Sound.bind (Sound.attempt
      (sound_parseDelay word (near.delay rva here))) ?_
    intro outcome good
    cases outcome with
    | ok delay =>
        exact Sound.pure (good delay rfl)
    | error error =>
        exact Sound.pure nofun

theorem sound_parseImports (placed : image.Placed)
    (aligned : image.base % 8 = 0) :
    Sound image.parseImports image.Slots := by
  have word : image.size < 2 ^ 64 := by
    unfold Placed at placed
    omega
  unfold parseImports
  refine Sound.bind (sound_parseHeaders image) ?_
  intro dirs near
  refine Sound.bind (sound_standardImports word near) ?_
  intro standard standardCells
  refine Sound.bind (sound_delayImports word near) ?_
  intro delay delayCells
  apply Sound.pure
  intro found member
  rcases List.mem_append.mp member with first | second
  · exact standardCells.slots aligned found first
  · exact delayCells.slots aligned found second

/-- For any mapped range at an aligned base and any bytes in it, the walk
returns imports or an error; no word overflows, no byte is read outside of
the range, and every slot is an aligned cell inside it. -/
theorem parseImports_in_range (image : MappedImage)
    (aligned : image.base % 8 = 0)
    (placed : image.base + image.size < 2 ^ 64) :
    (∃ imports, image.parseImports = .ok imports ∧
      ∀ found ∈ imports, found.slot % 8 = 0 ∧ image.base ≤ found.slot ∧
        found.slot + 8 ≤ image.base + image.size) ∨
      ∃ error, image.parseImports = .error (.error error) :=
  Sound.iff_ok_or_error.mp (sound_parseImports placed aligned)

/-- Headers and one descriptor: the function `f` of the library `k`, in a
range of 512 bytes at 4096. -/
def oneImport : MappedImage where
  base := 4096
  size := 512
  hostMachine := 0x8664
  memory address :=
    -- the headers
    if address = 4096 then 0x4D else if address = 4097 then 0x5A
    else if address = 4156 then 64
    else if address = 4160 then 0x50 else if address = 4161 then 0x45
    else if address = 4164 then 0x64 else if address = 4165 then 0x86
    else if address = 4180 then 240
    else if address = 4184 then 0x0B else if address = 4185 then 0x02
    else if address = 4292 then 2
    else if address = 4305 then 1
    -- the descriptor, its name entry and the two names
    else if address = 4352 then 64 else if address = 4353 then 1
    else if address = 4364 then 96 else if address = 4365 then 1
    else if address = 4368 then 80 else if address = 4369 then 1
    else if address = 4416 then 104 else if address = 4417 then 1
    else if address = 4448 then 107
    else if address = 4458 then 102
    else 0

theorem parseImports_in_range_one_import :
    oneImport.parseImports =
        .ok [⟨['k'], some (.name ['f']), none, 4432, .standard, false⟩] ∧
      ((∃ imports, oneImport.parseImports = .ok imports ∧
        ∀ found ∈ imports, found.slot % 8 = 0 ∧
          oneImport.base ≤ found.slot ∧
            found.slot + 8 ≤ oneImport.base + oneImport.size) ∨
        ∃ error, oneImport.parseImports = .error (.error error)) :=
  ⟨by decide +kernel,
    parseImports_in_range oneImport (by decide) (by decide)⟩

end MappedImage

end Hookfs.Plthook.Pe
