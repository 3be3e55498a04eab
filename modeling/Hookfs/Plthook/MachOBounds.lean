import Hookfs.Plthook.MachO

/-!
# Bounds of Mach-O headers

Reads through a view, the load commands and the universal containers do not
trap.  The fields of a load command are 32 bits wide, so every cursor that is
computed from them stays far below the end of a word.
-/

namespace Hookfs.Plthook.MachO

open Hookfs.Lib Hookfs.Posix Hookfs.Plthook

namespace MachOView

variable (view : MachOView)

/-! ## Reads -/

theorem sound_readUint (width off : Nat) :
    Sound (view.readUint width off) fun value => value < 256 ^ width := by
  unfold readUint
  refine Sound.bind (Sound.propagate _) ?_
  intro bytes read
  apply Sound.pure
  have length := view.length_read off width bytes read
  have bound := littleEndian_lt bytes
  rw [length] at bound
  exact bound

/-- Reading a field of a record at a cursor. -/
theorem sound_field (width : Nat) {cursor offset : Nat}
    (fits : cursor + offset < 2 ^ 64) :
    Sound (Checked.add cursor offset >>= view.readUint width) fun value =>
      value < 256 ^ width := by
  refine Sound.bind (Sound.add fits) ?_
  intro sum _
  exact view.sound_readUint width sum

theorem sound_readByte (off : Nat) :
    Sound (view.readByte off) fun _ => True := by
  unfold readByte
  refine Sound.bind (Sound.propagate _) ?_
  intro bytes read
  have length := view.length_read off 1 bytes read
  refine Sound.mono (Sound.index (by omega)) ?_
  intro _ _
  trivial

/-- Reading a byte of a record at a cursor. -/
theorem sound_byteAt {cursor offset : Nat} (fits : cursor + offset < 2 ^ 64) :
    Sound (Checked.add cursor offset >>= view.readByte) fun _ => True := by
  refine Sound.bind (Sound.add fits) ?_
  intro sum _
  exact view.sound_readByte sum

theorem sound_readCstrRaw {off : Nat} (low : off < 2 ^ 63) :
    Sound (view.readCstrRaw off) fun found => found.2 < 2 ^ 14 := by
  unfold readCstrRaw
  apply Sound.forRange (fun _ _ => True) (maxNameLen + 1)
  · intro position bytes before _
    have few : position < 2 ^ 14 := by
      unfold maxNameLen at before
      omega
    refine Sound.bind (view.sound_byteAt (by omega)) ?_
    intro byte _
    apply Sound.pure
    split
    · exact few
    · trivial
  · intro _ _
    exact Sound.fail _
  · exact Nat.zero_add _
  · trivial

theorem sound_readCstr {off : Nat} (low : off < 2 ^ 63) :
    Sound (view.readCstr off) fun _ => True := by
  unfold readCstr
  refine Sound.bind (view.sound_readCstrRaw low) ?_
  intro found _
  exact Sound.pure trivial

theorem sound_readStrInTable {base strx : Nat} (size : Nat)
    (low : base < 2 ^ 63) (short : strx < 2 ^ 32) :
    Sound (view.readStrInTable base size strx) fun _ => True := by
  unfold readStrInTable
  refine Sound.bind (Sound.ensure _ _) ?_
  intro _ _
  apply Sound.forRange (fun _ _ => True)
    (min (size - strx) (maxNameLen + 1))
  · intro position bytes before _
    have few : position < 2 ^ 14 := by
      unfold maxNameLen at before
      omega
    refine Sound.bind (Sound.add (by omega)) ?_
    intro start startEq
    refine Sound.bind (view.sound_byteAt (by omega)) ?_
    intro byte _
    apply Sound.pure
    split
    · trivial
    · trivial
  · intro _ _
    exact Sound.fail _
  · exact Nat.zero_add _
  · trivial

end MachOView

/-! ## Load commands -/

/-- The fields that were read from 32 bits. -/
structure LoadInfo.Narrow (info : LoadInfo) : Prop where
  symtab : ∀ table, info.symtab = some table →
    table.symoff < 2 ^ 32 ∧ table.stroff < 2 ^ 32
  indirect : ∀ table, info.indirect = some table →
    table.indirectsymoff < 2 ^ 32 ∧ table.nindirectsyms < 2 ^ 32
  binds : ∀ stream ∈ info.binds, stream.off < 2 ^ 32 ∧ stream.size < 2 ^ 32
  chained : ∀ blob, info.chained = some blob →
    blob.off < 2 ^ 32 ∧ blob.size < 2 ^ 32

theorem LoadInfo.narrow_default : (default : LoadInfo).Narrow where
  symtab := nofun
  indirect := nofun
  binds := nofun
  chained := nofun

namespace MachOView

variable (view : MachOView) {info : LoadInfo} {base : Nat}

theorem sound_readSection {position : Nat} (narrow : info.Narrow)
    (low : base < 2 ^ 33) (few : position < 2 ^ 32) :
    Sound (view.readSection base position info) LoadInfo.Narrow := by
  unfold readSection
  refine Sound.bind (Sound.mul (by unfold section64Size; omega)) ?_
  intro skipped skippedEq
  unfold section64Size at skippedEq
  refine Sound.bind (Sound.add (by unfold segmentCommand64Size; omega)) ?_
  intro first firstEq
  unfold segmentCommand64Size at firstEq
  refine Sound.bind (Sound.add (by omega)) ?_
  intro sec secEq
  refine Sound.bind (view.sound_field 8 (by omega)) ?_
  intro size _
  refine Sound.bind (view.sound_field 4 (by omega)) ?_
  intro offset _
  refine Sound.bind (view.sound_field 4 (by omega)) ?_
  intro flags _
  refine Sound.bind (view.sound_field 4 (by omega)) ?_
  intro reserved1 _
  apply Sound.pure
  split
  · exact ⟨narrow.symtab, narrow.indirect, narrow.binds, narrow.chained⟩
  · exact narrow

theorem sound_readSegment (cmdsize : Nat) (narrow : info.Narrow)
    (low : base < 2 ^ 33) :
    Sound (view.readSegment base cmdsize info) LoadInfo.Narrow := by
  unfold readSegment
  refine Sound.bind (Sound.ensure _ _) ?_
  intro _ _
  refine Sound.bind (view.sound_field 8 (by omega)) ?_
  intro vmaddr _
  refine Sound.bind (view.sound_field 8 (by omega)) ?_
  intro vmsize _
  refine Sound.bind (view.sound_field 8 (by omega)) ?_
  intro fileoff _
  refine Sound.bind (view.sound_field 8 (by omega)) ?_
  intro filesize _
  refine Sound.bind (view.sound_field 4 (by omega)) ?_
  intro nsects readCount
  refine Sound.bind (Sound.ensure _ _) ?_
  intro _ _
  refine Sound.bind (Sound.require _ _) ?_
  intro sectionsBytes _
  refine Sound.bind (Sound.require _ _) ?_
  intro needed _
  refine Sound.bind (Sound.ensure _ _) ?_
  intro _ _
  apply Sound.forRange_next LoadInfo.Narrow nsects
  · intro position info before narrow
    exact view.sound_readSection narrow low (by omega)
  · intro info narrow
    exact Sound.pure narrow
  · exact ⟨narrow.symtab, narrow.indirect, narrow.binds, narrow.chained⟩

theorem sound_readSymtab (cmdsize : Nat) (narrow : info.Narrow)
    (low : base < 2 ^ 33) :
    Sound (view.readSymtab base cmdsize info) LoadInfo.Narrow := by
  unfold readSymtab
  refine Sound.bind (Sound.ensure _ _) ?_
  intro _ _
  refine Sound.bind (view.sound_field 4 (by omega)) ?_
  intro symoff readSymoff
  refine Sound.bind (view.sound_field 4 (by omega)) ?_
  intro nsyms _
  refine Sound.bind (view.sound_field 4 (by omega)) ?_
  intro stroff readStroff
  refine Sound.bind (view.sound_field 4 (by omega)) ?_
  intro strsize _
  apply Sound.pure
  refine ⟨?_, narrow.indirect, narrow.binds, narrow.chained⟩
  intro table same
  injection same with same
  rw [← same]
  exact ⟨readSymoff, readStroff⟩

theorem sound_readDysymtab (cmdsize : Nat) (narrow : info.Narrow)
    (low : base < 2 ^ 33) :
    Sound (view.readDysymtab base cmdsize info) LoadInfo.Narrow := by
  unfold readDysymtab
  refine Sound.bind (Sound.ensure _ _) ?_
  intro _ _
  refine Sound.bind (view.sound_field 4 (by omega)) ?_
  intro indirectsymoff readOff
  refine Sound.bind (view.sound_field 4 (by omega)) ?_
  intro nindirectsyms readCount
  apply Sound.pure
  refine ⟨narrow.symtab, ?_, narrow.binds, narrow.chained⟩
  intro table same
  injection same with same
  rw [← same]
  exact ⟨readOff, readCount⟩

theorem sound_readBind {field : Nat × Nat} (narrow : info.Narrow)
    (low : base < 2 ^ 33) (first : field.1 < 64) (second : field.2 < 64) :
    Sound (view.readBind base field info) LoadInfo.Narrow := by
  unfold readBind
  refine Sound.bind (view.sound_field 4 (by omega)) ?_
  intro off readOff
  refine Sound.bind (view.sound_field 4 (by omega)) ?_
  intro size readSize
  apply Sound.pure
  split
  · exact narrow
  · refine ⟨narrow.symtab, narrow.indirect, ?_, narrow.chained⟩
    intro stream member
    rcases List.mem_append.mp member with old | new
    · exact narrow.binds stream old
    · rw [List.mem_singleton.mp new]
      exact ⟨readOff, readSize⟩

theorem sound_readDyldInfo (cmdsize : Nat) (narrow : info.Narrow)
    (low : base < 2 ^ 33) :
    Sound (view.readDyldInfo base cmdsize info) LoadInfo.Narrow := by
  unfold readDyldInfo
  refine Sound.bind (Sound.ensure _ _) ?_
  intro _ _
  apply Sound.forEach_next LoadInfo.Narrow
  · intro field member info narrow
    have small : ∀ field ∈ [(16, 20), (24, 28), (32, 36)],
        field.1 < 64 ∧ field.2 < 64 := by
      decide
    obtain ⟨first, second⟩ := small field member
    exact view.sound_readBind narrow low first second
  · intro info narrow
    exact Sound.pure narrow
  · exact narrow

theorem sound_readChained (cmdsize : Nat) (narrow : info.Narrow)
    (low : base < 2 ^ 33) :
    Sound (view.readChained base cmdsize info) LoadInfo.Narrow := by
  unfold readChained
  refine Sound.bind (Sound.ensure _ _) ?_
  intro _ _
  refine Sound.bind (view.sound_field 4 (by omega)) ?_
  intro dataoff readOff
  refine Sound.bind (view.sound_field 4 (by omega)) ?_
  intro datasize readSize
  apply Sound.pure
  refine ⟨narrow.symtab, narrow.indirect, narrow.binds, ?_⟩
  intro blob same
  injection same with same
  rw [← same]
  exact ⟨readOff, readSize⟩

theorem sound_dylibName {nameOff : Nat} (cmdsize : Nat)
    (low : base < 2 ^ 33) (short : nameOff < 2 ^ 32) :
    Sound (view.dylibName base cmdsize nameOff) fun _ => True := by
  unfold dylibName
  split
  · have sound : Sound (Checked.add base nameOff >>= view.readCstr)
        fun _ => True := by
      refine Sound.bind (Sound.add (by omega)) ?_
      intro cursor cursorEq
      exact view.sound_readCstr (by omega)
    refine Sound.bind (Sound.attempt sound) ?_
    intro outcome _
    cases outcome with
    | ok name =>
        exact Sound.pure trivial
    | error error =>
        exact Sound.pure trivial
  · exact Sound.pure trivial

theorem sound_readDylib (cmdsize : Nat) (narrow : info.Narrow)
    (low : base < 2 ^ 33) :
    Sound (view.readDylib base cmdsize info) LoadInfo.Narrow := by
  unfold readDylib
  split
  · exact Sound.pure narrow
  · refine Sound.bind (view.sound_field 4 (by omega)) ?_
    intro nameOff short
    refine Sound.bind (view.sound_dylibName cmdsize low short) ?_
    intro name _
    exact Sound.pure
      ⟨narrow.symtab, narrow.indirect, narrow.binds, narrow.chained⟩

theorem sound_parseOneCommand (cmd cmdsize : Nat) (narrow : info.Narrow)
    (low : base < 2 ^ 33) :
    Sound (view.parseOneCommand cmd base cmdsize info) LoadInfo.Narrow := by
  unfold parseOneCommand
  cases LoadCommand.ofCmd cmd with
  | segment64 =>
      exact view.sound_readSegment cmdsize narrow low
  | symtab =>
      exact view.sound_readSymtab cmdsize narrow low
  | dysymtab =>
      exact view.sound_readDysymtab cmdsize narrow low
  | dyldInfo =>
      exact view.sound_readDyldInfo cmdsize narrow low
  | dyldChainedFixups =>
      exact view.sound_readChained cmdsize narrow low
  | loadDylib =>
      exact view.sound_readDylib cmdsize narrow low
  | other =>
      exact Sound.pure narrow

theorem sound_commandStep {regionEnd : Nat} (near : regionEnd < 2 ^ 33)
    {state : Nat × LoadInfo} (narrow : state.2.Narrow) :
    Sound (view.commandStep regionEnd state) fun next =>
      next.2.Narrow := by
  unfold commandStep
  refine Sound.bind (Sound.require _ _) ?_
  intro header headerEq
  have headerEq := eq_of_checkedAdd headerEq
  refine Sound.bind (Sound.ensure _ _) ?_
  intro _ inside
  refine Sound.bind (view.sound_readUint 4 _) ?_
  intro cmd _
  refine Sound.bind (view.sound_field 4 (by omega)) ?_
  intro cmdsize _
  refine Sound.bind (Sound.ensure _ _) ?_
  intro _ _
  refine Sound.bind (Sound.require _ _) ?_
  intro next _
  refine Sound.bind (Sound.ensure _ _) ?_
  intro _ _
  refine Sound.bind
    (view.sound_parseOneCommand cmd cmdsize narrow (by omega)) ?_
  intro info narrow
  exact Sound.pure narrow

theorem sound_readLoadCommands :
    Sound view.readLoadCommands LoadInfo.Narrow := by
  unfold readLoadCommands
  refine Sound.bind (view.sound_readUint 4 _) ?_
  intro magic _
  refine Sound.bind (Sound.ensure _ _) ?_
  intro _ _
  refine Sound.bind (view.sound_readUint 4 _) ?_
  intro ncmds _
  refine Sound.bind (view.sound_readUint 4 _) ?_
  intro sizeofcmds short
  refine Sound.bind (Sound.ensure _ _) ?_
  intro _ _
  refine Sound.bind (Sound.require _ _) ?_
  intro regionEnd reached
  have regionEq := eq_of_checkedAdd reached
  unfold machHeader64Size at regionEq
  have near : regionEnd < 2 ^ 33 := by omega
  apply Sound.forRange_next (fun state => state.2.Narrow) ncmds
  · intro _ state _ narrow
    exact view.sound_commandStep near narrow
  · intro state narrow
    exact Sound.pure narrow
  · exact LoadInfo.narrow_default

end MachOView

/-! ## Universal containers -/

namespace File

variable (file : File)

theorem sound_readSlice {width off : Nat} (fits : off + width < 2 ^ 64) :
    Sound (file.readSlice width off) fun bytes => bytes.length = width := by
  unfold readSlice
  refine Sound.bind (Sound.add fits) ?_
  intro stop stopEq
  refine Sound.bind (Sound.ensure _ _) ?_
  intro _ inside
  apply Sound.pure
  rw [List.length_take, List.length_drop]
  omega

theorem sound_readSliceU32Le {off : Nat} (fits : off + 4 < 2 ^ 64) :
    Sound (file.readSliceU32Le off) fun _ => True := by
  unfold readSliceU32Le
  refine Sound.bind (file.sound_readSlice fits) ?_
  intro bytes _
  exact Sound.pure trivial

theorem sound_readSliceBe {width off : Nat} (fits : off + width < 2 ^ 64) :
    Sound (file.readSliceBe width off) fun value =>
      value < 256 ^ width := by
  unfold readSliceBe
  refine Sound.bind (file.sound_readSlice fits) ?_
  intro bytes length
  apply Sound.pure
  have bound := littleEndian_lt bytes.reverse
  rw [List.length_reverse, length] at bound
  exact bound

theorem sound_fieldBe (width : Nat) {entry offset : Nat}
    (fits : entry + offset + width < 2 ^ 64) :
    Sound (Checked.add entry offset >>= file.readSliceBe width)
      fun _ => True := by
  refine Sound.bind (Sound.add (by omega)) ?_
  intro sum sumEq
  exact Sound.mono (file.sound_readSliceBe (by omega)) fun _ _ => trivial

theorem sound_fatRange (wide : Bool) {entry : Nat} (low : entry < 2 ^ 32) :
    Sound (file.fatRange wide entry) fun _ => True := by
  unfold fatRange
  split
  · refine Sound.bind (file.sound_fieldBe 8 (by omega)) ?_
    intro offset _
    refine Sound.bind (file.sound_fieldBe 8 (by omega)) ?_
    intro size _
    exact Sound.pure trivial
  · refine Sound.bind (file.sound_fieldBe 4 (by omega)) ?_
    intro offset _
    refine Sound.bind (file.sound_fieldBe 4 (by omega)) ?_
    intro size _
    exact Sound.pure trivial

/-- The slices of a table lie in the file. -/
def Inside (slices : List FatArch) : Prop :=
  ∀ slice ∈ slices,
    slice.range.offset + slice.range.size ≤ file.bytes.length

theorem sound_fatEntry (wide : Bool) {position : Nat}
    {slices : List FatArch} (few : position < 2 ^ 16)
    (inside : file.Inside slices) :
    Sound (file.fatEntry wide position slices) file.Inside := by
  unfold fatEntry
  have stride : position * (if wide then 32 else 20) ≤ position * 32 := by
    apply Nat.mul_le_mul_left
    cases wide <;> decide
  refine Sound.bind (Sound.mul (by omega)) ?_
  intro skipped skippedEq
  refine Sound.bind (Sound.add (by omega)) ?_
  intro entry entryEq
  have low : entry < 2 ^ 32 := by omega
  refine Sound.bind (file.sound_readSliceBe (by omega)) ?_
  intro cpuType _
  refine Sound.bind (file.sound_fieldBe 4 (by omega)) ?_
  intro cpuSubtype _
  refine Sound.bind (file.sound_fatRange wide low) ?_
  intro range _
  refine Sound.bind (Sound.require _ _) ?_
  intro stop reached
  have stopEq := eq_of_checkedAdd reached
  refine Sound.bind (Sound.ensure _ _) ?_
  intro _ short
  apply Sound.pure
  intro slice member
  rcases List.mem_append.mp member with old | new
  · exact inside slice old
  · rw [List.mem_singleton.mp new]
    change range.offset + range.size ≤ file.bytes.length
    omega

/-- The slices of a container lie in the file. -/
def ContainerInside : Container → Prop
  | .thin => True
  | .fat slices => file.Inside slices

theorem sound_parseFat (wide : Bool) :
    Sound (file.parseFat wide) file.ContainerInside := by
  unfold parseFat
  refine Sound.bind (file.sound_readSliceBe (by decide)) ?_
  intro nfat _
  refine Sound.bind (Sound.ensure _ _) ?_
  intro _ few
  apply Sound.forRange_next file.Inside nfat
  · intro position slices before inside
    exact file.sound_fatEntry wide (by omega) inside
  · intro slices inside
    exact Sound.pure inside
  · exact nofun

theorem sound_classify : Sound file.classify file.ContainerInside := by
  unfold classify
  refine Sound.bind (file.sound_readSliceU32Le (by decide)) ?_
  intro magic _
  split
  · exact Sound.pure trivial
  · split
    · exact Sound.fail _
    · split
      · exact Sound.fail _
      · unfold classifyFat
        refine Sound.bind (file.sound_readSliceBe (by decide)) ?_
        intro magic _
        split
        · exact file.sound_parseFat false
        · split
          · exact file.sound_parseFat true
          · exact Sound.fail _

theorem sound_thinSliceRange (cpuType cpuSubtype : Nat) :
    Sound (file.thinSliceRange cpuType cpuSubtype) fun _ => True := by
  unfold thinSliceRange
  refine Sound.bind file.sound_classify ?_
  intro container inside
  cases container with
  | thin =>
      exact Sound.pure trivial
  | fat slices =>
      apply Sound.forEach (fun _ => True)
      · rintro slice member ⟨⟩ _
        unfold selectSlice
        split
        · exact Sound.pure trivial
        · refine Sound.bind (Sound.require _ _) ?_
          intro stop _
          have within := inside slice member
          have short := file.short
          refine Sound.bind (file.sound_readSliceU32Le (by omega)) ?_
          intro magic _
          refine Sound.bind (Sound.ensure _ _) ?_
          intro _ _
          exact Sound.pure trivial
      · intro _ _
        exact Sound.fail _
      · trivial

end File

end Hookfs.Plthook.MachO
