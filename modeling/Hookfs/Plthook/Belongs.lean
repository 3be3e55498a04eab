import Hookfs.Plthook.ElfObjects
import Hookfs.Plthook.Install
import Hookfs.Plthook.MachOLive
import Hookfs.Plthook.MachOSafety

/-!
# Patched slots are recognized

A restore writes to a slot only if it still belongs to the module of its
guard.  On Darwin that is decided by a second walk over the load commands in
memory, `image_contains`, which saturates and wraps where `read_load_commands`
reports an error, and stops where that fails.  On every header that the first
accepts, the two find the same segments.
-/

namespace Hookfs.Plthook

open Hookfs.Lib

namespace MachO

open Hookfs.Posix

/-! ## The second walk -/

/-- `read_unaligned` of a little-endian word. -/
def readUnaligned (memory : Nat → UInt8) (width address : Nat) : Nat :=
  littleEndian (bytesAt memory address width)

/-- Whether the mapped range of a segment covers an address. -/
def spanCovers (slide : Int) (address vmaddr vmsize : Nat) : Bool :=
  let start := wrappingAddSigned vmaddr slide
  let stop := wrappingAdd start vmsize
  start ≤ address && address < stop

/-- One round of `image_contains`; a `break` is the answer `false`. -/
def containsRound (memory : Nat → UInt8) (slide : Int)
    (cmdsEnd address cursor : Nat) : Parse (Round Nat Bool) :=
  if cmdsEnd < saturatingAdd cursor 8 then pure (.done false)
  else do
    let cmd := readUnaligned memory 4 cursor
    let sizeAt ← Checked.add cursor 4
    let cmdsize := readUnaligned memory 4 sizeAt
    if cmdsize < 8 ∨ cmdsEnd < saturatingAdd cursor cmdsize then
      pure (.done false)
    else if cmd = 0x19 ∧ 72 ≤ cmdsize then do
      let vmaddrAt ← Checked.add cursor 24
      let vmsizeAt ← Checked.add cursor 32
      if spanCovers slide address (readUnaligned memory 8 vmaddrAt)
          (readUnaligned memory 8 vmsizeAt) then
        pure (.done true)
      else pure (.next (saturatingAdd cursor cmdsize))
    else pure (.next (saturatingAdd cursor cmdsize))

def imageContains (memory : Nat → UInt8) (header : Nat) (slide : Int)
    (address : Nat) : Parse Bool :=
  if readUnaligned memory 4 header ≠ mhMagic64 then pure false
  else do
    let ncmdsAt ← Checked.add header 16
    let sizeofcmdsAt ← Checked.add header 20
    if 2 ^ 16 < readUnaligned memory 4 ncmdsAt then pure false
    else do
      let cmdsEnd := saturatingAdd (saturatingAdd header 32)
        (readUnaligned memory 4 sizeofcmdsAt)
      let cursor ← Checked.add header 32
      forRange (fun _ => containsRound memory slide cmdsEnd address)
        (fun _ => pure false) (readUnaligned memory 4 ncmdsAt) 0 cursor

/-- `slot_belongs_to_module`: the first image with this header decides. -/
def slotBelongsToModule (memory : Nat → UInt8) (images : Images)
    (address moduleBase : Nat) : Parse Bool :=
  match images.entries.find? fun image => image.header = moduleBase with
  | none => pure false
  | some image => imageContains memory moduleBase image.slide address

/-! ## What a load command adds to the segments -/

theorem LoadCommand.eq_of_segment64 {cmd : Nat}
    (kind : LoadCommand.ofCmd cmd = .segment64) : cmd = 0x19 := by
  unfold LoadCommand.ofCmd at kind
  by_contra other
  rw [if_neg other] at kind
  split_ifs at kind

namespace MachOView

variable (view : MachOView) {info : LoadInfo}

theorem returns_readSections (base count : Nat) :
    Returns
      (forRange
        (fun position info => do
          let info ← view.readSection base position info
          pure (.next info))
        pure count 0 info)
      fun after => after.segments = info.segments := by
  have each : ∀ (position : Nat) (state : LoadInfo),
      state.segments = info.segments →
        Returns (view.readSection base position state) fun after =>
          after.segments = info.segments := by
    intro position state kept
    unfold readSection
    iterate 7
      apply Returns.after
      intro _
    apply Returns.pure
    split
    · exact kept
    · exact kept
  exact Returns.forRange_next
    (fun after : LoadInfo => after.segments = info.segments) each
    (fun _ kept => Returns.pure kept) rfl

theorem returns_readSymtab (base cmdsize : Nat) :
    Returns (view.readSymtab base cmdsize info) fun after =>
      after.segments = info.segments := by
  unfold readSymtab
  iterate 5
    apply Returns.after
    intro _
  exact Returns.pure rfl

theorem returns_readDysymtab (base cmdsize : Nat) :
    Returns (view.readDysymtab base cmdsize info) fun after =>
      after.segments = info.segments := by
  unfold readDysymtab
  iterate 3
    apply Returns.after
    intro _
  exact Returns.pure rfl

theorem returns_readDyldInfo (base cmdsize : Nat) :
    Returns (view.readDyldInfo base cmdsize info) fun after =>
      after.segments = info.segments := by
  have each : ∀ (field : Nat × Nat) (state : LoadInfo),
      state.segments = info.segments →
        Returns (view.readBind base field state) fun after =>
          after.segments = info.segments := by
    intro field state kept
    unfold readBind
    iterate 2
      apply Returns.after
      intro _
    apply Returns.pure
    split
    · exact kept
    · exact kept
  unfold readDyldInfo
  apply Returns.after
  intro _
  exact Returns.forEach_next
    (fun after : LoadInfo => after.segments = info.segments) each
    (fun _ kept => Returns.pure kept) rfl

theorem returns_readChained (base cmdsize : Nat) :
    Returns (view.readChained base cmdsize info) fun after =>
      after.segments = info.segments := by
  unfold readChained
  iterate 3
    apply Returns.after
    intro _
  exact Returns.pure rfl

theorem returns_readDylib (base cmdsize : Nat) :
    Returns (view.readDylib base cmdsize info) fun after =>
      after.segments = info.segments := by
  unfold readDylib
  split
  · exact Returns.pure rfl
  · iterate 2
      apply Returns.after
      intro _
    exact Returns.pure rfl

/-- A command that is no segment leaves the segments alone. -/
theorem returns_parseOneCommand {cmd : Nat} (other : cmd ≠ 0x19)
    (base cmdsize : Nat) :
    Returns (view.parseOneCommand cmd base cmdsize info) fun after =>
      after.segments = info.segments := by
  unfold parseOneCommand
  cases kind : LoadCommand.ofCmd cmd with
  | segment64 =>
      exact absurd (LoadCommand.eq_of_segment64 kind) other
  | symtab =>
      exact view.returns_readSymtab base cmdsize
  | dysymtab =>
      exact view.returns_readDysymtab base cmdsize
  | dyldInfo =>
      exact view.returns_readDyldInfo base cmdsize
  | dyldChainedFixups =>
      exact view.returns_readChained base cmdsize
  | loadDylib =>
      exact view.returns_readDylib base cmdsize
  | other =>
      exact Returns.pure rfl

end MachOView

/-! ## Two walks, one list of segments -/

/-- The mapped range of the segment covers the address. -/
def Segment.covers (slide : Int) (address : Nat) (seg : Segment) : Bool :=
  spanCovers slide address seg.vmaddr seg.vmsize

/-- The header and the load commands have not changed. -/
def SameHeader (before after : Nat → UInt8) (base len : Nat) : Prop :=
  ∀ address, base ≤ address → address < base + len →
    after address = before address

section Walks

variable {boot : HeaderView} {memory : Nat → UInt8} {regionEnd : Nat}
  {info final : LoadInfo}

theorem readUnaligned_of_same {before : Nat → UInt8} {base off width : Nat}
    (same : SameHeader before memory base regionEnd)
    (inside : off + width ≤ regionEnd) :
    readUnaligned memory width (base + off) =
      readUnaligned before width (base + off) := by
  have bytes : bytesAt memory (base + off) width =
      bytesAt before (base + off) width := by
    unfold bytesAt
    apply List.map_congr_left
    intro position member
    have before := List.mem_range.mp member
    exact same _ (by omega) (by omega)
  unfold readUnaligned
  rw [bytes]

/-- What the bootstrap view reads, the second walk reads as well. -/
theorem readUnaligned_of_readUint {width off value : Nat}
    (same : SameHeader boot.memory memory boot.base regionEnd)
    (inside : off + width ≤ regionEnd)
    (returned : boot.toView.readUint width off = .ok value) :
    readUnaligned memory width (boot.base + off) = value ∧
      boot.base + off < 2 ^ 64 := by
  unfold MachOView.readUint at returned
  obtain ⟨bytes, read, returned⟩ := Checked.eq_ok_of_bind returned
  have given : boot.read off width = .ok bytes :=
    (Sound.propagate (boot.read off width)).value_of_ok read
  obtain ⟨bytesEq, word⟩ := HeaderView.eq_of_read given
  rw [readUnaligned_of_same same inside, ← Except.ok.inj returned, bytesEq]
  exact ⟨rfl, word⟩

theorem readUnaligned_of_field {width off field value : Nat}
    (same : SameHeader boot.memory memory boot.base regionEnd)
    (inside : off + field + width ≤ regionEnd)
    (returned : (Checked.add off field >>= boot.toView.readUint width) =
      .ok value) :
    readUnaligned memory width (boot.base + off + field) = value ∧
      boot.base + off + field < 2 ^ 64 := by
  obtain ⟨sum, added, returned⟩ := Checked.eq_ok_of_bind returned
  rw [Checked.eq_of_add added] at returned
  rw [Nat.add_assoc]
  exact readUnaligned_of_readUint same inside returned

/-- A segment command adds one segment, from the fields of its command. -/
theorem exists_of_readSegment {view : MachOView} {base cmdsize : Nat}
    (returned : view.readSegment base cmdsize info = .ok final) :
    72 ≤ cmdsize ∧ ∃ seg : Segment,
      final.segments = info.segments ++ [seg] ∧
        (Checked.add base 24 >>= view.readUint 8) = .ok seg.vmaddr ∧
        (Checked.add base 32 >>= view.readUint 8) = .ok seg.vmsize := by
  unfold MachOView.readSegment at returned
  obtain ⟨_, whole, returned⟩ := Checked.eq_ok_of_bind returned
  obtain ⟨vmaddr, vmaddrRead, returned⟩ := Checked.eq_ok_of_bind returned
  obtain ⟨vmsize, vmsizeRead, returned⟩ := Checked.eq_ok_of_bind returned
  obtain ⟨fileoff, _, returned⟩ := Checked.eq_ok_of_bind returned
  obtain ⟨filesize, _, returned⟩ := Checked.eq_ok_of_bind returned
  iterate 5
    obtain ⟨_, _, returned⟩ := Checked.eq_ok_of_bind returned
  have kept := view.returns_readSections _ _ _ returned
  exact ⟨Checked.of_ensure whole, ⟨vmaddr, vmsize, fileoff, filesize⟩, kept,
    vmaddrRead, vmsizeRead⟩

/-- A step of the first walk: what it reads, what it checks, and where it
goes on. -/
theorem exists_of_commandStep {view : MachOView} {cursor next : Nat}
    (stepped : view.commandStep regionEnd (cursor, info) =
      .ok (next, final)) :
    ∃ cmd cmdsize, cursor + 8 ≤ regionEnd ∧
      view.readUint 4 cursor = .ok cmd ∧
      (Checked.add cursor 4 >>= view.readUint 4) = .ok cmdsize ∧
      8 ≤ cmdsize ∧ cmdsize % 8 = 0 ∧
      next = cursor + cmdsize ∧ next ≤ regionEnd ∧
      view.parseOneCommand cmd cursor cmdsize info = .ok final := by
  unfold MachOView.commandStep at stepped
  obtain ⟨header, headerEq, stepped⟩ := Checked.eq_ok_of_bind stepped
  obtain ⟨_, headerFits, stepped⟩ := Checked.eq_ok_of_bind stepped
  obtain ⟨cmd, cmdRead, stepped⟩ := Checked.eq_ok_of_bind stepped
  obtain ⟨cmdsize, sizeRead, stepped⟩ := Checked.eq_ok_of_bind stepped
  obtain ⟨_, sizeFits, stepped⟩ := Checked.eq_ok_of_bind stepped
  obtain ⟨stop, stopEq, stepped⟩ := Checked.eq_ok_of_bind stepped
  obtain ⟨_, stopFits, stepped⟩ := Checked.eq_ok_of_bind stepped
  obtain ⟨after, parsed, stepped⟩ := Checked.eq_ok_of_bind stepped
  have headerSum := eq_of_checkedAdd (Checked.eq_some_of_require headerEq)
  have stopSum := eq_of_checkedAdd (Checked.eq_some_of_require stopEq)
  have headerBound := Checked.of_ensure headerFits
  obtain ⟨rfl, rfl⟩ := Prod.mk.inj (Except.ok.inj stepped)
  rw [headerSum.1] at headerBound
  have sizeBound := Checked.of_ensure sizeFits
  exact ⟨cmd, cmdsize, headerBound, cmdRead, sizeRead, sizeBound.1,
    sizeBound.2, stopSum.1, Checked.of_ensure stopFits, parsed⟩

/-- One command, walked twice. -/
theorem containsRound_of_commandStep {cursor next : Nat}
    (same : SameHeader boot.memory memory boot.base regionEnd)
    (stepped : boot.toView.commandStep regionEnd (cursor, info) =
      .ok (next, final)) :
    ∃ found : List Segment, final.segments = info.segments ++ found ∧
      ∀ slide address,
        containsRound memory slide (saturatingAdd boot.base regionEnd)
            address (saturatingAdd boot.base cursor) =
          .ok (if found.any (Segment.covers slide address) then .done true
            else .next (saturatingAdd boot.base next)) := by
  obtain ⟨cmd, cmdsize, headerBound, cmdRead, sizeRead, sizeBound, _, rfl,
    stopBound, parsed⟩ := exists_of_commandStep stepped
  obtain ⟨cmdHere, _⟩ :=
    readUnaligned_of_readUint same (by omega) cmdRead
  obtain ⟨sizeHere, sizeWord⟩ :=
    readUnaligned_of_field same (by omega) sizeRead
  have here : saturatingAdd boot.base cursor = boot.base + cursor := by
    unfold saturatingAdd wordMax
    omega
  have moved : saturatingAdd (boot.base + cursor) cmdsize =
      saturatingAdd boot.base (cursor + cmdsize) :=
    saturatingAdd_assoc _ _ _
  have header : ¬ saturatingAdd boot.base regionEnd <
      saturatingAdd (boot.base + cursor) 8 := by
    rw [saturatingAdd_assoc]
    exact Nat.not_lt.mpr (saturatingAdd_mono boot.base headerBound)
  have within : ¬ (cmdsize < 8 ∨ saturatingAdd boot.base regionEnd <
      saturatingAdd boot.base (cursor + cmdsize)) := by
    have below := saturatingAdd_mono boot.base stopBound
    omega
  simp only [containsRound, here, if_neg header, Checked.add_eq_ok sizeWord,
    Checked.bind_ok, cmdHere, sizeHere, moved, if_neg within]
  by_cases kind : cmd = 0x19
  · unfold MachOView.parseOneCommand at parsed
    rw [show LoadCommand.ofCmd cmd = .segment64 from if_pos kind] at parsed
    obtain ⟨whole, seg, kept, vmaddrRead, vmsizeRead⟩ :=
      exists_of_readSegment parsed
    obtain ⟨vmaddrHere, vmaddrWord⟩ :=
      readUnaligned_of_field same (by omega) vmaddrRead
    obtain ⟨vmsizeHere, vmsizeWord⟩ :=
      readUnaligned_of_field same (by omega) vmsizeRead
    refine ⟨[seg], kept, ?_⟩
    intro slide address
    simp only [if_pos (And.intro kind whole), Checked.add_eq_ok vmaddrWord,
      Checked.add_eq_ok vmsizeWord, Checked.bind_ok, vmaddrHere, vmsizeHere,
      List.any_cons, List.any_nil, Bool.or_false, Segment.covers]
    split
    · rfl
    · rfl
  · have kept := boot.toView.returns_parseOneCommand kind cursor cmdsize
      final parsed
    refine ⟨[], by rw [kept, List.append_nil], ?_⟩
    intro slide address
    rw [if_neg (fun both => kind both.1)]
    rfl

/-- All commands that are left, walked twice. -/
theorem containsLoop_of_commands
    (same : SameHeader boot.memory memory boot.base regionEnd)
    (count : Nat) :
    ∀ (start cursor : Nat) (info : LoadInfo),
      forRange
          (fun _ state => do
            let state ← boot.toView.commandStep regionEnd state
            pure (.next state))
          (fun state => pure state.2) count start (cursor, info) =
        .ok final →
        ∃ found : List Segment, final.segments = info.segments ++ found ∧
          ∀ slide address,
            forRange
                (fun _ => containsRound memory slide
                  (saturatingAdd boot.base regionEnd) address)
                (fun _ => pure false) count start
                (saturatingAdd boot.base cursor) =
              .ok (found.any (Segment.covers slide address)) := by
  induction count with
  | zero =>
      intro start cursor info walked
      refine ⟨[], ?_, fun _ _ => rfl⟩
      rw [← Except.ok.inj walked, List.append_nil]
  | succ count inductionHypothesis =>
      intro start cursor info walked
      rw [forRange_next_succ (fun _ =>
        boot.toView.commandStep regionEnd)] at walked
      obtain ⟨state, stepped, walked⟩ := Checked.eq_ok_of_bind walked
      obtain ⟨next, after⟩ := state
      obtain ⟨first, firstEq, round⟩ :=
        containsRound_of_commandStep same stepped
      obtain ⟨rest, restEq, later⟩ :=
        inductionHypothesis (start + 1) next after walked
      refine ⟨first ++ rest, ?_, ?_⟩
      · rw [restEq, firstEq, List.append_assoc]
      · intro slide address
        rw [forRange, round, List.any_append]
        cases covered : first.any (Segment.covers slide address) with
        | true =>
            rfl
        | false =>
            exact later slide address

/-- `sizeofcmds` of the header at an address. -/
def sizeofcmds (memory : Nat → UInt8) (header : Nat) : Nat :=
  readUnaligned memory 4 (header + 20)

/-- On every header that `read_load_commands` accepts, the second walk finds
the same segments. -/
theorem imageContains_eq_any (mapped : boot.base + 32 < 2 ^ 64)
    (accepted : boot.toView.readLoadCommands = .ok info)
    (same : SameHeader boot.memory memory boot.base
      (32 + sizeofcmds boot.memory boot.base))
    (slide : Int) (address : Nat) :
    imageContains memory boot.base slide address =
      .ok (info.segments.any (Segment.covers slide address)) := by
  unfold MachOView.readLoadCommands at accepted
  obtain ⟨magic, magicRead, accepted⟩ := Checked.eq_ok_of_bind accepted
  obtain ⟨_, magicHolds, accepted⟩ := Checked.eq_ok_of_bind accepted
  obtain ⟨ncmds, ncmdsRead, accepted⟩ := Checked.eq_ok_of_bind accepted
  obtain ⟨size, sizeRead, accepted⟩ := Checked.eq_ok_of_bind accepted
  obtain ⟨_, few, accepted⟩ := Checked.eq_ok_of_bind accepted
  obtain ⟨regionEnd, region, accepted⟩ := Checked.eq_ok_of_bind accepted
  have unchanged : SameHeader boot.memory boot.memory boot.base 32 :=
    fun _ _ _ => rfl
  have sizeEq : sizeofcmds boot.memory boot.base = size :=
    (readUnaligned_of_readUint unchanged (by decide) sizeRead).1
  have regionEq : regionEnd = 32 + size :=
    (eq_of_checkedAdd (Checked.eq_some_of_require region)).1
  rw [sizeEq, ← regionEq] at same
  have magicHere : readUnaligned memory 4 boot.base = mhMagic64 :=
    (readUnaligned_of_readUint same (by omega) magicRead).1.trans
      (Checked.of_ensure magicHolds)
  obtain ⟨ncmdsHere, ncmdsWord⟩ :=
    readUnaligned_of_readUint same (by omega) ncmdsRead
  obtain ⟨sizeHere, sizeWord⟩ :=
    readUnaligned_of_readUint same (by omega) sizeRead
  have fewer : ¬ 2 ^ 16 < ncmds := Nat.not_lt.mpr (Checked.of_ensure few)
  have header : saturatingAdd boot.base 32 = boot.base + 32 := by
    unfold saturatingAdd wordMax
    omega
  obtain ⟨found, foundEq, walked⟩ :=
    containsLoop_of_commands same ncmds 0 machHeader64Size default accepted
  have segments : info.segments = found := foundEq
  have again := walked slide address
  rw [show machHeader64Size = 32 from rfl, header] at again
  unfold imageContains
  simp only [magicHere, ne_eq, not_true_eq_false, if_false,
    Checked.add_eq_ok ncmdsWord, Checked.add_eq_ok sizeWord,
    Checked.add_eq_ok mapped, Checked.bind_ok, ncmdsHere, sizeHere,
    if_neg fewer, header, saturatingAdd_assoc, ← regionEq, segments]
  exact again

end Walks

/-! ## Slots of a live image -/

namespace Module

/-- Every segment is mapped at least as far as it is in the file, and ends
before the last address. -/
def Placed (module : Module) : Prop :=
  ∀ seg ∈ module.segments, seg.filesize ≤ seg.vmsize ∧
    0 ≤ seg.vmaddr + module.slide ∧
    seg.vmaddr + module.slide + seg.vmsize < 2 ^ 64

variable {module : Module} {memory : Nat → UInt8} {image : Image}
  {region : Option (Nat × Nat)} {file : Option File}

theorem covers_of_slotAddress {off : Nat} {slot : UInt64}
    (placed : module.Placed) (given : module.slotAddress off = .ok slot) :
    module.segments.any (Segment.covers module.slide slot.toNat) = true := by
  obtain ⟨seg, found, inside, _, address⟩ :=
    locate_eq_ok_iff.mp (exists_of_slotAddress given).1
  have member := List.mem_of_find?_eq_some found
  have contains := List.find?_some found
  obtain ⟨backed, above, below⟩ := placed seg member
  unfold FileView.containsFileoff at contains
  rw [Bool.and_eq_true, decide_eq_true_eq, decide_eq_true_eq] at contains
  have room : saturatingAdd seg.fileoff seg.filesize ≤
      seg.fileoff + seg.filesize := Nat.min_le_left _ _
  -- without wraparound, all addresses are the sums they look like
  obtain ⟨start, startEq⟩ := Int.eq_ofNat_of_zero_le above
  have startHere : wrappingAddSigned seg.vmaddr module.slide = start :=
    wrappingAddSigned_eq startEq (by omega)
  have slotHere : slot.toNat = start + (off - seg.fileoff) := by
    rw [address]
    exact wrappingAddSigned_eq (by omega) (by omega)
  have stopHere : wrappingAdd start seg.vmsize = start + seg.vmsize :=
    wrappingAdd_eq (by unfold wordMax; omega)
  rw [List.any_eq_true]
  refine ⟨seg, member, ?_⟩
  unfold Segment.covers spanCovers
  simp only [startHere, stopHere, Bool.and_eq_true, decide_eq_true_eq]
  omega

/-- The segments of a module are those its load commands give. -/
theorem eq_of_fromIndex
    (acquired : fromIndex memory region file image = .ok module) :
    module.base = image.header ∧ module.slide = image.slide ∧
      ∃ info,
        (HeaderView.toView ⟨image.header,
          mappedExtentFrom image.header region, memory⟩).readLoadCommands =
          .ok info ∧
        info.segments = module.segments := by
  unfold fromIndex segmentsOf at acquired
  obtain ⟨_, _, acquired⟩ := Checked.eq_ok_of_bind acquired
  obtain ⟨_, _, acquired⟩ := Checked.eq_ok_of_bind acquired
  obtain ⟨segments, listed, acquired⟩ := Checked.eq_ok_of_bind acquired
  obtain ⟨_, _, acquired⟩ := Checked.eq_ok_of_bind acquired
  obtain ⟨info, accepted, same⟩ := Checked.eq_ok_of_bind listed
  rw [← Except.ok.inj acquired]
  exact ⟨rfl, rfl, info, accepted, Except.ok.inj same⟩

/-- A slot of an image belongs to it for as long as the image is loaded. -/
theorem slotBelongsToModule_of_slotAddress {later : Nat → UInt8}
    {images : Images} {off : Nat} {slot : UInt64}
    (acquired : fromIndex memory region file image = .ok module)
    (loaded : image ∈ images.entries)
    (same : SameHeader memory later image.header
      (32 + sizeofcmds memory image.header))
    (placed : module.Placed) (given : module.slotAddress off = .ok slot) :
    slotBelongsToModule later images slot.toNat module.base = .ok true := by
  have covered := covers_of_slotAddress placed given
  obtain ⟨base, slide, info, accepted, segments⟩ := eq_of_fromIndex acquired
  have single : ∀ other ∈ images.entries, other.header = image.header →
      other = image := fun other member =>
    List.inj_on_of_nodup_map images.apart member loaded
  have contained := imageContains_eq_any image.mapped accepted same
    image.slide slot.toNat
  rw [segments, ← slide, covered] at contained
  unfold slotBelongsToModule
  rw [base, find?_key_of_unique Image.header loaded single]
  simp only [← slide]
  exact contained

end Module

end MachO

/-! ## Restoring what was installed -/

/-- `ImportSlot::from_raw`. -/
def ImportSlot.fromRaw (raw : RawImport) : ImportSlot where
  library := raw.library
  symbol := raw.symbol
  address := raw.slot
  kind := raw.kind
  authenticated := raw.authenticated

/-- The module that is patched enumerates what parsing a live one gives. -/
structure Module.Enumerates (module : Module) (base : Nat)
    (parsed : Parse (List RawImport)) : Prop where
  base : module.base = base
  imports : ∀ imports, module.imports = .ok imports →
    ∃ raw, parsed = .ok raw ∧ imports = raw.map ImportSlot.fromRaw

/-- All slots that are given are recognized, and a restore skips none of those
that an install has patched. -/
structure Recognized (base : Nat) (given : Nat → Prop)
    (parsed : Parse (List RawImport)) (belongs : Nat → Parse Bool) :
    Prop where
  slots : ∀ slot, given slot → belongs slot = .ok true
  restores : ∀ (sys : Sys) (module : Module)
    (replacements : List Replacement) (machine patched : Machine)
    (guard : HookGuard),
    (∀ address,
      belongs address = .ok (sys.slotBelongsToModule address base)) →
    module.Enumerates base parsed →
    install sys module replacements machine = (.ok guard, patched) →
    ∀ later, guard.restore sys later = guard.restore sys.unchecked later

theorem Recognized.of_imports {base : Nat} {given : Nat → Prop}
    {parsed : Parse (List RawImport)} {belongs : Nat → Parse Bool}
    (slots : ∀ slot, given slot → belongs slot = .ok true)
    (imports : ∀ raw, parsed = .ok raw →
      ∀ found ∈ raw, belongs found.slot = .ok true) :
    Recognized base given parsed belongs := by
  constructor
  · exact slots
  · intro sys module replacements machine patched guard answers enumerates
      installed later
    obtain ⟨listed, listedEq⟩ := parsed_of_install_ok installed
    obtain ⟨raw, parsedEq, rfl⟩ := enumerates.imports listed listedEq
    obtain ⟨guardBase, recorded⟩ := hooks_of_install listedEq installed
    apply HookGuard.restore_unchecked
    intro hook member
    obtain ⟨slot, slotMember, slotEq⟩ := recorded hook member
    obtain ⟨found, foundMember, rfl⟩ := List.mem_map.mp slotMember
    have recognized := imports raw parsedEq found foundMember
    rw [answers found.slot] at recognized
    rw [guardBase, enumerates.base, ← slotEq]
    exact Except.ok.inj recognized

/-- For every loaded ELF module and every loaded Mach-O image, a restore
recognizes the slots that the module gives; and on every Mach-O header that
`read_load_commands` accepts, `image_contains` finds the same segments. -/
theorem patched_slots_recognized :
    (∀ (objects : List Elf.Object) (object : Elf.Object)
        (memory : Nat → UInt8) (live : Elf.Module),
      Elf.Module.fromRaw memory object = .ok live →
      Elf.Module.Loaded objects object → live.Placed →
      Recognized live.base
        (fun slot => ∃ off, live.slotAddress off = .ok slot)
        live.parseImports
        (fun address =>
          .ok (Elf.slotBelongsToModule objects address live.base))) ∧
    (∀ (images : MachO.Images) (image : MachO.Image)
        (memory later : Nat → UInt8) (region : Option (Nat × Nat))
        (file : Option MachO.File) (live : MachO.Module),
      MachO.Module.fromIndex memory region file image = .ok live →
      image ∈ images.entries →
      MachO.SameHeader memory later image.header
        (32 + MachO.sizeofcmds memory image.header) →
      live.Placed →
      Recognized live.base
        (fun slot => ∃ off address, live.slotAddress off = .ok address ∧
          slot = address.toNat)
        live.toView.parseImports
        (fun address =>
          MachO.slotBelongsToModule later images address live.base)) ∧
    ∀ (boot : MachO.HeaderView) (info : MachO.LoadInfo)
        (later : Nat → UInt8),
      boot.base + 32 < 2 ^ 64 →
      boot.toView.readLoadCommands = .ok info →
      MachO.SameHeader boot.memory later boot.base
        (32 + MachO.sizeofcmds boot.memory boot.base) →
      ∀ slide address,
        MachO.imageContains later boot.base slide address =
          .ok (info.segments.any
            (MachO.Segment.covers slide address)) := by
  refine ⟨?_, ?_, ?_⟩
  · intro objects object memory live acquired loaded placed
    have belongs : ∀ slot, live.Slot slot →
        (.ok (Elf.slotBelongsToModule objects slot live.base) :
          Parse Bool) = .ok true := by
      intro slot cell
      rw [Elf.Module.slotBelongsToModule_of_slot acquired loaded placed cell]
    apply Recognized.of_imports
    · intro slot given
      obtain ⟨off, returned⟩ := given
      exact belongs slot ((live.sound_slotAddress off).value_of_ok returned)
    · intro raw parsed found member
      have slots := (Elf.Module.sound_parseImports placed).value_of_ok parsed
      exact belongs found.slot (slots found member)
  · intro images image memory later region file live acquired loaded same
      placed
    have belongs := fun off (address : UInt64)
        (given : live.slotAddress off = .ok address) =>
      MachO.Module.slotBelongsToModule_of_slotAddress acquired loaded same
        placed given
    apply Recognized.of_imports
    · intro slot given
      obtain ⟨off, address, returned, rfl⟩ := given
      exact belongs off address returned
    · intro raw parsed found member
      have slots := MachO.MachOView.sound_parseImports.value_of_ok parsed
      obtain ⟨off, address, returned, slot⟩ := slots found member
      rw [slot]
      exact belongs off address returned
  · intro boot info later mapped accepted same slide address
    exact MachO.imageContains_eq_any mapped accepted same slide address

/-- A segment and a dynamic table. -/
def loneObject : Elf.Object where
  base := 4096
  phdrs :=
    toLittleEndian 24 1 ++ toLittleEndian 16 256 ++ toLittleEndian 16 256 ++
      toLittleEndian 16 2 ++ toLittleEndian 40 128
  phnum := 2
  few := by decide

/-- An x86-64 `ET_DYN` header. -/
def loneElf : Elf.Module where
  base := 4096
  loads := [⟨0, 256⟩]
  machine := 62
  dynamicAddr := 4224
  dynamicWord := by decide
  memory address :=
    (toLittleEndian 16 0x10102464c457f ++
      toLittleEndian 48 0x3e0003).getD (address - 4096) 0

def loneImage : MachO.Image where
  header := 4096
  slide := 0
  present := by decide
  mapped := by decide

/-- An x86-64 header and one `LC_SEGMENT_64`. -/
def loneMachO : MachO.Module where
  base := 4096
  slide := 0
  segments := [⟨4096, 256, 0, 256⟩]
  cpuType := MachO.cpuTypeX8664
  cpuSubtype := 0
  file := none
  memory address :=
    (toLittleEndian 4 MachO.mhMagic64 ++
      toLittleEndian 12 MachO.cpuTypeX8664 ++
      toLittleEndian 4 1 ++ toLittleEndian 12 72 ++
      toLittleEndian 4 0x19 ++ toLittleEndian 20 72 ++
      toLittleEndian 8 4096 ++ toLittleEndian 16 256 ++
      toLittleEndian 24 256).getD (address - 4096) 0

set_option maxRecDepth 20000 in
/-- A slot of each of them. -/
theorem patched_slots_recognized_lone :
    (.ok (Elf.slotBelongsToModule [loneObject] 4104 4096) : Parse Bool) =
        .ok true ∧
      MachO.slotBelongsToModule loneMachO.memory ⟨[loneImage], by decide⟩
        4104 4096 = .ok true := by
  obtain ⟨linux, darwin, _⟩ := patched_slots_recognized
  constructor
  · have acquired : Elf.Module.fromRaw loneElf.memory loneObject =
        .ok loneElf := by rfl
    have loaded : Elf.Module.Loaded [loneObject] loneObject := by
      constructor
      · exact List.mem_singleton_self loneObject
      · intro other member _
        exact List.mem_singleton.mp member
    have placed : loneElf.Placed := by
      intro seg member
      rw [List.mem_singleton.mp member]
      decide
    exact (linux _ _ _ _ acquired loaded placed).slots 4104
      ⟨8, by decide⟩
  · have acquired : MachO.Module.fromIndex loneMachO.memory none none
        loneImage = .ok loneMachO := by rfl
    have placed : loneMachO.Placed := by
      intro seg member
      rw [List.mem_singleton.mp member]
      decide
    exact (darwin _ _ _ loneMachO.memory _ _ _ acquired
      (List.mem_singleton_self loneImage) (fun _ _ _ => rfl) placed).slots
      4104 ⟨8, 4104, by rfl, by decide⟩

end Hookfs.Plthook
