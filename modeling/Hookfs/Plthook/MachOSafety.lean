import Hookfs.Plthook.MachOBounds
import Hookfs.Plthook.MachOMerge

/-!
# Mach-O parsing is safe on arbitrary bytes

Whatever a view reads, the parse ends without a trap.  The bind opcodes
advance their cursor in every round and a number has at most ten bytes; the
chains are cut off.  Every source pushes only slots that the view gave, with
the flag that it decided on.
-/

namespace Hookfs.Plthook.MachO

open Hookfs.Lib Hookfs.Posix Hookfs.Plthook

/-! ## The indirect symbol table -/

/-- An import with a given flag, whose slot the view gave. -/
def MachOView.Pushed (view : MachOView) (authenticated : Bool)
    (found : RawImport) : Prop :=
  found.authenticated = authenticated ∧
    ∃ off address, view.slotAddress off = .ok address ∧
      found.slot = address.toNat

/-- An import whose slot and flag come from a bind in a chain. -/
def MachOView.DecodedBind (view : MachOView) (found : RawImport) : Prop :=
  ∃ off raw format entry address,
    view.readSlotEncoding off = .ok raw ∧
      decodeChain raw format = some entry ∧ entry.isBind = true ∧
      found.authenticated = entry.authenticated ∧
      view.slotAddress off = .ok address ∧ found.slot = address.toNat

/-- All imports meet a condition. -/
abbrev All (condition : RawImport → Prop) (out : List RawImport) : Prop :=
  ∀ found ∈ out, condition found

namespace MachOView

variable (view : MachOView) {info : LoadInfo} {out : List RawImport}

theorem sound_pushImport {condition : RawImport → Prop} (library name : Text)
    (slotOff : Nat) (authenticated : Bool) (all : All condition out)
    (new : ∀ address, view.slotAddress slotOff = .ok address →
      condition ⟨library, some (.name name), none, address.toNat, .standard,
        authenticated⟩) :
    Sound (view.pushImport library name slotOff authenticated out)
      (All condition) := by
  unfold pushImport
  refine Sound.bind (Sound.propagate _) ?_
  intro slot given
  apply Sound.pure
  intro found member
  rcases List.mem_append.mp member with old | last
  · exact all found old
  · rw [List.mem_singleton.mp last]
    exact new slot given

theorem sound_indirectSymbol (info : LoadInfo) {sec : PointerSection}
    {position : Nat} (nDesc : Nat) (raw : Text)
    (few : position < 2 ^ 32) (all : All (view.Pushed view.isArm64e) out) :
    Sound (view.indirectSymbol info sec position nDesc raw out)
      (All (view.Pushed view.isArm64e)) := by
  unfold indirectSymbol
  cases normalizeSymbolName raw with
  | none =>
      exact Sound.pure all
  | some name =>
      dsimp only
      split
      · exact Sound.pure all
      · refine Sound.bind (Sound.mul (by unfold ptrSize; omega)) ?_
        intro skipped _
        refine Sound.bind (Sound.require _ _) ?_
        intro slotOff _
        apply view.sound_pushImport _ _ _ _ all
        intro address given
        exact ⟨rfl, slotOff, address, given, rfl⟩

theorem sound_indirectNlist (info : LoadInfo) {table : Symtab}
    {sec : PointerSection} {position symIndex : Nat}
    (low : table.symoff < 2 ^ 32 ∧ table.stroff < 2 ^ 32)
    (few : position < 2 ^ 32) (short : symIndex < 2 ^ 32)
    (all : All (view.Pushed view.isArm64e) out) :
    Sound (view.indirectNlist info table sec position symIndex out)
      (All (view.Pushed view.isArm64e)) := by
  unfold indirectNlist
  refine Sound.bind (Sound.ensure _ _) ?_
  intro _ _
  refine Sound.bind (Sound.mul (by unfold nlist64Size; omega)) ?_
  intro skipped skippedEq
  unfold nlist64Size at skippedEq
  have symoff := low.1
  refine Sound.bind (Sound.add (by omega)) ?_
  intro nlist nlistEq
  refine Sound.bind (view.sound_readUint 4 nlist) ?_
  intro nStrx readStrx
  refine Sound.bind (view.sound_byteAt (by omega)) ?_
  intro nType _
  refine Sound.bind (view.sound_field 2 (by omega)) ?_
  intro nDesc _
  split
  · have stroff := low.2
    refine Sound.bind (view.sound_readStrInTable _ (by omega) readStrx) ?_
    intro raw _
    exact view.sound_indirectSymbol info nDesc raw few all
  · exact Sound.pure all

theorem sound_indirectSlot (info : LoadInfo) {table : Symtab}
    {indirect : Indirect} {sec : PointerSection} {position : Nat}
    (low : table.symoff < 2 ^ 32 ∧ table.stroff < 2 ^ 32)
    (near : indirect.indirectsymoff < 2 ^ 32 ∧
      indirect.nindirectsyms < 2 ^ 32)
    (few : position < 2 ^ 32) (all : All (view.Pushed view.isArm64e) out) :
    Sound (view.indirectSlot info table indirect sec position out)
      (All (view.Pushed view.isArm64e)) := by
  unfold indirectSlot
  refine Sound.bind (Sound.require _ _) ?_
  intro indirectIdx _
  refine Sound.bind (Sound.ensure _ _) ?_
  intro _ inside
  obtain ⟨offset, count⟩ := near
  refine Sound.bind (Sound.mul (by omega)) ?_
  intro skipped skippedEq
  refine Sound.bind (view.sound_field 4 (by omega)) ?_
  intro symIndex short
  split
  · exact Sound.pure all
  · exact view.sound_indirectNlist info low few short all

theorem sound_parseIndirect (narrow : info.Narrow) :
    Sound (view.parseIndirect info) (All (view.Pushed view.isArm64e)) := by
  unfold parseIndirect
  split
  · rename_i table indirect tableHere indirectHere
    apply Sound.forEach_next (All (view.Pushed view.isArm64e))
    · intro sec _ out all
      unfold indirectSection
      refine Sound.bind (Sound.ensure _ _) ?_
      intro _ few
      unfold maxIndirect at few
      apply Sound.forRange_next (All (view.Pushed view.isArm64e))
      · intro position out before all
        exact view.sound_indirectSlot info (narrow.symtab table tableHere)
          (narrow.indirect indirect indirectHere) (by omega) all
      · intro out all
        exact Sound.pure all
      · exact all
    · intro out all
      exact Sound.pure all
    · exact nofun
  · exact Sound.pure nofun

/-! ## Bind opcodes -/

theorem sound_lebByte {stop : Nat} (past long : String) {state : Leb}
    (short : stop < 2 ^ 64) :
    Sound (view.lebByte stop past long state) fun read =>
      state.cursor < stop ∧ read.2.cursor = state.cursor + 1 ∧
        state.shift ≤ 63 ∧ read.2.shift = state.shift + 7 := by
  unfold lebByte
  refine Sound.bind (Sound.ensure _ _) ?_
  intro _ inside
  refine Sound.bind (view.sound_readByte _) ?_
  intro byte _
  refine Sound.bind (Sound.add (by omega)) ?_
  intro cursor cursorEq
  refine Sound.bind (Sound.ensure _ _) ?_
  intro _ narrow
  unfold ulebMaxShift at narrow
  refine Sound.bind (Sound.shl _ (by omega)) ?_
  intro bits _
  refine Sound.bind (Sound.add (by omega)) ?_
  intro shift shiftEq
  exact Sound.pure ⟨inside, cursorEq, narrow, shiftEq⟩

/-- What the loops of both numbers keep: ten bytes are left for 64 bits, and
the cursor moves forward. -/
def LebInvariant (start rounds : Nat) (state : Leb) : Prop :=
  state.shift + 7 * rounds = 77 ∧ state.shift ≤ 70 ∧
    start ≤ state.cursor

theorem lebInvariant_start (cursor : Nat) :
    LebInvariant cursor lebRounds ⟨cursor, 0, 0⟩ :=
  ⟨rfl, Nat.zero_le 70, Nat.le_refl cursor⟩

/-- One round of both loops: a byte is read only while rounds are left, and
there is one round less after it. -/
theorem sound_lebRound {start stop rounds : Nat} (past long : String)
    {state : Leb} (short : stop < 2 ^ 64)
    (kept : LebInvariant start rounds state) :
    ∃ left, rounds = left + 1 ∧
      Sound (view.lebByte stop past long state) fun read =>
        LebInvariant start left read.2 := by
  obtain ⟨budget, bound, forward⟩ := kept
  refine ⟨rounds - 1, by omega, ?_⟩
  refine Sound.mono (view.sound_lebByte past long short) ?_
  intro read next
  obtain ⟨before, moved, narrow, shifted⟩ := next
  exact ⟨by omega, by omega, by omega⟩

theorem sound_uleb128 (cursor : Nat) {stop : Nat} (short : stop < 2 ^ 64) :
    Sound (view.uleb128 cursor stop) fun read => cursor ≤ read.2 := by
  unfold uleb128
  apply Sound.loop (LebInvariant cursor)
  · intro rounds state kept
    obtain ⟨left, less, sound⟩ := view.sound_lebRound _ _ short kept
    refine ⟨left, less, Sound.bind sound ?_⟩
    intro read next
    apply Sound.pure
    split
    · exact next.2.2
    · exact next
  · exact lebInvariant_start cursor

theorem sound_signBits (byte : UInt8) (state : Leb) :
    Sound (signBits byte state) fun _ => True := by
  unfold signBits
  split
  · rename_i signed
    refine Sound.bind (Sound.shl _ signed.1) ?_
    intro bits _
    exact Sound.pure trivial
  · exact Sound.pure trivial

theorem sound_sleb128 (cursor : Nat) {stop : Nat} (short : stop < 2 ^ 64) :
    Sound (view.sleb128 cursor stop) fun read => cursor ≤ read.2 := by
  unfold sleb128
  apply Sound.loop (LebInvariant cursor)
  · intro rounds state kept
    obtain ⟨left, less, sound⟩ := view.sound_lebRound _ _ short kept
    refine ⟨left, less, Sound.bind sound ?_⟩
    intro read next
    split
    · refine Sound.bind (sound_signBits _ _) ?_
      intro result _
      exact Sound.pure next.2.2
    · exact Sound.pure next
  · exact lebInvariant_start cursor

theorem sound_emitBind (info : LoadInfo) (state : BindState)
    (all : All (view.Pushed false) out) :
    Sound (view.emitBind info state out) (All (view.Pushed false)) := by
  unfold emitBind
  refine Sound.bind (Sound.require _ _) ?_
  intro name _
  split
  · exact Sound.pure all
  · refine Sound.bind (Sound.require _ _) ?_
    intro segment _
    refine Sound.bind (Sound.require _ _) ?_
    intro slotOff _
    apply view.sound_pushImport _ _ _ _ all
    intro address given
    exact ⟨rfl, slotOff, address, given, rfl⟩

theorem sound_emitTimes (info : LoadInfo) (count skip : Nat)
    (state : BindState) (all : All (view.Pushed false) out) :
    Sound (view.emitTimes info count skip state out) fun ended =>
      All (view.Pushed false) ended.2 := by
  unfold emitTimes
  apply Sound.forRange
    (fun _ (running : BindState × List RawImport) =>
      All (view.Pushed false) running.2) count
  · intro _ running _ all
    refine Sound.bind (view.sound_emitBind info running.1 all) ?_
    intro out all
    exact Sound.pure all
  · intro running all
    exact Sound.pure all
  · exact Nat.zero_add _
  · exact all

/-- What an opcode keeps: it never moves the cursor back. -/
def Replayed (cursor : Nat) (next : Replay) : Prop :=
  cursor ≤ next.cursor ∧ All (view.Pushed false) next.out

theorem sound_replayOpcode (info : LoadInfo) {stop : Nat} (imm : Nat)
    {replay : Replay} (low : stop < 2 ^ 63)
    (here : replay.cursor < 2 ^ 63)
    (all : All (view.Pushed false) replay.out) (opcode : BindOpcode) :
    Sound (view.replayOpcode info stop imm replay opcode)
      (view.Replayed replay.cursor) := by
  have still : replay.cursor ≤ replay.cursor := Nat.le_refl _
  have short : stop < 2 ^ 64 := by omega
  cases opcode with
  | done =>
      exact Sound.pure ⟨still, all⟩
  | setTypeImm =>
      exact Sound.pure ⟨still, all⟩
  | setDylibOrdinalImm =>
      exact Sound.pure ⟨still, all⟩
  | setDylibSpecialImm =>
      exact Sound.pure ⟨still, all⟩
  | setDylibOrdinalUleb =>
      refine Sound.bind (view.sound_uleb128 _ short) ?_
      intro read forward
      exact Sound.pure ⟨forward, all⟩
  | setSymbolTrailingFlagsImm =>
      refine Sound.bind (view.sound_readCstrRaw here) ?_
      intro found short
      refine Sound.bind (Sound.add (by omega)) ?_
      intro taken takenEq
      refine Sound.bind (Sound.add (by omega)) ?_
      intro cursor cursorEq
      have forward : replay.cursor ≤ cursor := by omega
      exact Sound.pure ⟨forward, all⟩
  | setAddendSleb =>
      refine Sound.bind (view.sound_sleb128 _ short) ?_
      intro read forward
      exact Sound.pure ⟨forward, all⟩
  | setSegmentAndOffsetUleb =>
      refine Sound.bind (view.sound_uleb128 _ short) ?_
      intro read forward
      exact Sound.pure ⟨forward, all⟩
  | addAddrUleb =>
      refine Sound.bind (view.sound_uleb128 _ short) ?_
      intro read forward
      exact Sound.pure ⟨forward, all⟩
  | doBind =>
      refine Sound.bind (view.sound_emitBind info _ all) ?_
      intro out all
      exact Sound.pure ⟨still, all⟩
  | doBindAddAddrUleb =>
      refine Sound.bind (view.sound_emitBind info _ all) ?_
      intro out all
      refine Sound.bind (view.sound_uleb128 _ short) ?_
      intro read forward
      exact Sound.pure ⟨forward, all⟩
  | doBindAddAddrImmScaled =>
      refine Sound.bind (view.sound_emitBind info _ all) ?_
      intro out all
      exact Sound.pure ⟨still, all⟩
  | doBindUlebTimesSkippingUleb =>
      refine Sound.bind (view.sound_uleb128 _ short) ?_
      intro count first
      refine Sound.bind (view.sound_uleb128 _ short) ?_
      intro skip second
      refine Sound.bind (Sound.ensure _ _) ?_
      intro _ _
      refine Sound.bind (view.sound_emitTimes info _ _ _ all) ?_
      intro ended all
      exact Sound.pure ⟨Nat.le_trans first second, all⟩

theorem sound_replayStep (info : LoadInfo) {stop : Nat} {replay : Replay}
    (low : stop < 2 ^ 62) (inside : replay.cursor < stop)
    (all : All (view.Pushed false) replay.out) :
    Sound (view.replayStep info stop replay)
      (view.Replayed (replay.cursor + 1)) := by
  unfold replayStep
  refine Sound.bind (view.sound_readByte _) ?_
  intro byte _
  refine Sound.bind (Sound.add (by omega)) ?_
  intro cursor cursorEq
  refine Sound.bind (Sound.require _ _) ?_
  intro opcode _
  have here : cursor < 2 ^ 63 := by omega
  have sound := view.sound_replayOpcode info (bindImmediate byte)
    (show stop < 2 ^ 63 by omega)
    (show Replay.cursor { replay with cursor := cursor } < 2 ^ 63 from here)
    all opcode
  rw [← cursorEq]
  exact sound

theorem sound_parseBindStream (info : LoadInfo) {stream : Blob}
    (narrow : stream.off < 2 ^ 32 ∧ stream.size < 2 ^ 32)
    (all : All (view.Pushed false) out) :
    Sound (view.parseBindStream info stream out)
      (All (view.Pushed false)) := by
  obtain ⟨off, size⟩ := narrow
  unfold parseBindStream
  refine Sound.bind (Sound.ensure _ _) ?_
  intro _ _
  refine Sound.bind (Sound.require _ _) ?_
  intro stop reached
  have stopEq := eq_of_checkedAdd reached
  -- every round moves the cursor on, so the bytes that are left bound them
  apply Sound.loop (fun rounds (replay : Replay) =>
    stop - replay.cursor + 1 ≤ rounds ∧
      All (view.Pushed false) replay.out)
  · intro rounds replay kept
    obtain ⟨budget, all⟩ := kept
    refine ⟨rounds - 1, by omega, ?_⟩
    split
    · rename_i inside
      refine Sound.next (Sound.mono
        (view.sound_replayStep info (by omega) inside all) ?_)
      intro next moved
      obtain ⟨forward, all⟩ := moved
      exact ⟨by omega, all⟩
    · exact Sound.pure all
  · refine ⟨?_, all⟩
    change stop - stream.off + 1 ≤ stream.size + 1
    omega

theorem sound_parseBindStreams (narrow : info.Narrow) :
    Sound (view.parseBindStreams info) (All (view.Pushed false)) := by
  unfold parseBindStreams
  apply Sound.forEach_next (All (view.Pushed false))
  · intro stream member out all
    exact view.sound_parseBindStream info (narrow.binds stream member) all
  · intro out all
    exact Sound.pure all
  · exact nofun

end MachOView

/-! ## Chained fixups -/

theorem sound_signExtend (value : Nat) {bits : Nat} (some : 0 < bits)
    (few : bits ≤ 64) :
    Sound (signExtend value bits) fun _ => True := by
  unfold signExtend
  refine Sound.bind (Sound.sub few) ?_
  intro shift shiftEq
  refine Sound.bind (Sound.shl _ (by omega)) ?_
  intro shifted _
  exact Sound.pure trivial

/-- The tables of a blob with narrow fields. -/
structure ImportsTable.Low (imports : ImportsTable) : Prop where
  base : imports.base < 2 ^ 33
  count : imports.count < 2 ^ 32
  blobEnd : imports.blobEnd < 2 ^ 33

namespace MachOView

variable (view : MachOView) {imports : ImportsTable} {out : List RawImport}

theorem sound_narrowRecord (off : Nat) :
    Sound (view.narrowRecord off) fun _ => True := by
  unfold narrowRecord
  refine Sound.bind (view.sound_readUint 4 off) ?_
  intro word _
  refine Sound.bind (sound_signExtend _ (by decide) (by decide)) ?_
  intro ordinal _
  exact Sound.pure trivial

theorem sound_wideRecord (off : Nat) :
    Sound (view.wideRecord off) fun _ => True := by
  unfold wideRecord
  refine Sound.bind (view.sound_readUint 8 off) ?_
  intro word _
  refine Sound.bind (sound_signExtend _ (by decide) (by decide)) ?_
  intro ordinal _
  exact Sound.pure trivial

/-- A record of any stride up to 16 bytes. -/
theorem sound_recordAt {record : Nat → Parse (Nat × Int)}
    (sound : ∀ off, Sound (record off) fun _ => True) (low : imports.Low)
    {ordinal stride : Nat} (short : ordinal < 2 ^ 32) (small : stride ≤ 16) :
    Sound
      (do
        let skipped ← Checked.mul ordinal stride
        Checked.add imports.base skipped >>= record)
      fun _ => True := by
  have base := low.base
  have bound : ordinal * stride ≤ ordinal * 16 :=
    Nat.mul_le_mul_left ordinal small
  refine Sound.bind (Sound.mul (by omega)) ?_
  intro skipped skippedEq
  refine Sound.bind (Sound.add (by omega)) ?_
  intro off _
  exact sound off

theorem sound_importRecord (low : imports.Low) {ordinal : Nat}
    (short : ordinal < 2 ^ 32) :
    Sound (view.importRecord imports ordinal) fun _ => True := by
  unfold importRecord
  split
  · exact sound_recordAt view.sound_narrowRecord low short (by decide)
  · split
    · exact sound_recordAt view.sound_narrowRecord low short (by decide)
    · split
      · exact sound_recordAt view.sound_wideRecord low short (by decide)
      · exact Sound.fail _

theorem sound_resolve (low : imports.Low) (ordinal : Nat)
    (dylibs : List Text) :
    Sound (view.resolve imports ordinal dylibs) fun _ => True := by
  have count := low.count
  have blobEnd := low.blobEnd
  unfold resolve
  refine Sound.bind (Sound.ensure _ _) ?_
  intro _ inside
  refine Sound.bind (view.sound_importRecord low (by omega)) ?_
  intro record _
  refine Sound.bind (Sound.require _ _) ?_
  intro nameAddr _
  refine Sound.bind (Sound.ensure _ _) ?_
  intro _ before
  refine Sound.bind (view.sound_readCstr (by omega)) ?_
  intro name _
  exact Sound.pure trivial

theorem sound_chainBind (info : LoadInfo) (low : imports.Low) {offset : Nat}
    {raw : UInt64} {format : Nat} {entry : ChainEntry}
    (encoded : view.readSlotEncoding offset = .ok raw)
    (decoded : decodeChain raw format = some entry)
    (all : All view.DecodedBind out) :
    Sound (view.chainBind info imports offset entry out)
      (All view.DecodedBind) := by
  unfold chainBind
  split
  · rename_i bound
    refine Sound.bind (view.sound_resolve low _ _) ?_
    intro resolved _
    dsimp only
    split
    · exact Sound.pure all
    · apply view.sound_pushImport _ _ _ _ all
      intro address given
      exact ⟨offset, raw, format, entry, address, encoded, decoded, bound,
        rfl, given, rfl⟩
  · exact Sound.pure all

theorem sound_chainStep (info : LoadInfo) (low : imports.Low) (format : Nat)
    {state : Nat × List RawImport} (all : All view.DecodedBind state.2) :
    Sound (view.chainStep info imports format state)
      (Round.Meets (fun next => All view.DecodedBind next.2)
        (All view.DecodedBind)) := by
  unfold chainStep
  refine Sound.bind (Sound.propagate _) ?_
  intro raw encoded
  refine Sound.bind (Sound.require _ _) ?_
  intro entry decoded
  refine Sound.bind (view.sound_chainBind info low encoded decoded all) ?_
  intro out all
  split
  · exact Sound.pure all
  · refine Sound.bind (Sound.require _ _) ?_
    intro offset _
    exact Sound.pure all

theorem sound_walkPage (info : LoadInfo) (low : imports.Low)
    {segStarts pageSize position : Nat} (format segmentOffset : Nat)
    (start : segStarts < 2 ^ 34) (page : pageSize < 2 ^ 16)
    (few : position < 2 ^ 16) (all : All view.DecodedBind out) :
    Sound
      (view.walkPage info imports segStarts pageSize format segmentOffset
        position out)
      (All view.DecodedBind) := by
  unfold walkPage
  refine Sound.bind (Sound.add (by omega)) ?_
  intro table tableEq
  refine Sound.bind (Sound.mul (by omega)) ?_
  intro skipped skippedEq
  refine Sound.bind (view.sound_field 2 (by omega)) ?_
  intro pageStart _
  split
  · exact Sound.pure all
  · have product : position * pageSize < 2 ^ 16 * 2 ^ 16 :=
      Nat.mul_lt_mul'' few page
    refine Sound.bind (Sound.mul (by omega)) ?_
    intro pages _
    refine Sound.bind (Sound.require _ _) ?_
    intro offset _
    apply Sound.forRange
      (fun _ (state : Nat × List RawImport) =>
        All view.DecodedBind state.2) maxChainSteps
    · intro _ state _ all
      exact view.sound_chainStep info low format all
    · intro state all
      exact Sound.pure all
    · exact Nat.zero_add _
    · exact all

theorem sound_walkSegmentChains (info : LoadInfo) (low : imports.Low)
    {segStarts : Nat} (start : segStarts < 2 ^ 34)
    (all : All view.DecodedBind out) :
    Sound (view.walkSegmentChains info imports segStarts out)
      (All view.DecodedBind) := by
  unfold walkSegmentChains
  refine Sound.bind (view.sound_field 2 (by omega)) ?_
  intro pageSize page
  refine Sound.bind (view.sound_field 2 (by omega)) ?_
  intro format _
  refine Sound.bind (view.sound_field 8 (by omega)) ?_
  intro segmentOffset _
  refine Sound.bind (view.sound_field 2 (by omega)) ?_
  intro pageCount few
  refine Sound.bind (Sound.ensure _ _) ?_
  intro _ _
  apply Sound.forRange_next (All view.DecodedBind) pageCount
  · intro position out before all
    exact view.sound_walkPage info low format segmentOffset start page
      (by omega) all
  · intro out all
    exact Sound.pure all
  · exact all

theorem sound_segmentFixups (info : LoadInfo) (low : imports.Low)
    {starts position : Nat} (near : starts < 2 ^ 33)
    (few : position < 2 ^ 32) (all : All view.DecodedBind out) :
    Sound (view.segmentFixups info imports starts position out)
      (All view.DecodedBind) := by
  unfold segmentFixups
  refine Sound.bind (Sound.add (by omega)) ?_
  intro table tableEq
  refine Sound.bind (Sound.mul (by omega)) ?_
  intro skipped skippedEq
  refine Sound.bind (view.sound_field 4 (by omega)) ?_
  intro segInfoOffset short
  split
  · exact Sound.pure all
  · refine Sound.bind (Sound.require _ _) ?_
    intro segStarts reached
    have segStartsEq := eq_of_checkedAdd reached
    exact view.sound_walkSegmentChains info low (by omega) all

theorem sound_parseChainedFixups (info : LoadInfo) {blob : Blob}
    (narrow : blob.off < 2 ^ 32 ∧ blob.size < 2 ^ 32) :
    Sound (view.parseChainedFixups info blob) (All view.DecodedBind) := by
  obtain ⟨off, size⟩ := narrow
  unfold parseChainedFixups
  split
  · unfold walkFixups
    refine Sound.bind (Sound.require _ _) ?_
    intro blobEnd endReached
    have blobEndEq := eq_of_checkedAdd endReached
    refine Sound.bind (Sound.ensure _ _) ?_
    intro _ _
    refine Sound.bind (view.sound_readUint 4 _) ?_
    intro fixupsVersion _
    refine Sound.bind (Sound.ensure _ _) ?_
    intro _ _
    refine Sound.bind (view.sound_field 4 (by omega)) ?_
    intro startsOffset startsShort
    refine Sound.bind (view.sound_field 4 (by omega)) ?_
    intro importsOffset importsShort
    refine Sound.bind (view.sound_field 4 (by omega)) ?_
    intro symbolsOffset _
    refine Sound.bind (view.sound_field 4 (by omega)) ?_
    intro importsCount count
    refine Sound.bind (view.sound_field 4 (by omega)) ?_
    intro importsFormat _
    refine Sound.bind (Sound.require _ _) ?_
    intro base baseReached
    have baseEq := eq_of_checkedAdd baseReached
    refine Sound.bind (Sound.require _ _) ?_
    intro symbolsBase _
    refine Sound.bind (Sound.require _ _) ?_
    intro starts startsReached
    have startsEq := eq_of_checkedAdd startsReached
    refine Sound.bind (view.sound_readUint 4 starts) ?_
    intro segCount _
    refine Sound.bind (Sound.ensure _ _) ?_
    intro _ few
    unfold maxFixupSegments at few
    have low : ImportsTable.Low
        ⟨base, importsCount, importsFormat, symbolsBase, blobEnd⟩ :=
      ⟨show base < 2 ^ 33 by omega, count, show blobEnd < 2 ^ 33 by omega⟩
    apply Sound.forRange_next (All view.DecodedBind) segCount
    · intro position out before all
      exact view.sound_segmentFixups info low (by omega) (by omega) all
    · intro out all
      exact Sound.pure all
    · exact nofun
  · exact Sound.pure nofun

/-! ## The whole parse -/

/-- The slots of the imports are addresses that the view gave. -/
def GaveSlots (imports : List RawImport) : Prop :=
  ∀ found ∈ imports, ∃ off address,
    view.slotAddress off = .ok address ∧ found.slot = address.toNat

variable {view}

theorem Pushed.gaveSlots {flag : Bool} {imports : List RawImport}
    (all : All (view.Pushed flag) imports) : view.GaveSlots imports := by
  intro found member
  exact (all found member).2

theorem DecodedBind.gaveSlots {imports : List RawImport}
    (all : All view.DecodedBind imports) : view.GaveSlots imports := by
  intro found member
  obtain ⟨off, _, _, _, address, -, -, -, -, given, same⟩ :=
    all found member
  exact ⟨off, address, given, same⟩

theorem sound_parseComplement {info : LoadInfo} (narrow : info.Narrow) :
    Sound (view.parseComplement info) view.GaveSlots := by
  unfold parseComplement
  cases here : info.chained with
  | some blob =>
      exact Sound.mono
        (view.sound_parseChainedFixups info (narrow.chained blob here))
        fun _ => DecodedBind.gaveSlots
  | none =>
      exact Sound.mono (view.sound_parseBindStreams narrow)
        fun _ => Pushed.gaveSlots

/-- Every slot of the result is a slot of one of the sources. -/
theorem GaveSlots.adopt {primary : List RawImport}
    {outcome : Except ParseError (List RawImport)}
    (first : view.GaveSlots primary)
    (second : ∀ complement, outcome = .ok complement →
      view.GaveSlots complement) :
    view.GaveSlots (retainFirst [] (adoptComplement primary outcome)) := by
  intro found member
  cases outcome with
  | ok complement =>
      rw [adoptComplement, retainFirst_mergeComplement] at member
      obtain ⟨old, kept, rfl⟩ := List.mem_map.mp member
      rw [slot_refineFlag]
      rcases List.mem_append.mp (mem_of_mem_firstBy _ kept) with here | there
      · exact first old here
      · exact second complement rfl old there
  | error error =>
      rw [adoptComplement, retainFirst_nil] at member
      exact first found (mem_of_mem_firstBy _ member)

theorem sound_parseImports :
    Sound view.parseImports view.GaveSlots := by
  unfold parseImports
  refine Sound.bind (Sound.ensure _ _) ?_
  intro _ _
  refine Sound.bind view.sound_readLoadCommands ?_
  intro info narrow
  refine Sound.bind (view.sound_parseIndirect narrow) ?_
  intro primary all
  refine Sound.bind (Sound.attempt (sound_parseComplement narrow)) ?_
  intro outcome given
  exact Sound.pure ((Pushed.gaveSlots all).adopt given)

end MachOView

/-- Every parse ends with a result or an error, for every view and for every
file; no word overflows, no shift is too wide and no index out of range; and
every slot of a result is an address that the view gave. -/
theorem parsing_safe :
    (∀ view : MachOView,
      (∃ imports, view.parseImports = .ok imports ∧
        ∀ found ∈ imports, ∃ off address,
          view.slotAddress off = .ok address ∧
            found.slot = address.toNat) ∨
        ∃ error, view.parseImports = .error (.error error)) ∧
    ∀ file : File,
      ((∃ container, file.classify = .ok container) ∨
        ∃ error, file.classify = .error (.error error)) ∧
      ∀ cpuType cpuSubtype,
        (∃ range, file.thinSliceRange cpuType cpuSubtype = .ok range) ∨
          ∃ error, file.thinSliceRange cpuType cpuSubtype =
            .error (.error error) := by
  constructor
  · intro view
    exact Sound.iff_ok_or_error.mp MachOView.sound_parseImports
  · intro file
    constructor
    · rcases Sound.iff_ok_or_error.mp file.sound_classify with
        ⟨container, classified, -⟩ | failed
      · exact .inl ⟨container, classified⟩
      · exact .inr failed
    · intro cpuType cpuSubtype
      rcases Sound.iff_ok_or_error.mp
          (file.sound_thinSliceRange cpuType cpuSubtype) with
        ⟨range, selected, -⟩ | failed
      · exact .inl ⟨range, selected⟩
      · exact .inr failed

end Hookfs.Plthook.MachO
