import Hookfs.Plthook.MachOChains
import Hookfs.Plthook.MachOOpcodes

/-!
# The replay of bind opcodes

The replay returns what the stream denotes, unless a bind has a symbol of
whose name nothing is left: there the replay keeps no symbol, takes the bind
for one without a symbol, and reports an error for the whole stream.
-/

namespace Hookfs.Plthook.MachO

open Hookfs.Lib Hookfs.Posix Hookfs.Plthook

/-! ## Registers -/

/-- The state of the replay: of the symbol it keeps the normalized name. -/
def BindRegisters.toState (registers : BindRegisters) : BindState where
  segIndex := registers.segIndex
  segOffset := registers.segOffset
  libraryOrdinal := registers.ordinal
  symbol := registers.name

theorem BindRegisters.advance_toState (registers : BindRegisters)
    (amount : Nat) :
    (registers.toState.advance amount).advance ptrSize =
      (registers.advance (amount + 8)).toState := by
  have moved : wrappingAdd (wrappingAdd registers.segOffset amount) 8 =
      (registers.segOffset + (amount + 8)) % 2 ^ 64 := by
    unfold wrappingAdd
    omega
  unfold BindState.advance BindRegisters.advance toState
  simp only [ptrSize, moved]
  rfl

namespace MachOView

variable {view : MachOView} {info : LoadInfo} {out : List RawImport}
  {registers : BindRegisters}

/-! ## Binds -/

/-- A bind with a name gives what it denotes; one without is an error. -/
theorem emitBind_eq_ok_iff {given next : List RawImport}
    (gives : BindGives view info registers given) :
    view.emitBind info registers.toState out = .ok next ↔
      registers.name ≠ none ∧ next = out ++ given := by
  unfold emitBind BindRegisters.toState
  cases gives with
  | skipped set unnamed =>
      rw [unnamed]
      constructor
      · intro impossible
        cases impossible
      · intro impossible
        exact absurd rfl impossible.1
  | bootstrap named =>
      rw [named, List.append_nil]
      constructor
      · intro returned
        exact ⟨nofun, (Except.ok.inj returned).symm⟩
      · intro given
        rw [given.2]
        rfl
  | @found name segment slot named other mapped fits placed =>
      have pushed : view.pushImport
          (libraryOf registers.ordinal info.dylibs) name
          (segment.fileoff + registers.segOffset) false out =
            .ok (out ++ [⟨libraryOf registers.ordinal info.dylibs,
              some (.name name), none, slot.toNat, .standard, false⟩]) :=
        pushImport_eq_ok_iff.mpr ⟨slot, placed, rfl⟩
      rw [named, Checked.require_some, Checked.bind_ok, if_neg other, mapped,
        Checked.require_some, Checked.bind_ok, checkedAdd_eq_some fits,
        Checked.require_some, Checked.bind_ok, pushed]
      constructor
      · intro returned
        exact ⟨nofun, (Except.ok.inj returned).symm⟩
      · intro given
        rw [given.2]

/-- One round of `emit_bind` repeated. -/
def emitRound (view : MachOView) (info : LoadInfo) (skip : Nat)
    (running : BindState × List RawImport) :
    Parse (Round (BindState × List RawImport)
      (BindState × List RawImport)) := do
  let out ← view.emitBind info running.1 running.2
  pure (.next ((running.1.advance skip).advance ptrSize, out))

theorem emitRound_eq_ok_iff {skip : Nat} {given : List RawImport}
    {ended : Round (BindState × List RawImport)
      (BindState × List RawImport)}
    (gives : BindGives view info registers given) :
    view.emitRound info skip (registers.toState, out) = .ok ended ↔
      registers.name ≠ none ∧
        ended = .next
          ((registers.advance (skip + 8)).toState, out ++ given) := by
  unfold emitRound
  rw [Checked.bind_eq_ok_iff]
  simp only [emitBind_eq_ok_iff gives, BindRegisters.advance_toState]
  constructor
  · intro returned
    obtain ⟨_, ⟨named, rfl⟩, same⟩ := returned
    exact ⟨named, (Except.ok.inj same).symm⟩
  · intro holds
    exact ⟨_, ⟨holds.1, rfl⟩, congrArg Except.ok holds.2.symm⟩

/-- Every bind of a list has a name. -/
def AllNamed (binds : List BindRegisters) : Prop :=
  ∀ bind ∈ binds, bind.name ≠ none

theorem allNamed_nil : AllNamed [] :=
  List.forall_mem_nil _

theorem allNamed_append {first second : List BindRegisters} :
    AllNamed (first ++ second) ↔ AllNamed first ∧ AllNamed second :=
  List.forall_mem_append

theorem allNamed_cons {binds : List BindRegisters} :
    AllNamed (registers :: binds) ↔ registers.name ≠ none ∧ AllNamed binds :=
  List.forall_mem_cons

theorem emitLoop_eq_ok_iff {skip : Nat}
    {ended : BindState × List RawImport} (count : Nat) :
    ∀ (start : Nat) (registers : BindRegisters) (out : List RawImport)
      (given : List (List RawImport)),
      List.Forall₂ (BindGives view info)
        (registers.repeatBind skip count).2 given →
      (forRange (fun _ => view.emitRound info skip) pure count start
          (registers.toState, out) = .ok ended ↔
        AllNamed (registers.repeatBind skip count).2 ∧
          ended = ((registers.repeatBind skip count).1.toState,
            out ++ given.flatten)) := by
  induction count with
  | zero =>
      intro _ registers out given gives
      cases gives
      rw [List.flatten_nil, List.append_nil]
      constructor
      · intro returned
        exact ⟨allNamed_nil, (Except.ok.inj returned).symm⟩
      · intro holds
        rw [holds.2]
        rfl
  | succ count inductionHypothesis =>
      intro start registers out given gives
      rw [BindRegisters.repeatBind] at gives ⊢
      cases gives with
      | @cons _ first _ rest here later =>
          have going := inductionHypothesis (start + 1)
            (registers.advance (skip + 8)) (out ++ first) rest later
          rw [forRange_succ_eq_ok_iff]
          simp only [emitRound_eq_ok_iff here]
          rw [allNamed_cons, List.flatten_cons, ← List.append_assoc]
          constructor
          · intro returned
            rcases returned with impossible | returned
            · cases impossible.2
            · obtain ⟨_, ⟨named, same⟩, returned⟩ := returned
              injection same with same
              rw [same] at returned
              obtain ⟨others, endedEq⟩ := going.mp returned
              exact ⟨⟨named, others⟩, endedEq⟩
          · intro holds
            have returned := going.mpr ⟨holds.1.2, holds.2⟩
            exact .inr ⟨_, ⟨holds.1.1, rfl⟩, returned⟩

theorem emitTimes_eq_ok_iff {count skip : Nat} {given : List (List RawImport)}
    {ended : BindState × List RawImport}
    (gives : List.Forall₂ (BindGives view info)
      (registers.repeatBind skip count).2 given) :
    view.emitTimes info count skip registers.toState out = .ok ended ↔
      AllNamed (registers.repeatBind skip count).2 ∧
        ended = ((registers.repeatBind skip count).1.toState,
          out ++ given.flatten) :=
  emitLoop_eq_ok_iff count 0 registers out given gives

/-! ## Instructions -/

/-- The replay behind the operands of an instruction. -/
def replayed (instr : BindInstr) (registers : BindRegisters) (cursor : Nat)
    (out : List RawImport) : Replay where
  cursor := cursor + instr.op.operands.length
  state := (instr.run registers).1.toState
  out := out

section Instructions

variable {instr : BindInstr} {stop cursor : Nat}
  {given : List (List RawImport)}

/-- The replay of an instruction returns what its binds give, if its name is
short and all of its binds have names. -/
def Replays (view : MachOView) (info : LoadInfo) (stop : Nat)
    (instr : BindInstr) (registers : BindRegisters) (cursor : Nat)
    (out : List RawImport) (given : List (List RawImport)) : Prop :=
  ∀ next,
    view.replayOpcode info stop instr.imm ⟨cursor, registers.toState, out⟩
        instr.op.opcode = .ok next ↔
      instr.op.ShortName ∧ AllNamed (instr.run registers).2 ∧
        next = replayed instr registers cursor (out ++ given.flatten)

/-- An instruction without binds. -/
theorem replays_of_quiet
    (gives : List.Forall₂ (BindGives view info) (instr.run registers).2 given)
    (quiet : (instr.run registers).2 = []) (short : instr.op.ShortName)
    (returned : view.replayOpcode info stop instr.imm
      ⟨cursor, registers.toState, out⟩ instr.op.opcode =
        .ok (replayed instr registers cursor out)) :
    view.Replays info stop instr registers cursor out given := by
  intro next
  rw [quiet] at gives ⊢
  cases gives
  rw [returned, List.flatten_nil, List.append_nil]
  constructor
  · intro same
    exact ⟨short, allNamed_nil, (Except.ok.inj same).symm⟩
  · intro holds
    rw [holds.2.2]

/-- An instruction with one bind of the registers as they are. -/
theorem replays_of_single
    (gives : List.Forall₂ (BindGives view info) (instr.run registers).2 given)
    (single : (instr.run registers).2 = [registers])
    (short : instr.op.ShortName)
    (returned : view.replayOpcode info stop instr.imm
      ⟨cursor, registers.toState, out⟩ instr.op.opcode =
        (do
          let out ← view.emitBind info registers.toState out
          pure (replayed instr registers cursor out))) :
    view.Replays info stop instr registers cursor out given := by
  intro next
  rw [single] at gives ⊢
  cases gives with
  | @cons _ found _ _ here none =>
      cases none
      rw [returned, Checked.bind_eq_ok_iff, allNamed_cons, List.flatten_cons,
        List.flatten_nil, List.append_nil]
      simp only [emitBind_eq_ok_iff here]
      constructor
      · intro emitted
        obtain ⟨_, ⟨named, rfl⟩, same⟩ := emitted
        exact ⟨short, ⟨named, allNamed_nil⟩, (Except.ok.inj same).symm⟩
      · intro holds
        exact ⟨_, ⟨holds.2.1.1, rfl⟩, congrArg Except.ok holds.2.2.symm⟩

/-- A name longer than the limit is an error. -/
theorem replays_of_name {name : RawName} {imm : Fin 16}
    (shown : view.Shows cursor (name.bytes ++ [0]))
    (word : cursor + (name.bytes.length + 1) < 2 ^ 64) :
    view.Replays info stop ⟨.setSymbolTrailingFlagsImm name, imm⟩ registers
      cursor out [] := by
  intro next
  have taken : name.bytes.length + 1 < 2 ^ 64 := by omega
  change view.readCstrRaw cursor >>= _ = _ ↔ _
  rw [Checked.bind_eq_ok_iff]
  simp only [readCstrRaw_eq_ok_iff name shown (Nat.lt_of_succ_lt word)]
  have moved : replayed ⟨.setSymbolTrailingFlagsImm name, imm⟩ registers
      cursor (out ++ []) =
        ⟨cursor + (name.bytes.length + 1),
          { registers.toState with
            symbol := normalizeSymbolName (fromUtf8Lossy name.bytes) },
          out⟩ := by
    unfold replayed BindOp.operands
    rw [List.length_append, List.append_nil]
    rfl
  constructor
  · intro emitted
    obtain ⟨_, ⟨short, rfl⟩, same⟩ := emitted
    rw [Checked.add_eq_ok taken, Checked.bind_ok, Checked.add_eq_ok word]
      at same
    refine ⟨short, allNamed_nil, ?_⟩
    rw [List.flatten_nil, moved]
    exact (Except.ok.inj same).symm
  · intro holds
    obtain ⟨short, _, rfl⟩ := holds
    refine ⟨_, ⟨short, rfl⟩, ?_⟩
    rw [Checked.add_eq_ok taken, Checked.bind_ok, Checked.add_eq_ok word,
      List.flatten_nil, moved]
    rfl

theorem replays_of_repeat {count skip : Uleb} {imm : Fin 16}
    (word : stop < 2 ^ 64)
    (shown : view.Shows cursor (count.bytes ++ skip.bytes))
    (inside : cursor + (count.bytes ++ skip.bytes).length ≤ stop)
    (counted : count.value ≤ maxChainSteps)
    (gives : List.Forall₂ (BindGives view info)
      (registers.repeatBind skip.value count.value).2 given) :
    view.Replays info stop ⟨.doBindUlebTimesSkippingUleb count skip, imm⟩
      registers cursor out given := by
  intro next
  have length : (count.bytes ++ skip.bytes).length =
      count.bytes.length + skip.bytes.length := List.length_append
  rw [length, ← Nat.add_assoc] at inside
  have first := uleb128_of_shows word count shown.left (by omega)
  have second := uleb128_of_shows word skip shown.right inside
  have moved : ∀ out, replayed ⟨.doBindUlebTimesSkippingUleb count skip, imm⟩
      registers cursor out =
        ⟨cursor + count.bytes.length + skip.bytes.length,
          (registers.repeatBind skip.value count.value).1.toState, out⟩ := by
    intro out
    unfold replayed BindOp.operands
    rw [length, ← Nat.add_assoc]
    rfl
  change view.uleb128 cursor stop >>= _ = _ ↔ _
  rw [first, Checked.bind_ok]
  change view.uleb128 (cursor + count.bytes.length) stop >>= _ = _ ↔ _
  rw [second, Checked.bind_ok]
  change Checked.ensure (count.value ≤ maxChainSteps) _ >>= _ = _ ↔ _
  rw [Checked.ensure_eq_ok _ counted, Checked.bind_ok,
    Checked.bind_eq_ok_iff, moved]
  simp only [emitTimes_eq_ok_iff gives]
  constructor
  · intro emitted
    obtain ⟨_, ⟨named, rfl⟩, same⟩ := emitted
    exact ⟨Nat.zero_le _, named, (Except.ok.inj same).symm⟩
  · intro holds
    exact ⟨_, ⟨holds.2.1, rfl⟩, congrArg Except.ok holds.2.2.symm⟩

theorem replays (word : stop < 2 ^ 64)
    (shown : view.Shows cursor instr.op.operands)
    (inside : cursor + instr.op.operands.length ≤ stop)
    (counted : instr.op.Counted)
    (gives : List.Forall₂ (BindGives view info) (instr.run registers).2
      given) :
    view.Replays info stop instr registers cursor out given := by
  obtain ⟨op, imm⟩ := instr
  cases op with
  | done =>
      exact replays_of_quiet gives rfl (Nat.zero_le _) rfl
  | setTypeImm =>
      exact replays_of_quiet gives rfl (Nat.zero_le _) rfl
  | setDylibOrdinalImm =>
      exact replays_of_quiet gives rfl (Nat.zero_le _) rfl
  | setDylibSpecialImm =>
      exact replays_of_quiet gives rfl (Nat.zero_le _) rfl
  | setDylibOrdinalUleb ordinal =>
      have taken := uleb128_of_shows word ordinal shown inside
      apply replays_of_quiet gives rfl (Nat.zero_le _)
      change view.uleb128 cursor stop >>= _ = _
      rw [taken]
      rfl
  | setAddendSleb addend =>
      obtain ⟨value, taken⟩ := sleb128_of_shows word addend shown inside
      apply replays_of_quiet gives rfl (Nat.zero_le _)
      change view.sleb128 cursor stop >>= _ = _
      rw [taken]
      rfl
  | setSegmentAndOffsetUleb offset =>
      have taken := uleb128_of_shows word offset shown inside
      apply replays_of_quiet gives rfl (Nat.zero_le _)
      change view.uleb128 cursor stop >>= _ = _
      rw [taken]
      rfl
  | addAddrUleb amount =>
      have taken := uleb128_of_shows word amount shown inside
      apply replays_of_quiet gives rfl (Nat.zero_le _)
      change view.uleb128 cursor stop >>= _ = _
      rw [taken]
      rfl
  | setSymbolTrailingFlagsImm name =>
      have length : (name.bytes ++ [0]).length = name.bytes.length + 1 :=
        List.length_append
      change cursor + (name.bytes ++ [0]).length ≤ stop at inside
      cases gives
      exact replays_of_name shown (by omega)
  | doBind =>
      exact replays_of_single gives rfl (Nat.zero_le _) rfl
  | doBindAddAddrUleb amount =>
      have taken := uleb128_of_shows word amount shown inside
      apply replays_of_single gives rfl (Nat.zero_le _)
      unfold replayOpcode
      simp only [taken, Checked.bind_ok, BindRegisters.advance_toState]
      rfl
  | doBindAddAddrImmScaled =>
      apply replays_of_single gives rfl (Nat.zero_le _)
      unfold replayOpcode
      simp only [BindRegisters.advance_toState]
      rfl
  | doBindUlebTimesSkippingUleb count skip =>
      exact replays_of_repeat word shown inside counted gives

end Instructions

/-! ## Streams -/

section Streams

variable {stop : Nat} {ended : List RawImport}

theorem replayStep_eq_ok_iff {instr : BindInstr} {cursor : Nat}
    {given : List (List RawImport)} {next : Replay} (word : stop < 2 ^ 64)
    (shown : view.Shows cursor instr.bytes)
    (inside : cursor + instr.bytes.length ≤ stop)
    (counted : instr.op.Counted)
    (gives : List.Forall₂ (BindGives view info) (instr.run registers).2
      given) :
    view.replayStep info stop ⟨cursor, registers.toState, out⟩ = .ok next ↔
      instr.op.ShortName ∧ AllNamed (instr.run registers).2 ∧
        next = ⟨cursor + instr.bytes.length,
          (instr.run registers).1.toState, out ++ given.flatten⟩ := by
  have length : instr.bytes.length = 1 + instr.op.operands.length :=
    Nat.add_comm _ 1
  rw [length, ← Nat.add_assoc] at inside ⊢
  have all := @replays view info out registers instr stop (cursor + 1) given
    word shown.tail inside counted gives next
  have moved : cursor + 1 < 2 ^ 64 := by omega
  unfold replayStep
  rw [readByte_of_shows shown, Checked.bind_ok,
    Checked.add_eq_ok moved, Checked.bind_ok, ofByte_byte,
    Checked.require_some, Checked.bind_ok, bindImmediate_byte]
  exact all

theorem exists_given_append {first second : List BindRegisters}
    {given : List (List RawImport)}
    (gives : List.Forall₂ (BindGives view info) (first ++ second) given) :
    ∃ here later, given = here ++ later ∧
      List.Forall₂ (BindGives view info) first here ∧
      List.Forall₂ (BindGives view info) second later :=
  ⟨given.take first.length, given.drop first.length,
    (List.take_append_drop _ _).symm,
    (List.forall₂_take_append given first second gives.flip).flip,
    (List.forall₂_drop_append given first second gives.flip).flip⟩

/-- One round of `parse_bind_stream`. -/
def replayRound (view : MachOView) (info : LoadInfo) (stop : Nat)
    (replay : Replay) : Parse (Round Replay (List RawImport)) :=
  if replay.cursor < stop then do
    let replay ← view.replayStep info stop replay
    pure (.next replay)
  else pure (.done replay.out)

theorem replayLoop_eq_ok_iff (word : stop < 2 ^ 64)
    (code : List BindInstr) :
    ∀ (rounds cursor : Nat) (registers : BindRegisters)
      (out : List RawImport) (given : List (List RawImport)),
      code.length < rounds → view.Shows cursor (streamBytes code) →
      cursor + (streamBytes code).length = stop →
      (∀ instr ∈ code, instr.op.Counted) →
      List.Forall₂ (BindGives view info) (bindsOf code registers) given →
      (loop (view.replayRound info stop) rounds
          ⟨cursor, registers.toState, out⟩ = .ok ended ↔
        (∀ instr ∈ code, instr.op.ShortName) ∧
          AllNamed (bindsOf code registers) ∧
          ended = out ++ given.flatten) := by
  induction code with
  | nil =>
      intro rounds cursor registers out given enough _ atStop _ gives
      obtain ⟨less, rfl⟩ : ∃ less, rounds = less + 1 :=
        Nat.exists_eq_add_of_le' enough
      have past : ¬ cursor < stop :=
        Nat.not_lt.mpr (Nat.le_of_eq atStop.symm)
      cases gives
      rw [loop, replayRound, if_neg past, List.flatten_nil, List.append_nil]
      constructor
      · intro returned
        exact ⟨List.forall_mem_nil _, allNamed_nil,
          (Except.ok.inj returned).symm⟩
      · intro holds
        rw [holds.2.2]
        rfl
  | cons instr rest inductionHypothesis =>
      intro rounds cursor registers out given enough shown atStop counted gives
      obtain ⟨less, rfl⟩ : ∃ less, rounds = less + 1 :=
        Nat.exists_eq_add_of_le' (Nat.lt_of_le_of_lt (Nat.zero_le _) enough)
      have length : (streamBytes (instr :: rest)).length =
          instr.bytes.length + (streamBytes rest).length :=
        List.length_append
      have more : 0 < instr.bytes.length := Nat.succ_pos _
      rw [length, ← Nat.add_assoc] at atStop
      have before : cursor < stop := by omega
      obtain ⟨here, others⟩ := List.forall_mem_cons.mp counted
      obtain ⟨found, later, rfl, first, second⟩ := exists_given_append gives
      have step := fun next => @replayStep_eq_ok_iff view info out registers
        stop instr cursor found next word (Shows.left shown) (by omega) here
        first
      have going := inductionHypothesis less
        (cursor + instr.bytes.length) (instr.run registers).1
        (out ++ found.flatten) later (Nat.lt_of_succ_lt_succ enough)
        (Shows.right shown) atStop others second
      rw [loop_succ_eq_ok_iff, replayRound, if_pos before]
      simp only [Checked.bind_eq_ok_iff, step]
      rw [List.forall_mem_cons, bindsOf, allNamed_append, List.flatten_append,
        ← List.append_assoc]
      constructor
      · intro returned
        rcases returned with impossible | returned
        · obtain ⟨_, _, same⟩ := impossible
          cases same
        · obtain ⟨_, ⟨_, ⟨short, named, rfl⟩, same⟩, returned⟩ := returned
          injection Except.ok.inj same with same
          rw [← same] at returned
          obtain ⟨shorts, names, endedEq⟩ := going.mp returned
          exact ⟨⟨short, shorts⟩, ⟨named, names⟩, endedEq⟩
      · intro holds
        obtain ⟨⟨short, shorts⟩, ⟨named, names⟩, endedEq⟩ := holds
        have returned := going.mpr ⟨shorts, names, endedEq⟩
        exact .inr ⟨_, ⟨_, ⟨short, named, rfl⟩, rfl⟩, returned⟩

/-- Every instruction has a byte. -/
theorem length_le_streamBytes (code : List BindInstr) :
    code.length ≤ (streamBytes code).length := by
  induction code with
  | nil =>
      exact Nat.le_refl 0
  | cons instr rest inductionHypothesis =>
      have length : (streamBytes (instr :: rest)).length =
          instr.bytes.length + (streamBytes rest).length :=
        List.length_append
      have more : 0 < instr.bytes.length := Nat.succ_pos _
      rw [List.length_cons, length]
      omega

/-- The imports of a well-formed stream are those that it denotes, unless a
name is too long or nothing is left of the name of a bind. -/
theorem parseBindStream_exact_iff (view : MachOView) (info : LoadInfo)
    (stream : Blob) (code : List BindInstr) (given : List (List RawImport))
    (out : List RawImport)
    (shown : view.Shows stream.off (streamBytes code))
    (size : stream.size = (streamBytes code).length)
    (word : stream.off + stream.size < 2 ^ 64)
    (counted : ∀ instr ∈ code, instr.op.Counted)
    (gives : List.Forall₂ (BindGives view info) (bindsOf code .start) given) :
    view.parseBindStream info stream out = .ok (out ++ given.flatten) ↔
      stream.size ≤ maxBindBytes ∧
        (∀ instr ∈ code, instr.op.ShortName) ∧
        ∀ bind ∈ bindsOf code .start, bind.name ≠ none := by
  have enough : code.length < stream.size + 1 :=
    Nat.lt_succ_of_le (size ▸ length_le_streamBytes code)
  have all := @replayLoop_eq_ok_iff view info _ (out ++ given.flatten) word
    code (stream.size + 1) stream.off .start out given enough shown
    (congrArg (stream.off + ·) size.symm) counted gives
  unfold parseBindStream
  rw [Checked.ensure_bind_eq_ok_iff, checkedAdd_eq_some word,
    Checked.require_some, Checked.bind_ok]
  constructor
  · intro returned
    have holds := all.mp returned.2
    exact ⟨returned.1, holds.1, holds.2.1⟩
  · intro holds
    exact ⟨holds.1, all.mpr ⟨holds.2.1, holds.2.2, rfl⟩⟩

end Streams

end MachOView

/-! ## A bind without a name -/

/-- A file that holds nothing but a stream, mapped at its own offsets. -/
def streamView (code : List BindInstr) : MachOView :=
  FileView.toView ⟨streamBytes code, 0, [⟨0, 64, 0, 64⟩], cpuTypeX8664, 3⟩

def streamInfo : LoadInfo :=
  { (default : LoadInfo) with segments := [⟨0, 64, 0, 64⟩] }

theorem streamView_shows {code : List BindInstr}
    (short : (streamBytes code).length < 2 ^ 64) :
    (streamView code).Shows 0 (streamBytes code) :=
  FileView.shows_drop
    ⟨streamBytes code, 0, [⟨0, 64, 0, 64⟩], cpuTypeX8664, 3⟩ short
    (Nat.zero_le _)

/-- A bind of a name, 8 bytes into the first segment. -/
def bindOf (name : RawName) : List BindInstr :=
  [⟨.setSymbolTrailingFlagsImm name, 0⟩,
    ⟨.setSegmentAndOffsetUleb ⟨[8], .last (by decide), by decide, by decide⟩,
      0⟩,
    ⟨.doBind, 0⟩]

/-- `_f`. -/
def namedF : RawName :=
  ⟨[0x5f, 0x66], by decide⟩

/-- An underscore and nothing behind it. -/
def underscore : RawName :=
  ⟨[0x5f], by decide⟩

def importF : RawImport :=
  ⟨libraryOf 0 [], some (.name ['f']), none, 8, .standard, false⟩

theorem bindGives_importF (code : List BindInstr) :
    BindGives (streamView code) streamInfo ⟨0, 8, 0, some [0x5f, 0x66]⟩
      [importF] := by
  have placed : (streamView code).slotAddress 8 = .ok 8 := rfl
  exact @BindGives.found _ _ _ ['f'] ⟨0, 64, 0, 64⟩ 8 (by decide) (by decide)
    rfl (by decide) placed

theorem parseBindStream_exact_iff_bindOf :
    (streamView (bindOf namedF)).parseBindStream streamInfo
        ⟨0, (streamBytes (bindOf namedF)).length⟩ [] = .ok [importF] := by
  have returned := MachOView.parseBindStream_exact_iff
    (streamView (bindOf namedF)) streamInfo
    ⟨0, (streamBytes (bindOf namedF)).length⟩ (bindOf namedF) [[importF]] []
    (streamView_shows (by decide)) rfl (by decide) (by decide)
    (.cons (bindGives_importF _) .nil)
  exact returned.mpr ⟨by decide, by decide, by decide⟩

/-- The bind of an unnamed symbol, and then that of `f`. -/
def unnamedThenF : List BindInstr :=
  bindOf underscore ++ bindOf namedF

/-- Nothing is left of the first name, so the replay takes its bind for one
without a symbol and loses the second. -/
theorem unnamed_loses_stream :
    (streamView unnamedThenF).parseBindStream streamInfo
        ⟨0, (streamBytes unnamedThenF).length⟩ [] =
          malformed "DO_BIND with no symbol set" ∧
      ¬∀ (view : MachOView) (info : LoadInfo) (stream : Blob)
        (code : List BindInstr) (given : List (List RawImport))
        (out : List RawImport),
        view.Shows stream.off (streamBytes code) →
        stream.size = (streamBytes code).length →
        stream.size ≤ maxBindBytes →
        (∀ instr ∈ code, instr.op.Counted ∧ instr.op.ShortName) →
        List.Forall₂ (BindGives view info) (bindsOf code .start) given →
          view.parseBindStream info stream out = .ok (out ++ given.flatten)
    := by
  have lost : (streamView unnamedThenF).parseBindStream streamInfo
      ⟨0, (streamBytes unnamedThenF).length⟩ [] =
        malformed "DO_BIND with no symbol set" := by
    decide +kernel
  constructor
  · exact lost
  · intro every
    have skipped : BindGives (streamView unnamedThenF) streamInfo
        ⟨0, 8, 0, some [0x5f]⟩ [] := .skipped rfl (by decide)
    have returned := every (streamView unnamedThenF) streamInfo
      ⟨0, (streamBytes unnamedThenF).length⟩ unnamedThenF [[], [importF]] []
      (streamView_shows (by decide)) rfl (by decide) (by decide)
      (.cons skipped (.cons (bindGives_importF _) .nil))
    rw [lost] at returned
    cases returned

end Hookfs.Plthook.MachO
