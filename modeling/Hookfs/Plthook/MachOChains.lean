import Hookfs.Plthook.MachOImports

/-!
# Fixup chains

What `walk_segment_chains` emits, as a derivation: the imports of a segment,
each with the place of its fixup.  The walk returns exactly the imports that
are derived.
-/

namespace Hookfs.Plthook.MachO

open Hookfs.Lib Hookfs.Posix Hookfs.Plthook

/-! ## Places -/

/-- The place of a fixup, as `dyld_chained_starts_in_segment` describes it. -/
structure Place where
  segmentOffset : Nat
  pageSize : Nat
  page : Nat
  pageStart : Nat
  /-- The next-steps of its chain before it. -/
  steps : List Nat
  deriving DecidableEq, Repr

def Place.offset (place : Place) : Nat :=
  place.segmentOffset + place.page * place.pageSize + place.pageStart +
    place.steps.sum

def Place.after (place : Place) (step : Nat) : Place :=
  { place with steps := place.steps ++ [step] }

@[simp]
theorem Place.offset_after (place : Place) (step : Nat) :
    (place.after step).offset = place.offset + step := by
  unfold Place.offset Place.after
  rw [List.sum_append, List.sum_singleton, Nat.add_assoc _ _ step]

namespace MachOView

variable (view : MachOView) (info : LoadInfo) (imports : ImportsTable)

/-! ## Derivations -/

/-- What a chain emits from a place on, in a number of rounds. -/
inductive Chain (format : Nat) :
    Nat → Place → List (Place × RawImport) → Prop
  | cut (place : Place) : Chain format 0 place []
  | last {rounds : Nat} {place : Place} {raw : UInt64} {entry : ChainEntry}
      {founds : List RawImport}
      (encoded : view.readSlotEncoding place.offset = .ok raw)
      (decoded : decodeChain raw format = some entry)
      (bound : view.chainBind info imports place.offset entry [] =
        .ok founds)
      (ends : entry.next = 0) :
      Chain format (rounds + 1) place (founds.map fun found => (place, found))
  | more {rounds : Nat} {place : Place} {raw : UInt64} {entry : ChainEntry}
      {founds : List RawImport} {later : List (Place × RawImport)}
      (encoded : view.readSlotEncoding place.offset = .ok raw)
      (decoded : decodeChain raw format = some entry)
      (bound : view.chainBind info imports place.offset entry [] =
        .ok founds)
      (goesOn : entry.next ≠ 0)
      (fits : place.offset + entry.next < 2 ^ 64)
      (rest : Chain format rounds (place.after entry.next) later) :
      Chain format (rounds + 1) place
        (founds.map (fun found => (place, found)) ++ later)

/-- The header of a `dyld_chained_starts_in_segment`. -/
structure SegmentStarts where
  pageSize : Nat
  format : Nat
  segmentOffset : Nat
  pageCount : Nat
  deriving DecidableEq, Repr

def SegmentStarts.place (starts : SegmentStarts) (page pageStart : Nat) :
    Place where
  segmentOffset := starts.segmentOffset
  pageSize := starts.pageSize
  page := page
  pageStart := pageStart
  steps := []

/-- The start of the chain of a page. -/
def pageStartAt (segStarts page : Nat) : Parse Nat := do
  let table ← Checked.add segStarts 22
  let skipped ← Checked.mul page 2
  Checked.add table skipped >>= view.readU16

/-- What one page emits. -/
inductive Page (starts : SegmentStarts) (segStarts page : Nat) :
    List (Place × RawImport) → Prop
  | none
      (here : view.pageStartAt segStarts page =
        .ok dyldChainedPtrStartNone) :
      Page starts segStarts page []
  | chain {pageStart : Nat} {emitted : List (Place × RawImport)}
      (here : view.pageStartAt segStarts page = .ok pageStart)
      (present : pageStart ≠ dyldChainedPtrStartNone)
      (fits : (starts.place page pageStart).offset < 2 ^ 64)
      (run : view.Chain info imports starts.format maxChainSteps
        (starts.place page pageStart) emitted) :
      Page starts segStarts page emitted

/-- What a number of pages emit. -/
inductive Pages (starts : SegmentStarts) (segStarts : Nat) :
    Nat → Nat → List (Place × RawImport) → Prop
  | done (page : Nat) : Pages starts segStarts 0 page []
  | next {count page : Nat} {emitted later : List (Place × RawImport)}
      (here : view.Page info imports starts segStarts page emitted)
      (rest : Pages starts segStarts count (page + 1) later) :
      Pages starts segStarts (count + 1) page (emitted ++ later)

/-- The fields of the header at a cursor. -/
structure Starts (segStarts : Nat) (starts : SegmentStarts) : Prop where
  pageSize : (Checked.add segStarts 4 >>= view.readU16) =
    .ok starts.pageSize
  format : (Checked.add segStarts 6 >>= view.readU16) = .ok starts.format
  segmentOffset : (Checked.add segStarts 8 >>= view.readU64) =
    .ok starts.segmentOffset
  pageCount : (Checked.add segStarts 20 >>= view.readU16) =
    .ok starts.pageCount
  paged : starts.pageSize ≠ 0

/-- What the chains of one segment emit. -/
def Emits (segStarts : Nat) (emitted : List (Place × RawImport)) : Prop :=
  ∃ starts, view.Starts segStarts starts ∧
    view.Pages info imports starts segStarts starts.pageCount 0 emitted

/-! ## Single steps -/

variable {view info imports} {out next : List RawImport}

theorem pushImport_eq_ok_iff {library name : Text} {slotOff : Nat}
    {authenticated : Bool} :
    view.pushImport library name slotOff authenticated out = .ok next ↔
      ∃ slot, view.slotAddress slotOff = .ok slot ∧
        next = out ++ [⟨library, some (.name name), none, slot.toNat,
          .standard, authenticated⟩] := by
  unfold pushImport
  rw [Checked.bind_eq_ok_iff]
  simp only [Checked.propagate_eq_ok_iff]
  constructor
  · intro given
    obtain ⟨slot, here, same⟩ := given
    exact ⟨slot, here, (Except.ok.inj same).symm⟩
  · intro given
    obtain ⟨slot, here, same⟩ := given
    exact ⟨slot, here, congrArg Except.ok same.symm⟩

/-- A bind only appends. -/
theorem chainBind_eq_map (out : List RawImport) (offset : Nat)
    (entry : ChainEntry) :
    view.chainBind info imports offset entry out =
      (view.chainBind info imports offset entry []).map (out ++ ·) := by
  unfold chainBind
  split
  · cases view.resolve imports entry.ordinal info.dylibs with
    | error fault =>
        rfl
    | ok resolved =>
        obtain ⟨library, found⟩ := resolved
        simp only [Checked.bind_ok]
        cases found.filter (· ≠ tlvBootstrap) with
        | none =>
            exact congrArg Except.ok (List.append_nil out).symm
        | some name =>
            unfold pushImport
            cases view.slotAddress offset <;> rfl
  · exact congrArg Except.ok (List.append_nil out).symm

theorem chainBind_eq_ok_iff {offset : Nat} {entry : ChainEntry} :
    view.chainBind info imports offset entry out = .ok next ↔
      ∃ founds, view.chainBind info imports offset entry [] = .ok founds ∧
        next = out ++ founds := by
  rw [chainBind_eq_map]
  cases view.chainBind info imports offset entry [] with
  | error fault =>
      simp [Except.map]
  | ok founds =>
      simp [Except.map, eq_comm]

theorem chainStep_eq_ok_iff {format offset : Nat}
    {ended : Round (Nat × List RawImport) (List RawImport)} :
    view.chainStep info imports format (offset, out) = .ok ended ↔
      ∃ raw entry founds,
        view.readSlotEncoding offset = .ok raw ∧
        decodeChain raw format = some entry ∧
        view.chainBind info imports offset entry [] = .ok founds ∧
        (entry.next = 0 ∧ ended = .done (out ++ founds) ∨
          entry.next ≠ 0 ∧ offset + entry.next < 2 ^ 64 ∧
            ended = .next (offset + entry.next, out ++ founds)) := by
  unfold chainStep
  simp only [Checked.bind_eq_ok_iff, Checked.propagate_eq_ok_iff,
    Checked.require_eq_ok_iff]
  constructor
  · intro given
    obtain ⟨raw, encoded, entry, decoded, _, pushed, returned⟩ := given
    obtain ⟨founds, bound, rfl⟩ := chainBind_eq_ok_iff.mp pushed
    refine ⟨raw, entry, founds, encoded, decoded, bound, ?_⟩
    split at returned
    · rename_i ends
      exact .inl ⟨ends, (Except.ok.inj returned).symm⟩
    · rename_i goesOn
      obtain ⟨moved, reached, returned⟩ := Checked.eq_ok_of_bind returned
      obtain ⟨movedEq, fits⟩ :=
        eq_of_checkedAdd (Checked.eq_some_of_require reached)
      rw [movedEq] at returned
      exact .inr ⟨goesOn, fits, (Except.ok.inj returned).symm⟩
  · intro given
    obtain ⟨raw, entry, founds, encoded, decoded, bound, returned⟩ := given
    have pushed : view.chainBind info imports offset entry out =
        .ok (out ++ founds) := chainBind_eq_ok_iff.mpr ⟨founds, bound, rfl⟩
    refine ⟨raw, encoded, entry, decoded, out ++ founds, pushed, ?_⟩
    rcases returned with last | more
    · rw [if_pos last.1, last.2]
      rfl
    · obtain ⟨goesOn, fits, rfl⟩ := more
      rw [if_neg goesOn, checkedAdd_eq_some fits]
      rfl

/-! ## The walk follows the derivation -/

/-- The rounds of one page. -/
theorem chainLoop_eq_ok_iff (format rounds : Nat) :
    ∀ (start : Nat) (place : Place) (out : List RawImport),
      forRange (fun _ => view.chainStep info imports format)
          (fun state => pure state.2) rounds start (place.offset, out) =
        .ok next ↔
      ∃ emitted, view.Chain info imports format rounds place emitted ∧
        next = out ++ emitted.map Prod.snd := by
  induction rounds with
  | zero =>
      intro _ place out
      constructor
      · intro returned
        refine ⟨[], .cut place, ?_⟩
        rw [← Except.ok.inj returned, List.map_nil, List.append_nil]
      · intro given
        obtain ⟨_, run, rfl⟩ := given
        cases run
        rw [List.map_nil, List.append_nil]
        rfl
  | succ rounds inductionHypothesis =>
      intro start place out
      have later := fun step =>
        inductionHypothesis (start + 1) (place.after step)
      simp only [Place.offset_after] at later
      rw [forRange_succ_eq_ok_iff]
      simp only [chainStep_eq_ok_iff]
      constructor
      · intro given
        rcases given with last | more
        · obtain ⟨raw, entry, founds, encoded, decoded, bound, how⟩ := last
          rcases how with ended | impossible
          · obtain ⟨ends, same⟩ := ended
            injection same with same
            refine ⟨_, .last encoded decoded bound ends, ?_⟩
            rw [same, List.map_map]
            simp
          · cases impossible.2.2
        · obtain ⟨_, ⟨raw, entry, founds, encoded, decoded, bound, how⟩,
            returned⟩ := more
          rcases how with impossible | going
          · cases impossible.2
          · obtain ⟨goesOn, fits, same⟩ := going
            injection same with same
            subst same
            obtain ⟨emitted, run, rfl⟩ := (later _ _).mp returned
            refine ⟨_, .more encoded decoded bound goesOn fits run, ?_⟩
            simp
      · intro given
        obtain ⟨_, run, rfl⟩ := given
        cases run with
        | last encoded decoded bound ends =>
            refine .inl ⟨_, _, _, encoded, decoded, bound, .inl ⟨ends, ?_⟩⟩
            simp
        | more encoded decoded bound goesOn fits rest =>
            refine .inr ⟨_, ⟨_, _, _, encoded, decoded, bound,
              .inr ⟨goesOn, fits, rfl⟩⟩, ?_⟩
            refine (later _ _).mpr ⟨_, rest, ?_⟩
            simp

theorem pageOffset_eq_some_iff {segmentOffset pages pageStart offset : Nat} :
    pageOffset segmentOffset pages pageStart = some offset ↔
      segmentOffset + pages + pageStart < 2 ^ 64 ∧
        offset = segmentOffset + pages + pageStart := by
  unfold pageOffset
  constructor
  · intro reached
    obtain ⟨page, first, second⟩ := Option.bind_eq_some_iff.mp reached
    have pageEq := eq_of_checkedAdd first
    have offsetEq := eq_of_checkedAdd second
    rw [pageEq.1] at offsetEq
    exact ⟨offsetEq.2, offsetEq.1⟩
  · intro given
    obtain ⟨fits, rfl⟩ := given
    rw [checkedAdd_eq_some (by omega), Option.bind_some,
      checkedAdd_eq_some fits]

theorem walkPage_eq (segStarts pageSize format segmentOffset page : Nat) :
    view.walkPage info imports segStarts pageSize format segmentOffset page
        out =
      (do
        let pageStart ← view.pageStartAt segStarts page
        if pageStart = dyldChainedPtrStartNone then pure out
        else do
          let pages ← Checked.mul page pageSize
          let offset ← Checked.require
            (pageOffset segmentOffset pages pageStart)
            (.malformed "fixup page offset overflow")
          forRange (fun _ => view.chainStep info imports format)
            (fun state => pure state.2) maxChainSteps 0 (offset, out)) := by
  unfold walkPage pageStartAt
  simp only [bind_assoc]

/-- One page. -/
theorem walkPage_eq_ok_iff {starts : SegmentStarts} {segStarts page : Nat} :
    view.walkPage info imports segStarts starts.pageSize starts.format
        starts.segmentOffset page out = .ok next ↔
      ∃ emitted, view.Page info imports starts segStarts page emitted ∧
        next = out ++ emitted.map Prod.snd := by
  have first : ∀ pageStart, (starts.place page pageStart).offset =
      starts.segmentOffset + page * starts.pageSize + pageStart :=
    fun _ => rfl
  rw [walkPage_eq, Checked.bind_eq_ok_iff]
  constructor
  · intro given
    obtain ⟨pageStart, here, returned⟩ := given
    split at returned
    · rename_i none
      refine ⟨[], .none (none ▸ here), ?_⟩
      rw [← Except.ok.inj returned, List.map_nil, List.append_nil]
    · rename_i present
      obtain ⟨_, returned⟩ := Checked.mul_bind_eq_ok_iff.mp returned
      obtain ⟨offset, reached, returned⟩ := Checked.eq_ok_of_bind returned
      obtain ⟨fits, rfl⟩ :=
        pageOffset_eq_some_iff.mp (Checked.eq_some_of_require reached)
      rw [← first] at returned fits
      obtain ⟨emitted, run, same⟩ :=
        (chainLoop_eq_ok_iff _ _ _ _ _).mp returned
      exact ⟨emitted, .chain here present fits run, same⟩
  · intro given
    obtain ⟨emitted, page, same⟩ := given
    cases page with
    | none here =>
        refine ⟨_, here, ?_⟩
        rw [if_pos rfl, same, List.map_nil, List.append_nil]
        rfl
    | chain here present fits run =>
        have returned := (chainLoop_eq_ok_iff _ _ 0 _ out).mpr
          ⟨emitted, run, same⟩
        rw [first] at fits returned
        refine ⟨_, here, ?_⟩
        rw [if_neg present, Checked.mul_bind_eq_ok_iff]
        refine ⟨by omega, ?_⟩
        rw [pageOffset_eq_some_iff.mpr ⟨fits, rfl⟩]
        exact returned

theorem walkPages_eq_ok_iff {starts : SegmentStarts} {segStarts : Nat}
    (count : Nat) :
    ∀ (page : Nat) (out : List RawImport),
      forRange
          (fun page out => do
            let out ← view.walkPage info imports segStarts starts.pageSize
              starts.format starts.segmentOffset page out
            pure (.next out))
          pure count page out = .ok next ↔
        ∃ emitted,
          view.Pages info imports starts segStarts count page emitted ∧
            next = out ++ emitted.map Prod.snd := by
  induction count with
  | zero =>
      intro page out
      constructor
      · intro returned
        refine ⟨[], .done page, ?_⟩
        rw [← Except.ok.inj returned, List.map_nil, List.append_nil]
      · intro given
        obtain ⟨_, pages, rfl⟩ := given
        cases pages
        rw [List.map_nil, List.append_nil]
        rfl
  | succ count inductionHypothesis =>
      intro page out
      rw [forRange_next_succ, Checked.bind_eq_ok_iff]
      constructor
      · intro given
        obtain ⟨_, here, returned⟩ := given
        obtain ⟨emitted, first, rfl⟩ := walkPage_eq_ok_iff.mp here
        obtain ⟨later, rest, rfl⟩ :=
          (inductionHypothesis (page + 1) _).mp returned
        refine ⟨emitted ++ later, .next first rest, ?_⟩
        rw [List.map_append, List.append_assoc]
      · intro given
        obtain ⟨_, pages, same⟩ := given
        cases pages with
        | next here rest =>
            refine ⟨_, walkPage_eq_ok_iff.mpr ⟨_, here, rfl⟩, ?_⟩
            refine (inductionHypothesis (page + 1) _).mpr ⟨_, rest, ?_⟩
            rw [same, List.map_append, List.append_assoc]

/-- The walk of a segment returns what its chains emit. -/
theorem walkSegmentChains_eq_ok_iff {segStarts : Nat} :
    view.walkSegmentChains info imports segStarts out = .ok next ↔
      ∃ emitted, view.Emits info imports segStarts emitted ∧
        next = out ++ emitted.map Prod.snd := by
  unfold walkSegmentChains
  constructor
  · intro returned
    obtain ⟨pageSize, sizeRead, returned⟩ := Checked.eq_ok_of_bind returned
    obtain ⟨format, formatRead, returned⟩ := Checked.eq_ok_of_bind returned
    obtain ⟨offset, offsetRead, returned⟩ := Checked.eq_ok_of_bind returned
    obtain ⟨count, countRead, returned⟩ := Checked.eq_ok_of_bind returned
    obtain ⟨paged, returned⟩ := Checked.ensure_bind_eq_ok_iff.mp returned
    obtain ⟨emitted, pages, same⟩ :=
      (@walkPages_eq_ok_iff view info imports next
        ⟨pageSize, format, offset, count⟩ segStarts count 0 out).mp returned
    exact ⟨emitted, ⟨_, ⟨sizeRead, formatRead, offsetRead, countRead,
      paged⟩, pages⟩, same⟩
  · intro given
    obtain ⟨emitted, ⟨starts, header, pages⟩, same⟩ := given
    have returned := (walkPages_eq_ok_iff _ _ out).mpr ⟨emitted, pages, same⟩
    rw [header.pageSize, Checked.bind_ok, header.format, Checked.bind_ok,
      header.segmentOffset, Checked.bind_ok, header.pageCount,
      Checked.bind_ok, Checked.ensure_bind_eq_ok_iff]
    exact ⟨header.paged, returned⟩

end MachOView

end Hookfs.Plthook.MachO
