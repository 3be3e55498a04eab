import Hookfs.Lib.Keyed
import Hookfs.Plthook.MachOImports

/-!
# The sources of a Mach-O image merge without loss

`merge_complement` finds slots through a hash map of positions.  With the map
describing the list, a merge is `mergeInto` at slots, so the result is the
first import of every slot of both sources, each with the flag that the
complement gives last to its slot.
-/

namespace Hookfs.Plthook.MachO

open Hookfs.Lib Hookfs.Plthook

/-! ## Adopting a flag -/

/-- The existing record, with the flag of the found one. -/
def adoptFlag (existing found : RawImport) : RawImport :=
  { existing with authenticated := found.authenticated }

/-- An import but for its flag. -/
def unflagged (found : RawImport) : RawImport :=
  { found with authenticated := false }

theorem adoption_flag : Adoption RawImport.slot adoptFlag where
  keeps _ _ := rfl
  self _ := rfl
  last _ _ _ := rfl

/-- What the complement makes of an import. -/
def refineFlag (complement : List RawImport) (found : RawImport) :
    RawImport :=
  refineBy RawImport.slot adoptFlag complement found

theorem unflagged_refineFlag (complement : List RawImport)
    (found : RawImport) :
    unflagged (refineFlag complement found) = unflagged found := by
  unfold refineFlag refineBy
  split
  · rfl
  · rfl

theorem slot_refineFlag (complement : List RawImport) (found : RawImport) :
    (refineFlag complement found).slot = found.slot :=
  key_refineBy adoption_flag complement found

theorem authenticated_refineFlag {complement : List RawImport}
    {found last : RawImport}
    (merged : lastBy RawImport.slot complement found.slot = some last) :
    (refineFlag complement found).authenticated = last.authenticated := by
  unfold refineFlag refineBy
  rw [merged]
  rfl

/-! ## The map of positions -/

/-- The map gives the position of the first import of every slot. -/
def Indexed (state : Store Nat Nat × List RawImport) : Prop :=
  ∀ slot, state.1.lookup slot = indexBy RawImport.slot state.2 slot

theorem lookup_slotToIndex_foldl (slot : Nat) :
    ∀ (imports : List RawImport) (first : Nat) (store : Store Nat Nat),
      ((imports.zipIdx first).foldl
          (fun store item =>
            match store.lookup item.1.slot with
            | some _ => store
            | none => store.insert item.1.slot item.2)
          store).lookup slot =
        (store.lookup slot).or
          ((indexBy RawImport.slot imports slot).map (· + first))
  | [], _, store => by
      exact (Option.or_none).symm
  | head :: rest, first, store => by
      rw [List.zipIdx_cons, List.foldl_cons,
        lookup_slotToIndex_foldl slot rest (first + 1)]
      have index : indexBy RawImport.slot (head :: rest) slot =
          if head.slot = slot then some 0
          else (indexBy RawImport.slot rest slot).map (· + 1) := by
        unfold indexBy
        rw [List.findIdx?_cons]
        by_cases same : head.slot = slot
        · simp [same]
        · simp [same]
      rw [index]
      by_cases same : head.slot = slot
      · subst same
        cases known : store.lookup head.slot with
        | none =>
            simp
        | some position =>
            simp [known]
      · have shifted : ((indexBy RawImport.slot rest slot).map (· + 1)).map
            (· + first) =
              (indexBy RawImport.slot rest slot).map (· + (first + 1)) := by
          rw [Option.map_map]
          congr 1
          funext position
          exact Nat.add_right_comm position 1 first
        rw [if_neg same, shifted]
        cases known : store.lookup head.slot with
        | none =>
            simp only [AList.lookup_insert_ne (Ne.symm same)]
        | some position =>
            rfl

theorem indexed_slotToIndex (imports : List RawImport) :
    Indexed (slotToIndex imports, imports) := by
  intro slot
  have described := lookup_slotToIndex_foldl slot imports 0 ∅
  rw [AList.lookup_empty, Option.none_or] at described
  exact described.trans Option.map_id'

/-- One import of the complement is merged in at its slot, and the map goes on
describing the list. -/
theorem indexed_mergeOne {state : Store Nat Nat × List RawImport}
    (indexed : Indexed state) (found : RawImport) :
    Indexed (mergeOne state found) ∧
      (mergeOne state found).2 =
        mergeInto RawImport.slot adoptFlag state.2 found := by
  unfold mergeOne
  have known := indexed found.slot
  cases located : state.1.lookup found.slot with
  | some position =>
      rw [located] at known
      have merged := mergeInto_eq_modify RawImport.slot adoptFlag known.symm
      have present : found.slot ∈ state.2.map RawImport.slot := by
        by_contra absent
        rw [(indexBy_eq_none_iff RawImport.slot).mpr absent] at known
        cases known
      refine ⟨?_, merged.symm⟩
      intro slot
      have keys := map_mergeInto_of_mem adoption_flag present
      rw [merged] at keys
      calc
        state.1.lookup slot
            = indexBy RawImport.slot state.2 slot := indexed slot
        _ = indexBy RawImport.slot (state.2.modify position fun existing =>
              adoptFlag existing found) slot := by
            rw [indexBy_eq_findIdx?, indexBy_eq_findIdx?, keys]
  | none =>
      rw [located] at known
      have fresh := (indexBy_eq_none_iff RawImport.slot).mp known.symm
      refine ⟨?_, (mergeInto_of_not_mem RawImport.slot adoptFlag fresh).symm⟩
      intro slot
      change (state.1.insert found.slot state.2.length).lookup slot =
        indexBy RawImport.slot (state.2 ++ [found]) slot
      rw [indexBy_concat, ← indexed slot]
      by_cases same : found.slot = slot
      · subst same
        rw [AList.lookup_insert, located, if_pos rfl, Option.none_or]
      · rw [AList.lookup_insert_ne (Ne.symm same), if_neg same,
          Option.or_none]

theorem mergeComplement_eq (out complement : List RawImport) :
    mergeComplement out complement =
      complement.foldl (mergeInto RawImport.slot adoptFlag) out := by
  have run : ∀ (merged : List RawImport)
      (state : Store Nat Nat × List RawImport), Indexed state →
        (merged.foldl mergeOne state).2 =
          merged.foldl (mergeInto RawImport.slot adoptFlag) state.2 := by
    intro merged
    induction merged with
    | nil =>
        intro state _
        rfl
    | cons found rest inductionHypothesis =>
        intro state indexed
        obtain ⟨later, step⟩ := indexed_mergeOne indexed found
        rw [List.foldl_cons, List.foldl_cons, inductionHypothesis _ later,
          step]
  exact run complement _ (indexed_slotToIndex out)

/-! ## One import for each slot -/

theorem retainFirst_eq (seen : List Nat) (imports : List RawImport) :
    retainFirst seen imports =
      (firstBy RawImport.slot imports).filter fun found =>
        found.slot ∉ seen := by
  induction imports generalizing seen with
  | nil =>
      rfl
  | cons head rest inductionHypothesis =>
      rw [retainFirst, firstBy, List.filter_cons]
      by_cases known : head.slot ∈ seen
      · rw [if_pos known, inductionHypothesis, List.filter_filter,
          if_neg (by simpa using known)]
        apply List.filter_congr
        intro found _
        by_cases same : found.slot = head.slot
        · simp [same, known]
        · simp [same]
      · rw [if_neg known, inductionHypothesis, List.filter_filter,
          if_pos (by simpa using known)]
        congr 1
        apply List.filter_congr
        intro found _
        simp [Bool.and_comm]

theorem retainFirst_nil (imports : List RawImport) :
    retainFirst [] imports = firstBy RawImport.slot imports := by
  rw [retainFirst_eq]
  apply List.filter_eq_self.mpr
  intro found _
  simp

/-- The result of merging two sources, without the hash map and the pass
that removes repeated slots. -/
theorem retainFirst_mergeComplement (out complement : List RawImport) :
    retainFirst [] (mergeComplement out complement) =
      (firstBy RawImport.slot (out ++ complement)).map
        (refineFlag complement) := by
  rw [retainFirst_nil, mergeComplement_eq]
  exact firstBy_foldl_mergeInto adoption_flag out complement

namespace MachOView

/-- The parts a successful parse is made of. -/
theorem exists_of_parseImports {view : MachOView} {result : List RawImport}
    (returned : view.parseImports = .ok result) :
    ∃ info primary outcome,
      view.readLoadCommands = .ok info ∧
        view.parseIndirect info = .ok primary ∧
        Checked.attempt (view.parseComplement info) = .ok outcome ∧
        result = retainFirst [] (adoptComplement primary outcome) := by
  unfold parseImports at returned
  obtain ⟨_, _, returned⟩ := Checked.eq_ok_of_bind returned
  obtain ⟨info, loaded, returned⟩ := Checked.eq_ok_of_bind returned
  obtain ⟨primary, indirect, returned⟩ := Checked.eq_ok_of_bind returned
  obtain ⟨outcome, attempted, returned⟩ := Checked.eq_ok_of_bind returned
  injection returned with same
  exact ⟨info, primary, outcome, loaded, indirect, attempted, same.symm⟩

end MachOView

/-- What merging promises of its result. -/
structure Merged (primary : List RawImport)
    (complement : Parse (List RawImport)) (result : List RawImport) :
    Prop where
  distinct : (result.map RawImport.slot).Nodup
  primaryFirst : (firstBy RawImport.slot primary).map unflagged <+:
    result.map unflagged
  union : ∀ found, complement = .ok found → ∀ slot,
    slot ∈ result.map RawImport.slot ↔
      slot ∈ primary.map RawImport.slot ∨ slot ∈ found.map RawImport.slot
  flags : ∀ found, complement = .ok found → ∀ kept ∈ result, ∀ last,
    lastBy RawImport.slot found kept.slot = some last →
      kept.authenticated = last.authenticated
  primaryOnly : ∀ fault, complement = .error fault →
    result = firstBy RawImport.slot primary

theorem merged_of_complement (primary complement : List RawImport) :
    Merged primary (.ok complement)
      ((firstBy RawImport.slot (primary ++ complement)).map
        (refineFlag complement)) := by
  have slots : ((firstBy RawImport.slot (primary ++ complement)).map
      (refineFlag complement)).map RawImport.slot =
        (firstBy RawImport.slot (primary ++ complement)).map
          RawImport.slot := by
    rw [List.map_map]
    congr 1
    funext found
    exact slot_refineFlag complement found
  constructor
  · rw [slots]
    exact nodup_map_firstBy _ _
  · rw [List.map_map]
    have bare : unflagged ∘ refineFlag complement = unflagged := by
      funext found
      exact unflagged_refineFlag complement found
    rw [bare]
    exact (firstBy_prefix_append _ primary complement).map unflagged
  · intro found same slot
    injection same with same
    rw [slots, mem_map_firstBy, List.map_append, List.mem_append, same]
  · intro found same kept member last merged
    injection same with same
    obtain ⟨old, _, rfl⟩ := List.mem_map.mp member
    rw [slot_refineFlag, ← same] at merged
    exact authenticated_refineFlag merged
  · intro fault same
    cases same

theorem merged_of_fault (primary : List RawImport) (error : ParseError) :
    Merged primary (.error (.error error))
      (firstBy RawImport.slot primary) where
  distinct := nodup_map_firstBy _ _
  primaryFirst := List.prefix_rfl
  union _ same := by
    cases same
  flags _ same := by
    cases same
  primaryOnly _ _ := rfl

namespace MachOView

/-- Whenever the parse returns, its slots are distinct; the slots of the
indirect symbol table come first, in order of first occurrence and with their
records; a complement that parses adds exactly its slots and gives the flags
of the slots it has; one that does not parse changes nothing. -/
theorem parseImports_merged (view : MachOView) (result : List RawImport)
    (returned : view.parseImports = .ok result) :
    ∃ info primary,
      view.readLoadCommands = .ok info ∧
        view.parseIndirect info = .ok primary ∧
        Merged primary (view.parseComplement info) result := by
  obtain ⟨info, primary, outcome, loaded, indirect, attempted, rfl⟩ :=
    exists_of_parseImports returned
  refine ⟨info, primary, loaded, indirect, ?_⟩
  have complement := Checked.attempt_eq_ok_iff.mp attempted
  rw [complement]
  cases outcome with
  | ok found =>
      change Merged primary (.ok found)
        (retainFirst [] (mergeComplement primary found))
      rw [retainFirst_mergeComplement]
      exact merged_of_complement primary found
  | error error =>
      change Merged primary (.error (.error error)) (retainFirst [] primary)
      rw [retainFirst_nil]
      exact merged_of_fault primary error

end MachOView

/-- An arm64e image with the symbol `f` in one symbol-pointer slot at 512, in
a segment that is mapped at 4096, and a bind stream. -/
def pointerImage (stream : List UInt8) : FileView where
  bytes :=
    [mhMagic64, cpuTypeArm64, cpuSubtypeArm64e, 6, 4, 304, 0, 0,
      -- the segment and its section
      0x19, 152, 0, 0, 0, 0, 4096, 0, 4096, 0, 0, 0, 4096, 0, 0, 0, 1, 0,
      0, 0, 0, 0, 0, 0, 0, 0, 4608, 0, 8, 0, 512, 0, 0, 0, 7, 0, 0, 0,
      -- both symbol tables, then the bind streams
      0x2, 24, 340, 1, 356, 3,
      0xb, 80, 0, 0, 0, 0, 0, 0, 0, 0, 0, 0, 0, 0, 336, 1, 0, 0, 0, 0,
      0x80000022, 48, 0, 0, 359, stream.length, 0, 0, 0, 0, 0, 0,
      -- the indirect symbol, its `nlist`, and its name
      0, 0, 0x01000001, 0, 0].flatMap (toLittleEndian 4) ++
      [0x5f, 0x66, 0] ++ stream
  base := 0
  segments := [⟨4096, 4096, 0, 4096⟩]
  cpuType := cpuTypeArm64
  cpuSubtype := cpuSubtypeArm64e

/-- `f` in the first segment from offset 512 on, twice. -/
def bindTwice : List UInt8 :=
  [0x40, 0x5f, 0x66, 0, 0x70, 0x80, 0x04, 0x90, 0x90]

theorem parseImports_merged_two_slots :
    ∃ info primary,
      (pointerImage bindTwice).toView.readLoadCommands = .ok info ∧
        (pointerImage bindTwice).toView.parseIndirect info = .ok primary ∧
        Merged primary
          ((pointerImage bindTwice).toView.parseComplement info)
          [⟨[], some (.name ['f']), none, 4608, .standard, false⟩,
            ⟨[], some (.name ['f']), none, 4616, .standard, false⟩] :=
  MachOView.parseImports_merged _ _ (by decide +kernel)

end Hookfs.Plthook.MachO
