import Hookfs.Plthook.ElfMeaning

/-!
# The ELF walker is exact

Whenever the walk over a view returns, it returns the imports of the image:
each of its loops is a scan, a chain or a join of what its entries mean.
-/

namespace Hookfs.Plthook.Elf

open Hookfs.Lib Hookfs.Posix Hookfs.Plthook

namespace ElfView

variable {view : ElfView}

/-! ## What a read returns -/

theorem readUint_eq {width cursor value : Nat}
    (returned : view.readUint width cursor = .ok value) :
    view.Word width cursor value := by
  unfold readUint at returned
  obtain ⟨bytes, read, returned⟩ := Checked.eq_ok_of_bind returned
  exact ⟨bytes, read, (Except.ok.inj returned).symm⟩

/-- Reading a field of a record at a cursor. -/
theorem field_eq {width cursor offset value : Nat}
    (returned : Checked.add cursor offset >>= view.readUint width =
      .ok value) : view.Word width (cursor + offset) value := by
  obtain ⟨sum, added, returned⟩ := Checked.eq_ok_of_bind returned
  rw [← Checked.eq_of_add added]
  exact readUint_eq returned

theorem readI64_eq {cursor : Nat} {tag : Int}
    (returned : view.readI64 cursor = .ok tag) : view.Tag cursor tag := by
  unfold readI64 at returned
  obtain ⟨value, read, returned⟩ := Checked.eq_ok_of_bind returned
  exact ⟨value, readUint_eq read, (Except.ok.inj returned).symm⟩

/-- A buffer of one byte holds the byte at its first index. -/
theorem read_one_eq {cursor : Nat} {bytes : List UInt8} {byte : UInt8}
    (read : view.read cursor 1 = .ok bytes)
    (first : (Checked.index bytes 0 : Parse UInt8) = .ok byte) :
    view.read cursor 1 = .ok [byte] := by
  obtain ⟨only, rfl⟩ := List.length_eq_one_iff.mp
    (view.length_read cursor 1 bytes read)
  have here := Checked.eq_some_of_index first
  rw [read, ← Option.some.inj here]

/-- A round of the string loop reads one byte. -/
theorem readStr_round {strtab offset position : Nat} {bytes : List UInt8}
    {ended : Round (List UInt8) Text}
    (returned : (do
      let start ← Checked.add strtab offset
      let cursor ← Checked.add start position
      let read ← view.read cursor 1
      let byte ← Checked.index read 0
      pure (if byte = 0 then .done (fromUtf8Lossy bytes)
        else .next (bytes ++ [byte])) : Parse (Round (List UInt8) Text)) =
      .ok ended) :
    ∃ byte, view.read (strtab + offset + position) 1 = .ok [byte] ∧
      (if byte = 0 then .done (fromUtf8Lossy bytes)
        else .next (bytes ++ [byte])) = ended := by
  obtain ⟨start, begun, returned⟩ := Checked.eq_ok_of_bind returned
  obtain ⟨cursor, moved, returned⟩ := Checked.eq_ok_of_bind returned
  obtain ⟨buffer, read, returned⟩ := Checked.eq_ok_of_bind returned
  obtain ⟨byte, first, returned⟩ := Checked.eq_ok_of_bind returned
  have here := read_one_eq read first
  rw [Checked.eq_of_add moved, Checked.eq_of_add begun] at here
  exact ⟨byte, here, Except.ok.inj returned⟩

/-- The string loop, from the byte it has come to. -/
theorem readStr_loop {strtab offset : Nat} {text : Text} :
    ∀ (rounds position : Nat) (bytes : List UInt8),
      forRange
        (fun position bytes => do
          let start ← Checked.add strtab offset
          let cursor ← Checked.add start position
          let read ← view.read cursor 1
          let byte ← Checked.index read 0
          pure (if byte = 0 then .done (fromUtf8Lossy bytes)
            else .next (bytes ++ [byte])))
        (fun _ => malformed "unterminated string-table entry")
        rounds position bytes = .ok text →
      ∃ rest, view.BytesAt (strtab + offset + position) rest ∧
        rest.length < rounds ∧ text = fromUtf8Lossy (bytes ++ rest) := by
  intro rounds
  induction rounds with
  | zero =>
      intro position bytes returned
      cases returned
  | succ rounds inductionHypothesis =>
      intro position bytes returned
      rcases forRange_succ_eq_ok_iff.mp returned with ended | goesOn
      · obtain ⟨byte, here, outcome⟩ := readStr_round ended
        split at outcome
        · rename_i nul
          rw [nul] at here
          refine ⟨[], BytesAt.nul here, Nat.zero_lt_succ rounds, ?_⟩
          rw [List.append_nil, Round.done.inj outcome]
        · cases outcome
      · obtain ⟨state, ended, returned⟩ := goesOn
        obtain ⟨byte, here, outcome⟩ := readStr_round ended
        split at outcome
        · cases outcome
        · rename_i solid
          rw [← Round.next.inj outcome] at returned
          obtain ⟨rest, later, short, rfl⟩ :=
            inductionHypothesis (position + 1) _ returned
          refine ⟨byte :: rest, BytesAt.more here solid later,
            Nat.succ_lt_succ short, ?_⟩
          rw [List.append_assoc]
          rfl

theorem readStr_eq {strtab strsz offset : Nat} {text : Text}
    (returned : view.readStr strtab strsz offset = .ok text) :
    view.StringAt strtab strsz offset text := by
  unfold readStr at returned
  obtain ⟨_, _, returned⟩ := Checked.eq_ok_of_bind returned
  obtain ⟨bytes, here, short, rfl⟩ := readStr_loop _ 0 [] returned
  refine ⟨bytes, here, ?_, by rw [List.nil_append]⟩
  omega

end ElfView

/-! ## What the walks return -/

theorem lastValue_concat (entries : List (Int × Nat)) (tag : Int)
    (value : Nat) (wanted : Int) :
    lastValue (entries ++ [(tag, value)]) wanted =
      if tag = wanted then some value else lastValue entries wanted := by
  unfold lastValue
  rw [lastBy_concat]
  split
  · rfl
  · rfl

theorem DynamicInfo.ofEntries_concat (entries : List (Int × Nat)) (tag : Int)
    (value : Nat) :
    DynamicInfo.ofEntries (entries ++ [(tag, value)]) =
      (DynamicInfo.ofEntries entries).record tag value := by
  symm
  unfold DynamicInfo.record
  -- one case for every tag that is kept, and one for all others
  repeat' (apply ite_eq_iff'.mpr; constructor <;> intro decided)
  all_goals simp [DynamicInfo.ofEntries, lastValue_concat, *]

/-- Recording the entries one by one keeps the last one of every tag. -/
theorem DynamicInfo.foldl_record (entries : List (Int × Nat)) :
    entries.foldl (fun info entry => info.record entry.1 entry.2) default =
      DynamicInfo.ofEntries entries := by
  induction entries using List.reverseRecOn with
  | nil =>
      rfl
  | append_singleton rest entry inductionHypothesis =>
      rw [List.foldl_append, inductionHypothesis]
      exact (DynamicInfo.ofEntries_concat rest entry.1 entry.2).symm

/-- What the version loop does with a record. -/
def VersionNeed.enter (map : Module.VersionMap) (need : VersionNeed) :
    Module.VersionMap :=
  map.insert need.index (need.version, need.soname)

/-- The map of all records has the last record of every index. -/
theorem lookup_foldl_enter (needs : List VersionNeed) (index : Nat) :
    (needs.foldl VersionNeed.enter ∅).lookup index =
      (lastBy VersionNeed.index needs index).map fun need =>
        (need.version, need.soname) := by
  induction needs using List.reverseRecOn with
  | nil =>
      rfl
  | append_singleton rest need inductionHypothesis =>
      rw [List.foldl_append, lastBy_concat]
      change ((rest.foldl VersionNeed.enter ∅).insert need.index
        (need.version, need.soname)).lookup index = _
      by_cases same : need.index = index
      · rw [if_pos same, same]
        exact AList.lookup_insert _
      · rw [if_neg same, AList.lookup_insert_ne (Ne.symm same)]
        exact inductionHypothesis

namespace ElfView

variable {view : ElfView}

theorem readDynamic_eq {info : DynamicInfo}
    (returned : view.readDynamic = .ok info) :
    ∃ entries, view.DynamicEntries entries ∧
      info = DynamicInfo.ofEntries entries := by
  unfold readDynamic at returned
  have walked : ∃ entries, view.DynamicEntries entries ∧
      info = entries.foldl
        (fun info entry => info.record entry.1 entry.2) default := by
    apply scanned_of_forRange (absorbs_foldl _) _
      (fun _ => malformed_ne_ok _) returned
    intro position found ended result
    obtain ⟨offset, scaled, result⟩ := Checked.eq_ok_of_bind result
    obtain ⟨cursor, moved, result⟩ := Checked.eq_ok_of_bind result
    obtain ⟨tag, read, result⟩ := Checked.eq_ok_of_bind result
    have tagAt := readI64_eq read
    have place : cursor = view.dynamicCursor + position * dynSize := by
      rw [Checked.eq_of_add moved, Checked.eq_of_mul scaled]
    rw [place] at tagAt
    split at result
    · rename_i null
      rw [← Except.ok.inj result]
      rw [null] at tagAt
      exact ⟨tagAt, rfl⟩
    · rename_i filled
      obtain ⟨valueAt, behind, result⟩ := Checked.eq_ok_of_bind result
      obtain ⟨value, valued, result⟩ := Checked.eq_ok_of_bind result
      have valueWord := readUint_eq valued
      rw [Checked.eq_of_add behind, place] at valueWord
      rw [← Except.ok.inj result]
      exact ⟨fun null => filled (tagAt.unique null), [(tag, value)],
        ⟨tag, value, tagAt, valueWord, rfl⟩, rfl⟩
  obtain ⟨entries, listed, split⟩ := walked
  exact ⟨entries, listed, split.trans (DynamicInfo.foldl_record entries)⟩

theorem vernauxLoop_eq {strtab strsz count aux : Nat} {soname : Text}
    {map versions : Module.VersionMap}
    (returned : view.vernauxLoop strtab strsz count soname aux map =
      .ok versions) :
    ∃ needs, Chain (view.Vernaux strtab strsz soname) (min count maxVernaux)
        aux needs ∧
      versions = needs.foldl VersionNeed.enter map := by
  unfold vernauxLoop at returned
  apply chain_of_forRange (absorbs_foldl VersionNeed.enter) _ _ 0 aux map
    versions returned
  intro position cursor found ended result
  obtain ⟨other, masked, result⟩ := Checked.eq_ok_of_bind result
  obtain ⟨name, named, result⟩ := Checked.eq_ok_of_bind result
  obtain ⟨next, linked, result⟩ := Checked.eq_ok_of_bind result
  obtain ⟨version, text, result⟩ := Checked.eq_ok_of_bind result
  have here : view.Vernaux strtab strsz soname cursor next
      [⟨other &&& versymVersionMask, version, soname⟩] :=
    ⟨other, name, version, field_eq masked, field_eq named,
      field_eq linked, readStr_eq text, rfl⟩
  simp only at result
  split at result
  · rename_i last
    rw [← Except.ok.inj result]
    rw [last] at here
    exact ⟨_, here, rfl⟩
  · rename_i goesOn
    obtain ⟨following, moved, result⟩ := Checked.eq_ok_of_bind result
    rw [← Except.ok.inj result, Checked.eq_of_add moved]
    exact ⟨next, _, goesOn, here, rfl⟩

theorem buildVersionMap_eq {dynamic : DynamicInfo} {strtab strsz : Nat}
    {versions : Module.VersionMap}
    (returned : view.buildVersionMap dynamic strtab strsz = .ok versions) :
    ∃ needs, view.Needs dynamic strtab strsz needs ∧
      versions = needs.foldl VersionNeed.enter ∅ := by
  unfold buildVersionMap at returned
  cases declared : dynamic.verneed with
  | none =>
      rw [declared] at returned
      exact ⟨[], Needs.absent declared, (Except.ok.inj returned).symm⟩
  | some pointer =>
      rw [declared] at returned
      obtain ⟨first, starts, returned⟩ := Checked.eq_ok_of_bind returned
      have walked : ∃ needs, Chain (view.Verneed strtab strsz)
          (min (dynamic.verneednum.getD maxVerneed) maxVerneed) first
          needs ∧ versions = needs.foldl VersionNeed.enter ∅ := by
        apply chain_of_forRange (absorbs_foldl VersionNeed.enter) _ _ 0
          first ∅ versions returned
        intro position cursor found ended result
        obtain ⟨count, counted, result⟩ := Checked.eq_ok_of_bind result
        obtain ⟨file, filed, result⟩ := Checked.eq_ok_of_bind result
        obtain ⟨aux, auxed, result⟩ := Checked.eq_ok_of_bind result
        obtain ⟨next, linked, result⟩ := Checked.eq_ok_of_bind result
        obtain ⟨soname, text, result⟩ := Checked.eq_ok_of_bind result
        obtain ⟨auxCursor, started, result⟩ := Checked.eq_ok_of_bind result
        obtain ⟨map, looped, result⟩ := Checked.eq_ok_of_bind result
        obtain ⟨part, chain, rfl⟩ := vernauxLoop_eq looped
        rw [Checked.eq_of_add started] at chain
        have here : view.Verneed strtab strsz cursor next part :=
          ⟨count, file, aux, soname, field_eq counted, field_eq filed,
            field_eq auxed, field_eq linked, readStr_eq text, chain⟩
        split at result
        · rename_i last
          rw [← Except.ok.inj result]
          rw [last] at here
          exact ⟨part, here, rfl⟩
        · rename_i goesOn
          obtain ⟨following, moved, result⟩ := Checked.eq_ok_of_bind result
          rw [← Except.ok.inj result, Checked.eq_of_add moved]
          exact ⟨next, part, goesOn, here, rfl⟩
      obtain ⟨needs, chain, split⟩ := walked
      exact ⟨needs, Needs.present declared starts chain, split⟩

end ElfView

/-- The tables as the walk holds them. -/
def Layout.tables (layout : Layout) : Module.Tables where
  versymCursor := layout.versym
  symtab := layout.symtab
  strtab := layout.strtab
  strsz := layout.strsz
  versions := layout.needs.foldl VersionNeed.enter ∅

namespace ElfView

variable {view : ElfView}

theorem versionOf_eq {layout : Layout} {symIndex : Nat}
    {found : Option Text × Text}
    (returned : view.versionOf layout.tables.versions
      layout.tables.versymCursor symIndex = .ok found) :
    view.VersionAt layout symIndex found := by
  have looked : ∀ index,
      layout.tables.versions.lookup index =
        (lastBy VersionNeed.index layout.needs index).map fun need =>
          (need.version, need.soname) :=
    lookup_foldl_enter layout.needs
  unfold versionOf at returned
  cases versym : layout.tables.versymCursor with
  | none =>
      rw [versym] at returned
      rw [← Except.ok.inj returned]
      exact VersionAt.unversioned versym
  | some table =>
      rw [versym] at returned
      obtain ⟨offset, scaled, returned⟩ := Checked.eq_ok_of_bind returned
      obtain ⟨raw, read, returned⟩ := Checked.eq_ok_of_bind returned
      have here : view.Word 2 (table + offset) raw := field_eq read
      rw [Checked.eq_of_mul scaled] at here
      simp only at returned
      split at returned
      · rename_i low
        rw [← Except.ok.inj returned]
        exact VersionAt.unnamed versym here low
      · rename_i high
        have provided : found =
            provider layout.needs (raw &&& versymVersionMask) := by
          rw [looked] at returned
          unfold provider
          cases last : lastBy VersionNeed.index layout.needs
              (raw &&& versymVersionMask) with
          | none =>
              rw [last] at returned
              exact (Except.ok.inj returned).symm
          | some need =>
              rw [last] at returned
              exact (Except.ok.inj returned).symm
        rw [provided]
        exact VersionAt.named versym here (Nat.lt_of_not_le high)

/-- One entry of a relocation table takes up what the entry means. -/
theorem relaEntry_eq {layout : Layout}
    {table entsize wantType position : Nat} {out : List RawImport}
    {ended : Round (List RawImport) (List RawImport)}
    (returned : view.relaEntry layout.tables table entsize wantType position
      out = .ok ended) :
    JoinRound
      (fun position =>
        view.RelaPart layout wantType (table + position * entsize))
      (fun found items => found ++ items) position out ended := by
  unfold relaEntry at returned
  obtain ⟨offset, scaled, returned⟩ := Checked.eq_ok_of_bind returned
  obtain ⟨entry, moved, returned⟩ := Checked.eq_ok_of_bind returned
  obtain ⟨rOffset, placed, returned⟩ := Checked.eq_ok_of_bind returned
  obtain ⟨rInfo, kinded, returned⟩ := Checked.eq_ok_of_bind returned
  have place : view.Word 8 entry rOffset := readUint_eq placed
  have kind : view.Word 8 (entry + 8) rInfo := field_eq kinded
  rw [Checked.eq_of_add moved, Checked.eq_of_mul scaled] at place kind
  split at returned
  · rename_i unwanted
    rw [← Except.ok.inj returned]
    exact ⟨[], RelaPart.other kind unwanted, (List.append_nil out).symm⟩
  · rename_i wanted
    have wanted := not_not.mp wanted
    simp only at returned
    obtain ⟨_, _, returned⟩ := Checked.eq_ok_of_bind returned
    obtain ⟨symOffset, symScaled, returned⟩ := Checked.eq_ok_of_bind returned
    obtain ⟨stName, named, returned⟩ := Checked.eq_ok_of_bind returned
    have symbol : view.Word 4 (layout.symtab + symOffset) stName :=
      field_eq named
    rw [Checked.eq_of_mul symScaled] at symbol
    split at returned
    · rename_i zero
      rw [zero] at symbol
      rw [← Except.ok.inj returned]
      exact ⟨[], RelaPart.unnamed kind wanted symbol,
        (List.append_nil out).symm⟩
    · rename_i nonzero
      obtain ⟨name, called, returned⟩ := Checked.eq_ok_of_bind returned
      obtain ⟨⟨version, library⟩, versioned, returned⟩ :=
        Checked.eq_ok_of_bind returned
      obtain ⟨slot, target, returned⟩ := Checked.eq_ok_of_bind returned
      rw [← Except.ok.inj returned]
      exact ⟨_, RelaPart.named kind wanted symbol nonzero (readStr_eq called)
        (versionOf_eq versioned) place target, rfl⟩

theorem walkRela_eq {layout : Layout}
    {table tableSize entsize wantType : Nat} {out value : List RawImport}
    (returned : view.walkRela layout.tables table tableSize entsize wantType
      out = .ok value) :
    ∃ whole, view.RelaTable layout wantType table tableSize entsize whole ∧
      value = out ++ whole := by
  unfold walkRela at returned
  obtain ⟨_, sized, returned⟩ := Checked.eq_ok_of_bind returned
  obtain ⟨_, few, returned⟩ := Checked.eq_ok_of_bind returned
  obtain ⟨whole, joined, split⟩ := joined_of_forRange absorbs_append
    (fun _ _ _ ended => relaEntry_eq ended) _ 0 out value returned
  exact ⟨whole, ⟨Checked.of_ensure sized, Checked.of_ensure few, joined⟩,
    split⟩

/-- A relocation table above the cap is an error. -/
theorem walkRela_above_cap {entsize tableSize : Nat} (sized : entsize ≠ 0)
    (above : maxRelocs < tableSize / entsize) (view : ElfView)
    (tables : Module.Tables) (table wantType : Nat)
    (out : List RawImport) :
    view.walkRela tables table tableSize entsize wantType out =
      malformed "relocation table exceeds sanity cap" := by
  unfold walkRela Checked.ensure
  rw [if_pos sized, if_neg (Nat.not_le_of_lt above)]
  rfl

theorem versymTable_eq {dynamic : DynamicInfo} {found : Option Nat}
    (returned : view.versymTable dynamic = .ok found) :
    view.TableAt dynamic.versym found := by
  unfold versymTable at returned
  cases declared : dynamic.versym with
  | none =>
      rw [declared] at returned
      rw [← Except.ok.inj returned]
      exact TableAt.absent rfl
  | some pointer =>
      rw [declared] at returned
      obtain ⟨cursor, starts, returned⟩ := Checked.eq_ok_of_bind returned
      rw [← Except.ok.inj returned]
      exact TableAt.present rfl starts

theorem openTables_eq {kinds : RelocKinds} {dynamic : DynamicInfo}
    {tables : Module.Tables}
    (returned : view.openTables = .ok (kinds, dynamic, tables)) :
    relocKinds view.machine = some kinds ∧
      ∃ layout, view.LaidOut layout ∧ dynamic = layout.dynamic ∧
        tables = layout.tables := by
  unfold openTables at returned
  obtain ⟨_, machine, returned⟩ := Checked.eq_ok_of_bind returned
  obtain ⟨info, read, returned⟩ := Checked.eq_ok_of_bind returned
  obtain ⟨_, _, returned⟩ := Checked.eq_ok_of_bind returned
  obtain ⟨symtabPtr, symtabAt, returned⟩ := Checked.eq_ok_of_bind returned
  obtain ⟨strtabPtr, strtabAt, returned⟩ := Checked.eq_ok_of_bind returned
  obtain ⟨strsz, strszAt, returned⟩ := Checked.eq_ok_of_bind returned
  obtain ⟨symtab, symtabStarts, returned⟩ := Checked.eq_ok_of_bind returned
  obtain ⟨strtab, strtabStarts, returned⟩ := Checked.eq_ok_of_bind returned
  obtain ⟨versions, built, returned⟩ := Checked.eq_ok_of_bind returned
  obtain ⟨versym, versymAt, returned⟩ := Checked.eq_ok_of_bind returned
  obtain ⟨entries, listed, infoEq⟩ := readDynamic_eq read
  obtain ⟨needs, chained, rfl⟩ := buildVersionMap_eq built
  have same := Except.ok.inj returned
  simp only [Prod.mk.injEq] at same
  obtain ⟨rfl, rfl, rfl⟩ := same
  refine ⟨Checked.eq_some_of_require machine,
    ⟨info, versym, symtab, strtab, strsz, needs⟩, ?_, rfl, rfl⟩
  exact {
    dynamic := ⟨entries, listed, infoEq⟩
    symtab := TableAt.present (Checked.eq_some_of_require symtabAt)
      symtabStarts
    strtab := TableAt.present (Checked.eq_some_of_require strtabAt)
      strtabStarts
    strsz := Checked.eq_some_of_require strszAt
    versym := versymTable_eq versymAt
    needs := chained }

theorem walkPlt_eq {layout : Layout} {jumpSlot : Nat}
    {value : List RawImport}
    (returned : view.walkPlt layout.dynamic layout.tables jumpSlot =
      .ok value) : view.JumpSlots layout jumpSlot value := by
  unfold walkPlt at returned
  split at returned
  · rename_i pointer size declared sized
    split at returned
    · rename_i form
      obtain ⟨table, starts, returned⟩ := Checked.eq_ok_of_bind returned
      obtain ⟨whole, imports, rfl⟩ := walkRela_eq returned
      exact JumpSlots.present declared sized form starts imports
    · rename_i form
      rw [← Except.ok.inj returned]
      exact JumpSlots.absent (Or.inr (Or.inr form))
  · rename_i missing
    rw [← Except.ok.inj returned]
    apply JumpSlots.absent
    cases declared : layout.dynamic.jmprel with
    | none =>
        exact Or.inl rfl
    | some pointer =>
        cases sized : layout.dynamic.pltrelsz with
        | none =>
            exact Or.inr (Or.inl rfl)
        | some size =>
            exact (missing pointer size declared sized).elim

theorem walkDyn_eq {layout : Layout} {globDat : Nat}
    {out value : List RawImport}
    (returned : view.walkDyn layout.dynamic layout.tables globDat out =
      .ok value) :
    ∃ data, view.GlobDats layout globDat data ∧ value = out ++ data := by
  unfold walkDyn at returned
  cases declared : layout.dynamic.rela with
  | none =>
      rw [declared] at returned
      refine ⟨[], GlobDats.absent declared, ?_⟩
      rw [List.append_nil]
      exact (Except.ok.inj returned).symm
  | some pointer =>
      rw [declared] at returned
      obtain ⟨size, sized, returned⟩ := Checked.eq_ok_of_bind returned
      obtain ⟨table, starts, returned⟩ := Checked.eq_ok_of_bind returned
      obtain ⟨data, imports, split⟩ := walkRela_eq returned
      exact ⟨data, GlobDats.present declared
        (Checked.eq_some_of_require sized) starts imports, split⟩

theorem parseImports_eq {imports : List RawImport}
    (returned : view.parseImports = .ok imports) : view.Imports imports := by
  unfold parseImports at returned
  obtain ⟨⟨kinds, dynamic, tables⟩, opened, returned⟩ :=
    Checked.eq_ok_of_bind returned
  obtain ⟨plt, walked, returned⟩ := Checked.eq_ok_of_bind returned
  obtain ⟨machine, layout, laidOut, rfl, rfl⟩ := openTables_eq opened
  obtain ⟨data, globDats, rfl⟩ := walkDyn_eq returned
  exact Imports.both machine laidOut (walkPlt_eq walked) globDats

/-- A table of jump slots above the cap fails the whole enumeration. -/
theorem parseImports_of_large_plt {kinds : RelocKinds}
    {dynamic : DynamicInfo} {tables : Module.Tables}
    {pointer size table : Nat}
    (opened : view.openTables = .ok (kinds, dynamic, tables))
    (declared : dynamic.jmprel = some pointer)
    (sized : dynamic.pltrelsz = some size)
    (form : dynamic.pltrel = some dtPltrelIsRela)
    (starts : view.dynptrCursor pointer = .ok table)
    (above : maxRelocs < size / relaSize) :
    view.parseImports =
      malformed "relocation table exceeds sanity cap" := by
  have walked : view.walkPlt dynamic tables kinds.jumpSlot =
      malformed "relocation table exceeds sanity cap" := by
    unfold walkPlt
    rw [declared, sized]
    simp only
    rw [if_pos form, starts]
    exact walkRela_above_cap (by decide) above view tables table _ []
  unfold parseImports
  rw [opened]
  change (do
    let plt ← view.walkPlt dynamic tables kinds.jumpSlot
    view.walkDyn dynamic tables kinds.globDat plt) = _
  rw [walked]
  rfl

/-- A table of data slots above the cap fails the whole enumeration. -/
theorem parseImports_of_large_dyn {kinds : RelocKinds}
    {dynamic : DynamicInfo} {tables : Module.Tables}
    {plt : List RawImport} {pointer size table : Nat}
    (opened : view.openTables = .ok (kinds, dynamic, tables))
    (walked : view.walkPlt dynamic tables kinds.jumpSlot = .ok plt)
    (declared : dynamic.rela = some pointer)
    (sized : dynamic.relasz = some size)
    (starts : view.dynptrCursor pointer = .ok table)
    (strides : dynamic.relaent.getD relaSize ≠ 0)
    (above : maxRelocs < size / dynamic.relaent.getD relaSize) :
    view.parseImports =
      malformed "relocation table exceeds sanity cap" := by
  unfold parseImports
  rw [opened]
  change (do
    let plt ← view.walkPlt dynamic tables kinds.jumpSlot
    view.walkDyn dynamic tables kinds.globDat plt) = _
  rw [walked]
  change view.walkDyn dynamic tables kinds.globDat plt = _
  unfold walkDyn
  rw [declared, sized]
  change (do
    let table ← view.dynptrCursor pointer
    view.walkRela tables table size (dynamic.relaent.getD relaSize)
      kinds.globDat plt) = _
  rw [starts]
  exact walkRela_above_cap strides above view tables table _ plt

/-- A relocation table above the cap is an error of the enumeration. -/
structure RefusesLargeTables (view : ElfView) : Prop where
  plt : ∀ {kinds : RelocKinds} {dynamic : DynamicInfo}
    {tables : Module.Tables} {pointer size table : Nat},
    view.openTables = .ok (kinds, dynamic, tables) →
      dynamic.jmprel = some pointer → dynamic.pltrelsz = some size →
        dynamic.pltrel = some dtPltrelIsRela →
          view.dynptrCursor pointer = .ok table →
            maxRelocs < size / relaSize →
              view.parseImports =
                malformed "relocation table exceeds sanity cap"
  dyn : ∀ {kinds : RelocKinds} {dynamic : DynamicInfo}
    {tables : Module.Tables} {plt : List RawImport}
    {pointer size table : Nat},
    view.openTables = .ok (kinds, dynamic, tables) →
      view.walkPlt dynamic tables kinds.jumpSlot = .ok plt →
        dynamic.rela = some pointer → dynamic.relasz = some size →
          view.dynptrCursor pointer = .ok table →
            dynamic.relaent.getD relaSize ≠ 0 →
              maxRelocs < size / dynamic.relaent.getD relaSize →
                view.parseImports =
                  malformed "relocation table exceeds sanity cap"

/-- Over any view, an enumeration that returns gives exactly the imports of
the image, in order; and no relocation table is cut off. -/
theorem parseImports_exactly (view : ElfView) :
    (∀ imports, view.parseImports = .ok imports →
      ∀ found, view.Imports found ↔ found = imports) ∧
      view.RefusesLargeTables := by
  constructor
  · intro imports returned found
    have meant := parseImports_eq returned
    constructor
    · intro also
      exact also.unique meant
    · rintro rfl
      exact meant
  · exact ⟨parseImports_of_large_plt, parseImports_of_large_dyn⟩

end ElfView

/-- A segment at 8192 with a jump slot for `f` and a data slot for `d`, both of
version `V` of the library `c`; the version index of `d` has the hidden
bit. -/
def versioned : Module where
  base := 8192
  loads := [⟨0, 376⟩]
  machine := 62
  dynamicAddr := 8192
  dynamicWord := by decide
  memory address :=
    let dynamic : List (Nat × Nat) :=
      [(6, 8384), (5, 8456), (10, 9), (23, 8504), (2, 24), (20, 7),
        (7, 8528), (8, 24), (0x6ffffff0, 8466), (0x6ffffffe, 280),
        (0x6fffffff, 1), (0, 0)]
    let words (width : Nat) (values : List Nat) : List UInt8 :=
      values.flatMap (toLittleEndian width)
    let bytes :=
      dynamic.flatMap (fun entry => words 8 [entry.1, entry.2]) ++
      -- three symbols, the strings and the version indices
      words 8 [0, 0, 0, 1, 0, 0, 3, 0, 0] ++
      words 1 [0, 102, 0, 100, 0, 86, 0, 99, 0, 0] ++
      words 2 [0, 2, 0x8002] ++
      -- one version need with one record, and the relocations
      words 2 [1, 1] ++ words 4 [7, 16, 0] ++
      words 4 [0] ++ words 2 [0, 2] ++ words 4 [5, 0] ++
      words 8 [360, 0x100000007, 0, 368, 0x200000006, 0]
    bytes.getD (address - 8192) 0

theorem parseImports_exactly_versioned :
    ∀ found, versioned.toView.Imports found ↔
      found =
        [⟨['c'], some (.name ['f']), some ['V'], 8552, .standard, false⟩,
          ⟨['c'], some (.name ['d']), some ['V'], 8560, .standard,
            false⟩] :=
  (ElfView.parseImports_exactly versioned.toView).1 _ (by decide +kernel)

end Hookfs.Plthook.Elf
