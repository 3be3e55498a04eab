import Hookfs.Plthook.MachOFixups

/-!
# Decoding chained fixups undoes their encoding

From the bytes that the view shows to what the parser returns: the fields of
a record, a list of records, an import, a bind, a chain, the pages of a
segment, the segments of an image.
-/

namespace Hookfs.Plthook.MachO

open Hookfs.Lib Hookfs.Posix Hookfs.Plthook

/-- The table that the header describes. -/
def ChainedFixups.table (fixups : ChainedFixups) (blob : Blob) :
    ImportsTable where
  base := blob.off + fixups.importsOffset
  count := fixups.imports.length
  format := fixups.importsFormat.number
  symbolsBase := blob.off + fixups.symbolsOffset
  blobEnd := blob.off + blob.size

namespace MachOView

/-! ## Records -/

section Records

variable {view : MachOView} {off : Nat}

theorem Shows.skip {width number : Nat} {rest : List (Nat × Nat)}
    (shown : view.Shows off (recordBytes ((width, number) :: rest))) :
    view.Shows (off + width) (recordBytes rest) := by
  have later := Shows.right shown
  rw [length_toLittleEndian] at later
  exact later

/-- The first field of a record, and the rest behind it. -/
theorem Shows.field {width number : Nat} {rest : List (Nat × Nat)}
    (shown : view.Shows off (recordBytes ((width, number) :: rest)))
    (fits : number < 256 ^ width) :
    view.readUint width off = .ok number ∧
      view.Shows (off + width) (recordBytes rest) :=
  ⟨readUint_of_shows (Shows.left shown) fits, shown.skip⟩

/-- A field of a record at a cursor. -/
theorem addRead_eq {width number offset : Nat} (word : off + offset < 2 ^ 64)
    (read : view.readUint width (off + offset) = .ok number) :
    (Checked.add off offset >>= view.readUint width) = .ok number := by
  rw [Checked.add_eq_ok word, Checked.bind_ok, read]

theorem length_flatMap_const {Item : Type} {encode : Item → List UInt8}
    {width : Nat} (each : ∀ item, (encode item).length = width)
    (items : List Item) :
    (items.flatMap encode).length = items.length * width := by
  induction items with
  | nil =>
      exact (Nat.zero_mul width).symm
  | cons item rest inductionHypothesis =>
      rw [List.flatMap_cons, List.length_append, each, inductionHypothesis,
        List.length_cons, Nat.add_one_mul, Nat.add_comm]

/-- One of many records of the same size. -/
theorem Shows.item {Item : Type} {encode : Item → List UInt8} {width : Nat}
    (each : ∀ item, (encode item).length = width) {items : List Item}
    {position : Nat} {item : Item}
    (shown : view.Shows off (items.flatMap encode))
    (here : items[position]? = some item) :
    view.Shows (off + position * width) (encode item) := by
  induction items generalizing off position with
  | nil =>
      cases here
  | cons first rest inductionHypothesis =>
      rw [List.flatMap_cons] at shown
      cases position with
      | zero =>
          rw [Nat.zero_mul, Nat.add_zero, ← Option.some.inj here]
          exact shown.left
      | succ before =>
          have later := shown.right
          rw [each] at later
          have read := inductionHypothesis later here
          rw [Nat.add_one_mul, Nat.add_comm _ width, ← Nat.add_assoc]
          exact read

end Records

/-! ## Imports -/

section Imports

variable {view : MachOView} {blob : Blob} {fixups : ChainedFixups}

/-- A name of the pool. -/
theorem readCstr_of_shows {off : Nat} {format : ImportsFormat}
    (record : ImportRecord format)
    (shown : view.Shows off (record.rawName.bytes ++ [0]))
    (word : off + record.rawName.bytes.length < 2 ^ 64) :
    view.readCstr off = .ok record.name := by
  have decoded : fromUtf8Lossy record.rawName.bytes = record.name :=
    fromUtf8Lossy_utf8 record.name
  have read := (readCstrRaw_eq_ok_iff record.rawName shown word).mpr
    ⟨record.short, rfl⟩
  unfold readCstr
  rw [read, decoded]
  rfl

theorem resolve_of_encodes (encodes : view.Encodes blob fixups)
    {ordinal : Nat} {record : ImportRecord fixups.importsFormat}
    (here : fixups.imports[ordinal]? = some record) (dylibs : List Text) :
    view.resolve (fixups.table blob) ordinal dylibs =
      .ok (libraryOf record.ordinal dylibs,
        normalizeSymbolName record.name) := by
  have word := encodes.word
  obtain ⟨shown, inside⟩ := encodes.imports
  obtain ⟨named, terminated⟩ :=
    encodes.names record (List.mem_of_getElem? here)
  obtain ⟨before, _⟩ := List.getElem?_eq_some_iff.mp here
  have bytes := length_flatMap_const
    (@ImportRecord.length_bytes fixups.importsFormat) fixups.imports
  have room : ordinal * fixups.importsFormat.recordSize ≤
      fixups.imports.length * fixups.importsFormat.recordSize :=
    Nat.mul_le_mul_right _ (Nat.le_of_lt before)
  rw [List.length_append, List.length_singleton] at terminated
  rw [← Nat.add_assoc] at named
  have read := @importRecord_of_shows view fixups.importsFormat record
    (fixups.table blob) ordinal rfl
    (by simp only [ChainedFixups.table]; omega)
    (shown.item ImportRecord.length_bytes here)
  have name := readCstr_of_shows record named (by omega)
  have counted : ordinal < (fixups.table blob).count := before
  have pooled : checkedAdd (fixups.table blob).symbolsBase record.nameOffset =
      some (blob.off + fixups.symbolsOffset + record.nameOffset) :=
    checkedAdd_eq_some (by simp only [ChainedFixups.table]; omega)
  have inPool : blob.off + fixups.symbolsOffset + record.nameOffset <
      (fixups.table blob).blobEnd := by
    simp only [ChainedFixups.table]
    omega
  unfold resolve
  rw [Checked.ensure_eq_ok _ counted, Checked.bind_ok, read, Checked.bind_ok]
  simp only [pooled, Checked.require_some, Checked.bind_ok]
  rw [Checked.ensure_eq_ok _ inPool, Checked.bind_ok, name]
  rfl

end Imports

/-! ## Chains -/

section Chains

variable {view : MachOView} {blob : Blob} {fixups : ChainedFixups}
  {info : LoadInfo} {address : Nat → UInt64} {format : PointerFormat}

/-- What the walk needs of an entry: it is encoded at its offset, and a bind
has an import and an address. -/
structure Readable (view : MachOView) (fixups : ChainedFixups)
    (address : Nat → UInt64) (slot : Nat × Link format) : Prop where
  word : slot.1 < 2 ^ 64
  encoded : view.readSlotEncoding slot.1 = .ok slot.2.raw
  bound : ∀ ordinal, slot.2.fixup.ordinal = some ordinal →
    ordinal < fixups.imports.length
  mapped : slot.2.fixup.isBind = true →
    view.slotAddress slot.1 = .ok (address slot.1)

/-- An entry contributes its import. -/
theorem chainBind_of_readable (encodes : view.Encodes blob fixups)
    {offset : Nat} {link : Link format} {entry : ChainEntry}
    (readable : view.Readable fixups address (offset, link))
    (isBind : entry.isBind = link.fixup.isBind)
    (authenticated : entry.authenticated = link.fixup.authenticated)
    (same : ∀ ordinal, link.fixup.ordinal = some ordinal →
      entry.ordinal = ordinal) :
    view.chainBind info (fixups.table blob) offset entry [] =
      .ok (fixups.found info address offset link.fixup).toList := by
  unfold chainBind ChainedFixups.found
  rw [isBind]
  cases given : link.fixup.ordinal with
  | none =>
      have rebase : link.fixup.isBind ≠ true := by
        rw [Fixup.isBind_eq, given]
        nofun
      rw [if_neg rebase]
      rfl
  | some ordinal =>
      have bind := Fixup.isBind_of_ordinal given
      have before := readable.bound ordinal given
      have here := List.getElem?_eq_getElem before
      have resolved := resolve_of_encodes encodes here info.dylibs
      rw [if_pos bind, same ordinal given, resolved, Checked.bind_ok]
      simp only [Option.bind_eq_bind, Option.bind_some, here]
      cases (normalizeSymbolName fixups.imports[ordinal].name).filter
          (· ≠ tlvBootstrap) with
      | none =>
          rfl
      | some name =>
          exact pushImport_eq_ok_iff.mpr ⟨_, readable.mapped bind, by
            rw [authenticated]
            rfl⟩

theorem toList_append_filterMap {Item Found : Type}
    (find : Item → Option Found) (item : Item) (rest : List Item) :
    (find item).toList ++ rest.filterMap find =
      (item :: rest).filterMap find := by
  rw [List.filterMap_cons]
  cases find item <;> rfl

/-- The walk of a chain derives the imports of its entries. -/
theorem exists_chain (encodes : view.Encodes blob fixups)
    (chain : LinkChain format) :
    ∀ (rounds : Nat) (place : Place), chain.length ≤ rounds →
      (∀ slot ∈ chain.slots place.offset,
        view.Readable fixups address slot) →
      ∃ emitted, view.Chain info (fixups.table blob) format.number rounds
          place emitted ∧
        emitted.map Prod.snd = (chain.slots place.offset).filterMap
          fun slot => fixups.found info address slot.1 slot.2.fixup := by
  induction chain with
  | last link ends =>
      intro rounds place enough readable
      have here := readable _ List.mem_cons_self
      obtain ⟨entry, decoded, isBind, authenticated, next, same⟩ :=
        link.decodeChain_raw
      have bound := @chainBind_of_readable view blob fixups info address
        format encodes place.offset link entry here isBind authenticated same
      have stops : entry.next = 0 := by rw [next, ends, Nat.zero_mul]
      obtain ⟨less, rfl⟩ : ∃ less, rounds = less + 1 :=
        Nat.exists_eq_add_of_le' enough
      refine ⟨_, .last here.encoded decoded bound stops, ?_⟩
      rw [LinkChain.slots, ← toList_append_filterMap, List.map_map,
        List.filterMap_nil, List.append_nil]
      exact List.map_id _
  | more link goesOn rest inductionHypothesis =>
      intro rounds place enough readable
      obtain ⟨here, later⟩ := List.forall_mem_cons.mp readable
      obtain ⟨entry, decoded, isBind, authenticated, next, same⟩ :=
        link.decodeChain_raw
      have bound := @chainBind_of_readable view blob fixups info address
        format encodes place.offset link entry here isBind authenticated same
      have continues : entry.next ≠ 0 := by
        rw [next]
        exact Nat.mul_ne_zero goesOn format.stride_ne_zero
      rw [← next] at later
      obtain ⟨behind, following⟩ :=
        rest.exists_mem_slots (place.offset + entry.next)
      have fits := (later _ following).word
      obtain ⟨less, rfl⟩ : ∃ less, rounds = less + 1 :=
        Nat.exists_eq_add_of_le' (Nat.le_trans (Nat.le_add_left 1 _) enough)
      rw [← Place.offset_after] at later
      obtain ⟨emitted, run, found⟩ := inductionHypothesis less
        (place.after entry.next) (Nat.le_of_succ_le_succ enough) later
      refine ⟨_, .more here.encoded decoded bound continues fits run, ?_⟩
      rw [LinkChain.slots, ← toList_append_filterMap, List.map_append, found,
        List.map_map, Place.offset_after, next]
      exact congrArg (· ++ _) (List.map_id _)

end Chains

/-! ## Segments -/

section Segments

variable {view : MachOView} {blob : Blob} {fixups : ChainedFixups}
  {info : LoadInfo} {address : Nat → UInt64} {segment : FixupSegment}
  {segStarts : Nat}

theorem exists_pages (encodes : view.Encodes blob fixups)
    (pages : List (Option (PageChain segment.format))) :
    ∀ page : Nat,
      (∀ position first, pages[position]? = some first →
        view.pageStartAt segStarts (page + position) =
          .ok (pageStart first)) →
      (∀ slot ∈ segment.slotsFrom pages page,
        view.Readable fixups address slot) →
      ∃ emitted, view.Pages info (fixups.table blob) segment.starts segStarts
          pages.length page emitted ∧
        emitted.map Prod.snd = (segment.slotsFrom pages page).filterMap
          fun slot => fixups.found info address slot.1 slot.2.fixup := by
  induction pages with
  | nil =>
      intro page _ _
      exact ⟨[], .done page, rfl⟩
  | cons first rest inductionHypothesis =>
      intro page starts readable
      have here : view.pageStartAt segStarts page = .ok (pageStart first) :=
        starts 0 first rfl
      have behind : ∀ position other, rest[position]? = some other →
          view.pageStartAt segStarts (page + 1 + position) =
            .ok (pageStart other) := by
        intro position other found
        rw [Nat.add_right_comm]
        exact starts (position + 1) other found
      cases first with
      | none =>
          obtain ⟨emitted, pages, found⟩ :=
            inductionHypothesis (page + 1) behind readable
          exact ⟨_, .next (.none here) pages, found⟩
      | some first =>
          obtain ⟨chained, later⟩ := List.forall_mem_append.mp readable
          obtain ⟨emitted, pages, found⟩ :=
            inductionHypothesis (page + 1) behind later
          obtain ⟨own, run, imports⟩ := @exists_chain view blob fixups info
            address segment.format encodes first.chain maxChainSteps
            (segment.starts.place page first.start)
            (Nat.le_of_lt first.short) chained
          obtain ⟨link, begins⟩ := first.chain.exists_mem_slots
            (segment.starts.place page first.start).offset
          have fits := (chained _ begins).word
          have single := first.single
          have present : first.start ≠ dyldChainedPtrStartNone := by
            unfold dyldChainedPtrStartNone
            omega
          refine ⟨_, .next (.chain here present fits run) pages, ?_⟩
          rw [List.map_append, imports, found, FixupSegment.slotsFrom,
            List.filterMap_append]

theorem length_segment_bytes :
    segment.bytes.length = 22 + segment.pages.length * 2 := by
  have pages := length_flatMap_const
    (fun page => length_toLittleEndian 2 (pageStart page)) segment.pages
  have header : (recordBytes segment.headerFields).length = 22 :=
    length_recordBytes _
  unfold FixupSegment.bytes
  rw [List.length_append, header, pages]

/-- The header of a segment is read as it was encoded. -/
theorem starts_of_shows (shown : view.Shows segStarts segment.bytes)
    (word : segStarts + segment.bytes.length < 2 ^ 64) :
    view.Starts segStarts segment.starts := by
  rw [length_segment_bytes] at word
  have format : segment.format.number < 256 ^ 2 := by
    cases segment.format <;> decide
  have atSize : view.Shows segStarts (recordBytes segment.headerFields) :=
    Shows.left shown
  have atPageSize := Shows.skip atSize
  obtain ⟨pageSize, atFormat⟩ := atPageSize.field segment.small
  obtain ⟨pointerFormat, atOffset⟩ := atFormat.field format
  obtain ⟨segmentOffset, atPointer⟩ := atOffset.field segment.word
  obtain ⟨pageCount, _⟩ := atPointer.skip.field segment.few
  exact ⟨addRead_eq (by omega) pageSize, addRead_eq (by omega) pointerFormat,
    addRead_eq (by omega) segmentOffset, addRead_eq (by omega) pageCount,
    segment.paged⟩

theorem pageStartAt_of_shows (shown : view.Shows segStarts segment.bytes)
    (word : segStarts + segment.bytes.length < 2 ^ 64)
    {page : Nat} {first : Option (PageChain segment.format)}
    (here : segment.pages[page]? = some first) :
    view.pageStartAt segStarts page = .ok (pageStart first) := by
  rw [length_segment_bytes] at word
  obtain ⟨before, _⟩ := List.getElem?_eq_some_iff.mp here
  have header : (recordBytes segment.headerFields).length = 22 :=
    length_recordBytes _
  have table := Shows.right shown
  rw [header] at table
  have item := table.item
    (fun page => length_toLittleEndian 2 (pageStart page)) here
  have fits : pageStart first < 256 ^ 2 := by
    cases first with
    | none =>
        have none : dyldChainedPtrStartNone < 256 ^ 2 := by decide
        exact none
    | some page =>
        exact Nat.lt_trans page.single (by decide)
  have read := readUint_of_shows item fits
  unfold pageStartAt
  rw [Checked.add_eq_ok (by omega), Checked.bind_ok,
    Checked.mul_eq_ok (by omega), Checked.bind_ok]
  exact addRead_eq (by omega) read

theorem walkSegmentChains_of_encodes (encodes : view.Encodes blob fixups)
    (mapped : view.MapsBinds fixups address)
    (member : some segment ∈ fixups.segments) (out : List RawImport) :
    view.walkSegmentChains info (fixups.table blob)
        (blob.off + fixups.startsOffset + segment.infoOffset) out =
      .ok (out ++ fixups.segmentBinds info address (some segment)) := by
  have end_word := encodes.word
  obtain ⟨shown, inside⟩ := encodes.segments segment member
  rw [← Nat.add_assoc] at shown
  have word : blob.off + fixups.startsOffset + segment.infoOffset +
      segment.bytes.length < 2 ^ 64 := by omega
  have readable : ∀ slot ∈ segment.slotsFrom segment.pages 0,
      view.Readable fixups address slot := by
    intro slot here
    obtain ⟨inFile, encoded⟩ := encodes.slots segment member slot here
    exact ⟨inFile, encoded, fixups.bound segment member slot here,
      mapped segment member slot here⟩
  have starts : ∀ position first, segment.pages[position]? = some first →
      view.pageStartAt (blob.off + fixups.startsOffset + segment.infoOffset)
        (0 + position) = .ok (pageStart first) := by
    intro position first here
    rw [Nat.zero_add]
    exact pageStartAt_of_shows shown word here
  obtain ⟨emitted, pages, found⟩ := @exists_pages view blob fixups info
    address segment _ encodes segment.pages 0 starts readable
  apply walkSegmentChains_eq_ok_iff.mpr
  refine ⟨emitted, ⟨_, starts_of_shows shown word, pages⟩, ?_⟩
  rw [found]
  rfl

theorem segmentFixups_of_encodes (encodes : view.Encodes blob fixups)
    (mapped : view.MapsBinds fixups address) {position : Nat}
    {segment : Option FixupSegment}
    (here : fixups.segments[position]? = some segment)
    (out : List RawImport) :
    view.segmentFixups info (fixups.table blob)
        (blob.off + fixups.startsOffset) position out =
      .ok (out ++ fixups.segmentBinds info address segment) := by
  have end_word := encodes.word
  obtain ⟨shown, inside⟩ := encodes.starts
  obtain ⟨before, _⟩ := List.getElem?_eq_some_iff.mp here
  have each : ∀ segment, (toLittleEndian 4
      (ChainedFixups.infoOffset segment)).length = 4 :=
    fun segment => length_toLittleEndian 4 _
  have table := Shows.right shown
  rw [length_recordBytes] at table
  unfold ChainedFixups.startsBytes at inside
  rw [List.length_append, length_recordBytes,
    length_flatMap_const each] at inside
  have sum : ([(4, fixups.segments.length)].map Prod.fst).sum = 4 := rfl
  rw [sum] at table inside
  have item := table.item each here
  have fits : ChainedFixups.infoOffset segment < 256 ^ 4 := by
    cases segment with
    | none =>
        exact Nat.two_pow_pos 32
    | some segment =>
        exact segment.near
  have read := readUint_of_shows item fits
  unfold segmentFixups
  rw [Checked.add_eq_ok (by omega), Checked.bind_ok,
    Checked.mul_eq_ok (by omega), Checked.bind_ok,
    Checked.add_eq_ok (by omega), Checked.bind_ok]
  change view.readUint 4 _ >>= _ = _
  rw [read, Checked.bind_ok]
  cases segment with
  | none =>
      exact congrArg Except.ok (List.append_nil out).symm
  | some segment =>
      have member := List.mem_of_getElem? here
      have room := (encodes.segments segment member).2
      have reached : checkedAdd (blob.off + fixups.startsOffset)
          segment.infoOffset = some (blob.off + fixups.startsOffset +
            segment.infoOffset) := checkedAdd_eq_some (by omega)
      change (if segment.infoOffset = 0 then _ else _) = _
      rw [if_neg segment.somewhere]
      change Checked.require (checkedAdd _ segment.infoOffset) _ >>= _ = _
      rw [reached, Checked.require_some, Checked.bind_ok]
      exact walkSegmentChains_of_encodes encodes mapped member out

/-- The rest of the segments. -/
theorem segmentsLoop_of_encodes (encodes : view.Encodes blob fixups)
    (mapped : view.MapsBinds fixups address)
    (rest : List (Option FixupSegment)) :
    ∀ (position : Nat) (out : List RawImport),
      (∀ index segment, rest[index]? = some segment →
        fixups.segments[position + index]? = some segment) →
      forRange
          (fun position out => do
            let out ← view.segmentFixups info (fixups.table blob)
              (blob.off + fixups.startsOffset) position out
            pure (.next out))
          pure rest.length position out =
        .ok (out ++ rest.flatMap (fixups.segmentBinds info address)) := by
  induction rest with
  | nil =>
      intro _ out _
      exact congrArg Except.ok (List.append_nil out).symm
  | cons first rest inductionHypothesis =>
      intro position out placed
      have here : fixups.segments[position]? = some first :=
        placed 0 first rfl
      have behind : ∀ index segment, rest[index]? = some segment →
          fixups.segments[position + 1 + index]? = some segment := by
        intro index segment found
        rw [Nat.add_right_comm]
        exact placed (index + 1) segment found
      have later := inductionHypothesis (position + 1)
        (out ++ fixups.segmentBinds info address first) behind
      rw [List.length_cons, forRange_next_succ,
        segmentFixups_of_encodes encodes mapped here, Checked.bind_ok, later,
        List.flatMap_cons, List.append_assoc]

end Segments

/-! ## The blob -/

/-- The fields of the header are read as they were encoded. -/
structure Header (view : MachOView) (blob : Blob) (fixups : ChainedFixups) :
    Prop where
  version : view.readU32 blob.off = .ok 0
  startsOffset : (Checked.add blob.off 4 >>= view.readU32) =
    .ok fixups.startsOffset
  importsOffset : (Checked.add blob.off 8 >>= view.readU32) =
    .ok fixups.importsOffset
  symbolsOffset : (Checked.add blob.off 12 >>= view.readU32) =
    .ok fixups.symbolsOffset
  count : (Checked.add blob.off 16 >>= view.readU32) =
    .ok fixups.imports.length
  format : (Checked.add blob.off 20 >>= view.readU32) =
    .ok fixups.importsFormat.number

theorem header_of_shows {view : MachOView} {blob : Blob}
    {fixups : ChainedFixups}
    (shown : view.Shows blob.off (recordBytes fixups.headerFields))
    (word : blob.off + 28 < 2 ^ 64) : view.Header blob fixups := by
  have number : fixups.importsFormat.number < 256 ^ 4 := by
    cases fixups.importsFormat <;> decide
  obtain ⟨version, atStarts⟩ := shown.field (Nat.two_pow_pos 32)
  obtain ⟨startsOffset, atImports⟩ := atStarts.field fixups.nearStarts
  obtain ⟨importsOffset, atSymbols⟩ := atImports.field fixups.nearImports
  obtain ⟨symbolsOffset, atCount⟩ := atSymbols.field fixups.nearSymbols
  obtain ⟨count, atFormat⟩ := atCount.field fixups.fewImports
  obtain ⟨format, _⟩ := atFormat.field number
  exact ⟨version, addRead_eq (by omega) startsOffset,
    addRead_eq (by omega) importsOffset, addRead_eq (by omega) symbolsOffset,
    addRead_eq (by omega) count, addRead_eq (by omega) format⟩

/-- Decoding undoes encoding: the parser returns the imports of the binds. -/
theorem parseChainedFixups_of_encodes (view : MachOView) (info : LoadInfo)
    (blob : Blob) (fixups : ChainedFixups) (address : Nat → UInt64)
    (encodes : view.Encodes blob fixups)
    (mapped : view.MapsBinds fixups address) :
    view.parseChainedFixups info blob = .ok (fixups.binds info address) := by
  have word := encodes.word
  obtain ⟨shown, inside⟩ := encodes.header
  have size : (recordBytes fixups.headerFields).length = 28 :=
    length_recordBytes _
  rw [size, Nat.zero_add] at inside
  have header := @header_of_shows view blob fixups shown (by omega)
  obtain ⟨table, tableInside⟩ := encodes.starts
  have importsInside := encodes.imports.2
  have symbolsInside := encodes.pool
  have few : fixups.segments.length < 256 ^ 4 := by
    have limit := fixups.fewSegments
    unfold maxFixupSegments at limit
    omega
  have segCount : view.readU32 (blob.off + fixups.startsOffset) =
      .ok fixups.segments.length :=
    (Shows.field (Shows.left table) few).1
  have blobEnd := checkedAdd_eq_some word
  have base : checkedAdd blob.off fixups.importsOffset =
      some (blob.off + fixups.importsOffset) :=
    checkedAdd_eq_some (by omega)
  have symbolsBase : checkedAdd blob.off fixups.symbolsOffset =
      some (blob.off + fixups.symbolsOffset) :=
    checkedAdd_eq_some (by omega)
  have starts : checkedAdd blob.off fixups.startsOffset =
      some (blob.off + fixups.startsOffset) :=
    checkedAdd_eq_some (by omega)
  have walked := @segmentsLoop_of_encodes view blob fixups info address
    encodes mapped fixups.segments 0 [] fun index segment here => by
      rw [Nat.zero_add]
      exact here
  unfold parseChainedFixups walkFixups
  rw [if_pos encodes.backed, blobEnd, Checked.require_some, Checked.bind_ok,
    Checked.ensure_eq_ok _ inside, Checked.bind_ok, header.version,
    Checked.bind_ok, Checked.ensure_eq_ok _ rfl, Checked.bind_ok,
    header.startsOffset, Checked.bind_ok, header.importsOffset,
    Checked.bind_ok, header.symbolsOffset, Checked.bind_ok, header.count,
    Checked.bind_ok, header.format, Checked.bind_ok, base,
    Checked.require_some, Checked.bind_ok, symbolsBase, Checked.require_some,
    Checked.bind_ok, starts, Checked.require_some, Checked.bind_ok, segCount,
    Checked.bind_ok, Checked.ensure_eq_ok _ fixups.fewSegments,
    Checked.bind_ok]
  exact walked

end MachOView

/-! ## A file with one chain -/

/-- A file that begins with some bytes shows them. -/
theorem FileView.shows_of_prefix (view : FileView)
    (short : view.bytes.length < 2 ^ 64) {off : Nat} {bytes : List UInt8}
    (inside : view.base + off ≤ view.bytes.length)
    (here : bytes <+: view.bytes.drop (view.base + off)) :
    view.toView.Shows off bytes := by
  obtain ⟨rest, layout⟩ := here
  have shown := view.shows_drop short inside
  rw [← layout] at shown
  exact shown.left

/-- `_f` of the first library, and a weak import without a name. -/
def chainImports : List (ImportRecord .plain) :=
  [⟨1, false, 0, 0, ['_', 'f'], by decide, by decide, by decide, by decide,
      by decide⟩,
    ⟨-2, true, 3, 0, ['_'], by decide, by decide, by decide, by decide,
      by decide⟩]

/-- An authenticated bind, a rebase, and two binds. -/
def fourLinks : LinkChain .arm64eUserland :=
  .more ⟨.authBind 0 0xbeef 1 2, 1, by decide, by decide⟩ (by decide)
    (.more ⟨.rebase 0x4000 0, 1, by decide, by decide⟩ (by decide)
      (.more ⟨.bind 1 0, 1, by decide, by decide⟩ (by decide)
        (.last ⟨.bind 0 7, 0, by decide, by decide⟩ rfl)))

def chainSegment : FixupSegment where
  infoOffset := 8
  size := 24
  pageSize := 0x4000
  format := .arm64eUserland
  segmentOffset := 72
  maxValidPointer := 0
  pages := [some ⟨8, by decide, fourLinks, by decide⟩]
  somewhere := by decide
  near := by decide
  paged := by decide
  small := by decide
  word := by decide
  few := by decide

def chainFixups : ChainedFixups where
  startsOffset := 28
  importsOffset := 60
  symbolsOffset := 68
  importsFormat := .plain
  symbolsFormat := 0
  imports := chainImports
  segments := [some chainSegment]
  nearStarts := by decide
  nearImports := by decide
  nearSymbols := by decide
  fewImports := by decide
  fewSegments := by decide
  bound := by
    intro segment member slot inside ordinal given
    rw [List.mem_singleton, Option.some_inj] at member
    subst member
    have every : ∀ slot ∈ chainSegment.slots, ∀ ordinal ∈ slot.2.fixup.ordinal,
        ordinal < chainImports.length := by decide
    exact every slot inside ordinal given

def chainFile : FileView where
  bytes := recordBytes chainFixups.headerFields ++ chainFixups.startsBytes ++
    chainSegment.bytes ++ chainImports.flatMap ImportRecord.bytes ++
    [0x5f, 0x66, 0, 0x5f, 0, 0, 0, 0, 0, 0, 0, 0] ++
    chainSegment.slots.flatMap fun slot =>
      toLittleEndian 8 slot.2.raw.toNat
  base := 0
  segments := [⟨0, 112, 0, 112⟩]
  cpuType := cpuTypeArm64
  cpuSubtype := 2

def chainBlob : Blob :=
  ⟨0, 73⟩

def chainInfo : LoadInfo :=
  { (default : LoadInfo) with dylibs := ["libSystem.B.dylib".toList] }

/-- A bind of `f` in the chain. -/
def chainedF (slot : Nat) (authenticated : Bool) : RawImport :=
  ⟨"libSystem.B.dylib".toList, some (.name ['f']), none, slot, .standard,
    authenticated⟩

theorem encodes_chainFile :
    chainFile.toView.Encodes chainBlob chainFixups := by
  have length : chainFile.bytes.length = 112 := by decide +kernel
  have shows : ∀ {off : Nat} {bytes : List UInt8}, off ≤ 112 →
      bytes <+: chainFile.bytes.drop off →
        chainFile.toView.Shows off bytes := by
    intro off bytes inside here
    have base : chainFile.base + off = off := Nat.zero_add off
    apply FileView.shows_of_prefix chainFile
    · rw [length]
      decide
    · rw [length, base]
      exact inside
    · rw [base]
      exact here
  have only : ∀ {segment}, some segment ∈ chainFixups.segments →
      segment = chainSegment := by
    intro segment member
    exact Option.some.inj (List.mem_singleton.mp member)
  constructor
  · rfl
  · decide
  · exact ⟨shows (by decide) (by decide +kernel), by decide⟩
  · exact ⟨shows (by decide) (by decide +kernel), by decide⟩
  · intro segment member
    rw [only member]
    exact ⟨shows (by decide) (by decide +kernel), by decide⟩
  · exact ⟨shows (by decide) (by decide +kernel), by decide⟩
  · decide
  · have every : ∀ record ∈ chainImports,
        68 + record.nameOffset ≤ 112 ∧
          record.rawName.bytes ++ [0] <+:
            chainFile.bytes.drop (68 + record.nameOffset) ∧
          68 + record.nameOffset + (record.rawName.bytes ++ [0]).length ≤ 73
        := by decide +kernel
    intro record member
    obtain ⟨low, here, inside⟩ := every record member
    have place : chainBlob.off +
        (chainFixups.symbolsOffset + record.nameOffset) =
          68 + record.nameOffset := Nat.zero_add _
    rw [MachOView.HoldsAt, place]
    exact ⟨shows low here, inside⟩
  · intro segment member
    rw [only member]
    have every : ∀ slot ∈ chainSegment.slots, slot.1 < 2 ^ 64 ∧
        chainFile.readSlotEncoding slot.1 = .ok slot.2.raw := by
      decide +kernel
    exact every

theorem parseChainedFixups_of_encodes_chainFile :
    chainFile.toView.parseChainedFixups chainInfo chainBlob =
      .ok [chainedF 80 true, chainedF 104 false] := by
  have mapped : chainFile.toView.MapsBinds chainFixups UInt64.ofNat := by
    intro segment member
    have every : ∀ slot ∈ chainSegment.slots, slot.2.fixup.isBind = true →
        chainFile.slotAddress slot.1 = .ok (UInt64.ofNat slot.1) := by
      decide +kernel
    rw [Option.some.inj (List.mem_singleton.mp member)]
    exact every
  have returned := MachOView.parseChainedFixups_of_encodes chainFile.toView
    chainInfo chainBlob chainFixups UInt64.ofNat encodes_chainFile mapped
  have binds : chainFixups.binds chainInfo UInt64.ofNat =
      [chainedF 80 true, chainedF 104 false] := by
    decide +kernel
  rw [returned, binds]

end Hookfs.Plthook.MachO
