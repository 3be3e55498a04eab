import Hookfs.Lib.Scan
import Hookfs.Plthook.PeSafety

/-!
# What the PE walker enumerates

The import tables of a PE image, said from its bytes: which descriptors
count, which entries of a name or address table, and what an entry names.
The walk returns exactly that, and whatever is in the delay-import directory
costs at most the delay imports.
-/

namespace Hookfs.Plthook.Pe

open Hookfs.Lib Hookfs.Posix Hookfs.Plthook

namespace MappedImage

/-! ## The tables -/

/-- The number in so many bytes at an offset. -/
def word (image : MappedImage) (width offset : Nat) : Nat :=
  littleEndian (bytesAt image.memory (image.base + offset) width)

/-- The string at an offset, up to its NUL. -/
def StringAt (image : MappedImage) (offset : Nat) (text : Text) : Prop :=
  ∃ length,
    IsFirst (fun index => image.memory (image.base + (offset + index)) = 0)
      length ∧
    text = fromUtf8Lossy (bytesAt image.memory (image.base + offset) length)

/-- What an ordinal of a library names. -/
def ordinalSymbol (library : Text) (ordinal : Nat) : Symbol :=
  if isWinsock2 library then
    match winsock2Ordinal2name ordinal with
    | some name => .name name
    | none => .ordinal ordinal
  else .ordinal ordinal

/-- What an entry of a name table names: an ordinal in its low 16 bits, or
the name behind a hint. -/
inductive SymbolAt (image : MappedImage) (library : Text) (entry : Nat) :
    Symbol → Prop where
  | ordinal (flagged : imageOrdinalFlag64 ≤ entry) :
      SymbolAt image library entry (ordinalSymbol library (entry % 2 ^ 16))
  | name {name : Text} (plain : entry < imageOrdinalFlag64)
      (here : image.StringAt (entry + 2) name) :
      SymbolAt image library entry (.name name)

def imported (image : MappedImage) (library : Text) (kind : ImportKind)
    (symbol : Option Symbol) (rva : Nat) : RawImport where
  library := library
  symbol := symbol
  version := none
  slot := image.base + rva
  kind := kind
  authenticated := false

/-- The imports of one library: one for every entry of its name table before
the null entry, or of its address table when it has no name table. -/
inductive Thunks (image : MappedImage) (namesRva slotsRva : Nat)
    (library : Text) (kind : ImportKind) (whole : List RawImport) :
    Prop where
  | unnamed (absent : namesRva = 0)
      (scanned : Scanned
        (fun position =>
          image.word 8 (slotsRva + position * thunkSize) = 0)
        (fun position part =>
          part = [image.imported library kind none
            (slotsRva + position * thunkSize)]) whole)
  | named (present : namesRva ≠ 0)
      (scanned : Scanned
        (fun position =>
          image.word 8 (namesRva + position * thunkSize) = 0)
        (fun position part =>
          ∃ symbol,
            image.SymbolAt library
              (image.word 8 (namesRva + position * thunkSize)) symbol ∧
            part = [image.imported library kind (some symbol)
              (slotsRva + position * thunkSize)]) whole)

/-- The imports of one descriptor: none without an address table. -/
inductive StandardPart (image : MappedImage) (desc : Nat) :
    List RawImport → Prop where
  | bare (unbound : image.word 4 (desc + 16) = 0) : StandardPart image desc []
  | bound {library : Text} {part : List RawImport}
      (addressed : image.word 4 (desc + 16) ≠ 0)
      (name : image.StringAt (image.word 4 (desc + 12)) library)
      (thunks : image.Thunks (image.word 4 desc) (image.word 4 (desc + 16))
        library .standard part) :
      StandardPart image desc part

/-- The standard imports: those of the descriptors before the first one
without a name. -/
def Standard (image : MappedImage) (dirRva : Nat) :
    List RawImport → Prop :=
  Scanned
    (fun position =>
      image.word 4 (dirRva + position * importDescriptorSize + 12) = 0)
    (fun position =>
      image.StandardPart (dirRva + position * importDescriptorSize))

/-- An address field of a delay descriptor as an RVA. -/
def resolved (image : MappedImage) (field : Nat) (usesRva : Bool) : Nat :=
  if usesRva then field else field - image.base

/-- The imports of one delay descriptor: none without a library or without
an address table. -/
inductive DelayPart (image : MappedImage) (desc : Nat) :
    List RawImport → Prop where
  | bare {library : Text}
      (name : image.StringAt (image.word 4 (desc + 4)) library)
      (empty : library = [] ∨ image.word 4 (desc + 12) = 0) :
      DelayPart image desc []
  | bound {library : Text} {part : List RawImport}
      (name : image.StringAt (image.word 4 (desc + 4)) library)
      (filled : ¬ (library = [] ∨ image.word 4 (desc + 12) = 0))
      (thunks : image.Thunks
        (if image.word 4 (desc + 16) = 0 then 0
        else image.resolved (image.word 4 (desc + 16))
          (image.word 4 desc % 2 = 1))
        (image.resolved (image.word 4 (desc + 12))
          (image.word 4 desc % 2 = 1)) library .delayLoad part) :
      DelayPart image desc part

/-- The delay imports: those of the descriptors before the first one without
a name. -/
def Delay (image : MappedImage) (dirRva : Nat) : List RawImport → Prop :=
  Scanned
    (fun position =>
      image.word 4 (dirRva + position * delayDescriptorSize + 4) = 0)
    (fun position =>
      image.DelayPart (dirRva + position * delayDescriptorSize))

/-- The entry of the data directory, as far as the header counts it. -/
def directoryEntry (image : MappedImage) (position : Nat) : Option Nat :=
  let optional := image.word 4 0x3C + 24
  let rva := image.word 4 (optional + 112 + position * 8)
  if image.word 4 (optional + 108) ≤ position ∨ rva = 0 then none
  else some rva

/-! ## The tables determine their lists -/

variable {image : MappedImage}

theorem StringAt.unique {offset : Nat} {left right : Text}
    (first : image.StringAt offset left)
    (second : image.StringAt offset right) : left = right := by
  obtain ⟨length, stops, rfl⟩ := first
  obtain ⟨other, otherStops, rfl⟩ := second
  rw [stops.unique otherStops]

theorem SymbolAt.unique {library : Text} {entry : Nat} {left right : Symbol}
    (first : image.SymbolAt library entry left)
    (second : image.SymbolAt library entry right) : left = right := by
  cases first with
  | ordinal flagged =>
      cases second with
      | ordinal _ =>
          rfl
      | name plain _ =>
          exact absurd flagged (Nat.not_le_of_lt plain)
  | name plain here =>
      cases second with
      | ordinal flagged =>
          exact absurd flagged (Nat.not_le_of_lt plain)
      | name _ there =>
          rw [here.unique there]

theorem Thunks.unique {namesRva slotsRva : Nat} {library : Text}
    {kind : ImportKind} {left right : List RawImport}
    (first : image.Thunks namesRva slotsRva library kind left)
    (second : image.Thunks namesRva slotsRva library kind right) :
    left = right := by
  cases first with
  | unnamed absent scanned =>
      cases second with
      | unnamed _ again =>
          apply Scanned.unique _ scanned again
          intro position firstPart secondPart here there
          rw [here, there]
      | named present _ =>
          exact absurd absent present
  | named present scanned =>
      cases second with
      | unnamed absent _ =>
          exact absurd absent present
      | named _ again =>
          apply Scanned.unique _ scanned again
          rintro position _ _ ⟨symbol, here, rfl⟩ ⟨other, there, rfl⟩
          rw [here.unique there]

theorem StandardPart.unique {desc : Nat} {left right : List RawImport}
    (first : image.StandardPart desc left)
    (second : image.StandardPart desc right) : left = right := by
  cases first with
  | bare unbound =>
      cases second with
      | bare _ =>
          rfl
      | bound addressed _ _ =>
          exact absurd unbound addressed
  | bound addressed name thunks =>
      cases second with
      | bare unbound =>
          exact absurd unbound addressed
      | bound _ otherName otherThunks =>
          rw [otherName.unique name] at otherThunks
          exact thunks.unique otherThunks

theorem Standard.unique {dirRva : Nat} {left right : List RawImport}
    (first : image.Standard dirRva left)
    (second : image.Standard dirRva right) : left = right :=
  Scanned.unique (fun _ _ _ here there => here.unique there) first second

theorem DelayPart.unique {desc : Nat} {left right : List RawImport}
    (first : image.DelayPart desc left)
    (second : image.DelayPart desc right) : left = right := by
  cases first with
  | bare name empty =>
      cases second with
      | bare _ _ =>
          rfl
      | bound otherName filled _ =>
          rw [otherName.unique name] at filled
          exact absurd empty filled
  | bound name filled thunks =>
      cases second with
      | bare otherName empty =>
          rw [otherName.unique name] at empty
          exact absurd empty filled
      | bound otherName _ otherThunks =>
          rw [otherName.unique name] at otherThunks
          exact thunks.unique otherThunks

theorem Delay.unique {dirRva : Nat} {left right : List RawImport}
    (first : image.Delay dirRva left) (second : image.Delay dirRva right) :
    left = right :=
  Scanned.unique (fun _ _ _ here there => here.unique there) first second

/-! ## What a read returns -/

theorem read_eq {len offset : Nat} {bytes : List UInt8}
    (returned : image.read len offset = .ok bytes) :
    bytes = bytesAt image.memory (image.base + offset) len := by
  unfold read at returned
  obtain ⟨stop, stopAt, returned⟩ := Checked.eq_ok_of_bind returned
  obtain ⟨_, _, returned⟩ := Checked.eq_ok_of_bind returned
  obtain ⟨address, addressAt, returned⟩ := Checked.eq_ok_of_bind returned
  have addressEq := eq_of_checkedAdd (Checked.eq_some_of_require addressAt)
  unfold rawRead at returned
  split at returned
  · rw [← addressEq.1]
    exact (Except.ok.inj returned).symm
  · cases returned

theorem uint_eq {width offset value : Nat}
    (returned : image.uint width offset = .ok value) :
    value = image.word width offset := by
  unfold uint at returned
  obtain ⟨bytes, read, returned⟩ := Checked.eq_ok_of_bind returned
  rw [← Except.ok.inj returned, read_eq read]
  rfl

/-- Reading a field of a record at an offset. -/
theorem field_eq {width cursor offset value : Nat}
    (returned : Checked.add cursor offset >>= image.uint width =
      .ok value) : value = image.word width (cursor + offset) := by
  obtain ⟨sum, added, returned⟩ := Checked.eq_ok_of_bind returned
  rw [uint_eq returned, Checked.eq_of_add added]

theorem slotAddress_eq {rva slot : Nat}
    (returned : image.slotAddress rva = .ok slot) :
    slot = image.base + rva := by
  unfold slotAddress at returned
  obtain ⟨_, _, returned⟩ := Checked.eq_ok_of_bind returned
  obtain ⟨_, _, returned⟩ := Checked.eq_ok_of_bind returned
  obtain ⟨_, _, returned⟩ := Checked.eq_ok_of_bind returned
  exact (eq_of_checkedAdd (Checked.eq_some_of_require returned)).1

theorem byte_eq {offset : Nat} {bytes : List UInt8} {byte : UInt8}
    (read : image.read 1 offset = .ok bytes)
    (first : (Checked.index bytes 0 : Parse UInt8) = .ok byte) :
    byte = image.memory (image.base + offset) := by
  have here := Checked.eq_some_of_index first
  rw [read_eq read] at here
  exact (Option.some.inj here).symm

theorem bytesAt_succ (memory : Nat → UInt8) (address len : Nat) :
    bytesAt memory address (len + 1) =
      bytesAt memory address len ++ [memory (address + len)] := by
  unfold bytesAt
  rw [List.range_succ, List.map_append]
  rfl

/-- A round of the string loop reads one byte, and goes on behind it unless
it is a NUL. -/
theorem cstr_round {cursor : Nat} {bytes : List UInt8}
    {ended : Round (Nat × List UInt8) Text}
    (returned : (do
      let read ← image.read 1 cursor
      let byte ← Checked.index read 0
      if byte = 0 then pure (.done (fromUtf8Lossy bytes))
      else do
        let bytes := bytes ++ [byte]
        Checked.ensure (bytes.length ≤ maxNameLen)
          (.malformed "unterminated import name string")
        let cursor ← Checked.add cursor 1
        pure (.next (cursor, bytes)) :
          Parse (Round (Nat × List UInt8) Text)) = .ok ended) :
    (if image.memory (image.base + cursor) = 0 then
        .done (fromUtf8Lossy bytes)
      else
        .next (cursor + 1, bytes ++ [image.memory (image.base + cursor)])) =
      ended := by
  obtain ⟨read, readAt, returned⟩ := Checked.eq_ok_of_bind returned
  obtain ⟨byte, first, returned⟩ := Checked.eq_ok_of_bind returned
  have byteEq := byte_eq readAt first
  split at returned
  · rename_i nul
    rw [← byteEq, if_pos nul]
    exact Except.ok.inj returned
  · rename_i solid
    obtain ⟨_, _, returned⟩ := Checked.eq_ok_of_bind returned
    obtain ⟨next, moved, returned⟩ := Checked.eq_ok_of_bind returned
    rw [← byteEq, if_neg solid, ← Checked.eq_of_add moved]
    exact Except.ok.inj returned

/-- The string loop, after so many bytes without a NUL. -/
theorem cstr_loop {offset : Nat} {text : Text} :
    ∀ (rounds length : Nat),
      (∀ index, index < length →
        image.memory (image.base + (offset + index)) ≠ 0) →
      loop
        (fun (state : Nat × List UInt8) => do
          let read ← image.read 1 state.1
          let byte ← Checked.index read 0
          if byte = 0 then pure (.done (fromUtf8Lossy state.2))
          else do
            let bytes := state.2 ++ [byte]
            Checked.ensure (bytes.length ≤ maxNameLen)
              (.malformed "unterminated import name string")
            let cursor ← Checked.add state.1 1
            pure (.next (cursor, bytes)))
        rounds
        (offset + length,
          bytesAt image.memory (image.base + offset) length) =
        .ok text →
      image.StringAt offset text := by
  intro rounds
  induction rounds with
  | zero =>
      intro length solid returned
      cases returned
  | succ rounds inductionHypothesis =>
      intro length solid returned
      rcases loop_succ_eq_ok_iff.mp returned with ended | more
      · have outcome := cstr_round ended
        split at outcome
        · rename_i nul
          rw [← Round.done.inj outcome]
          exact ⟨length, ⟨nul, solid⟩, rfl⟩
        · cases outcome
      · obtain ⟨state, ended, returned⟩ := more
        have outcome := cstr_round ended
        split at outcome
        · cases outcome
        · rename_i goesOn
          rw [← Round.next.inj outcome, Nat.add_assoc,
            ← Nat.add_assoc image.base, ← bytesAt_succ] at returned
          apply inductionHypothesis (length + 1) _ returned
          intro index inside
          rcases Nat.lt_succ_iff_lt_or_eq.mp inside with before | rfl
          · exact solid index before
          · exact goesOn

theorem cstr_eq {offset : Nat} {text : Text}
    (returned : image.cstr offset = .ok text) :
    image.StringAt offset text :=
  cstr_loop (maxNameLen + 1) 0
    (fun index impossible => absurd impossible (Nat.not_lt_zero index))
    returned

theorem thunkSymbol_eq {library : Text} {entry : Nat} {symbol : Symbol}
    (returned : image.thunkSymbol library entry = .ok symbol) :
    image.SymbolAt library entry symbol := by
  unfold thunkSymbol at returned
  split at returned
  · rename_i flagged
    have named : symbol = ordinalSymbol library (entry % 2 ^ 16) := by
      simp only at returned
      unfold ordinalSymbol
      cases listed : winsock2Ordinal2name (entry % 2 ^ 16) with
      | none =>
          rw [listed] at returned
          rw [← Except.ok.inj returned]
          simp
      | some name =>
          rw [listed] at returned
          cases winsock : isWinsock2 library with
          | false =>
              rw [winsock] at returned
              exact (Except.ok.inj returned).symm
          | true =>
              rw [winsock] at returned
              exact (Except.ok.inj returned).symm
    rw [named]
    exact SymbolAt.ordinal flagged
  · rename_i plain
    obtain ⟨name, found, returned⟩ := Checked.eq_ok_of_bind returned
    obtain ⟨start, moved, found⟩ := Checked.eq_ok_of_bind found
    rw [Checked.eq_of_add moved] at found
    rw [← Except.ok.inj returned]
    exact SymbolAt.name (Nat.lt_of_not_le plain) (cstr_eq found)

theorem pushSlot_eq {library : Text} {kind : ImportKind}
    {symbol : Option Symbol} {rva : Nat} {out next : List RawImport}
    (returned : image.pushSlot library kind symbol rva out = .ok next) :
    next = out ++ [image.imported library kind symbol rva] := by
  unfold pushSlot at returned
  obtain ⟨slot, found, returned⟩ := Checked.eq_ok_of_bind returned
  rw [← Except.ok.inj returned, slotAddress_eq found]
  rfl

/-! ## What the walks return -/

theorem collectThunks_eq {namesRva slotsRva : Nat} {library : Text}
    {kind : ImportKind} {out value : List RawImport}
    (returned : image.collectThunks namesRva slotsRva library kind out =
      .ok value) :
    ∃ whole, image.Thunks namesRva slotsRva library kind whole ∧
      value = out ++ whole := by
  unfold collectThunks at returned
  split at returned
  · rename_i absent
    have walked : ∃ whole, Scanned
        (fun position =>
          image.word 8 (slotsRva + position * thunkSize) = 0)
        (fun position part =>
          part = [image.imported library kind none
            (slotsRva + position * thunkSize)]) whole ∧
        value = out ++ whole := by
      apply scanned_of_forRange absorbs_append _
        (fun _ => malformed_ne_ok _) returned
      intro position collected ended result
      obtain ⟨offset, scaled, result⟩ := Checked.eq_ok_of_bind result
      obtain ⟨entryRva, moved, result⟩ := Checked.eq_ok_of_bind result
      obtain ⟨entry, found, result⟩ := Checked.eq_ok_of_bind result
      have place : entryRva = slotsRva + position * thunkSize := by
        rw [Checked.eq_of_add moved, Checked.eq_of_mul scaled]
      have entryEq : entry = image.word 8 entryRva := uint_eq found
      rw [place] at entryEq
      split at result
      · rename_i null
        rw [← Except.ok.inj result]
        exact ⟨entryEq.symm.trans null, rfl⟩
      · rename_i filled
        obtain ⟨next, pushed, result⟩ := Checked.eq_ok_of_bind result
        rw [← Except.ok.inj result]
        refine ⟨fun null => filled (entryEq.trans null), _, rfl, ?_⟩
        rw [pushSlot_eq pushed, place]
    obtain ⟨whole, scanned, split⟩ := walked
    exact ⟨whole, Thunks.unnamed absent scanned, split⟩
  · rename_i present
    have walked : ∃ whole, Scanned
        (fun position =>
          image.word 8 (namesRva + position * thunkSize) = 0)
        (fun position part =>
          ∃ symbol,
            image.SymbolAt library
              (image.word 8 (namesRva + position * thunkSize)) symbol ∧
            part = [image.imported library kind (some symbol)
              (slotsRva + position * thunkSize)]) whole ∧
        value = out ++ whole := by
      apply scanned_of_forRange absorbs_append _
        (fun _ => malformed_ne_ok _) returned
      intro position collected ended result
      obtain ⟨offset, scaled, result⟩ := Checked.eq_ok_of_bind result
      obtain ⟨entry, found, result⟩ := Checked.eq_ok_of_bind result
      have entryEq : entry = image.word 8 (namesRva + offset) :=
        field_eq found
      rw [Checked.eq_of_mul scaled] at entryEq
      split at result
      · rename_i null
        rw [← Except.ok.inj result]
        exact ⟨entryEq.symm.trans null, rfl⟩
      · rename_i filled
        obtain ⟨symbol, named, result⟩ := Checked.eq_ok_of_bind result
        obtain ⟨slotOffset, again, result⟩ := Checked.eq_ok_of_bind result
        obtain ⟨slotRva, moved, result⟩ := Checked.eq_ok_of_bind result
        obtain ⟨next, pushed, result⟩ := Checked.eq_ok_of_bind result
        have symbolAt := thunkSymbol_eq named
        rw [entryEq] at symbolAt
        rw [← Except.ok.inj result]
        refine ⟨fun null => filled (entryEq.trans null), _,
          ⟨symbol, symbolAt, rfl⟩, ?_⟩
        rw [pushSlot_eq pushed, Checked.eq_of_add moved,
          Checked.eq_of_mul again]
    obtain ⟨whole, scanned, split⟩ := walked
    exact ⟨whole, Thunks.named present scanned, split⟩

theorem parseStandard_eq {dirRva : Nat} {value : List RawImport}
    (returned : image.parseStandard dirRva = .ok value) :
    image.Standard dirRva value := by
  unfold parseStandard at returned
  have walked : ∃ whole, image.Standard dirRva whole ∧
      value = [] ++ whole := by
    apply scanned_of_forRange absorbs_append _
      (fun _ => malformed_ne_ok _) returned
    intro position collected ended result
    obtain ⟨offset, scaled, result⟩ := Checked.eq_ok_of_bind result
    obtain ⟨desc, moved, result⟩ := Checked.eq_ok_of_bind result
    obtain ⟨originalFirstThunk, original, result⟩ :=
      Checked.eq_ok_of_bind result
    obtain ⟨nameRva, name, result⟩ := Checked.eq_ok_of_bind result
    obtain ⟨firstThunk, first, result⟩ := Checked.eq_ok_of_bind result
    have place : desc = dirRva + position * importDescriptorSize := by
      rw [Checked.eq_of_add moved, Checked.eq_of_mul scaled]
    have originalEq : originalFirstThunk = image.word 4 desc :=
      uint_eq original
    have nameEq : nameRva = image.word 4 (desc + 12) := field_eq name
    have firstEq : firstThunk = image.word 4 (desc + 16) := field_eq first
    rw [place] at originalEq nameEq firstEq
    split at result
    · rename_i null
      rw [← Except.ok.inj result]
      exact ⟨nameEq.symm.trans null, rfl⟩
    · rename_i filled
      have goesOn : ¬ image.word 4
          (dirRva + position * importDescriptorSize + 12) = 0 :=
        fun null => filled (nameEq.trans null)
      split at result
      · rename_i bare
        rw [← Except.ok.inj result]
        exact ⟨goesOn, [], StandardPart.bare (firstEq.symm.trans bare),
          (List.append_nil _).symm⟩
      · rename_i bound
        obtain ⟨library, named, result⟩ := Checked.eq_ok_of_bind result
        obtain ⟨next, collectedMore, result⟩ := Checked.eq_ok_of_bind result
        obtain ⟨whole, thunks, split⟩ := collectThunks_eq collectedMore
        rw [← Except.ok.inj result]
        have stringAt := cstr_eq named
        rw [nameEq] at stringAt
        rw [originalEq, firstEq] at thunks
        exact ⟨goesOn, whole, StandardPart.bound
          (fun null => bound (firstEq.trans null)) stringAt thunks, split⟩
  obtain ⟨whole, scanned, split⟩ := walked
  rw [split]
  exact scanned

theorem fieldRva_eq {field rva : Nat} {usesRva : Bool}
    (returned : image.fieldRva field usesRva = .ok rva) :
    rva = image.resolved field usesRva := by
  unfold fieldRva at returned
  unfold resolved
  split at returned
  · rename_i uses
    rw [if_pos uses]
    exact (Except.ok.inj returned).symm
  · rename_i absolute
    rw [if_neg absolute]
    obtain ⟨_, _, returned⟩ := Checked.eq_ok_of_bind returned
    obtain ⟨_, _, returned⟩ := Checked.eq_ok_of_bind returned
    exact (Except.ok.inj returned).symm

theorem namesRva_eq {field rva : Nat} {usesRva : Bool}
    (returned : image.namesRva field usesRva = .ok rva) :
    rva = if field = 0 then 0 else image.resolved field usesRva := by
  unfold namesRva at returned
  split at returned
  · rename_i absent
    rw [if_pos absent]
    exact (Except.ok.inj returned).symm
  · rename_i present
    rw [if_neg present]
    exact fieldRva_eq returned

theorem parseDelay_eq {dirRva : Nat} {value : List RawImport}
    (returned : image.parseDelay dirRva = .ok value) :
    image.Delay dirRva value := by
  unfold parseDelay at returned
  have walked : ∃ whole, image.Delay dirRva whole ∧
      value = [] ++ whole := by
    apply scanned_of_forRange absorbs_append _
      (fun _ => malformed_ne_ok _) returned
    intro position collected ended result
    obtain ⟨offset, scaled, result⟩ := Checked.eq_ok_of_bind result
    obtain ⟨desc, moved, result⟩ := Checked.eq_ok_of_bind result
    obtain ⟨attributes, attributed, result⟩ := Checked.eq_ok_of_bind result
    obtain ⟨dllNameRva, name, result⟩ := Checked.eq_ok_of_bind result
    obtain ⟨slotsField, slots, result⟩ := Checked.eq_ok_of_bind result
    obtain ⟨namesField, names, result⟩ := Checked.eq_ok_of_bind result
    have place : desc = dirRva + position * delayDescriptorSize := by
      rw [Checked.eq_of_add moved, Checked.eq_of_mul scaled]
    have attributesEq : attributes = image.word 4 desc :=
      uint_eq attributed
    have nameEq : dllNameRva = image.word 4 (desc + 4) := field_eq name
    have slotsEq : slotsField = image.word 4 (desc + 12) := field_eq slots
    have namesEq : namesField = image.word 4 (desc + 16) := field_eq names
    rw [place] at attributesEq nameEq slotsEq namesEq
    split at result
    · rename_i null
      rw [← Except.ok.inj result]
      exact ⟨nameEq.symm.trans null, rfl⟩
    · rename_i filled
      have goesOn : ¬ image.word 4
          (dirRva + position * delayDescriptorSize + 4) = 0 :=
        fun null => filled (nameEq.trans null)
      obtain ⟨library, named, result⟩ := Checked.eq_ok_of_bind result
      have stringAt := cstr_eq named
      rw [nameEq] at stringAt
      split at result
      · rename_i empty
        rw [← Except.ok.inj result]
        exact ⟨goesOn, [], DelayPart.bare stringAt
          (Or.inl (List.isEmpty_iff.mp empty)), (List.append_nil _).symm⟩
      · rename_i filledName
        split at result
        · rename_i bare
          rw [← Except.ok.inj result]
          exact ⟨goesOn, [], DelayPart.bare stringAt
            (Or.inr (slotsEq.symm.trans bare)), (List.append_nil _).symm⟩
        · rename_i bound
          obtain ⟨namesRva, namesAt, result⟩ := Checked.eq_ok_of_bind result
          obtain ⟨slotsRva, slotsAt, result⟩ := Checked.eq_ok_of_bind result
          obtain ⟨next, collectedMore, result⟩ :=
            Checked.eq_ok_of_bind result
          obtain ⟨whole, thunks, split⟩ := collectThunks_eq collectedMore
          rw [← Except.ok.inj result]
          rw [namesRva_eq namesAt, fieldRva_eq slotsAt, attributesEq,
            slotsEq, namesEq] at thunks
          refine ⟨goesOn, whole, DelayPart.bound stringAt ?_ thunks, split⟩
          rintro (empty | null)
          · exact filledName (List.isEmpty_iff.mpr empty)
          · exact bound (slotsEq.trans null)
  obtain ⟨whole, scanned, split⟩ := walked
  rw [split]
  exact scanned

theorem directory_eq {count start position : Nat} {found : Option Nat}
    (returned : image.directory count start position = .ok found) :
    found = if count ≤ position ∨ image.word 4 (start + position * 8) = 0
      then none else some (image.word 4 (start + position * 8)) := by
  unfold directory at returned
  split at returned
  · rename_i beyond
    rw [if_pos (Or.inl beyond)]
    exact (Except.ok.inj returned).symm
  · rename_i counted
    obtain ⟨offset, scaled, returned⟩ := Checked.eq_ok_of_bind returned
    obtain ⟨rva, read, returned⟩ := Checked.eq_ok_of_bind returned
    have rvaEq : rva = image.word 4 (start + offset) := field_eq read
    rw [Checked.eq_of_mul scaled] at rvaEq
    rw [← Except.ok.inj returned, rvaEq]
    by_cases null : image.word 4 (start + position * 8) = 0
    · rw [if_pos null, if_pos (Or.inr null)]
    · rw [if_neg null, if_neg (not_or.mpr ⟨counted, null⟩)]

/-- The headers that parse name the two directories. -/
theorem parseHeaders_eq {dirs : Directories}
    (returned : image.parseHeaders = .ok dirs) :
    dirs = ⟨image.directoryEntry directoryEntryImport,
      image.directoryEntry directoryEntryDelayImport⟩ := by
  unfold parseHeaders at returned
  obtain ⟨_, _, returned⟩ := Checked.eq_ok_of_bind returned
  obtain ⟨_, _, returned⟩ := Checked.eq_ok_of_bind returned
  obtain ⟨eLfanew, lfanew, returned⟩ := Checked.eq_ok_of_bind returned
  obtain ⟨_, _, returned⟩ := Checked.eq_ok_of_bind returned
  obtain ⟨_, _, returned⟩ := Checked.eq_ok_of_bind returned
  obtain ⟨fileHeader, fileAt, returned⟩ := Checked.eq_ok_of_bind returned
  obtain ⟨_, _, returned⟩ := Checked.eq_ok_of_bind returned
  obtain ⟨_, _, returned⟩ := Checked.eq_ok_of_bind returned
  obtain ⟨optional, optionalAt, returned⟩ := Checked.eq_ok_of_bind returned
  obtain ⟨_, _, returned⟩ := Checked.eq_ok_of_bind returned
  obtain ⟨_, _, returned⟩ := Checked.eq_ok_of_bind returned
  obtain ⟨_, _, returned⟩ := Checked.eq_ok_of_bind returned
  obtain ⟨_, _, returned⟩ := Checked.eq_ok_of_bind returned
  obtain ⟨_, _, returned⟩ := Checked.eq_ok_of_bind returned
  obtain ⟨count, counted, returned⟩ := Checked.eq_ok_of_bind returned
  obtain ⟨start, started, returned⟩ := Checked.eq_ok_of_bind returned
  obtain ⟨standard, first, returned⟩ := Checked.eq_ok_of_bind returned
  obtain ⟨delay, second, returned⟩ := Checked.eq_ok_of_bind returned
  have lfanewEq : eLfanew = image.word 4 0x3C := uint_eq lfanew
  have fileEq := eq_of_checkedAdd (Checked.eq_some_of_require fileAt)
  have optionalEq := eq_of_checkedAdd (Checked.eq_some_of_require optionalAt)
  have place : optional = image.word 4 0x3C + 24 := by
    rw [← lfanewEq]
    omega
  have countEq : count = image.word 4 (optional + 108) := field_eq counted
  have startEq := Checked.eq_of_add started
  rw [← Except.ok.inj returned, directory_eq first, directory_eq second,
    startEq, countEq, place]
  rfl

/-! ## The imports of an image -/

/-- What follows the standard imports: the whole list of the delay imports
where their walk succeeds, and nothing otherwise. -/
theorem delayImports_eq (word : image.size < 2 ^ 64) {dirs : Directories}
    (near : Near dirs) :
    ∃ delay, image.delayImports dirs = .ok delay ∧
      match dirs.delay with
      | none => delay = []
      | some rva =>
          (image.parseDelay rva = .ok delay ∧
            ∀ imports, image.Delay rva imports ↔ imports = delay) ∨
          ((∀ imports, image.parseDelay rva ≠ .ok imports) ∧
            delay = []) := by
  unfold delayImports
  cases declared : dirs.delay with
  | none =>
      exact ⟨[], rfl, rfl⟩
  | some rva =>
      have sound := sound_parseDelay word (near.delay rva declared)
      rcases Sound.iff_ok_or_error.mp sound with
        ⟨delay, walked, _⟩ | ⟨error, failed⟩
      · refine ⟨delay, ?_, Or.inl ⟨walked, ?_⟩⟩
        · simp only [walked]
          rfl
        · intro imports
          constructor
          · intro meant
            exact meant.unique (parseDelay_eq walked)
          · rintro rfl
            exact parseDelay_eq walked
      · refine ⟨[], ?_, Or.inr ⟨?_, rfl⟩⟩
        · simp only [failed]
          rfl
        · intro imports walked
          rw [failed] at walked
          cases walked

theorem standardImports_eq {dirs : Directories} {standard : List RawImport}
    (walked : image.standardImports dirs = .ok standard) :
    match dirs.importDir with
    | none => standard = []
    | some rva =>
        ∀ imports, image.Standard rva imports ↔ imports = standard := by
  unfold standardImports at walked
  cases declared : dirs.importDir with
  | none =>
      rw [declared] at walked
      exact (Except.ok.inj walked).symm
  | some rva =>
      rw [declared] at walked
      have meant := parseStandard_eq walked
      intro imports
      constructor
      · intro also
        exact also.unique meant
      · rintro rfl
        exact meant

/-- Of an image whose headers parse and whose standard imports can be walked,
the walk returns exactly the standard imports; behind them, the delay imports
follow as a whole or not at all, whatever is in their directory. -/
theorem parseImports_means (image : MappedImage)
    (word : image.size < 2 ^ 64) {dirs : Directories}
    {standard : List RawImport} (headers : image.parseHeaders = .ok dirs)
    (walked : image.standardImports dirs = .ok standard) :
    dirs = ⟨image.directoryEntry directoryEntryImport,
        image.directoryEntry directoryEntryDelayImport⟩ ∧
      (match dirs.importDir with
      | none => standard = []
      | some rva =>
          ∀ imports, image.Standard rva imports ↔ imports = standard) ∧
      ∃ delay, image.parseImports = .ok (standard ++ delay) ∧
        match dirs.delay with
        | none => delay = []
        | some rva =>
            (image.parseDelay rva = .ok delay ∧
              ∀ imports, image.Delay rva imports ↔ imports = delay) ∨
            ((∀ imports, image.parseDelay rva ≠ .ok imports) ∧
              delay = []) := by
  have near : Near dirs := by
    have sound := sound_parseHeaders image
    rw [headers] at sound
    exact sound
  obtain ⟨delay, delayed, meant⟩ := delayImports_eq word near
  refine ⟨parseHeaders_eq headers, standardImports_eq walked, delay, ?_,
    meant⟩
  unfold parseImports
  rw [headers]
  change (do
    let standard ← image.standardImports dirs
    let delay ← image.delayImports dirs
    pure (standard ++ delay)) = _
  rw [walked]
  change (do
    let delay ← image.delayImports dirs
    pure (standard ++ delay)) = _
  rw [delayed]
  rfl

/-- The image with one import, and a delay directory past its end. -/
def spoiltDelay : MappedImage where
  base := oneImport.base
  size := oneImport.size
  hostMachine := oneImport.hostMachine
  memory address :=
    if address = 4292 then 14
    else if address = 4401 then 2
    else oneImport.memory address

theorem parseImports_means_spoilt :
    (∀ imports, spoiltDelay.Standard 256 imports ↔
      imports =
        [⟨['k'], some (.name ['f']), none, 4432, .standard, false⟩]) ∧
      ∃ delay,
        spoiltDelay.parseImports = .ok
          ([⟨['k'], some (.name ['f']), none, 4432, .standard, false⟩] ++
            delay) ∧
        ((spoiltDelay.parseDelay 512 = .ok delay ∧
            ∀ imports, spoiltDelay.Delay 512 imports ↔ imports = delay) ∨
          ((∀ imports, spoiltDelay.parseDelay 512 ≠ .ok imports) ∧
            delay = [])) :=
  (@parseImports_means spoiltDelay (by decide) ⟨some 256, some 512⟩ _
    (by decide +kernel) (by decide +kernel)).2

end MappedImage

end Hookfs.Plthook.Pe
