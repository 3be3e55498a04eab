import Hookfs.Lib.Keyed
import Hookfs.Lib.Scan
import Hookfs.Plthook.ElfView

/-!
# What the ELF walker enumerates

The imports of an ELF image, said from what its view reads: the dynamic
entries before the null entry, the chain of version needs, and the entries of
the two relocation tables.  An image has at most one list of imports.
-/

namespace Hookfs.Plthook.Elf

open Hookfs.Lib Hookfs.Posix Hookfs.Plthook

/-! ## The dynamic array -/

/-- The value of the last dynamic entry with a tag. -/
def lastValue (entries : List (Int × Nat)) (tag : Int) : Option Nat :=
  (lastBy Prod.fst entries tag).map Prod.snd

/-- The dynamic entries that the walk needs, by their tags. -/
def DynamicInfo.ofEntries (entries : List (Int × Nat)) : DynamicInfo where
  symtab := lastValue entries 6
  syment := lastValue entries 11
  strtab := lastValue entries 5
  strsz := lastValue entries 10
  jmprel := lastValue entries 23
  pltrelsz := lastValue entries 2
  pltrel := lastValue entries 20
  rela := lastValue entries 7
  relasz := lastValue entries 8
  relaent := lastValue entries 9
  versym := lastValue entries 0x6ffffff0
  verneed := lastValue entries 0x6ffffffe
  verneednum := lastValue entries 0x6fffffff

/-- A record of the version needs: its masked index, its version and the
library that provides it. -/
structure VersionNeed where
  index : Nat
  version : Text
  soname : Text

/-- The version and the library of an index, by the last record that has
it. -/
def provider (needs : List VersionNeed) (index : Nat) : Option Text × Text :=
  match lastBy VersionNeed.index needs index with
  | some need => (some need.version, need.soname)
  | none => (none, [])

/-- The tables of an image. -/
structure Layout where
  dynamic : DynamicInfo
  versym : Option Nat
  symtab : Nat
  strtab : Nat
  strsz : Nat
  needs : List VersionNeed

namespace ElfView

/-! ## Reading judgments -/

/-- The number in so many bytes at a cursor. -/
def Word (view : ElfView) (width cursor value : Nat) : Prop :=
  ∃ bytes, view.read cursor width = .ok bytes ∧ value = littleEndian bytes

/-- The tag of a dynamic entry, in two's complement. -/
def Tag (view : ElfView) (cursor : Nat) (tag : Int) : Prop :=
  ∃ value, view.Word 8 cursor value ∧
    tag = if value < 2 ^ 63 then (value : Int) else value - 2 ^ 64

/-- The bytes from a cursor up to a NUL. -/
inductive BytesAt (view : ElfView) : Nat → List UInt8 → Prop where
  | nul {cursor : Nat} (here : view.read cursor 1 = .ok [0]) :
      BytesAt view cursor []
  | more {cursor : Nat} {byte : UInt8} {rest : List UInt8}
      (here : view.read cursor 1 = .ok [byte]) (solid : byte ≠ 0)
      (later : BytesAt view (cursor + 1) rest) :
      BytesAt view cursor (byte :: rest)

/-- The string at an offset of the string table; its NUL is in the table. -/
def StringAt (view : ElfView) (strtab strsz offset : Nat) (text : Text) :
    Prop :=
  ∃ bytes, view.BytesAt (strtab + offset) bytes ∧
    offset + bytes.length < strsz ∧ text = fromUtf8Lossy bytes

/-! ## The tables -/

/-- The entries of the dynamic array before its null entry. -/
def DynamicEntries (view : ElfView) : List (Int × Nat) → Prop :=
  Scanned
    (fun position =>
      view.Tag (view.dynamicCursor + position * dynSize) 0)
    (fun position part =>
      ∃ tag value,
        view.Tag (view.dynamicCursor + position * dynSize) tag ∧
        view.Word 8 (view.dynamicCursor + position * dynSize + 8) value ∧
        part = [(tag, value)])

/-- An `Elf64_Vernaux`: the next one, and its record. -/
def Vernaux (view : ElfView) (strtab strsz : Nat) (soname : Text)
    (cursor next : Nat) (part : List VersionNeed) : Prop :=
  ∃ other name version,
    view.Word 2 (cursor + 6) other ∧ view.Word 4 (cursor + 8) name ∧
    view.Word 4 (cursor + 12) next ∧
    view.StringAt strtab strsz name version ∧
    part = [⟨other &&& versymVersionMask, version, soname⟩]

/-- An `Elf64_Verneed`: the next one, and the records of its chain. -/
def Verneed (view : ElfView) (strtab strsz cursor next : Nat)
    (part : List VersionNeed) : Prop :=
  ∃ count file aux soname,
    view.Word 2 (cursor + 2) count ∧ view.Word 4 (cursor + 4) file ∧
    view.Word 4 (cursor + 8) aux ∧ view.Word 4 (cursor + 12) next ∧
    view.StringAt strtab strsz file soname ∧
    Chain (view.Vernaux strtab strsz soname) (min count maxVernaux)
      (cursor + aux) part

/-- The records along the chains of version needs. -/
inductive Needs (view : ElfView) (dynamic : DynamicInfo)
    (strtab strsz : Nat) : List VersionNeed → Prop where
  | absent (missing : dynamic.verneed = none) :
      Needs view dynamic strtab strsz []
  | present {pointer first : Nat} {whole : List VersionNeed}
      (declared : dynamic.verneed = some pointer)
      (starts : view.vaddrCursor pointer = .ok first)
      (chain : Chain (view.Verneed strtab strsz)
        (min (dynamic.verneednum.getD maxVerneed) maxVerneed) first whole) :
      Needs view dynamic strtab strsz whole

/-- A table that a dynamic entry may point to. -/
inductive TableAt (view : ElfView) (declared : Option Nat) :
    Option Nat → Prop where
  | absent (missing : declared = none) : TableAt view declared none
  | present {pointer cursor : Nat} (here : declared = some pointer)
      (starts : view.dynptrCursor pointer = .ok cursor) :
      TableAt view declared (some cursor)

/-- The tables are those of the image. -/
structure LaidOut (view : ElfView) (layout : Layout) : Prop where
  dynamic : ∃ entries, view.DynamicEntries entries ∧
    layout.dynamic = DynamicInfo.ofEntries entries
  symtab : view.TableAt layout.dynamic.symtab (some layout.symtab)
  strtab : view.TableAt layout.dynamic.strtab (some layout.strtab)
  strsz : layout.dynamic.strsz = some layout.strsz
  versym : view.TableAt layout.dynamic.versym layout.versym
  needs : view.Needs layout.dynamic layout.strtab layout.strsz layout.needs

/-! ## The imports -/

/-- The version and the library of a symbol. -/
inductive VersionAt (view : ElfView) (layout : Layout) (symIndex : Nat) :
    Option Text × Text → Prop where
  | unversioned (missing : layout.versym = none) :
      VersionAt view layout symIndex (none, [])
  | unnamed {table raw : Nat} (versym : layout.versym = some table)
      (here : view.Word 2 (table + symIndex * 2) raw)
      (low : raw &&& versymVersionMask ≤ verNdxGlobal) :
      VersionAt view layout symIndex (none, [])
  | named {table raw : Nat} (versym : layout.versym = some table)
      (here : view.Word 2 (table + symIndex * 2) raw)
      (high : verNdxGlobal < raw &&& versymVersionMask) :
      VersionAt view layout symIndex
        (provider layout.needs (raw &&& versymVersionMask))

/-- The imports of a relocation entry: one if it is of the wanted type and its
symbol has a name. -/
inductive RelaPart (view : ElfView) (layout : Layout)
    (wantType entry : Nat) : List RawImport → Prop where
  | other {info : Nat} (kind : view.Word 8 (entry + 8) info)
      (unwanted : info % 2 ^ 32 ≠ wantType) :
      RelaPart view layout wantType entry []
  | unnamed {info : Nat} (kind : view.Word 8 (entry + 8) info)
      (wanted : info % 2 ^ 32 = wantType)
      (nameless : view.Word 4
        (layout.symtab + info / 2 ^ 32 * symSize) 0) :
      RelaPart view layout wantType entry []
  | named {info offset stName slot : Nat} {name library : Text}
      {version : Option Text} (kind : view.Word 8 (entry + 8) info)
      (wanted : info % 2 ^ 32 = wantType)
      (symbol : view.Word 4
        (layout.symtab + info / 2 ^ 32 * symSize) stName)
      (nonzero : stName ≠ 0)
      (called : view.StringAt layout.strtab layout.strsz stName name)
      (versioned : view.VersionAt layout (info / 2 ^ 32) (version, library))
      (place : view.Word 8 entry offset)
      (target : view.slotAddress offset = .ok slot) :
      RelaPart view layout wantType entry
        [⟨library, some (.name name), version, slot, .standard, false⟩]

/-- The imports of a whole relocation table, which is within the cap. -/
def RelaTable (view : ElfView) (layout : Layout)
    (wantType table tableSize entsize : Nat) (whole : List RawImport) :
    Prop :=
  entsize ≠ 0 ∧ tableSize / entsize ≤ maxRelocs ∧
    Joined
      (fun position =>
        view.RelaPart layout wantType (table + position * entsize))
      0 (tableSize / entsize) whole

/-- The imports of `DT_JMPREL`, where `DT_PLTREL` says RELA. -/
inductive JumpSlots (view : ElfView) (layout : Layout) (jumpSlot : Nat) :
    List RawImport → Prop where
  | absent (missing : layout.dynamic.jmprel = none ∨
        layout.dynamic.pltrelsz = none ∨
        layout.dynamic.pltrel ≠ some dtPltrelIsRela) :
      JumpSlots view layout jumpSlot []
  | present {pointer size table : Nat} {whole : List RawImport}
      (declared : layout.dynamic.jmprel = some pointer)
      (sized : layout.dynamic.pltrelsz = some size)
      (form : layout.dynamic.pltrel = some dtPltrelIsRela)
      (starts : view.dynptrCursor pointer = .ok table)
      (imports : view.RelaTable layout jumpSlot table size relaSize whole) :
      JumpSlots view layout jumpSlot whole

/-- The imports of `DT_RELA`. -/
inductive GlobDats (view : ElfView) (layout : Layout) (globDat : Nat) :
    List RawImport → Prop where
  | absent (missing : layout.dynamic.rela = none) :
      GlobDats view layout globDat []
  | present {pointer size table : Nat} {whole : List RawImport}
      (declared : layout.dynamic.rela = some pointer)
      (sized : layout.dynamic.relasz = some size)
      (starts : view.dynptrCursor pointer = .ok table)
      (imports : view.RelaTable layout globDat table size
        (layout.dynamic.relaent.getD relaSize) whole) :
      GlobDats view layout globDat whole

/-- The imports of an image: those of its jump slots, and behind them those of
its data slots. -/
inductive Imports (view : ElfView) : List RawImport → Prop where
  | both {kinds : RelocKinds} {layout : Layout}
      {slots data : List RawImport}
      (machine : relocKinds view.machine = some kinds)
      (laidOut : view.LaidOut layout)
      (jumpSlots : view.JumpSlots layout kinds.jumpSlot slots)
      (globDats : view.GlobDats layout kinds.globDat data) :
      Imports view (slots ++ data)

/-! ## Each judgment determines its value -/

variable {view : ElfView}

theorem Word.unique {width cursor left right : Nat}
    (first : view.Word width cursor left)
    (second : view.Word width cursor right) : left = right := by
  obtain ⟨bytes, read, rfl⟩ := first
  obtain ⟨other, again, rfl⟩ := second
  rw [Except.ok.inj (read.symm.trans again)]

theorem Tag.unique {cursor : Nat} {left right : Int}
    (first : view.Tag cursor left) (second : view.Tag cursor right) :
    left = right := by
  obtain ⟨value, word, rfl⟩ := first
  obtain ⟨other, again, rfl⟩ := second
  rw [word.unique again]

theorem BytesAt.unique {cursor : Nat} {left right : List UInt8}
    (first : view.BytesAt cursor left) (second : view.BytesAt cursor right) :
    left = right := by
  induction first generalizing right with
  | nul here =>
      cases second with
      | nul _ =>
          rfl
      | more there solid _ =>
          have same := Except.ok.inj (here.symm.trans there)
          exact absurd (List.head_eq_of_cons_eq same).symm solid
  | more here solid later inductionHypothesis =>
      cases second with
      | nul there =>
          have same := Except.ok.inj (here.symm.trans there)
          exact absurd (List.head_eq_of_cons_eq same) solid
      | more there _ otherLater =>
          have same := Except.ok.inj (here.symm.trans there)
          rw [List.head_eq_of_cons_eq same, inductionHypothesis otherLater]

theorem StringAt.unique {strtab strsz offset : Nat} {left right : Text}
    (first : view.StringAt strtab strsz offset left)
    (second : view.StringAt strtab strsz offset right) : left = right := by
  obtain ⟨bytes, here, _, rfl⟩ := first
  obtain ⟨other, there, _, rfl⟩ := second
  rw [here.unique there]

theorem DynamicEntries.unique {left right : List (Int × Nat)}
    (first : view.DynamicEntries left) (second : view.DynamicEntries right) :
    left = right := by
  apply Scanned.unique _ first second
  intro position firstPart secondPart here there
  obtain ⟨tag, value, tagged, valued, rfl⟩ := here
  obtain ⟨otherTag, otherValue, otherTagged, otherValued, rfl⟩ := there
  rw [tagged.unique otherTagged, valued.unique otherValued]

theorem Vernaux.unique {strtab strsz cursor next otherNext : Nat}
    {soname : Text} {left right : List VersionNeed}
    (first : view.Vernaux strtab strsz soname cursor next left)
    (second : view.Vernaux strtab strsz soname cursor otherNext right) :
    next = otherNext ∧ left = right := by
  obtain ⟨other, name, version, masked, named, linked, text, rfl⟩ := first
  obtain ⟨_, _, _, otherMasked, otherNamed, otherLinked, otherText, rfl⟩ :=
    second
  rw [named.unique otherNamed] at text
  rw [masked.unique otherMasked, text.unique otherText]
  exact ⟨linked.unique otherLinked, rfl⟩

theorem Verneed.unique {strtab strsz cursor next otherNext : Nat}
    {left right : List VersionNeed}
    (first : view.Verneed strtab strsz cursor next left)
    (second : view.Verneed strtab strsz cursor otherNext right) :
    next = otherNext ∧ left = right := by
  obtain ⟨count, file, aux, soname, counted, filed, auxed, linked, text,
    chain⟩ := first
  obtain ⟨_, _, _, _, otherCounted, otherFiled, otherAuxed, otherLinked,
    otherText, otherChain⟩ := second
  rw [filed.unique otherFiled] at text
  rw [counted.unique otherCounted, auxed.unique otherAuxed,
    text.unique otherText] at chain
  refine ⟨linked.unique otherLinked, ?_⟩
  exact chain.unique (fun _ _ _ _ _ here there => here.unique there)
    otherChain

theorem Needs.unique {dynamic : DynamicInfo} {strtab strsz : Nat}
    {left right : List VersionNeed}
    (first : view.Needs dynamic strtab strsz left)
    (second : view.Needs dynamic strtab strsz right) : left = right := by
  cases first with
  | absent missing =>
      cases second with
      | absent _ =>
          rfl
      | present declared _ _ =>
          rw [missing] at declared
          cases declared
  | present declared starts chain =>
      cases second with
      | absent missing =>
          rw [missing] at declared
          cases declared
      | present again otherStarts otherChain =>
          have samePointer := Option.some.inj (again.symm.trans declared)
          rw [samePointer, starts] at otherStarts
          rw [← Except.ok.inj otherStarts] at otherChain
          exact chain.unique
            (fun _ _ _ _ _ here there => here.unique there) otherChain

theorem TableAt.unique {declared left right : Option Nat}
    (first : view.TableAt declared left)
    (second : view.TableAt declared right) : left = right := by
  cases first with
  | absent missing =>
      cases second with
      | absent _ =>
          rfl
      | present here _ =>
          rw [missing] at here
          cases here
  | present here starts =>
      cases second with
      | absent missing =>
          rw [missing] at here
          cases here
      | present again otherStarts =>
          rw [Option.some.inj (again.symm.trans here), starts] at otherStarts
          rw [Except.ok.inj otherStarts]

theorem LaidOut.unique {left right : Layout} (first : view.LaidOut left)
    (second : view.LaidOut right) : left = right := by
  obtain ⟨dynamic, versym, symtab, strtab, strsz, needs⟩ := left
  obtain ⟨otherDynamic, otherVersym, otherSymtab, otherStrtab, otherStrsz,
    otherNeeds⟩ := right
  obtain ⟨entries, listed, dynamicEq⟩ := first.dynamic
  obtain ⟨otherEntries, otherListed, otherEq⟩ := second.dynamic
  simp only at dynamicEq otherEq
  have sameDynamic : otherDynamic = dynamic := by
    rw [otherEq, dynamicEq, listed.unique otherListed]
  subst sameDynamic
  have sameSymtab := Option.some.inj (first.symtab.unique second.symtab)
  have sameStrtab := Option.some.inj (first.strtab.unique second.strtab)
  have sameStrsz := Option.some.inj (first.strsz.symm.trans second.strsz)
  have sameVersym := first.versym.unique second.versym
  simp only at sameSymtab sameStrtab sameStrsz sameVersym
  subst sameSymtab sameStrtab sameStrsz sameVersym
  have sameNeeds := first.needs.unique second.needs
  simp only at sameNeeds
  rw [sameNeeds]

theorem VersionAt.unique {layout : Layout} {symIndex : Nat}
    {left right : Option Text × Text}
    (first : view.VersionAt layout symIndex left)
    (second : view.VersionAt layout symIndex right) : left = right := by
  -- the table and the entry decide which rule applies
  have same : ∀ {table other raw otherRaw : Nat},
      layout.versym = some table → layout.versym = some other →
        view.Word 2 (table + symIndex * 2) raw →
          view.Word 2 (other + symIndex * 2) otherRaw → raw = otherRaw := by
    intro table other raw otherRaw here there read again
    rw [Option.some.inj (here.symm.trans there)] at read
    exact read.unique again
  cases first with
  | unversioned missing =>
      cases second with
      | unversioned _ =>
          rfl
      | unnamed _ _ _ =>
          rfl
      | named versym _ _ =>
          rw [missing] at versym
          cases versym
  | unnamed versym here low =>
      cases second with
      | unversioned _ =>
          rfl
      | unnamed _ _ _ =>
          rfl
      | named otherVersym there high =>
          rw [← same versym otherVersym here there] at high
          exact absurd low (Nat.not_le_of_lt high)
  | named versym here high =>
      cases second with
      | unversioned missing =>
          rw [missing] at versym
          cases versym
      | unnamed otherVersym there low =>
          rw [← same versym otherVersym here there] at low
          exact absurd low (Nat.not_le_of_lt high)
      | named otherVersym there _ =>
          rw [same versym otherVersym here there]

theorem RelaPart.unique {layout : Layout} {wantType entry : Nat}
    {left right : List RawImport}
    (first : view.RelaPart layout wantType entry left)
    (second : view.RelaPart layout wantType entry right) : left = right := by
  cases first with
  | other kind unwanted =>
      cases second with
      | other _ _ =>
          rfl
      | unnamed _ _ _ =>
          rfl
      | named again wanted _ _ _ _ _ _ =>
          rw [kind.unique again] at unwanted
          exact absurd wanted unwanted
  | unnamed kind wanted nameless =>
      cases second with
      | other _ _ =>
          rfl
      | unnamed _ _ _ =>
          rfl
      | named again _ symbol nonzero _ _ _ _ =>
          rw [kind.unique again] at nameless
          exact absurd (symbol.unique nameless) nonzero
  | named kind wanted symbol nonzero called versioned place target =>
      cases second with
      | other again unwanted =>
          rw [← kind.unique again] at unwanted
          exact absurd wanted unwanted
      | unnamed again _ nameless =>
          rw [← kind.unique again] at nameless
          exact absurd (symbol.unique nameless) nonzero
      | named again _ otherSymbol _ otherCalled otherVersioned otherPlace
          otherTarget =>
          rw [← kind.unique again] at otherSymbol otherVersioned
          rw [← symbol.unique otherSymbol] at otherCalled
          rw [← place.unique otherPlace, target] at otherTarget
          have sameVersion := versioned.unique otherVersioned
          rw [Prod.mk.injEq] at sameVersion
          rw [called.unique otherCalled, sameVersion.1, sameVersion.2,
            Except.ok.inj otherTarget]

theorem RelaTable.unique {layout : Layout}
    {wantType table tableSize entsize : Nat} {left right : List RawImport}
    (first : view.RelaTable layout wantType table tableSize entsize left)
    (second : view.RelaTable layout wantType table tableSize entsize right) :
    left = right :=
  first.2.2.unique (fun _ _ _ here there => here.unique there) second.2.2

theorem JumpSlots.unique {layout : Layout} {jumpSlot : Nat}
    {left right : List RawImport}
    (first : view.JumpSlots layout jumpSlot left)
    (second : view.JumpSlots layout jumpSlot right) : left = right := by
  cases first with
  | absent missing =>
      cases second with
      | absent _ =>
          rfl
      | present declared sized form _ _ =>
          rw [declared, sized] at missing
          simp [form] at missing
  | present declared sized form starts imports =>
      cases second with
      | absent missing =>
          rw [declared, sized] at missing
          simp [form] at missing
      | present again otherSized _ otherStarts otherImports =>
          have samePointer := Option.some.inj (again.symm.trans declared)
          rw [samePointer, starts] at otherStarts
          have sameSize := Option.some.inj (otherSized.symm.trans sized)
          rw [← Except.ok.inj otherStarts, sameSize] at otherImports
          exact imports.unique otherImports

theorem GlobDats.unique {layout : Layout} {globDat : Nat}
    {left right : List RawImport}
    (first : view.GlobDats layout globDat left)
    (second : view.GlobDats layout globDat right) : left = right := by
  cases first with
  | absent missing =>
      cases second with
      | absent _ =>
          rfl
      | present declared _ _ _ =>
          rw [missing] at declared
          cases declared
  | present declared sized starts imports =>
      cases second with
      | absent missing =>
          rw [missing] at declared
          cases declared
      | present again otherSized otherStarts otherImports =>
          have samePointer := Option.some.inj (again.symm.trans declared)
          rw [samePointer, starts] at otherStarts
          have sameSize := Option.some.inj (otherSized.symm.trans sized)
          rw [← Except.ok.inj otherStarts, sameSize] at otherImports
          exact imports.unique otherImports

/-- An image has one list of imports. -/
theorem Imports.unique {left right : List RawImport}
    (first : view.Imports left) (second : view.Imports right) :
    left = right := by
  cases first with
  | both machine laidOut jumpSlots globDats =>
      cases second with
      | both otherMachine otherLaidOut otherJumpSlots otherGlobDats =>
          have sameKinds :=
            Option.some.inj (otherMachine.symm.trans machine)
          rw [sameKinds, otherLaidOut.unique laidOut] at otherJumpSlots
          rw [sameKinds, otherLaidOut.unique laidOut] at otherGlobDats
          rw [jumpSlots.unique otherJumpSlots,
            globDats.unique otherGlobDats]

end ElfView

end Hookfs.Plthook.Elf
