import Hookfs.Plthook.MachOBounds

/-!
# Selecting a slice of a universal file

What a universal file says, read off its bytes: the table, and the first of
its entries that is for a given architecture.  `thin_slice_range` returns the
range of that entry, and the four bytes it checks are those at the start of
the range, whether or not the range holds them.
-/

namespace Hookfs.Plthook.MachO

open Hookfs.Lib Hookfs.Plthook

namespace File

/-! ## What a file says -/

/-- The big-endian number in so many bytes. -/
def bigEndian (file : File) (width off : Nat) : Nat :=
  littleEndian ((file.bytes.drop off).take width).reverse

/-- `MH_MAGIC_64` as it stands in a file. -/
def magicBytes : List UInt8 :=
  toLittleEndian 4 mhMagic64

/-- `file[range]`. -/
def slice (file : File) (range : ByteRange) : List UInt8 :=
  (file.bytes.take range.stop).drop range.start

/-- A thin 64-bit image. -/
def IsThin (file : File) : Prop :=
  magicBytes <+: file.bytes

/-- Where an entry of the table starts. -/
def entryAt (wide : Bool) (position : Nat) : Nat :=
  8 + position * (if wide then 32 else 20)

/-- The size of an offset, and of a size, in the table. -/
def fieldWidth (wide : Bool) : Nat :=
  if wide then 8 else 4

/-- An entry of the table, with its slice inside the file. -/
structure Entry (file : File) (wide : Bool) (position : Nat)
    (entry : FatArch) : Prop where
  readable : entryAt wide position + 8 + 2 * fieldWidth wide ≤
    file.bytes.length
  cpuType : entry.cpuType = file.bigEndian 4 (entryAt wide position)
  cpuSubtype :
    entry.cpuSubtype = file.bigEndian 4 (entryAt wide position + 4)
  offset : entry.range.offset =
    file.bigEndian (fieldWidth wide) (entryAt wide position + 8)
  size : entry.range.size = file.bigEndian (fieldWidth wide)
    (entryAt wide position + 8 + fieldWidth wide)
  inside : entry.range.offset + entry.range.size ≤ file.bytes.length

/-- A universal file with a table of at most 1024 entries, all of them in
bounds. -/
structure Universal (file : File) (wide : Bool) (entries : List FatArch) :
    Prop where
  readable : 8 ≤ file.bytes.length
  magic : file.bigEndian 4 0 = if wide then fatMagic64 else fatMagic
  count : file.bigEndian 4 4 = entries.length
  few : entries.length ≤ 1024
  each : ∀ position entry, entries[position]? = some entry →
    file.Entry wide position entry

/-- The architecture that an entry is for, without the capability bits. -/
def matchesArch (cpuType cpuSubtype : Nat) (entry : FatArch) : Bool :=
  entry.cpuType = cpuType &&
    maskSubtype entry.cpuSubtype = maskSubtype cpuSubtype

/-- The first entry for an architecture. -/
def FirstMatch (file : File) (cpuType cpuSubtype : Nat) (entry : FatArch) :
    Prop :=
  ∃ wide entries, file.Universal wide entries ∧
    entries.find? (matchesArch cpuType cpuSubtype) = some entry

/-- The range of an entry. -/
def rangeOf (entry : FatArch) : ByteRange :=
  ⟨entry.range.offset, entry.range.offset + entry.range.size⟩

/-! ## Reads -/

section Reads

variable (file : File)

theorem readSlice_eq_ok_iff {width off : Nat} {bytes : List UInt8} :
    file.readSlice width off = .ok bytes ↔
      off + width ≤ file.bytes.length ∧
        bytes = (file.bytes.drop off).take width := by
  have short := file.short
  unfold readSlice
  constructor
  · intro returned
    obtain ⟨stop, added, returned⟩ := Checked.eq_ok_of_bind returned
    obtain ⟨_, checked, returned⟩ := Checked.eq_ok_of_bind returned
    have inside := Checked.of_ensure checked
    rw [Checked.eq_of_add added] at inside
    exact ⟨inside, (Except.ok.inj returned).symm⟩
  · intro given
    rw [Checked.add_eq_ok (by omega), Checked.bind_ok,
      Checked.ensure_eq_ok _ given.1, Checked.bind_ok, given.2]
    rfl

theorem readSliceBe_eq_ok_iff {width off value : Nat} :
    file.readSliceBe width off = .ok value ↔
      off + width ≤ file.bytes.length ∧
        value = file.bigEndian width off := by
  unfold readSliceBe
  rw [Checked.bind_eq_ok_iff]
  constructor
  · intro given
    obtain ⟨bytes, read, returned⟩ := given
    obtain ⟨inside, same⟩ := file.readSlice_eq_ok_iff.mp read
    rw [same] at returned
    exact ⟨inside, (Except.ok.inj returned).symm⟩
  · intro given
    refine ⟨_, file.readSlice_eq_ok_iff.mpr ⟨given.1, rfl⟩, ?_⟩
    rw [given.2]
    rfl

/-- The four bytes at an offset are `MH_MAGIC_64`. -/
theorem readSliceU32Le_eq_magic_iff {off : Nat} :
    file.readSliceU32Le off = .ok mhMagic64 ↔
      magicBytes <+: file.bytes.drop off := by
  unfold readSliceU32Le
  rw [Checked.bind_eq_ok_iff, List.prefix_iff_eq_take]
  have length : magicBytes.length = 4 := length_toLittleEndian 4 mhMagic64
  constructor
  · intro given
    obtain ⟨bytes, read, returned⟩ := given
    obtain ⟨inside, same⟩ := file.readSlice_eq_ok_iff.mp read
    have four : bytes.length = 4 := by
      rw [same, List.length_take, List.length_drop]
      omega
    have value : littleEndian bytes = mhMagic64 := Except.ok.inj returned
    rw [length, ← same, magicBytes, ← value, ← four,
      toLittleEndian_littleEndian]
  · intro same
    have inside : off + 4 ≤ file.bytes.length := by
      have count := congrArg List.length same
      rw [length, List.length_take, List.length_drop] at count
      omega
    rw [length] at same
    refine ⟨magicBytes, file.readSlice_eq_ok_iff.mpr ⟨inside, same⟩, ?_⟩
    exact congrArg Except.ok (littleEndian_toLittleEndian 4 mhMagic64)

theorem fatRange_eq_ok_iff (wide : Bool) {entry : Nat} {range : SliceRange}
    (low : entry < 2 ^ 31) :
    file.fatRange wide entry = .ok range ↔
      entry + 8 + 2 * fieldWidth wide ≤ file.bytes.length ∧
        range.offset = file.bigEndian (fieldWidth wide) (entry + 8) ∧
        range.size = file.bigEndian (fieldWidth wide)
          (entry + 8 + fieldWidth wide) := by
  have field : ∀ width far value, far < 2 ^ 31 →
      ((Checked.add entry far >>= file.readSliceBe width) = .ok value ↔
        entry + far + width ≤ file.bytes.length ∧
          value = file.bigEndian width (entry + far)) := by
    intro width far value near
    rw [Checked.add_eq_ok (by omega), Checked.bind_ok,
      readSliceBe_eq_ok_iff]
  have both : file.fatRange wide entry =
      (do
        let offset ← Checked.add entry 8 >>=
          file.readSliceBe (fieldWidth wide)
        let size ← Checked.add entry (8 + fieldWidth wide) >>=
          file.readSliceBe (fieldWidth wide)
        pure ⟨offset, size⟩) := by
    cases wide <;> rfl
  have narrow : fieldWidth wide ≤ 8 := by
    cases wide <;> decide
  rw [both]
  simp only [Checked.bind_eq_ok_iff, field _ 8 _ (by omega),
    field _ (8 + fieldWidth wide) _ (by omega)]
  constructor
  · intro given
    obtain ⟨offset, ⟨_, offsetEq⟩, size, ⟨inside, sizeEq⟩, returned⟩ := given
    have same := Except.ok.inj returned
    rw [← same, offsetEq, sizeEq]
    exact ⟨by omega, rfl, by rw [Nat.add_assoc]⟩
  · intro given
    obtain ⟨inside, offsetEq, sizeEq⟩ := given
    refine ⟨range.offset, ⟨by omega, offsetEq⟩, range.size,
      ⟨by omega, ?_⟩, rfl⟩
    rw [sizeEq, Nat.add_assoc]

/-! ## The table -/

theorem fatEntry_eq_ok_iff (wide : Bool) {position : Nat}
    {slices next : List FatArch} (few : position < 2 ^ 16) :
    file.fatEntry wide position slices = .ok next ↔
      ∃ entry, file.Entry wide position entry ∧ next = slices ++ [entry] := by
  have stride : position * (if wide then 32 else 20) ≤ position * 32 := by
    apply Nat.mul_le_mul_left
    cases wide <;> decide
  have low : entryAt wide position < 2 ^ 31 := by
    unfold entryAt
    omega
  have short := file.short
  have start : file.fatEntry wide position slices =
      (do
        let cpuType ← file.readSliceU32Be (entryAt wide position)
        let cpuSubtype ← file.readSliceU32Be (entryAt wide position + 4)
        let range ← file.fatRange wide (entryAt wide position)
        let stop ← Checked.require (checkedAdd range.offset range.size)
          (.malformed "fat slice overflow")
        Checked.ensure (stop ≤ file.bytes.length)
          (.malformed "fat slice out of bounds")
        pure (slices ++ [⟨cpuType, cpuSubtype, range⟩])) := by
    unfold fatEntry
    rw [Checked.mul_eq_ok (by omega), Checked.bind_ok,
      Checked.add_eq_ok (by omega), Checked.bind_ok,
      Checked.add_eq_ok (by unfold entryAt at low; omega)]
    rfl
  rw [start]
  simp only [readSliceU32Be, Checked.bind_eq_ok_iff, readSliceBe_eq_ok_iff,
    file.fatRange_eq_ok_iff wide low]
  constructor
  · intro given
    obtain ⟨cpuType, ⟨_, typeEq⟩, cpuSubtype, ⟨_, subtypeEq⟩, range,
      ⟨readable, offsetEq, sizeEq⟩, stop, summed, _, checked, returned⟩ :=
        given
    have stopEq := eq_of_checkedAdd (Checked.eq_some_of_require summed)
    have inside := Checked.of_ensure checked
    rw [stopEq.1] at inside
    exact ⟨⟨cpuType, cpuSubtype, range⟩,
      ⟨readable, typeEq, subtypeEq, offsetEq, sizeEq, inside⟩,
      (Except.ok.inj returned).symm⟩
  · intro given
    obtain ⟨entry, means, same⟩ := given
    have readable := means.readable
    have inside := means.inside
    have summed : checkedAdd entry.range.offset entry.range.size =
        some (entry.range.offset + entry.range.size) :=
      if_pos (by unfold wordMax; omega)
    refine ⟨entry.cpuType, ⟨by omega, means.cpuType⟩,
      entry.cpuSubtype, ⟨by omega, means.cpuSubtype⟩, entry.range,
      ⟨readable, means.offset, means.size⟩, _, by rw [summed]; rfl, (),
      Checked.ensure_eq_ok _ inside, ?_⟩
    rw [same]
    rfl

/-- The entries from a position on. -/
theorem fatEntries_eq_ok_iff (wide : Bool) {container : Container} :
    ∀ (count start : Nat) (slices : List FatArch), start + count ≤ 1024 →
      (forRange
          (fun position slices => do
            let slices ← file.fatEntry wide position slices
            pure (.next slices))
          (fun slices => pure (Container.fat slices)) count start slices =
          .ok container ↔
        ∃ entries, entries.length = count ∧
          (∀ position entry, entries[position]? = some entry →
            file.Entry wide (start + position) entry) ∧
          container = .fat (slices ++ entries))
  | 0, start, slices, _ => by
      constructor
      · intro returned
        refine ⟨[], rfl, nofun, ?_⟩
        rw [List.append_nil]
        exact (Except.ok.inj returned).symm
      · intro given
        obtain ⟨entries, none, _, same⟩ := given
        rw [List.length_eq_zero_iff.mp none, List.append_nil] at same
        rw [same]
        rfl
  | count + 1, start, slices, few => by
      have later := fun entry => @fatEntries_eq_ok_iff wide container
        count (start + 1) (slices ++ [entry]) (by omega)
      rw [forRange_next_succ, Checked.bind_eq_ok_iff]
      simp only [file.fatEntry_eq_ok_iff wide (show start < 2 ^ 16 by omega)]
      constructor
      · intro given
        obtain ⟨_, ⟨entry, means, rfl⟩, returned⟩ := given
        obtain ⟨entries, length, each, same⟩ := (later entry).mp returned
        refine ⟨entry :: entries, by rw [List.length_cons, length], ?_, ?_⟩
        · intro position other here
          cases position with
          | zero =>
              rw [List.getElem?_cons_zero, Option.some.injEq] at here
              rw [← here]
              exact means
          | succ position =>
              rw [List.getElem?_cons_succ] at here
              have there := each position other here
              rwa [Nat.add_assoc, Nat.add_comm 1] at there
        · rw [same, List.append_assoc, List.singleton_append]
      · intro given
        obtain ⟨entries, length, each, same⟩ := given
        cases entries with
        | nil =>
            cases length
        | cons entry entries =>
            refine ⟨_, ⟨entry, each 0 entry rfl, rfl⟩, ?_⟩
            refine (later entry).mpr ⟨entries, by simpa using length, ?_, ?_⟩
            · intro position other here
              rw [Nat.add_assoc, Nat.add_comm 1]
              exact each (position + 1) other here
            · rw [same, List.append_assoc, List.singleton_append]

/-- A table in bounds is read as it stands. -/
theorem parseFat_eq_ok_iff (wide : Bool) {container : Container} :
    file.parseFat wide = .ok container ↔
      ∃ entries, 8 ≤ file.bytes.length ∧
        file.bigEndian 4 4 = entries.length ∧ entries.length ≤ 1024 ∧
        (∀ position entry, entries[position]? = some entry →
          file.Entry wide position entry) ∧
        container = .fat entries := by
  unfold parseFat readSliceU32Be
  simp only [Checked.bind_eq_ok_iff, readSliceBe_eq_ok_iff]
  constructor
  · intro given
    obtain ⟨_, ⟨readable, rfl⟩, _, checked, returned⟩ := given
    have few := Checked.of_ensure checked
    obtain ⟨entries, length, each, same⟩ :=
      (file.fatEntries_eq_ok_iff wide _ 0 [] (by omega)).mp returned
    simp only [Nat.zero_add] at each
    exact ⟨entries, readable, length.symm, by omega, each, same⟩
  · intro given
    obtain ⟨entries, readable, count, few, each, same⟩ := given
    refine ⟨_, ⟨readable, count.symm⟩, (), Checked.ensure_eq_ok _ few, ?_⟩
    apply (file.fatEntries_eq_ok_iff wide _ 0 [] (by omega)).mpr
    simp only [Nat.zero_add]
    exact ⟨entries, rfl, each, same⟩

/-! ## The kind of file -/

/-- A big-endian number determines its bytes. -/
theorem take_of_bigEndian {width off value : Nat}
    (inside : off + width ≤ file.bytes.length)
    (same : file.bigEndian width off = value) :
    (file.bytes.drop off).take width =
      (toLittleEndian width value).reverse := by
  have length : ((file.bytes.drop off).take width).reverse.length = width := by
    rw [List.length_reverse, List.length_take, List.length_drop]
    omega
  have bytes := toLittleEndian_littleEndian
    ((file.bytes.drop off).take width).reverse
  rw [length] at bytes
  rw [← same, bigEndian, bytes, List.reverse_reverse]

theorem parseFat_ne_thin (wide : Bool) : file.parseFat wide ≠ .ok .thin := by
  intro returned
  obtain ⟨entries, _, _, _, _, impossible⟩ :=
    (file.parseFat_eq_ok_iff wide).mp returned
  cases impossible

theorem classifyFat_ne_thin : file.classifyFat ≠ .ok .thin := by
  intro returned
  unfold classifyFat at returned
  obtain ⟨magic, _, returned⟩ := Checked.eq_ok_of_bind returned
  split at returned
  · exact file.parseFat_ne_thin false returned
  · split at returned
    · exact file.parseFat_ne_thin true returned
    · cases returned

theorem classify_eq_thin_iff : file.classify = .ok .thin ↔ file.IsThin := by
  have read : file.readSliceU32Le 0 = .ok mhMagic64 ↔
      magicBytes <+: file.bytes := by
    rw [readSliceU32Le_eq_magic_iff, List.drop_zero]
  unfold IsThin
  rw [← read]
  unfold classify
  rw [Checked.bind_eq_ok_iff]
  constructor
  · intro given
    obtain ⟨magic, here, returned⟩ := given
    split at returned
    · rename_i thin
      rw [here, thin]
    · split at returned
      · cases returned
      · split at returned
        · cases returned
        · exact absurd returned file.classifyFat_ne_thin
  · intro here
    exact ⟨mhMagic64, here, if_pos rfl⟩

/-- The magic number of a universal file is none of an image. -/
theorem classify_of_fatMagic {wide : Bool} (readable : 8 ≤ file.bytes.length)
    (magic : file.bigEndian 4 0 = if wide then fatMagic64 else fatMagic) :
    file.classify = file.parseFat wide := by
  have bytes := @take_of_bigEndian file 4 0 _ (by omega) magic
  have little : file.readSliceU32Le 0 =
      .ok (littleEndian
        (toLittleEndian 4
          (if wide then fatMagic64 else fatMagic)).reverse) := by
    unfold readSliceU32Le
    rw [Checked.bind_eq_ok_iff]
    exact ⟨_, file.readSlice_eq_ok_iff.mpr ⟨by omega, bytes.symm⟩, rfl⟩
  have big : file.readSliceU32Be 0 =
      .ok (if wide then fatMagic64 else fatMagic) :=
    file.readSliceBe_eq_ok_iff.mpr ⟨by omega, magic.symm⟩
  unfold classify classifyFat
  rw [little, Checked.bind_ok, big, Checked.bind_ok]
  cases wide with
  | false =>
      rw [if_neg (by decide), if_neg (by decide), if_neg (by decide)]
      rfl
  | true =>
      rw [if_neg (by decide), if_neg (by decide), if_neg (by decide)]
      rfl

theorem classify_eq_fat_iff {entries : List FatArch} :
    file.classify = .ok (.fat entries) ↔
      ∃ wide, file.Universal wide entries := by
  have universal : ∀ {wide}, file.readSliceU32Be 0 =
        .ok (if wide then fatMagic64 else fatMagic) →
      file.parseFat wide = .ok (.fat entries) →
        file.Universal wide entries := by
    intro wide big returned
    obtain ⟨others, readable, count, few, each, same⟩ :=
      (file.parseFat_eq_ok_iff wide).mp returned
    injection same with same
    subst same
    have magic := (file.readSliceBe_eq_ok_iff.mp big).2
    exact ⟨readable, magic.symm, count, few, each⟩
  constructor
  · intro returned
    unfold classify at returned
    obtain ⟨_, _, returned⟩ := Checked.eq_ok_of_bind returned
    split at returned
    · cases returned
    · split at returned
      · cases returned
      · split at returned
        · cases returned
        · unfold classifyFat at returned
          obtain ⟨magic, big, returned⟩ := Checked.eq_ok_of_bind returned
          split at returned
          · rename_i narrow
            rw [narrow] at big
            exact ⟨false, @universal false big returned⟩
          · split at returned
            · rename_i wide
              rw [wide] at big
              exact ⟨true, @universal true big returned⟩
            · cases returned
  · intro given
    obtain ⟨wide, whole⟩ := given
    rw [file.classify_of_fatMagic whole.readable whole.magic,
      parseFat_eq_ok_iff]
    exact ⟨entries, whole.readable, whole.count, whole.few, whole.each, rfl⟩

theorem Universal.inside {file : File} {wide : Bool}
    {entries : List FatArch} (whole : file.Universal wide entries) :
    file.Inside entries := by
  intro entry member
  obtain ⟨position, here⟩ := List.mem_iff_getElem?.mp member
  exact (whole.each position entry here).inside

/-! ## The loop over the slices -/

theorem selectSlice_of_other {cpuType cpuSubtype : Nat} {entry : FatArch}
    (other : ¬ matchesArch cpuType cpuSubtype entry = true) :
    file.selectSlice cpuType cpuSubtype entry () = .ok (.next ()) := by
  apply if_pos
  by_contra neither
  rw [not_or, not_not, not_not] at neither
  apply other
  simp [matchesArch, neither.1, neither.2]

/-- The check of the magic number looks at the file, not at the slice. -/
theorem selectSlice_of_match {cpuType cpuSubtype : Nat} {entry : FatArch}
    (fits : matchesArch cpuType cpuSubtype entry = true)
    (inside : entry.range.offset + entry.range.size ≤ file.bytes.length)
    {ended : Round Unit ByteRange} :
    file.selectSlice cpuType cpuSubtype entry () = .ok ended ↔
      magicBytes <+: file.bytes.drop entry.range.offset ∧
        ended = .done (rangeOf entry) := by
  have short := file.short
  have summed : checkedAdd entry.range.offset entry.range.size =
      some (entry.range.offset + entry.range.size) :=
    if_pos (by unfold wordMax; omega)
  have same : ¬ (entry.cpuType ≠ cpuType ∨
      maskSubtype entry.cpuSubtype ≠ maskSubtype cpuSubtype) := by
    simp only [matchesArch, Bool.and_eq_true, decide_eq_true_eq] at fits
    rw [not_or, not_not, not_not]
    exact fits
  unfold selectSlice
  rw [if_neg same, summed, Checked.require, Checked.bind_ok]
  simp only [Checked.bind_eq_ok_iff, ← readSliceU32Le_eq_magic_iff]
  constructor
  · intro given
    obtain ⟨magic, read, _, checked, returned⟩ := given
    rw [Checked.of_ensure checked] at read
    exact ⟨read, (Except.ok.inj returned).symm⟩
  · intro given
    refine ⟨mhMagic64, given.1, (), Checked.ensure_eq_ok _ rfl, ?_⟩
    rw [given.2]
    rfl

theorem selectSlices_eq_ok_iff {cpuType cpuSubtype : Nat}
    {range : ByteRange} {slices : List FatArch} (inside : file.Inside slices) :
    forEach (file.selectSlice cpuType cpuSubtype)
        (fun _ => malformed
          "no universal slice matches the loaded architecture")
        slices () = .ok range ↔
      ∃ entry, slices.find? (matchesArch cpuType cpuSubtype) = some entry ∧
        magicBytes <+: file.bytes.drop entry.range.offset ∧
        range = rangeOf entry := by
  induction slices with
  | nil =>
      constructor
      · intro returned
        cases returned
      · intro given
        obtain ⟨_, none, _⟩ := given
        cases none
  | cons entry rest inductionHypothesis =>
      have later := inductionHypothesis fun other member =>
        inside other (List.mem_cons_of_mem entry member)
      have within := inside entry List.mem_cons_self
      rw [forEach]
      by_cases fits : matchesArch cpuType cpuSubtype entry = true
      · rw [List.find?_cons_of_pos fits]
        have chosen := fun ended =>
          @selectSlice_of_match file cpuType cpuSubtype entry fits within ended
        simp only [Option.some.injEq]
        cases outcome : file.selectSlice cpuType cpuSubtype entry () with
        | error fault =>
            constructor
            · intro returned
              cases returned
            · intro given
              obtain ⟨_, rfl, magic, _⟩ := given
              have impossible := (chosen _).mpr ⟨magic, rfl⟩
              rw [outcome] at impossible
              cases impossible
        | ok ended =>
            obtain ⟨magic, rfl⟩ := (chosen ended).mp outcome
            constructor
            · intro returned
              exact ⟨entry, rfl, magic, (Except.ok.inj returned).symm⟩
            · intro given
              obtain ⟨_, rfl, _, same⟩ := given
              rw [same]
      · rw [List.find?_cons_of_neg fits, file.selectSlice_of_other fits]
        exact later

theorem thinSliceRange_eq_ok_iff {cpuType cpuSubtype : Nat}
    {range : ByteRange} :
    file.thinSliceRange cpuType cpuSubtype = .ok range ↔
      (file.IsThin ∧ range = ⟨0, file.bytes.length⟩) ∨
        ∃ entry, file.FirstMatch cpuType cpuSubtype entry ∧
          magicBytes <+: file.bytes.drop entry.range.offset ∧
          range = rangeOf entry := by
  unfold thinSliceRange
  rw [Checked.bind_eq_ok_iff]
  constructor
  · intro given
    obtain ⟨container, kind, returned⟩ := given
    cases container with
    | thin =>
        have thin := file.classify_eq_thin_iff.mp kind
        exact Or.inl ⟨thin, (Except.ok.inj returned).symm⟩
    | fat slices =>
        obtain ⟨wide, whole⟩ := file.classify_eq_fat_iff.mp kind
        obtain ⟨entry, first, magic, same⟩ :=
          (file.selectSlices_eq_ok_iff whole.inside).mp returned
        exact Or.inr ⟨entry, ⟨wide, slices, whole, first⟩, magic, same⟩
  · intro given
    rcases given with thin | universal
    · refine ⟨.thin, file.classify_eq_thin_iff.mpr thin.1, ?_⟩
      rw [thin.2]
      rfl
    · obtain ⟨entry, ⟨wide, slices, whole, first⟩, magic, same⟩ := universal
      refine ⟨.fat slices, file.classify_eq_fat_iff.mpr ⟨wide, whole⟩, ?_⟩
      exact (file.selectSlices_eq_ok_iff whole.inside).mpr
        ⟨entry, first, magic, same⟩

end Reads

/-! ## Exactness -/

/-- Every range that is returned is the right one, and there is one whenever
the first matching slice begins with the magic number. -/
structure SelectsExactly (file : File) (cpuType cpuSubtype : Nat) : Prop where
  inside : ∀ range, file.thinSliceRange cpuType cpuSubtype = .ok range →
    range.start ≤ range.stop ∧ range.stop ≤ file.bytes.length
  magic : ∀ range, file.thinSliceRange cpuType cpuSubtype = .ok range →
    magicBytes <+: file.slice range
  selected : ∀ range, file.thinSliceRange cpuType cpuSubtype = .ok range →
    (file.IsThin ∧ range = ⟨0, file.bytes.length⟩) ∨
      (¬ file.IsThin ∧ ∃ entry, file.FirstMatch cpuType cpuSubtype entry ∧
        range = rangeOf entry)
  found : ∀ entry, file.FirstMatch cpuType cpuSubtype entry →
    magicBytes <+: file.slice (rangeOf entry) →
      ∃ range, file.thinSliceRange cpuType cpuSubtype = .ok range

/-- The first matching slice is too small for the magic number that stands
where it starts. -/
def TooSmall (file : File) (cpuType cpuSubtype : Nat) : Prop :=
  ∃ entry, file.FirstMatch cpuType cpuSubtype entry ∧
    entry.range.size < 4 ∧
    magicBytes <+: file.bytes.drop entry.range.offset

theorem FirstMatch.inside {file : File} {cpuType cpuSubtype : Nat}
    {entry : FatArch} (first : file.FirstMatch cpuType cpuSubtype entry) :
    entry.range.offset + entry.range.size ≤ file.bytes.length := by
  obtain ⟨wide, entries, whole, found⟩ := first
  exact whole.inside entry (List.mem_of_find?_eq_some found)

/-- A thin file is not universal. -/
theorem FirstMatch.not_thin {file : File} {cpuType cpuSubtype : Nat}
    {entry : FatArch} (first : file.FirstMatch cpuType cpuSubtype entry) :
    ¬ file.IsThin := by
  intro thin
  obtain ⟨wide, entries, whole, _⟩ := first
  have fat := file.classify_eq_fat_iff.mpr ⟨wide, whole⟩
  rw [file.classify_eq_thin_iff.mpr thin] at fat
  cases fat

theorem magic_slice_iff (file : File) (entry : FatArch) :
    magicBytes <+: file.slice (rangeOf entry) ↔
      magicBytes <+: file.bytes.drop entry.range.offset ∧
        4 ≤ entry.range.size := by
  have piece : file.slice (rangeOf entry) =
      (file.bytes.drop entry.range.offset).take entry.range.size := by
    unfold slice rangeOf
    rw [List.drop_take, Nat.add_sub_cancel_left]
  rw [piece, List.prefix_take_iff]
  rfl

/-- For every file and every architecture: the selection is exact if and only
if the first matching slice is not too small. -/
theorem thinSliceRange_exact_iff (file : File) (cpuType cpuSubtype : Nat) :
    file.SelectsExactly cpuType cpuSubtype ↔
      ¬ file.TooSmall cpuType cpuSubtype := by
  constructor
  · intro exactly small
    obtain ⟨entry, first, few, magic⟩ := small
    have returned := file.thinSliceRange_eq_ok_iff.mpr
      (Or.inr ⟨entry, first, magic, rfl⟩)
    have begins := exactly.magic _ returned
    have enough := ((file.magic_slice_iff entry).mp begins).2
    omega
  · intro large
    constructor
    · intro range returned
      rcases file.thinSliceRange_eq_ok_iff.mp returned with thin | universal
      · rw [thin.2]
        exact ⟨Nat.zero_le _, Nat.le_refl _⟩
      · obtain ⟨entry, first, _, rfl⟩ := universal
        exact ⟨Nat.le_add_right _ _, first.inside⟩
    · intro range returned
      rcases file.thinSliceRange_eq_ok_iff.mp returned with thin | universal
      · rw [thin.2]
        unfold slice
        rw [List.take_length, List.drop_zero]
        exact thin.1
      · obtain ⟨entry, first, magic, rfl⟩ := universal
        rw [magic_slice_iff]
        refine ⟨magic, ?_⟩
        by_contra few
        exact large ⟨entry, first, by omega, magic⟩
    · intro range returned
      rcases file.thinSliceRange_eq_ok_iff.mp returned with thin | universal
      · exact Or.inl thin
      · obtain ⟨entry, first, _, same⟩ := universal
        exact Or.inr ⟨first.not_thin, entry, first, same⟩
    · intro entry first begins
      have magic := ((file.magic_slice_iff entry).mp begins).1
      exact ⟨_, file.thinSliceRange_eq_ok_iff.mpr
        (Or.inr ⟨entry, first, magic, rfl⟩)⟩

/-- A universal file whose only slice is empty, with the magic number of an
image behind the table. -/
def emptySlice : File where
  bytes := [fatMagic, 1, cpuTypeX8664, 3, 24, 0].flatMap
      (fun word => (toLittleEndian 4 word).reverse) ++ magicBytes
  short := by decide

/-- The empty slice is selected, and no magic number is in it. -/
theorem emptySlice_selected :
    emptySlice.thinSliceRange cpuTypeX8664 3 = .ok ⟨24, 24⟩ ∧
      ¬ ∀ (file : File) (cpuType cpuSubtype : Nat),
        file.SelectsExactly cpuType cpuSubtype := by
  have returned : emptySlice.thinSliceRange cpuTypeX8664 3 =
      .ok ⟨24, 24⟩ := by
    rfl
  refine ⟨returned, ?_⟩
  intro every
  have begins := (every emptySlice cpuTypeX8664 3).magic _ returned
  exact absurd begins (by decide)

end File

end Hookfs.Plthook.MachO
