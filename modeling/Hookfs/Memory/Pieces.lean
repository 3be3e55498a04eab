import Hookfs.Memory.Held
import Hookfs.Memory.Provider
import Hookfs.Memory.Reference

/-!
# Writing in pieces

A write of joined buffers does what a write of the first one does, and then,
if that was whole, what a write of the rest does behind it.  An error of the
second write is no error of the whole.
-/

namespace Hookfs.Memory

open Hookfs.Lib Hookfs.Vfs

/-- A second write behind a first one that wanted to place so many bytes. -/
def behind {State : Type} (wanted : Nat)
    (first : Except IoError Nat × State)
    (second : State → Except IoError Nat × State) :
    Except IoError Nat × State :=
  match first with
  | (.error error, state) => (.error error, state)
  | (.ok count, state) =>
      if count < wanted then (.ok count, state)
      else
        match second state with
        | (.error _, last) => (.ok count, last)
        | (.ok more, last) => (.ok (count + more), last)

section Behind

variable {State : Type} {wanted count : Nat} {state last : State}
  {second : State → Except IoError Nat × State}

theorem behind_error (error : IoError) :
    behind wanted (.error error, state) second = (.error error, state) :=
  rfl

theorem behind_short (short : count < wanted) :
    behind wanted (.ok count, state) second = (.ok count, state) :=
  if_pos short

theorem behind_whole (whole : wanted ≤ count) {more : Nat}
    (there : second state = (.ok more, last)) :
    behind wanted (.ok count, state) second = (.ok (count + more), last) := by
  unfold behind
  simp only [if_neg (Nat.not_lt.mpr whole), there]

theorem behind_spent (whole : wanted ≤ count) {error : IoError}
    (there : second state = (.error error, last)) :
    behind wanted (.ok count, state) second = (.ok count, last) := by
  unfold behind
  simp only [if_neg (Nat.not_lt.mpr whole), there]

/-- A view of the states that the second write respects. -/
theorem behind_map {View : Type} (wanted : Nat) (view : State → View)
    (first : Except IoError Nat × State)
    (second : State → Except IoError Nat × State)
    (seen : View → Except IoError Nat × View)
    (respects : ∀ state, seen (view state) =
      ((second state).1, view (second state).2)) :
    behind wanted (first.1, view first.2) seen =
      ((behind wanted first second).1,
        view (behind wanted first second).2) := by
  obtain ⟨result, state⟩ := first
  cases result with
  | error error =>
      rfl
  | ok count =>
      unfold behind
      simp only [respects]
      split
      · rfl
      · rcases second state with ⟨result, last⟩
        cases result with
        | error error =>
            rfl
        | ok more =>
            rfl

end Behind

/-! ## Byte arrays -/

section Bytes

variable {pos : Nat} {first second data : List UInt8}

theorem getD_written (pos : Nat) (bytes data : List UInt8) (index : Nat) :
    (written pos bytes data).getD index 0 =
      writtenByte pos bytes data index := by
  rw [List.getD_eq_getElem?_getD]
  unfold written
  by_cases inside : index < max data.length (pos + bytes.length)
  · rw [List.getElem?_map, List.getElem?_range inside]
    rfl
  · have beyond : writtenByte pos bytes data index = 0 := by
      unfold writtenByte
      rw [if_neg (by omega), List.getD_eq_getElem?_getD,
        List.getElem?_eq_none (by omega), Option.getD_none]
    rw [beyond, List.getElem?_eq_none]
    · rfl
    · rw [List.length_map, List.length_range]
      omega

/-- The byte at an index of joined buffers. -/
theorem writtenByte_append (index : Nat) :
    writtenByte (pos + first.length) second (written pos first data) index =
      writtenByte pos (first ++ second) data index := by
  have before := getD_written pos first data index
  unfold writtenByte at before ⊢
  rw [before, List.length_append]
  by_cases later : pos + first.length ≤ index ∧
      index < pos + first.length + second.length
  · rw [if_pos later, if_pos (by omega), List.getD_eq_getElem?_getD,
      List.getD_eq_getElem?_getD, List.getElem?_append_right (by omega)]
    congr 2
    omega
  · rw [if_neg later]
    by_cases among : pos ≤ index ∧ index < pos + first.length
    · rw [if_pos among, if_pos (by omega), List.getD_eq_getElem?_getD,
        List.getD_eq_getElem?_getD, List.getElem?_append_left (by omega)]
    · rw [if_neg among, if_neg (by omega)]

theorem written_append :
    written (pos + first.length) second (written pos first data) =
      written pos (first ++ second) data := by
  have reach : max (written pos first data).length
      (pos + first.length + second.length) =
        max data.length (pos + (first ++ second).length) := by
    rw [length_written, List.length_append]
    omega
  unfold written at reach ⊢
  rw [reach]
  exact List.map_congr_left fun index _ => writtenByte_append index

end Bytes

/-! ## One file -/

namespace MemFile

variable {file : MemFile} {volume : Volume} {pos : Nat}
  {buf first second : List UInt8}

/-- Where the volume ends for the file: its bytes and the free ones. -/
def top (file : MemFile) (volume : Volume) : Nat :=
  file.data.length + (volume.capacity - volume.used)

/-- How far a write may reach in the file. -/
def limit (file : MemFile) (volume : Volume) (target : Nat) : Nat :=
  max file.data.length (min target (file.top volume))

theorem reach_eq_limit (target : Nat) :
    Reference.reach volume.capacity volume.used file.data.length target =
      file.limit volume target := by
  unfold Reference.reach limit top
  omega

/-- The file with the first bytes of a buffer placed. -/
def placed (now : Time) (pos count : Nat) (buf : List UInt8)
    (file : MemFile) : MemFile :=
  { file with data := written pos (buf.take count) file.data, mtime := some now }

theorem charge_charge {old : Nat} (enough : old ≤ volume.used)
    (middle new : Nat) :
    (volume.charge old middle).charge middle new = volume.charge old new := by
  unfold Volume.charge
  congr 1
  simp only
  omega

theorem writeAt_full (sound : MemoryFs.Sound file volume) (now : Time)
    (nonempty : buf ≠ []) (word : pos + buf.length < 2 ^ 64)
    (full : file.limit volume (pos + buf.length) ≤ pos) :
    file.writeAt now pos buf volume = (.error noSpace, file, volume) := by
  have wrote := writeAt_eq sound now pos buf
  have refused : Reference.write volume.capacity volume.used pos buf
      file.data = .error noSpace := by
    unfold Reference.write
    rw [if_neg nonempty, if_neg (Nat.not_le.mpr word), reach_eq_limit]
    exact if_pos full
  rw [refused] at wrote
  exact wrote

theorem writeAt_room (sound : MemoryFs.Sound file volume) (now : Time)
    (nonempty : buf ≠ []) (word : pos + buf.length < 2 ^ 64) {count : Nat}
    (some : 0 < count)
    (counted : count =
      min buf.length (file.limit volume (pos + buf.length) - pos)) :
    file.writeAt now pos buf volume =
      (.ok count, file.placed now pos count buf,
        volume.charge file.data.length
          (max file.data.length (pos + count))) := by
  have wrote := writeAt_eq sound now pos buf
  have granted : Reference.write volume.capacity volume.used pos buf
      file.data = .ok (count, written pos (buf.take count) file.data) := by
    unfold Reference.write
    rw [if_neg nonempty, if_neg (Nat.not_le.mpr word), reach_eq_limit,
      counted]
    exact if_neg (by omega)
  rw [granted] at wrote
  simp only at wrote
  have whole : (buf.take count).length = count := by
    rw [List.length_take]
    omega
  rw [wrote, length_written, whole, if_neg nonempty]
  rfl

theorem writeAt_le {now : Time} {count : Nat}
    (wrote : (file.writeAt now pos buf volume).1 = .ok count) :
    count ≤ buf.length := by
  unfold MemFile.writeAt at wrote
  split at wrote
  · cases wrote
    exact Nat.zero_le _
  · simp only at wrote
    split at wrote
    · cases wrote
    · split at wrote
      · cases wrote
      · cases wrote
        exact Nat.min_le_right _ _

section Append

variable (sound : MemoryFs.Sound file volume) (now : Time)
  (nonempty : first ≠ [])
  (word : pos + first.length + second.length < 2 ^ 63)
include sound nonempty word

/-- The volume ends within the first buffer, so the second does not matter. -/
theorem writeAt_append_cut (cut : file.top volume < pos + first.length) :
    file.writeAt now pos (first ++ second) volume =
      behind first.length (file.writeAt now pos first volume)
        fun state => state.1.writeAt now (pos + first.length) second
          state.2 := by
  have both : first ++ second ≠ [] :=
    List.append_ne_nil_of_left_ne_nil nonempty second
  have joined : (first ++ second).length = first.length + second.length :=
    List.length_append
  have within : file.data.length ≤ file.top volume := Nat.le_add_right _ _
  have near : file.limit volume (pos + first.length) = file.top volume := by
    unfold limit
    omega
  have far : file.limit volume (pos + (first ++ second).length) =
      file.top volume := by
    unfold limit
    omega
  by_cases full : file.top volume ≤ pos
  · rw [writeAt_full sound now nonempty (by omega) (near.trans_le full),
      behind_error]
    exact writeAt_full sound now both (by omega) (far.trans_le full)
  · have one : file.top volume - pos = min first.length
        (file.limit volume (pos + first.length) - pos) := by
      rw [near]
      omega
    have all : file.top volume - pos = min (first ++ second).length
        (file.limit volume (pos + (first ++ second).length) - pos) := by
      rw [far]
      omega
    rw [writeAt_room sound now nonempty (by omega) (by omega) one,
      behind_short (by omega),
      writeAt_room sound now both (by omega) (by omega) all]
    unfold placed
    rw [List.take_append_of_le_length (by omega)]

omit nonempty word in
/-- A write that stays within the volume keeps its end where it is. -/
theorem sound_placed {count : Nat} (fits : pos + count ≤ file.top volume)
    (whole : count ≤ buf.length) :
    MemoryFs.Sound (file.placed now pos count buf)
        (volume.charge file.data.length
          (max file.data.length (pos + count))) ∧
      (file.placed now pos count buf).data.length =
        max file.data.length (pos + count) ∧
      (file.placed now pos count buf).top
          (volume.charge file.data.length
            (max file.data.length (pos + count))) = file.top volume := by
  have enough := sound.enough
  have within := sound.within
  have taken : (buf.take count).length = count := by
    rw [List.length_take]
    omega
  have grown : (file.placed now pos count buf).data.length =
      max file.data.length (pos + count) := by
    unfold placed
    rw [length_written, taken]
  unfold top at fits ⊢
  refine ⟨⟨?_, ?_, sound.small, sound.exact⟩, grown, ?_⟩
  · rw [grown]
    simp only [Volume.charge]
    omega
  · simp only [Volume.charge]
    omega
  · rw [grown]
    simp only [Volume.charge]
    omega

/-- The first buffer is placed whole, and the second starts behind it. -/
theorem writeAt_append_whole (more : second ≠ [])
    (fits : pos + first.length ≤ file.top volume) :
    file.writeAt now pos (first ++ second) volume =
      behind first.length (file.writeAt now pos first volume)
        fun state => state.1.writeAt now (pos + first.length) second
          state.2 := by
  have both : first ++ second ≠ [] :=
    List.append_ne_nil_of_left_ne_nil nonempty second
  have some : 0 < first.length := List.length_pos_iff.mpr nonempty
  have joined : (first ++ second).length = first.length + second.length :=
    List.length_append
  obtain ⟨later, grown, still⟩ := sound_placed sound now fits le_rfl
  obtain ⟨last, far⟩ : ∃ last,
      file.limit volume (pos + (first ++ second).length) = last := ⟨_, rfl⟩
  have one : first.length = min first.length
      (file.limit volume (pos + first.length) - pos) := by
    unfold limit
    omega
  have next : (file.placed now pos first.length first).limit
      (volume.charge file.data.length
        (max file.data.length (pos + first.length)))
      (pos + first.length + second.length) = last := by
    rw [← far]
    unfold limit
    rw [grown, still, joined]
    omega
  have reached : pos + first.length ≤ last := by
    rw [← far]
    unfold limit
    omega
  rw [writeAt_room sound now nonempty (by omega) some one]
  by_cases spent : last ≤ pos + first.length
  · have all : first.length = min (first ++ second).length
        (file.limit volume (pos + (first ++ second).length) - pos) := by
      rw [far]
      omega
    rw [behind_spent le_rfl
        (writeAt_full later now more (by omega) (next.trans_le spent)),
      writeAt_room sound now both (by omega) some all]
    unfold placed
    rw [List.take_append_of_le_length le_rfl]
  · have others : 0 < second.length := List.length_pos_iff.mpr more
    obtain ⟨extra, extraEq⟩ : ∃ extra,
        extra = min second.length (last - (pos + first.length)) := ⟨_, rfl⟩
    have all : first.length + extra = min (first ++ second).length
        (file.limit volume (pos + (first ++ second).length) - pos) := by
      rw [far]
      omega
    have behindBoth : max (max file.data.length (pos + first.length))
        (pos + first.length + extra) =
          max file.data.length (pos + (first.length + extra)) := by
      rw [max_assoc, max_eq_right (Nat.le_add_right _ _), Nat.add_assoc]
    rw [behind_whole le_rfl (writeAt_room later now more (by omega)
        (by omega) (next ▸ extraEq)),
      writeAt_room sound now both (by omega) (by omega) all, grown,
      charge_charge sound.enough, behindBoth]
    unfold placed
    rw [List.take_length, List.take_length_add_append, ← written_append]

/-- A write of joined buffers is one write behind the other. -/
theorem writeAt_append (more : second ≠ []) :
    file.writeAt now pos (first ++ second) volume =
      behind first.length (file.writeAt now pos first volume)
        fun state => state.1.writeAt now (pos + first.length) second
          state.2 := by
  rcases Nat.lt_or_ge (file.top volume) (pos + first.length) with cut | fits
  · exact writeAt_append_cut sound now nonempty word cut
  · exact writeAt_append_whole sound now nonempty word more fits

end Append

end MemFile

/-! ## Streams -/

namespace MemoryFs

variable {fs : MemoryFs} {limit : Nat} {outside : Nat → Nat}
  {first second : List UInt8}

theorem Leaky.sound (charged : Leaky (Counted limit) fs outside) {id : Nat}
    {content : MemFile} (present : fs.files.lookup id = some content) :
    Sound content fs.volume := by
  obtain ⟨leaked, counted⟩ := charged
  exact counted.sound present

theorem saturatingAdd_add (pos count more : Nat) :
    saturatingAdd pos (count + more) =
      saturatingAdd (saturatingAdd pos count) more := by
  unfold saturatingAdd
  omega

/-- The cursor behind a write. -/
def advanced (pos : Nat) : Except IoError Nat → Nat
  | .ok count => saturatingAdd pos count
  | .error _ => pos

/-- A write through a handle, from its file's write. -/
theorem writeHandle_of_present {id pos : Nat} {content : MemFile}
    (present : fs.files.lookup id = some content) (now : Time)
    (buf : List UInt8) {result : Except IoError Nat} {next : MemFile}
    {volume : Volume}
    (wrote : content.writeAt now pos buf fs.volume = (result, next, volume)) :
    fs.writeHandle now id pos buf =
      (result, .memory id (advanced pos result),
        { fs with files := fs.files.insert id next, volume := volume }) := by
  unfold writeHandle writeFile
  rw [present]
  simp only [wrote]
  cases result with
  | error error =>
      rfl
  | ok count =>
      rfl

/-- A write through a handle whose file is gone. -/
theorem writeHandle_of_absent {id : Nat}
    (absent : fs.files.lookup id = none) (now : Time) (pos : Nat)
    (buf : List UInt8) :
    fs.writeHandle now id pos buf =
      (.ok 0, .memory id (saturatingAdd pos 0), fs) := by
  unfold writeHandle writeFile
  rw [absent]

/-- A write of joined buffers through a handle. -/
theorem writeHandle_append (charged : Leaky (Counted limit) fs outside)
    (now : Time) (id : Nat) {pos : Nat} (nonempty : first ≠ [])
    (more : second ≠ [])
    (word : pos + first.length + second.length < 2 ^ 63) :
    fs.writeHandle now id pos (first ++ second) =
      behind first.length (fs.writeHandle now id pos first) fun state =>
        state.1.write now second state.2 := by
  cases present : fs.files.lookup id with
  | none =>
      have nothing := writeHandle_of_absent present now pos
      rw [nothing, nothing, behind_short (List.length_pos_iff.mpr nonempty)]
  | some content =>
      have whole := content.writeAt_append (charged.sound present) now
        nonempty word more
      rcases wrote : content.writeAt now pos first fs.volume with
        ⟨result, next, left⟩
      have one := writeHandle_of_present present now first wrote
      rw [wrote] at whole
      rw [one]
      cases result with
      | error error =>
          rw [behind_error] at whole ⊢
          exact writeHandle_of_present present now _ whole
      | ok count =>
          have few : count ≤ first.length := by
            apply content.writeAt_le
            rw [wrote]
          by_cases short : count < first.length
          · rw [behind_short short] at whole ⊢
            exact writeHandle_of_present present now _ whole
          · have all : count = first.length := by omega
            have plain : saturatingAdd pos count = pos + first.length := by
              unfold saturatingAdd wordMax
              omega
            have here : AList.lookup id (fs.files.insert id next) =
                some next := AList.lookup_insert _
            rw [show advanced pos (.ok count) = pos + first.length from plain]
            rcases later : next.writeAt now (pos + first.length) second left
              with ⟨answer, last, rest⟩
            have two : Stream.write now second
                (.memory id (pos + first.length))
                { fs with files := fs.files.insert id next, volume := left } =
                  _ := writeHandle_of_present here now second later
            simp only [AList.insert_insert] at two
            cases answer with
            | error error =>
                rw [behind_spent all.ge later] at whole
                rw [behind_spent all.ge two,
                  writeHandle_of_present present now _ whole]
                simp only [advanced, plain]
            | ok extra =>
                rw [behind_whole all.ge later] at whole
                rw [behind_whole all.ge two,
                  writeHandle_of_present present now _ whole]
                simp only [advanced, ← plain, saturatingAdd_add]

theorem Stream.write_ok {now : Time} {stream : Stream} {buf : List UInt8}
    {count : Nat} (wrote : (stream.write now buf fs).1 = .ok count) :
    count ≤ buf.length ∧
      (stream.write now buf fs).2.1.position ≤ stream.position + count := by
  cases stream with
  | source origin pos =>
      cases wrote
  | memory id pos =>
      cases present : fs.files.lookup id with
      | none =>
          have nothing : (Stream.memory id pos).write now buf fs = _ :=
            writeHandle_of_absent present now pos buf
          rw [nothing] at wrote ⊢
          cases wrote
          exact ⟨Nat.zero_le _, Nat.min_le_left _ _⟩
      | some content =>
          rcases outcome : content.writeAt now pos buf fs.volume with
            ⟨result, next, left⟩
          have through : (Stream.memory id pos).write now buf fs = _ :=
            writeHandle_of_present present now buf outcome
          rw [through] at wrote ⊢
          simp only at wrote
          subst wrote
          constructor
          · apply content.writeAt_le
            rw [outcome]
          · exact Nat.min_le_left _ _

theorem Stream.write_append (charged : Leaky (Counted limit) fs outside)
    (now : Time) {stream : Stream} (nonempty : first ≠ [])
    (more : second ≠ [])
    (word : stream.position + first.length + second.length < 2 ^ 63) :
    stream.write now (first ++ second) fs =
      behind first.length (stream.write now first fs) fun state =>
        state.1.write now second state.2 := by
  cases stream with
  | source origin pos =>
      rfl
  | memory id pos =>
      exact writeHandle_append charged now id nonempty more word

end MemoryFs

end Hookfs.Memory
