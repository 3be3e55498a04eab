import Hookfs.Lib.Runs
import Hookfs.Lib.Sums
import Hookfs.Memory.Accounting

/-!
# Writable files against byte arrays

What a writable file and its handles are for, said without volumes, words or
reference counts: byte arrays that share a capacity, and one cursor per
handle.  The files of the source answer every sequence of operations as the
byte arrays do.
-/

namespace Hookfs.Memory

open Hookfs.Lib Hookfs.Vfs

/-! ## Byte arrays -/

/-- The byte at `index` once `bytes` stand at `pos`; beyond the end of the
data there are zeroes. -/
def writtenByte (pos : Nat) (bytes data : List UInt8) (index : Nat) : UInt8 :=
  if pos ≤ index ∧ index < pos + bytes.length then
    bytes.getD (index - pos) 0
  else data.getD index 0

def written (pos : Nat) (bytes data : List UInt8) : List UInt8 :=
  (List.range (max data.length (pos + bytes.length))).map
    (writtenByte pos bytes data)

/-- Cut off or filled up with zeroes. -/
def fitted (len : Nat) (data : List UInt8) : List UInt8 :=
  (List.range len).map fun index => data.getD index 0

/-- A cursor over one of the files. -/
structure Cursor where
  file : Nat
  pos : Nat
  deriving DecidableEq, Repr

/-- Byte arrays under one capacity, with the cursors over them. -/
structure Reference where
  capacity : Nat
  files : List (List UInt8)
  cursors : List Cursor
  deriving DecidableEq, Repr

/-- What is asked of the files and of their handles. -/
inductive FileOp where
  | newFile (now : Time)
  | newHandle (file : Nat)
  | read (handle len : Nat)
  | write (now : Time) (handle : Nat) (buf : List UInt8)
  | seek (handle : Nat) (target : SeekFrom)
  | streamPosition (handle : Nat)
  | setLen (now : Time) (handle len : Nat)
  | size (handle : Nat)

inductive FileReply where
  | missing
  | made (number : Nat)
  | bytes (read : List UInt8)
  | number (result : Except IoError Nat)
  | done (result : Except IoError Unit)
  deriving DecidableEq

namespace Reference

def start (capacity : Nat) : Reference := ⟨capacity, [], []⟩

def used (model : Reference) : Nat :=
  (model.files.map List.length).sum

/-- The length a write towards `target` may reach. -/
def reach (capacity used old target : Nat) : Nat :=
  old + min (max old target - old) (capacity - used)

/-- How many bytes a write places, and the content it leaves. -/
def write (capacity used pos : Nat) (buf data : List UInt8) :
    Except IoError (Nat × List UInt8) :=
  if buf = [] then .ok (0, data)
  else if 2 ^ 64 ≤ pos + buf.length then
    .error (.custom .invalidInput "write offset overflow")
  else
    let limit := reach capacity used data.length (pos + buf.length)
    if limit ≤ pos then .error noSpace
    else
      let count := min buf.length (limit - pos)
      .ok (count, written pos (buf.take count) data)

def setLen (capacity used len : Nat) (data : List UInt8) :
    Except IoError (List UInt8) :=
  if capacity - used < len - data.length then .error noSpace
  else .ok (fitted len data)

/-- Where a seek aims, as an integer. -/
def sought (size pos : Nat) : SeekFrom → Int
  | .start offset => offset
  | .end offset => size + offset
  | .current offset => pos + offset

/-- The target has to be a 64-bit word. -/
def seek (size pos : Nat) (target : SeekFrom) : Except IoError Nat :=
  if sought size pos target < 0 then
    .error (.custom .invalidInput "seek to a negative position")
  else if sought size pos target < 2 ^ 64 then
    .ok (sought size pos target).toNat
  else .error (.custom .invalidInput "seek offset overflow")

def setFile (file : Nat) (data : List UInt8) (model : Reference) : Reference :=
  { model with files := model.files.set file data }

def moveTo (handle pos : Nat) (cursor : Cursor) (model : Reference) :
    Reference :=
  { model with
    cursors := model.cursors.set handle { cursor with pos := pos } }

/-- An operation through a handle, on its cursor and its file's bytes. -/
def through (handle : Nat) (model : Reference)
    (operate : Cursor → List UInt8 → FileReply × Reference) :
    FileReply × Reference :=
  match model.cursors[handle]? with
  | none => (.missing, model)
  | some cursor =>
      match model.files[cursor.file]? with
      | none => (.missing, model)
      | some data => operate cursor data

def step (model : Reference) : FileOp → FileReply × Reference
  | .newFile _ =>
      (.made model.files.length, { model with files := model.files ++ [[]] })
  | .newHandle file =>
      if file < model.files.length then
        (.made model.cursors.length,
          { model with cursors := model.cursors ++ [⟨file, 0⟩] })
      else (.missing, model)
  | .read handle len =>
      model.through handle fun cursor data =>
        let bytes := (data.drop cursor.pos).take len
        (.bytes bytes,
          model.moveTo handle (cursor.pos + bytes.length) cursor)
  | .write _ handle buf =>
      model.through handle fun cursor data =>
        match write model.capacity model.used cursor.pos buf data with
        | .error error => (.number (.error error), model)
        | .ok (count, next) =>
            (.number (.ok count),
              (model.setFile cursor.file next).moveTo handle
                (cursor.pos + count) cursor)
  | .seek handle target =>
      model.through handle fun cursor data =>
        match seek data.length cursor.pos target with
        | .error error => (.number (.error error), model)
        | .ok pos => (.number (.ok pos), model.moveTo handle pos cursor)
  | .streamPosition handle =>
      model.through handle fun cursor _ =>
        (.number (.ok cursor.pos), model)
  | .setLen _ handle len =>
      model.through handle fun cursor data =>
        match setLen model.capacity model.used len data with
        | .error error => (.done (.error error), model)
        | .ok next => (.done (.ok ()), model.setFile cursor.file next)
  | .size handle =>
      model.through handle fun _ data =>
        (.number (.ok data.length), model)

end Reference

/-! ## The files of the source, with their answers -/

namespace MemoryFs.Stream

/-- The default `FileStream::size`: seek to the end, and back if that moved
the cursor. -/
def probeSize (fs : MemoryFs) (stream : Stream) :
    Except IoError Nat × Stream :=
  let current := stream.position
  match stream.seek (.end 0) fs with
  | (.error error, kept) => (.error error, kept)
  | (.ok last, moved) =>
      if current ≠ last then
        match moved.seek (.start current) fs with
        | (.error error, kept) => (.error error, kept)
        | (.ok _, restored) => (.ok last, restored)
      else (.ok last, moved)

end MemoryFs.Stream

namespace Desk

open MemoryFs

/-- `MemFileHandle::new` over a clone of a file's `Arc`. -/
def newHandle (file : Nat) (desk : Desk) : FileReply × Desk :=
  match desk.fs.files.lookup file with
  | none => (.missing, desk)
  | some _ =>
      (.made desk.nextHandle,
        { fs := desk.fs.cloneFile file
          handles := desk.handles.insert desk.nextHandle (.memory file 0)
          nextHandle := desk.nextHandle + 1 })

/-- An operation through a handle. -/
def through (handle : Nat) (desk : Desk)
    (operate : Stream → FileReply × Stream × MemoryFs) :
    FileReply × Desk :=
  match desk.handles.lookup handle with
  | none => (.missing, desk)
  | some stream =>
      let (reply, next, fs) := operate stream
      (reply, desk.store handle next fs)

/-- `Write for MemFileHandle` and `WritableFile::set_len` are those of a
writable file; a mounted source has neither. -/
def serve (physical : Physical) (desk : Desk) : FileOp → FileReply × Desk
  | .newFile now =>
      (.made (desk.fs.newFile now).1,
        { desk with fs := (desk.fs.newFile now).2 })
  | .newHandle file => desk.newHandle file
  | .read handle len =>
      desk.through handle fun stream =>
        match stream.read physical len desk.fs with
        | (.error error, next) => (.number (.error error), next, desk.fs)
        | (.ok bytes, next) => (.bytes bytes, next, desk.fs)
  | .write now handle buf =>
      desk.through handle fun stream =>
        match stream with
        | .source _ _ => (.missing, stream, desk.fs)
        | .memory file pos =>
            let (result, next, fs) := desk.fs.writeHandle now file pos buf
            (.number result, next, fs)
  | .seek handle target =>
      desk.through handle fun stream =>
        let (result, next) := stream.seek target desk.fs
        (.number result, next, desk.fs)
  | .streamPosition handle =>
      desk.through handle fun stream =>
        (.number (.ok stream.position), stream, desk.fs)
  | .setLen now handle len =>
      desk.through handle fun stream =>
        match stream with
        | .source _ _ => (.missing, stream, desk.fs)
        | .memory file _ =>
            let (result, fs) := desk.fs.setFileLen now file len
            (.done result, stream, fs)
  | .size handle =>
      desk.through handle fun stream =>
        let (result, next) := stream.probeSize desk.fs
        (.number result, next, desk.fs)

end Desk

/-! ## What one file does -/

theorem resizeBytes_eq_fitted (len : Nat) (data : List UInt8) :
    resizeBytes len data = fitted len data := by
  apply List.ext_getElem?
  intro index
  unfold resizeBytes fitted
  by_cases inside : index < len
  · rw [List.getElem?_map, List.getElem?_range inside, Option.map_some,
      List.getD_eq_getElem?_getD]
    by_cases kept : index < data.length
    · rw [List.getElem?_append_left (by rw [List.length_take]; omega),
        List.getElem?_take_of_lt inside, List.getElem?_eq_getElem kept]
      rfl
    · rw [List.getElem?_append_right (by rw [List.length_take]; omega),
        List.getElem?_replicate_of_lt (by rw [List.length_take]; omega),
        List.getElem?_eq_none (by omega)]
      rfl
  · rw [List.getElem?_eq_none, List.getElem?_eq_none]
    · rw [List.length_map, List.length_range]
      omega
    · rw [List.length_append, List.length_take, List.length_replicate]
      omega

/-- Writing into data grown to its final length is the pointwise write. -/
theorem overwrite_fitted {pos : Nat} {bytes data : List UInt8} {len : Nat}
    (exact : len = max data.length (pos + bytes.length)) :
    overwrite pos bytes (fitted len data) = written pos bytes data := by
  have whole : (fitted len data).length = len := by
    unfold fitted
    rw [List.length_map, List.length_range]
  have byteAt : ∀ index, index < len →
      (fitted len data)[index]? = some (data.getD index 0) := by
    intro index inside
    unfold fitted
    rw [List.getElem?_map, List.getElem?_range inside, Option.map_some]
  apply List.ext_getElem?
  intro index
  unfold written overwrite
  rw [← exact]
  by_cases inside : index < len
  · rw [List.getElem?_map, List.getElem?_range inside, Option.map_some]
    unfold writtenByte
    -- before the bytes, among them, behind them
    by_cases before : index < pos
    · rw [if_neg (by omega), List.append_assoc,
        List.getElem?_append_left (by rw [List.length_take, whole]; omega),
        List.getElem?_take_of_lt before, byteAt index inside]
    · by_cases among : index < pos + bytes.length
      · rw [if_pos (by omega), List.append_assoc,
          List.getElem?_append_right (by rw [List.length_take]; omega),
          List.length_take, whole, show min pos len = pos by omega,
          List.getElem?_append_left (by omega),
          List.getD_eq_getElem?_getD,
          List.getElem?_eq_getElem (by omega), Option.getD_some]
      · rw [if_neg (by omega), List.getElem?_append_right
            (by rw [List.length_append, List.length_take, whole]; omega),
          List.length_append, List.length_take, whole, List.getElem?_drop,
          show pos + bytes.length + (index - (min pos len + bytes.length)) =
            index by omega, byteAt index inside]
  · rw [List.getElem?_eq_none, List.getElem?_eq_none]
    · rw [List.length_map, List.length_range]
      omega
    · simp only [List.length_append, List.length_take, List.length_drop, whole]
      omega

theorem length_written (pos : Nat) (bytes data : List UInt8) :
    (written pos bytes data).length =
      max data.length (pos + bytes.length) := by
  unfold written
  rw [List.length_map, List.length_range]

theorem length_fitted (len : Nat) (data : List UInt8) :
    (fitted len data).length = len := by
  unfold fitted
  rw [List.length_map, List.length_range]

theorem fitted_length (data : List UInt8) :
    fitted data.length data = data := by
  rw [← resizeBytes_eq_fitted]
  unfold resizeBytes
  simp

/-- The volume after one of its files went from `old` to `new` bytes. -/
def Volume.charge (old new : Nat) (volume : Volume) : Volume :=
  { volume with used := volume.used + new - old }

theorem Volume.charge_same (len : Nat) (volume : Volume) :
    volume.charge len len = volume := by
  unfold Volume.charge
  rw [Nat.add_sub_cancel]

namespace Reference

variable {capacity used pos : Nat} {buf data : List UInt8}

/-- A write that places bytes ends at the length it may reach, unless that
length was there before. -/
theorem length_write {count : Nat} {next : List UInt8}
    (placed : write capacity used pos buf data = .ok (count, next)) :
    data.length ≤ next.length ∧
      next.length - data.length ≤ capacity - used ∧
      (pos < 2 ^ 64 → pos + count < 2 ^ 64) := by
  unfold write at placed
  split at placed
  · injection placed with same
    injection same with countEq nextEq
    subst countEq nextEq
    omega
  · rename_i nonempty
    split at placed
    · cases placed
    · rename_i fits
      simp only at placed
      split at placed
      · cases placed
      · rename_i room
        injection placed with same
        injection same with countEq nextEq
        subst countEq nextEq
        unfold reach at room ⊢
        rw [length_written, List.length_take]
        omega

theorem seekTo_eq_seek (size pos : Nat) (target : SeekFrom) :
    seekTo size pos target = seek size pos target := by
  have aimed : seekTo size pos target =
      if sought size pos target < 0 then
        .error (.custom .invalidInput "seek to a negative position")
      else if (sought size pos target).toNat ≤ wordMax then
        .ok (sought size pos target).toNat
      else .error (.custom .invalidInput "seek offset overflow") := by
    cases target with
    | start offset =>
        rfl
    | «end» offset =>
        rfl
    | current offset =>
        rfl
  rw [aimed]
  unfold seek
  generalize sought size pos target = wanted
  by_cases negative : wanted < 0
  · rw [if_pos negative, if_pos negative]
  · rw [if_neg negative, if_neg negative]
    by_cases word : wanted < 2 ^ 64
    · rw [if_pos word, if_pos (by unfold wordMax; omega)]
    · rw [if_neg word, if_neg (by unfold wordMax; omega)]

theorem seek_word {size reached : Nat} {target : SeekFrom}
    (moved : seek size pos target = .ok reached) : reached < 2 ^ 64 := by
  unfold seek at moved
  split at moved
  · cases moved
  · split at moved
    · injection moved with same
      omega
    · cases moved

theorem seek_end (size pos : Nat) (word : size < 2 ^ 64) :
    seek size pos (.end 0) = .ok size := by
  have aimed : sought size pos (.end 0) = size := Int.add_zero _
  unfold seek
  rw [aimed, if_neg (by omega), if_pos (by omega), Int.toNat_natCast]

theorem seek_start (size : Nat) (word : pos < 2 ^ 64) (before : Nat) :
    seek size before (.start pos) = .ok pos := by
  have aimed : sought size before (.start pos) = pos := rfl
  unfold seek
  rw [aimed, if_neg (by omega), if_pos (by omega), Int.toNat_natCast]

theorem length_setLen {len : Nat} {next : List UInt8}
    (resized : setLen capacity used len data = .ok next) :
    next.length - data.length ≤ capacity - used ∧ next.length = len := by
  unfold setLen at resized
  split at resized
  · cases resized
  · injection resized with nextEq
    subst nextEq
    rw [length_fitted]
    omega

end Reference

namespace MemFile

variable {file : MemFile} {volume : Volume}

/-- A reservation reaches as far as the reference says, and charges for that
growth. -/
theorem reserve_eq_reach (sound : MemoryFs.Sound file volume) {target : Nat}
    (word : target < 2 ^ 64) :
    volume.reserve file.data.length (max target file.data.length) =
      (Reference.reach volume.capacity volume.used file.data.length target,
        volume.charge file.data.length
          (Reference.reach volume.capacity volume.used file.data.length
            target)) := by
  obtain ⟨enough, within, small, -⟩ := sound
  unfold Volume.reserve Volume.charge Reference.reach
  simp only
  rw [wrappingAdd_eq (by unfold wordMax; omega),
    wrappingAdd_eq (by unfold wordMax; omega)]
  congr 2 <;> omega

/-- A reservation that is given back whole leaves the volume as it was. -/
theorem release_charge (sound : MemoryFs.Sound file volume) {limit : Nat}
    (grows : file.data.length ≤ limit) :
    (volume.charge file.data.length limit).release
      (limit - file.data.length) = volume := by
  have enough := sound.enough
  unfold Volume.release Volume.subUsed Volume.charge
  have unclamped : decide (volume.used + limit - file.data.length <
      limit - file.data.length) = false := by
    rw [decide_eq_false_iff_not]
    omega
  have kept : volume.used + limit - file.data.length -
      (limit - file.data.length) = volume.used := by omega
  simp only [unclamped, Bool.or_false, kept]

/-- Growing the bytes to a limit that is not below their length. -/
theorem grown_eq_fitted {limit : Nat} (grows : file.data.length ≤ limit) :
    (if file.data.length < limit then resizeBytes limit file.data
      else file.data) = fitted limit file.data := by
  split
  · exact resizeBytes_eq_fitted _ _
  · rename_i full
    have same : limit = file.data.length := by omega
    rw [same, fitted_length]

/-- `write_at` against the byte arrays: the same count or error, the same
bytes, and a volume charged for the growth alone. -/
theorem writeAt_eq (sound : MemoryFs.Sound file volume) (now : Time)
    (pos : Nat) (buf : List UInt8) :
    match Reference.write volume.capacity volume.used pos buf file.data with
    | .error error =>
        file.writeAt now pos buf volume = (.error error, file, volume)
    | .ok (count, data) =>
        file.writeAt now pos buf volume =
          (.ok count,
            { file with
              data := data
              mtime := if buf = [] then file.mtime else some now },
            volume.charge file.data.length data.length) := by
  unfold Reference.write MemFile.writeAt
  by_cases empty : buf = []
  · simp only [if_pos empty, Volume.charge_same]
  · have nonempty : 0 < buf.length := List.length_pos_iff.mpr empty
    rw [if_neg empty, if_neg empty]
    by_cases overflows : 2 ^ 64 ≤ pos + buf.length
    · rw [if_pos overflows]
      have absent : checkedAdd pos buf.length = none := by
        unfold checkedAdd wordMax
        rw [if_neg (by omega)]
      simp only [absent]
    · rw [if_neg overflows]
      have present : checkedAdd pos buf.length = some (pos + buf.length) := by
        unfold checkedAdd wordMax
        rw [if_pos (by omega)]
      obtain ⟨limit, limitEq⟩ : ∃ limit, limit = Reference.reach
          volume.capacity volume.used file.data.length
            (pos + buf.length) := ⟨_, rfl⟩
      have reserved := reserve_eq_reach sound
        (show pos + buf.length < 2 ^ 64 by omega)
      rw [← limitEq] at reserved
      have reaches : file.data.length ≤ limit ∧
          limit ≤ max file.data.length (pos + buf.length) := by
        rw [limitEq]
        unfold Reference.reach
        omega
      simp only [present, reserved, ← limitEq]
      by_cases room : limit ≤ pos
      · have nothing : min (limit - pos) buf.length = 0 := by omega
        rw [if_pos room, if_pos nothing, release_charge sound reaches.1]
      · have something : ¬ min (limit - pos) buf.length = 0 := by omega
        rw [if_neg room, if_neg something]
        have placedLength : (buf.take (min buf.length (limit - pos))).length =
            min buf.length (limit - pos) := by
          rw [List.length_take]
          omega
        have exactLength : limit = max file.data.length (pos +
            (buf.take (min buf.length (limit - pos))).length) := by
          rw [placedLength]
          omega
        rw [grown_eq_fitted reaches.1, Nat.min_comm (limit - pos),
          overwrite_fitted exactLength]
        simp only
        rw [length_written, ← exactLength, if_neg empty]

/-- `set_len` against the byte arrays. -/
theorem setLen_eq (sound : MemoryFs.Sound file volume) (now : Time)
    (len : Nat) :
    match Reference.setLen volume.capacity volume.used len file.data with
    | .error error =>
        file.setLen now len volume = (.error error, file, volume)
    | .ok data =>
        file.setLen now len volume =
          (.ok (), { file with data := data, mtime := some now },
            volume.charge file.data.length data.length) := by
  obtain ⟨enough, within, small, exact⟩ := sound
  unfold Reference.setLen MemFile.setLen Volume.resize
  by_cases exceeds : volume.capacity - volume.used < len - file.data.length
  · have growing : file.data.length ≤ len := by omega
    have refused : volume.capacity <
        saturatingAdd volume.used (len - file.data.length) := by
      unfold saturatingAdd wordMax
      omega
    simp only [if_pos exceeds, if_pos growing, if_pos refused]
  · rw [if_neg exceeds, resizeBytes_eq_fitted]
    by_cases growing : file.data.length ≤ len
    · have granted : ¬ volume.capacity <
          saturatingAdd volume.used (len - file.data.length) := by
        unfold saturatingAdd wordMax
        omega
      have plain : wrappingAdd volume.used (len - file.data.length) =
          volume.used + len - file.data.length := by
        rw [wrappingAdd_eq (by unfold wordMax; omega)]
        omega
      simp only [if_pos growing, if_neg granted, plain, length_fitted]
      rfl
    · have unclamped : decide (volume.used < file.data.length - len) =
          false := by
        rw [decide_eq_false_iff_not]
        omega
      have lowered : volume.used - (file.data.length - len) =
          volume.used + len - file.data.length := by omega
      simp only [if_neg growing, Volume.subUsed, unclamped, Bool.or_false,
        lowered, length_fitted]
      rfl

end MemFile

/-! ## Sequences of operations -/

namespace Desk

open MemoryFs

/-- The files, the cursors and the charge of the source are those of the
byte arrays. -/
structure Agrees (desk : Desk) (model : Reference) : Prop where
  capacity : desk.fs.volume.capacity = model.capacity
  used : desk.fs.volume.used = model.used
  contents : ∀ file, (desk.fs.files.lookup file).map MemFile.data =
    model.files[file]?
  cursors : ∀ handle, desk.handles.lookup handle =
    model.cursors[handle]?.map fun cursor => .memory cursor.file cursor.pos
  nextFile : desk.fs.nextFile = model.files.length
  nextHandle : desk.nextHandle = model.cursors.length
  small : model.capacity < 2 ^ 63
  within : model.used ≤ model.capacity
  words : ∀ cursor ∈ model.cursors, cursor.pos < 2 ^ 64
  opened : ∀ cursor ∈ model.cursors, cursor.file < model.files.length
  exact : desk.fs.volume.saturated = false

variable {desk : Desk} {model : Reference}

theorem agrees_start {capacity : Nat} (small : capacity < 2 ^ 63) :
    (start capacity).Agrees (Reference.start capacity) where
  capacity := rfl
  used := rfl
  contents := by
    intro file
    simp [start, withCapacity, Reference.start]
  cursors := by
    intro handle
    simp [start, Reference.start]
  nextFile := rfl
  nextHandle := rfl
  small := small
  within := Nat.zero_le _
  words := by
    intro cursor member
    cases member
  opened := by
    intro cursor member
    cases member
  exact := rfl

theorem Agrees.present {file : Nat} {data : List UInt8}
    (agrees : desk.Agrees model) (found : model.files[file]? = some data) :
    ∃ content, desk.fs.files.lookup file = some content ∧
      content.data = data := by
  have same := agrees.contents file
  rw [found, Option.map_eq_some_iff] at same
  exact same

theorem Agrees.sound {file : Nat} {content : MemFile}
    (agrees : desk.Agrees model)
    (found : model.files[file]? = some content.data) :
    Sound content desk.fs.volume where
  enough := by
    rw [agrees.used]
    have emptied := sum_map_set List.length [] found
    unfold Reference.used
    simp only [List.length_nil] at emptied
    omega
  within := by
    rw [agrees.used, agrees.capacity]
    exact agrees.within
  small := by
    rw [agrees.capacity]
    exact agrees.small
  exact := agrees.exact

theorem used_setFile {file : Nat} {old new : List UInt8}
    (found : model.files[file]? = some old) :
    (model.setFile file new).used = model.used + new.length - old.length := by
  have moved := sum_map_set List.length new found
  unfold Reference.used Reference.setFile
  simp only
  omega

/-- One file changes, and the volume with it. -/
theorem Agrees.setFile {file : Nat} {content : MemFile} (next : MemFile)
    (agrees : desk.Agrees model)
    (found : model.files[file]? = some content.data)
    (fits : next.data.length - content.data.length ≤
      model.capacity - model.used) :
    Agrees { desk with fs := { desk.fs with
        files := desk.fs.files.insert file next
        volume := desk.fs.volume.charge content.data.length
          next.data.length } }
      (model.setFile file next.data) where
  capacity := agrees.capacity
  used := by
    rw [used_setFile found, ← agrees.used]
    rfl
  contents := by
    intro other
    unfold Reference.setFile
    by_cases same : other = file
    · subst same
      have inside : other < model.files.length :=
        (List.getElem?_eq_some_iff.mp found).1
      rw [AList.lookup_insert, Option.map_some,
        List.getElem?_set_self inside]
    · rw [AList.lookup_insert_ne same, List.getElem?_set_ne (Ne.symm same)]
      exact agrees.contents other
  cursors := agrees.cursors
  nextFile := by
    unfold Reference.setFile
    rw [List.length_set]
    exact agrees.nextFile
  nextHandle := agrees.nextHandle
  small := agrees.small
  within := by
    have within := agrees.within
    have enough := (agrees.sound found).enough
    rw [agrees.used] at enough
    rw [used_setFile found]
    simp only [Reference.setFile]
    omega
  words := agrees.words
  opened := by
    unfold Reference.setFile
    simp only [List.length_set]
    exact agrees.opened
  exact := agrees.exact

/-- A failed operation puts the file back as it was. -/
theorem Agrees.keepFile {file : Nat} {content : MemFile}
    (agrees : desk.Agrees model)
    (found : model.files[file]? = some content.data) :
    Agrees { desk with fs := { desk.fs with
      files := desk.fs.files.insert file content } } model := by
  have changed := agrees.setFile content found (by omega)
  have same : model.setFile file content.data = model := by
    obtain ⟨inside, bytes⟩ := List.getElem?_eq_some_iff.mp found
    unfold Reference.setFile
    rw [← bytes, List.set_getElem_self inside]
  rw [Volume.charge_same, same] at changed
  exact changed

theorem Agrees.moveTo {handle pos : Nat} {cursor : Cursor}
    (agrees : desk.Agrees model)
    (found : model.cursors[handle]? = some cursor) (word : pos < 2 ^ 64) :
    Agrees { desk with
        handles := desk.handles.insert handle (.memory cursor.file pos) }
      (model.moveTo handle pos cursor) where
  capacity := agrees.capacity
  used := agrees.used
  contents := agrees.contents
  cursors := by
    intro other
    unfold Reference.moveTo
    by_cases same : other = handle
    · subst same
      have inside : other < model.cursors.length :=
        (List.getElem?_eq_some_iff.mp found).1
      rw [AList.lookup_insert, List.getElem?_set_self inside,
        Option.map_some]
    · rw [AList.lookup_insert_ne same, List.getElem?_set_ne (Ne.symm same)]
      exact agrees.cursors other
  nextFile := agrees.nextFile
  nextHandle := by
    unfold Reference.moveTo
    rw [List.length_set]
    exact agrees.nextHandle
  small := agrees.small
  within := agrees.within
  words := by
    intro other member
    rcases List.mem_or_eq_of_mem_set member with kept | rfl
    · exact agrees.words other kept
    · exact word
  opened := by
    intro other member
    rcases List.mem_or_eq_of_mem_set member with kept | rfl
    · exact agrees.opened other kept
    · exact agrees.opened cursor (List.mem_of_getElem? found)
  exact := agrees.exact

/-- What a handle's operation may use: its cursor and its file, in both
models. -/
structure Meets (desk : Desk) (model : Reference) (handle : Nat)
    (cursor : Cursor) (content : MemFile) : Prop where
  here : model.cursors[handle]? = some cursor
  bytes : model.files[cursor.file]? = some content.data
  file : desk.fs.files.lookup cursor.file = some content
  word : cursor.pos < 2 ^ 64
  short : content.data.length < 2 ^ 63
  sound : Sound content desk.fs.volume

/-- Operations through a handle answer alike when they do so on the handle's
cursor and file. -/
theorem Agrees.through {handle : Nat} (agrees : desk.Agrees model)
    {concrete : Stream → FileReply × Stream × MemoryFs}
    {abstract : Cursor → List UInt8 → FileReply × Reference}
    (alike : ∀ cursor content, Meets desk model handle cursor content →
      (concrete (.memory cursor.file cursor.pos)).1 =
          (abstract cursor content.data).1 ∧
        (desk.store handle (concrete (.memory cursor.file cursor.pos)).2.1
          (concrete (.memory cursor.file cursor.pos)).2.2).Agrees
            (abstract cursor content.data).2) :
    (desk.through handle concrete).1 = (model.through handle abstract).1 ∧
      (desk.through handle concrete).2.Agrees
        (model.through handle abstract).2 := by
  have looked := agrees.cursors handle
  unfold Desk.through Reference.through
  cases found : model.cursors[handle]? with
  | none =>
      rw [found, Option.map_none] at looked
      rw [looked]
      exact ⟨rfl, agrees⟩
  | some cursor =>
      rw [found, Option.map_some] at looked
      rw [looked]
      have member := List.mem_of_getElem? found
      have bytes := List.getElem?_eq_getElem (agrees.opened cursor member)
      obtain ⟨content, file, data⟩ := agrees.present bytes
      rw [← data] at bytes
      have sound := agrees.sound bytes
      have enough := sound.enough
      have within := sound.within
      have small := sound.small
      simp only [bytes]
      exact alike cursor content ⟨found, bytes, file,
        agrees.words cursor member, by omega, sound⟩

/-- Storing a handle's own stream back changes nothing. -/
theorem Agrees.stay {handle : Nat} {cursor : Cursor}
    (agrees : desk.Agrees model)
    (here : model.cursors[handle]? = some cursor) :
    (desk.store handle (.memory cursor.file cursor.pos) desk.fs).Agrees
      model := by
  have moved := agrees.moveTo here
    (agrees.words cursor (List.mem_of_getElem? here))
  have same : model.moveTo handle cursor.pos cursor = model := by
    obtain ⟨inside, found⟩ := List.getElem?_eq_some_iff.mp here
    unfold Reference.moveTo
    subst found
    rw [List.set_getElem_self inside]
  rw [same] at moved
  exact moved

theorem serve_read (agrees : desk.Agrees model) (physical : Physical)
    (handle len : Nat) :
    (desk.serve physical (.read handle len)).1 =
        (model.step (.read handle len)).1 ∧
      (desk.serve physical (.read handle len)).2.Agrees
        (model.step (.read handle len)).2 := by
  apply agrees.through
  intro cursor content meets
  have file := meets.file
  have word := meets.word
  have short := meets.short
  simp only [Stream.read, file, MemFile.readAt]
  refine ⟨trivial, ?_⟩
  -- a cursor behind the end reads nothing, one before it stops at the end
  have reached : cursor.pos +
      ((content.data.drop cursor.pos).take len).length < 2 ^ 64 := by
    rw [List.length_take, List.length_drop]
    omega
  have plain : saturatingAdd cursor.pos
      ((content.data.drop cursor.pos).take len).length =
        cursor.pos + ((content.data.drop cursor.pos).take len).length := by
    unfold saturatingAdd wordMax
    omega
  rw [plain]
  exact agrees.moveTo meets.here reached

theorem serve_write (agrees : desk.Agrees model) (physical : Physical)
    (now : Time) (handle : Nat) (buf : List UInt8) :
    (desk.serve physical (.write now handle buf)).1 =
        (model.step (.write now handle buf)).1 ∧
      (desk.serve physical (.write now handle buf)).2.Agrees
        (model.step (.write now handle buf)).2 := by
  apply agrees.through
  intro cursor content meets
  have file := meets.file
  have word := meets.word
  have spec := content.writeAt_eq meets.sound now cursor.pos buf
  rw [agrees.capacity, agrees.used] at spec
  cases outcome : Reference.write model.capacity model.used cursor.pos buf
      content.data with
  | error error =>
      rw [outcome] at spec
      simp only at spec
      simp only [writeHandle, writeFile, file, spec]
      refine ⟨trivial, ?_⟩
      exact (agrees.keepFile meets.bytes).stay meets.here
  | ok placed =>
      obtain ⟨count, data⟩ := placed
      rw [outcome] at spec
      obtain ⟨-, fits, bound⟩ := Reference.length_write outcome
      have reached := bound word
      have plain : saturatingAdd cursor.pos count = cursor.pos + count := by
        unfold saturatingAdd wordMax
        omega
      simp only [writeHandle, writeFile, file, spec, plain]
      refine ⟨trivial, ?_⟩
      have changed := agrees.setFile
        { content with
          data := data
          mtime := if buf = [] then content.mtime else some now }
        meets.bytes fits
      exact changed.moveTo meets.here reached

/-- The cursor arithmetic of the source is exact. -/
theorem seek_eq {handle : Nat} {cursor : Cursor} {content : MemFile}
    (meets : Meets desk model handle cursor content) (pos : Nat)
    (target : SeekFrom) :
    (Stream.memory cursor.file pos).seek target desk.fs =
      match Reference.seek content.data.length pos target with
      | .error error => (.error error, .memory cursor.file pos)
      | .ok reached => (.ok reached, .memory cursor.file reached) := by
  have len : desk.fs.fileLen cursor.file = content.data.length := by
    unfold fileLen
    rw [meets.file]
  unfold Stream.seek
  simp only [Stream.size, Stream.position, len, Reference.seekTo_eq_seek]
  cases Reference.seek content.data.length pos target with
  | error error =>
      rfl
  | ok reached =>
      rfl

theorem serve_seek (agrees : desk.Agrees model) (physical : Physical)
    (handle : Nat) (target : SeekFrom) :
    (desk.serve physical (.seek handle target)).1 =
        (model.step (.seek handle target)).1 ∧
      (desk.serve physical (.seek handle target)).2.Agrees
        (model.step (.seek handle target)).2 := by
  apply agrees.through
  intro cursor content meets
  have same := seek_eq meets cursor.pos target
  simp only [same]
  cases outcome : Reference.seek content.data.length cursor.pos target with
  | error error =>
      exact ⟨rfl, agrees.stay meets.here⟩
  | ok pos =>
      exact ⟨rfl, agrees.moveTo meets.here (Reference.seek_word outcome)⟩

/-- The probing seeks leave the cursor where it was. -/
theorem serve_size (agrees : desk.Agrees model) (physical : Physical)
    (handle : Nat) :
    (desk.serve physical (.size handle)).1 =
        (model.step (.size handle)).1 ∧
      (desk.serve physical (.size handle)).2.Agrees
        (model.step (.size handle)).2 := by
  apply agrees.through
  intro cursor content meets
  have word := meets.word
  have short := meets.short
  have toEnd := seek_eq meets cursor.pos (.end 0)
  rw [Reference.seek_end _ _ (by omega)] at toEnd
  have back := seek_eq meets content.data.length (.start cursor.pos)
  rw [Reference.seek_start _ word] at back
  have probed : (Stream.memory cursor.file cursor.pos).probeSize desk.fs =
      (.ok content.data.length, .memory cursor.file cursor.pos) := by
    unfold Stream.probeSize
    simp only [toEnd, back, Stream.position]
    by_cases same : cursor.pos = content.data.length
    · rw [if_neg (not_not.mpr same), ← same]
    · rw [if_pos same]
  simp only [probed]
  exact ⟨trivial, agrees.stay meets.here⟩

theorem serve_setLen (agrees : desk.Agrees model) (physical : Physical)
    (now : Time) (handle len : Nat) :
    (desk.serve physical (.setLen now handle len)).1 =
        (model.step (.setLen now handle len)).1 ∧
      (desk.serve physical (.setLen now handle len)).2.Agrees
        (model.step (.setLen now handle len)).2 := by
  apply agrees.through
  intro cursor content meets
  have file := meets.file
  have spec := content.setLen_eq meets.sound now len
  rw [agrees.capacity, agrees.used] at spec
  cases outcome : Reference.setLen model.capacity model.used len
      content.data with
  | error error =>
      rw [outcome] at spec
      simp only at spec
      simp only [setFileLen, file, spec]
      exact ⟨trivial, (agrees.keepFile meets.bytes).stay meets.here⟩
  | ok data =>
      rw [outcome] at spec
      simp only at spec
      simp only [setFileLen, file, spec]
      refine ⟨trivial, ?_⟩
      have changed := agrees.setFile
        { content with data := data, mtime := some now } meets.bytes
        (Reference.length_setLen outcome).1
      exact changed.stay meets.here

theorem serve_newFile (agrees : desk.Agrees model) (physical : Physical)
    (now : Time) :
    (desk.serve physical (.newFile now)).1 = (model.step (.newFile now)).1 ∧
      (desk.serve physical (.newFile now)).2.Agrees
        (model.step (.newFile now)).2 := by
  have next := agrees.nextFile
  refine ⟨congrArg FileReply.made next, ?_⟩
  simp only [serve, MemoryFs.newFile, Reference.step, next]
  have same : Reference.used { model with files := model.files ++ [[]] } =
      model.used := by
    unfold Reference.used
    simp
  refine ⟨agrees.capacity, same ▸ agrees.used, ?_, agrees.cursors, ?_,
    agrees.nextHandle, agrees.small, same ▸ agrees.within, agrees.words, ?_,
    agrees.exact⟩
  · intro other
    by_cases fresh : other = model.files.length
    · subst fresh
      rw [AList.lookup_insert, List.getElem?_concat_length]
      rfl
    · rw [AList.lookup_insert_ne fresh, agrees.contents other]
      by_cases inside : other < model.files.length
      · rw [List.getElem?_append_left inside]
      · rw [List.getElem?_eq_none (by omega), List.getElem?_eq_none]
        rw [List.length_append, List.length_singleton]
        omega
  · rw [List.length_append]
    rfl
  · intro cursor member
    have inside := agrees.opened cursor member
    rw [List.length_append]
    omega

theorem serve_newHandle (agrees : desk.Agrees model) (physical : Physical)
    (file : Nat) :
    (desk.serve physical (.newHandle file)).1 =
        (model.step (.newHandle file)).1 ∧
      (desk.serve physical (.newHandle file)).2.Agrees
        (model.step (.newHandle file)).2 := by
  have next := agrees.nextHandle
  have contents := agrees.contents file
  simp only [serve, Desk.newHandle, Reference.step]
  cases found : desk.fs.files.lookup file with
  | none =>
      rw [found, Option.map_none, eq_comm, List.getElem?_eq_none_iff] at contents
      rw [if_neg (by omega)]
      exact ⟨rfl, agrees⟩
  | some content =>
      rw [found, Option.map_some, eq_comm] at contents
      obtain ⟨inside, -⟩ := List.getElem?_eq_some_iff.mp contents
      rw [if_pos inside, next]
      have cloned : ∃ files, desk.fs.cloneFile file =
          { desk.fs with files := files } := by
        unfold cloneFile
        rw [found]
        exact ⟨_, rfl⟩
      obtain ⟨files, cloned⟩ := cloned
      have same := fun other => cloneFile_data file other desk.fs
      rw [cloned] at same ⊢
      refine ⟨rfl, agrees.capacity, agrees.used, ?_, ?_, agrees.nextFile, ?_,
        agrees.small, agrees.within, ?_, ?_, agrees.exact⟩
      · intro other
        exact (same other).trans (agrees.contents other)
      · intro other
        by_cases fresh : other = model.cursors.length
        · subst fresh
          rw [AList.lookup_insert, List.getElem?_concat_length]
          rfl
        · rw [AList.lookup_insert_ne fresh, agrees.cursors other]
          by_cases before : other < model.cursors.length
          · rw [List.getElem?_append_left before]
          · rw [List.getElem?_eq_none (by omega), List.getElem?_eq_none]
            rw [List.length_append, List.length_singleton]
            omega
      · rw [List.length_append]
        rfl
      · intro cursor member
        rcases List.mem_append.mp member with old | new
        · exact agrees.words cursor old
        · rw [List.mem_singleton.mp new]
          exact Nat.two_pow_pos 64
      · intro cursor member
        rcases List.mem_append.mp member with old | new
        · exact agrees.opened cursor old
        · rw [List.mem_singleton.mp new]
          exact inside

/-- Every operation is answered alike, and leaves the two alike. -/
theorem serve_simulates (physical : Physical) (desk : Desk)
    (model : Reference) (op : FileOp) (agrees : desk.Agrees model) :
    (desk.serve physical op).1 = (model.step op).1 ∧
      (desk.serve physical op).2.Agrees (model.step op).2 := by
  cases op with
  | newFile now =>
      exact serve_newFile agrees physical now
  | newHandle file =>
      exact serve_newHandle agrees physical file
  | read handle len =>
      exact serve_read agrees physical handle len
  | write now handle buf =>
      exact serve_write agrees physical now handle buf
  | seek handle target =>
      exact serve_seek agrees physical handle target
  | streamPosition handle =>
      apply agrees.through
      intro cursor content meets
      exact ⟨rfl, agrees.stay meets.here⟩
  | setLen now handle len =>
      exact serve_setLen agrees physical now handle len
  | size handle =>
      exact serve_size agrees physical handle

/-- From an empty volume, every sequence of operations gets the answers of
the byte arrays, and leaves their contents, their cursors and their sum of
lengths. -/
theorem serveAll_refines_reference (capacity : Nat)
    (small : capacity < 2 ^ 63) (physical : Physical) (ops : List FileOp) :
    let code := serveAll (serve physical) (start capacity) ops
    let model := serveAll Reference.step (Reference.start capacity) ops
    code.1 = model.1 ∧
      (∀ file, (code.2.fs.files.lookup file).map MemFile.data =
        model.2.files[file]?) ∧
      (∀ handle, code.2.handles.lookup handle =
        model.2.cursors[handle]?.map fun cursor =>
          .memory cursor.file cursor.pos) ∧
      code.2.fs.volume.used = model.2.used ∧
      (∀ cursor ∈ model.2.cursors, cursor.pos < 2 ^ 64) := by
  obtain ⟨replies, agrees⟩ := serveAll_of_simulation (serve_simulates physical)
    ops (start capacity) (Reference.start capacity) (agrees_start small)
  exact ⟨replies, agrees.contents, agrees.cursors, agrees.used, agrees.words⟩

theorem serveAll_refines_reference_short_write :
    3 < 2 ^ 63 ∧
      (serveAll (serve fun _ _ _ => .ok []) (start 3)
        [.newFile 0, .newHandle 0, .seek 0 (.start 1),
          .write 0 0 [7, 8, 9], .size 0]).1 =
        [.made 0, .made 0, .number (.ok 1), .number (.ok 2),
          .number (.ok 3)] :=
  ⟨by decide, (serveAll_refines_reference 3 (by decide) _ _).1.trans
    (by decide)⟩

end Desk

end Hookfs.Memory
