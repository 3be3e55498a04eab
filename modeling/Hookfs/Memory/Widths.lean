import Hookfs.Memory.Fs

/-!
# Writable files on every target

`MemFile::write_at` and `set_len` for both widths of `usize`: a length that
does not fit one is an error, and `Vec::resize` unwinds when it is asked for
more than `isize::MAX` bytes.  Both reserve before they get there.  The error
path of `write_at` hands its reservation back; the unwinding of either and
the error path of `set_len` do not.
-/

namespace Hookfs.Memory

open Hookfs.Lib Hookfs.Vfs

/-- The width of `usize` on the target. -/
inductive Width where
  | w32
  | w64
  deriving DecidableEq, Repr

namespace Width

def usizeMax : Width → Nat
  | .w32 => 2 ^ 32 - 1
  | .w64 => 2 ^ 64 - 1

def isizeMax : Width → Nat
  | .w32 => 2 ^ 31 - 1
  | .w64 => 2 ^ 63 - 1

@[simp]
theorem usizeMax_w64 : usizeMax .w64 = 2 ^ 64 - 1 := rfl

@[simp]
theorem isizeMax_w64 : isizeMax .w64 = 2 ^ 63 - 1 := rfl

theorem isizeMax_lt_usizeMax (width : Width) :
    width.isizeMax < width.usizeMax := by
  cases width with
  | w32 => decide
  | w64 => decide

theorem usizeMax_le_wordMax (width : Width) : width.usizeMax ≤ wordMax := by
  cases width with
  | w32 => decide
  | w64 => decide

end Width

/-- How a call ends: it returns, it unwinds out of `Vec::resize`, or an
addition on `used` has gone over 64 bits. -/
inductive Ending (Value : Type) where
  | ok (value : Value)
  | err (error : IoError)
  | unwound
  | overflowed
  deriving DecidableEq, Repr

namespace Ending

variable {Value : Type}

def completes : Ending Value → Bool
  | .ok _ => true
  | _ => false

def overflows : Ending Value → Bool
  | .overflowed => true
  | _ => false

end Ending

namespace Volume

/-- `*used += amount`. -/
def addUsed (amount : Nat) (volume : Volume) : Option Volume :=
  (checkedAdd volume.used amount).map fun used =>
    { volume with used := used }

/-- `Volume::resize`, with its addition checked. -/
def resizeOn (old new : Nat) (volume : Volume) : Ending Unit × Volume :=
  if old ≤ new then
    if volume.capacity < saturatingAdd volume.used (new - old) then
      (.err noSpace, volume)
    else
      match volume.addUsed (new - old) with
      | none => (.overflowed, volume)
      | some reserved => (.ok (), reserved)
  else (.ok (), volume.subUsed (old - new))

/-- `Volume::reserve`, with its addition on `used` checked. -/
def reserveOn (old desired : Nat) (volume : Volume) :
    Option (Nat × Volume) :=
  let want := desired - old
  let free := volume.capacity - volume.used
  let grant := min want free
  (volume.addUsed grant).map fun reserved =>
    (wrappingAdd old grant, reserved)

end Volume

namespace MemFile

def writeOverflow : IoError :=
  .custom .invalidInput "write offset overflow"

/-- `MemFile::write_at`. -/
def writeAtOn (width : Width) (now : Time) (pos : Nat) (buf : List UInt8)
    (file : MemFile) (volume : Volume) : Ending Nat × MemFile × Volume :=
  if buf = [] then (.ok 0, file, volume)
  else
    let old := file.data.length
    match checkedAdd pos buf.length with
    | none => (.err writeOverflow, file, volume)
    | some desiredEnd =>
        let desiredNew := max desiredEnd old
        match volume.reserveOn old desiredNew with
        | none => (.overflowed, file, volume)
        | some (grantedNew, reserved) =>
            let slots := min (grantedNew - pos) width.usizeMax
            let count := min slots buf.length
            if count = 0 then
              (.err noSpace, file, reserved.release (grantedNew - old))
            else if width.usizeMax < grantedNew ∨ width.usizeMax < pos then
              (.err writeOverflow, file, reserved.release (grantedNew - old))
            else if old < grantedNew ∧ width.isizeMax < grantedNew then
              (.unwound, file, reserved)
            else
              let grown :=
                if old < grantedNew then resizeBytes grantedNew file.data
                else file.data
              (.ok count,
                { file with
                  data := overwrite pos (buf.take count) grown
                  mtime := some now },
                reserved)

/-- `MemFile::set_len`. -/
def setLenOn (width : Width) (now : Time) (len : Nat) (file : MemFile)
    (volume : Volume) : Ending Unit × MemFile × Volume :=
  match volume.resizeOn file.data.length len with
  | (.ok _, resized) =>
      if width.usizeMax < len then
        (.err (.custom .invalidInput "length overflow"), file, resized)
      else if file.data.length < len ∧ width.isizeMax < len then
        (.unwound, file, resized)
      else
        (.ok (),
          { file with data := resizeBytes len file.data, mtime := some now },
          resized)
  | (ending, kept) => (ending, file, kept)

end MemFile

/-! ## On 64 bits -/

namespace Ending

variable {Value : Type}

/-- A call that returned. -/
def ofExcept : Except IoError Value → Ending Value
  | .ok value => .ok value
  | .error error => .err error

end Ending

section Wide

variable {volume : Volume} {file : MemFile}
  (within : volume.used ≤ volume.capacity) (small : volume.capacity < 2 ^ 63)
  (charged : file.data.length ≤ volume.used)
include within small charged

/-- Below `2^63` bytes of capacity, `set_len` always returns. -/
theorem setLenOn_w64 (now : Time) (len : Nat) :
    file.setLenOn .w64 now len volume =
      (Ending.ofExcept (file.setLen now len volume).1,
        (file.setLen now len volume).2) := by
  unfold MemFile.setLenOn MemFile.setLen Volume.resizeOn Volume.resize
  by_cases grows : file.data.length ≤ len
  · rw [if_pos grows, if_pos grows]
    by_cases full :
        volume.capacity < saturatingAdd volume.used (len - file.data.length)
    · rw [if_pos full, if_pos full]
      rfl
    · rw [if_neg full, if_neg full]
      have room : volume.used + (len - file.data.length) ≤
          volume.capacity := by
        unfold saturatingAdd wordMax at full
        omega
      have counted : volume.addUsed (len - file.data.length) =
          some { volume with
            used := wrappingAdd volume.used (len - file.data.length) } := by
        have fits : volume.used + (len - file.data.length) ≤ wordMax := by
          unfold wordMax
          omega
        rw [wrappingAdd_eq fits, Volume.addUsed, checkedAdd, if_pos fits]
        rfl
      have short : ¬ Width.usizeMax .w64 < len := by
        rw [Width.usizeMax_w64]
        omega
      have addressable : ¬ (file.data.length < len ∧
          Width.isizeMax .w64 < len) := by
        rw [Width.isizeMax_w64]
        omega
      simp only [counted, if_neg short, if_neg addressable]
      rfl
  · rw [if_neg grows, if_neg grows]
    have short : ¬ Width.usizeMax .w64 < len := by
      rw [Width.usizeMax_w64]
      omega
    have addressable : ¬ (file.data.length < len ∧
        Width.isizeMax .w64 < len) := by
      omega
    simp only [if_neg short, if_neg addressable]
    rfl

/-- Below `2^63` bytes of capacity, `write_at` always returns. -/
theorem writeAtOn_w64 (now : Time) (pos : Nat) (buf : List UInt8) :
    file.writeAtOn .w64 now pos buf volume =
      (Ending.ofExcept (file.writeAt now pos buf volume).1,
        (file.writeAt now pos buf volume).2) := by
  unfold MemFile.writeAtOn MemFile.writeAt
  by_cases empty : buf = []
  · rw [if_pos empty, if_pos empty]
    rfl
  · rw [if_neg empty, if_neg empty]
    cases ended : checkedAdd pos buf.length with
    | none =>
        rfl
    | some desiredEnd =>
        obtain ⟨rfl, fits⟩ := eq_of_checkedAdd ended
        have counted : volume.reserveOn file.data.length
            (max (pos + buf.length) file.data.length) =
              some (volume.reserve file.data.length
                (max (pos + buf.length) file.data.length)) := by
          have room : volume.used +
              min (max (pos + buf.length) file.data.length -
                file.data.length) (volume.capacity - volume.used) ≤
                  wordMax := by
            unfold wordMax
            omega
          simp only [Volume.reserveOn, Volume.addUsed, Volume.reserve,
            checkedAdd, if_pos room, wrappingAdd_eq room, Option.map_some]
        have granted : (volume.reserve file.data.length
            (max (pos + buf.length) file.data.length)).1 ≤
              volume.capacity := by
          have room : file.data.length +
              min (max (pos + buf.length) file.data.length -
                file.data.length) (volume.capacity - volume.used) ≤
                  wordMax := by
            unfold wordMax
            omega
          simp only [Volume.reserve, wrappingAdd_eq room]
          omega
        simp only [counted]
        generalize volume.reserve file.data.length
          (max (pos + buf.length) file.data.length) = reservation
            at granted ⊢
        obtain ⟨grantedNew, reserved⟩ := reservation
        simp only at granted ⊢
        have slots : min (grantedNew - pos) (Width.usizeMax .w64) =
            grantedNew - pos := by
          rw [Width.usizeMax_w64]
          omega
        rw [slots]
        split
        · rfl
        · have addressable : ¬ (Width.usizeMax .w64 < grantedNew ∨
              Width.usizeMax .w64 < pos) := by
            rw [Width.usizeMax_w64]
            omega
          have allocatable : ¬ (file.data.length < grantedNew ∧
              Width.isizeMax .w64 < grantedNew) := by
            rw [Width.isizeMax_w64]
            omega
          rw [if_neg addressable, if_neg allocatable]
          rfl

end Wide

/-! ## Reservations that outlive their call -/

/-- A writable file on some target, and its volume: `used` is the total of
the file lengths. -/
structure Bench where
  width : Width
  file : MemFile
  others : List Nat
  volume : Volume
  vector : file.data.length ≤ width.isizeMax
  capacityWord : volume.capacity ≤ wordMax
  usedWord : volume.used ≤ wordMax
  exact : volume.used = file.data.length + others.sum

namespace Bench

variable {Value : Type}

/-- No addition on `used` has overflowed, and a call that did not complete
has left `used` and the file's bytes as they were. -/
def Settled (bench : Bench) (after : Ending Value × MemFile × Volume) :
    Prop :=
  after.1.overflows = false ∧
    (after.1.completes = false →
      after.2.2.used = bench.volume.used ∧
        after.2.1.data = bench.file.data)

/-- The length the file can grow to in the free capacity. -/
def reach (bench : Bench) : Nat :=
  bench.file.data.length + (bench.volume.capacity - bench.volume.used)

/-- The write is none, or ends beyond the words, or starts beyond the reach;
or one of its end and the reach is a length a `Vec` can have, or neither fits
a `usize`. -/
def WriteFits (bench : Bench) (pos : Nat) (buf : List UInt8) : Prop :=
  buf = [] ∨ wordMax < pos + buf.length ∨ bench.reach ≤ pos ∨
    pos + buf.length ≤ bench.width.isizeMax ∨
    bench.reach ≤ bench.width.isizeMax ∨
    bench.width.usizeMax < pos + buf.length ∧
      bench.width.usizeMax < bench.reach

/-- The file shrinks, or the volume refuses the growth, or the new length is
one a `Vec` can have and the total stays within the words. -/
def SetLenFits (bench : Bench) (len : Nat) : Prop :=
  len < bench.file.data.length ∨
    bench.volume.capacity <
      saturatingAdd bench.volume.used (len - bench.file.data.length) ∨
    len ≤ bench.width.isizeMax ∧
      bench.volume.used + (len - bench.file.data.length) ≤ wordMax

variable {bench : Bench}

theorem settled_unchanged {ending : Ending Value} {volume : Volume}
    (returned : ending.overflows = false)
    (same : volume.used = bench.volume.used) :
    bench.Settled (ending, bench.file, volume) :=
  ⟨returned, fun _ => ⟨same, rfl⟩⟩

theorem settled_ok (value : Value) (file : MemFile) (volume : Volume) :
    bench.Settled (.ok value, file, volume) := by
  refine ⟨rfl, ?_⟩
  intro incomplete
  cases incomplete

theorem not_settled_of_charged {ending : Ending Value} {file : MemFile}
    {volume : Volume} (incomplete : ending.completes = false)
    (charged : volume.used ≠ bench.volume.used) :
    ¬ bench.Settled (ending, file, volume) := by
  intro settled
  exact charged (settled.2 incomplete).1

theorem setLenOn_settled_iff (bench : Bench) (now : Time) (len : Nat) :
    bench.Settled (bench.file.setLenOn bench.width now len bench.volume) ↔
      bench.SetLenFits len := by
  have vector := bench.vector
  have narrow := bench.width.isizeMax_lt_usizeMax
  unfold MemFile.setLenOn Volume.resizeOn SetLenFits
  by_cases grows : bench.file.data.length ≤ len
  · rw [if_pos grows]
    by_cases full : bench.volume.capacity < saturatingAdd bench.volume.used
        (len - bench.file.data.length)
    · rw [if_pos full]
      constructor
      · exact fun _ => Or.inr (Or.inl full)
      · exact fun _ => settled_unchanged rfl rfl
    · rw [if_neg full, Volume.addUsed, checkedAdd]
      by_cases fits : bench.volume.used +
          (len - bench.file.data.length) ≤ wordMax
      · simp only [if_pos fits, Option.map_some]
        by_cases allocatable : len ≤ bench.width.isizeMax
        · rw [if_neg (by omega), if_neg (by omega)]
          constructor
          · exact fun _ => Or.inr (Or.inr ⟨allocatable, fits⟩)
          · exact fun _ => settled_ok _ _ _
        · -- the reservation stands, and the call cannot complete
          have charged : bench.volume.used +
              (len - bench.file.data.length) ≠ bench.volume.used := by
            omega
          constructor
          · intro settled
            split at settled
            · exact absurd settled (not_settled_of_charged rfl charged)
            · rw [if_pos (by omega)] at settled
              exact absurd settled (not_settled_of_charged rfl charged)
          · omega
      · simp only [if_neg fits, Option.map_none]
        constructor
        · intro settled
          cases settled.1
        · omega
  · rw [if_neg grows]
    simp only
    rw [if_neg (by omega), if_neg (by omega)]
    constructor
    · exact fun _ => Or.inl (by omega)
    · exact fun _ => settled_ok _ _ _

/-- Reserving never overflows: it takes what is free at most. -/
theorem reserveOn_eq (bench : Bench) {desired : Nat}
    (above : bench.file.data.length ≤ desired) (word : desired ≤ wordMax) :
    bench.volume.reserveOn bench.file.data.length desired =
      some (min desired bench.reach,
        { bench.volume with
          used := bench.volume.used +
            (min desired bench.reach - bench.file.data.length) }) := by
  have capacityWord := bench.capacityWord
  have usedWord := bench.usedWord
  have grant : min (desired - bench.file.data.length)
      (bench.volume.capacity - bench.volume.used) =
        min desired bench.reach - bench.file.data.length := by
    unfold reach
    omega
  have fits : bench.volume.used +
      (min desired bench.reach - bench.file.data.length) ≤ wordMax := by
    unfold reach
    omega
  have lengthFits : bench.file.data.length +
      (min desired bench.reach - bench.file.data.length) ≤ wordMax := by
    unfold reach
    omega
  have granted : bench.file.data.length +
      (min desired bench.reach - bench.file.data.length) =
        min desired bench.reach := by
    unfold reach
    omega
  simp only [Volume.reserveOn, Volume.addUsed, checkedAdd, grant,
    if_pos fits, wrappingAdd_eq lengthFits, granted, Option.map_some]

theorem writeAtOn_settled_iff (bench : Bench) (now : Time) (pos : Nat)
    (buf : List UInt8) :
    bench.Settled
        (bench.file.writeAtOn bench.width now pos buf bench.volume) ↔
      bench.WriteFits pos buf := by
  have vector := bench.vector
  have narrow := bench.width.isizeMax_lt_usizeMax
  have above : bench.file.data.length ≤ bench.reach := Nat.le_add_right _ _
  unfold MemFile.writeAtOn WriteFits
  by_cases empty : buf = []
  · rw [if_pos empty]
    constructor
    · exact fun _ => Or.inl empty
    · exact fun _ => settled_ok _ _ _
  · have positive : 0 < buf.length := List.length_pos_iff.mpr empty
    rw [if_neg empty, checkedAdd]
    by_cases word : pos + buf.length ≤ wordMax
    · have desiredWord : max (pos + buf.length) bench.file.data.length ≤
          wordMax := by
        have wide := bench.width.usizeMax_le_wordMax
        omega
      simp only [if_pos word, reserveOn_eq bench (le_max_right _ _)
        desiredWord]
      have returned : ∀ granted, bench.file.data.length ≤ granted →
          bench.volume.used + (granted - bench.file.data.length) -
            (granted - bench.file.data.length) = bench.volume.used := by
        omega
      split
      · -- nothing fits, and the reservation goes back
        rename_i nothing
        constructor
        · intro _
          omega
        · exact fun _ => settled_unchanged rfl (returned _ (by omega))
      · rename_i something
        split
        · constructor
          · intro _
            omega
          · exact fun _ => settled_unchanged rfl (returned _ (by omega))
        · rename_i addressable
          split
          · rename_i allocated
            have charged : bench.volume.used +
                (min (max (pos + buf.length) bench.file.data.length)
                  bench.reach - bench.file.data.length) ≠
                    bench.volume.used := by
              omega
            constructor
            · exact fun settled => absurd settled
                (not_settled_of_charged rfl charged)
            · rintro (none | beyond | short | small | tight | ⟨wide, far⟩)
              · exact absurd none empty
              · omega
              · omega
              · omega
              · omega
              · omega
          · constructor
            · intro _
              omega
            · exact fun _ => settled_ok _ _ _
    · simp only [if_neg word]
      constructor
      · exact fun _ => Or.inr (Or.inl (by omega))
      · exact fun _ => settled_unchanged rfl rfl

end Bench

/-- The calls that change a file's length. -/
inductive FileCall where
  | writeAt (pos : UInt64) (buf : List UInt8)
  | setLen (len : UInt64)

namespace Bench

def SettledBy (bench : Bench) (now : Time) : FileCall → Prop
  | .writeAt pos buf =>
      bench.Settled (bench.file.writeAtOn bench.width now pos.toNat buf
        bench.volume)
  | .setLen len =>
      bench.Settled (bench.file.setLenOn bench.width now len.toNat
        bench.volume)

def Fits (bench : Bench) : FileCall → Prop
  | .writeAt pos buf => bench.WriteFits pos.toNat buf
  | .setLen len => bench.SetLenFits len.toNat

/-- No reservation outlives a call that did not complete, and `used` does not
overflow, exactly when the call fits. -/
theorem settledBy_iff_fits (bench : Bench) (now : Time) (call : FileCall) :
    bench.SettledBy now call ↔ bench.Fits call := by
  cases call with
  | writeAt pos buf =>
      exact bench.writeAtOn_settled_iff now pos.toNat buf
  | setLen len =>
      exact bench.setLenOn_settled_iff now len.toNat

/-- An empty file on a 32-bit target, in a volume of the default size. -/
def narrow : Bench where
  width := .w32
  file := ⟨[], none, 1⟩
  others := []
  volume := ⟨2 ^ 40, 0, false⟩
  vector := by decide
  capacityWord := by decide
  usedWord := by decide
  exact := rfl

/-- A length beyond 32 bits is refused after it has been reserved. -/
theorem setLen_keeps_reservation :
    ¬ ∀ (bench : Bench) (now : Time) (call : FileCall),
      bench.SettledBy now call := by
  intro always
  have settled := (always narrow 0 (.setLen 4294967296)).2 (by decide)
  have leaked : (MemFile.setLenOn .w32 0 4294967296 narrow.file
      narrow.volume).2.2.used = 4294967296 := by decide
  exact absurd (leaked.symm.trans settled.1) (by decide)

end Bench

end Hookfs.Memory
