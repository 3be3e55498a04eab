import Hookfs.Lib.Runs
import Hookfs.Memory.Accounting

/-!
# Appending handles

`open_write` with `append` puts the cursor at the end of the file once, when
the handle is opened.  A ledger remembers which handles were opened so; a
write through one of them appends exactly when its cursor is still at the
end.
-/

namespace Hookfs.Memory

open Hookfs.Lib Hookfs.Vfs

/-- A tree with its handles, and the handles opened with `append`. -/
structure Ledger where
  desk : Desk
  appenders : List Nat

namespace Ledger

open MemoryFs

def start (capacity : Nat) : Ledger := ⟨.start capacity, []⟩

/-- The handle that an append open hands out, if it succeeds. -/
def granted (desk : Desk) : DeskOp → List Nat
  | .openWrite now path opts =>
      match (desk.fs.openWrite now path opts).1 with
      | some (.ok _) => if opts.append then [desk.nextHandle] else []
      | _ => []
  | _ => []

def step (ledger : Ledger) (op : DeskOp) : Ledger where
  desk := ledger.desk.step op
  appenders := granted ledger.desk op ++ ledger.appenders

/-- A write through an append handle that places bytes leaves the old content
with these bytes behind it. -/
def Appends (ledger : Ledger) : DeskOp → Prop
  | .write now handle buf =>
      handle ∈ ledger.appenders → buf ≠ [] →
      ∀ file pos content count,
        ledger.desk.handles.lookup handle = some (.memory file pos) →
        ledger.desk.fs.files.lookup file = some content →
        (ledger.desk.fs.writeHandle now file pos buf).1 = .ok count →
          ((ledger.desk.step (.write now handle buf)).fs.files.lookup
            file).map MemFile.data = some (content.data ++ buf.take count)
  | _ => True

/-- Not a byte of the buffer can be placed at `pos`. -/
def Blocked (volume : Volume) (pos : Nat) (buf data : List UInt8) : Prop :=
  2 ^ 64 ≤ pos + buf.length ∨
    (volume.reserve data.length (max (pos + buf.length) data.length)).1 ≤ pos

/-- The cursor of an append handle that is written through is at the end of
the file, or the write has no room at all. -/
def AtEnd (ledger : Ledger) : DeskOp → Prop
  | .write _ handle buf =>
      handle ∈ ledger.appenders → buf ≠ [] →
      ∀ file pos content,
        ledger.desk.handles.lookup handle = some (.memory file pos) →
        ledger.desk.fs.files.lookup file = some content →
          pos = content.data.length ∨
            Blocked ledger.desk.fs.volume pos buf content.data
  | _ => True

end Ledger

/-! ## One write -/

namespace MemFile

variable {file : MemFile} {volume : Volume}

/-- A non-empty write fails exactly when it is blocked. -/
theorem writeAt_error_iff (now : Time) (pos : Nat) {buf : List UInt8}
    (nonempty : buf ≠ []) :
    (∃ error, (file.writeAt now pos buf volume).1 = .error error) ↔
      Ledger.Blocked volume pos buf file.data := by
  have positive : 0 < buf.length := List.length_pos_iff.mpr nonempty
  unfold MemFile.writeAt Ledger.Blocked checkedAdd wordMax
  rw [if_neg nonempty]
  by_cases overflows : 2 ^ 64 ≤ pos + buf.length
  · rw [if_neg (by omega)]
    constructor
    · intro _
      exact Or.inl overflows
    · intro _
      exact ⟨_, rfl⟩
  · rw [if_pos (by omega)]
    simp only
    split
    · rename_i nothing
      constructor
      · intro _
        exact Or.inr (by omega)
      · intro _
        exact ⟨_, rfl⟩
    · rename_i something
      constructor
      · rintro ⟨error, failed⟩
        cases failed
      · rintro (wraps | full)
        · exact absurd wraps overflows
        · omega

/-- What a write that places bytes leaves, in terms of the reservation. -/
theorem writeAt_ok {now : Time} {pos count : Nat} {buf : List UInt8}
    (nonempty : buf ≠ [])
    (placed : (file.writeAt now pos buf volume).1 = .ok count) :
    ∃ limit, limit = (volume.reserve file.data.length
        (max (pos + buf.length) file.data.length)).1 ∧
      count = min (limit - pos) buf.length ∧ 0 < count ∧
      pos + buf.length ≤ wordMax ∧
      (file.writeAt now pos buf volume).2.1.data =
        overwrite pos (buf.take count)
          (if file.data.length < limit then resizeBytes limit file.data
            else file.data) := by
  unfold MemFile.writeAt checkedAdd at placed ⊢
  rw [if_neg nonempty] at placed ⊢
  by_cases fits : pos + buf.length ≤ wordMax
  · rw [if_pos fits] at placed ⊢
    simp only at placed ⊢
    split at placed
    · cases placed
    · rename_i something
      rw [if_neg something]
      injection placed with same
      subst same
      exact ⟨_, rfl, rfl, Nat.pos_of_ne_zero something, fits, rfl⟩
  · rw [if_neg fits] at placed
    cases placed

/-- The bytes a write places stand behind the old content exactly when the
write began at its end. -/
theorem writeAt_appends_iff {now : Time} {pos count : Nat} {buf : List UInt8}
    (nonempty : buf ≠ [])
    (placed : (file.writeAt now pos buf volume).1 = .ok count) :
    (file.writeAt now pos buf volume).2.1.data =
        file.data ++ buf.take count ↔
      pos = file.data.length := by
  obtain ⟨limit, limitEq, countEq, positive, fits, after⟩ :=
    writeAt_ok nonempty placed
  have taken : (buf.take count).length = count := by
    rw [List.length_take]
    omega
  unfold Volume.reserve wrappingAdd at limitEq
  unfold wordMax at fits
  simp only at limitEq
  rw [after]
  constructor
  · intro same
    -- compare the lengths: the file has grown by exactly the bytes placed
    have lengths := congrArg List.length same
    unfold overwrite at lengths
    split at lengths
    · simp only [List.length_append, List.length_take, List.length_drop,
        MemoryFs.length_resizeBytes] at lengths
      have wrapped := Nat.mod_le (file.data.length +
        min (max (pos + buf.length) file.data.length - file.data.length)
          (volume.capacity - volume.used)) (2 ^ 64)
      omega
    · simp only [List.length_append, List.length_take,
        List.length_drop] at lengths
      omega
  · intro atEnd
    subst atEnd
    have grows : limit = file.data.length + count := by
      rw [Nat.mod_eq_of_lt (by omega)] at limitEq
      omega
    have grown : resizeBytes (file.data.length + count) file.data =
        file.data ++ List.replicate count 0 := by
      unfold resizeBytes
      rw [List.take_of_length_le (by omega), Nat.add_sub_cancel_left]
    rw [if_pos (by omega), grows, grown]
    unfold overwrite
    rw [taken, List.take_left, List.drop_of_length_le, List.append_nil]
    rw [List.length_append, List.length_replicate]

end MemFile

/-! ## Runs -/

namespace Ledger

open MemoryFs

/-- The tree after a write through a handle that is there. -/
theorem step_write {ledger : Ledger} {handle file pos : Nat}
    {content : MemFile} (now : Time) (buf : List UInt8)
    (opened : ledger.desk.handles.lookup handle = some (.memory file pos))
    (present : ledger.desk.fs.files.lookup file = some content) :
    (ledger.desk.fs.writeHandle now file pos buf).1 =
        (content.writeAt now pos buf ledger.desk.fs.volume).1 ∧
      (ledger.desk.step (.write now handle buf)).fs.files.lookup file =
        some (content.writeAt now pos buf ledger.desk.fs.volume).2.1 := by
  simp only [Desk.step, Desk.onMemory, opened, Desk.store]
  unfold writeHandle writeFile
  simp only [present]
  split
  · rename_i error next failed
    injection failed with result same
    rw [result, ← same]
    exact ⟨rfl, AList.lookup_insert _⟩
  · rename_i count next placed
    injection placed with result same
    rw [result, ← same]
    exact ⟨rfl, AList.lookup_insert _⟩

/-- One operation appends where it has to exactly when the cursor it uses is
at the end. -/
theorem appends_iff_atEnd (ledger : Ledger) (op : DeskOp) :
    ledger.Appends op ↔ ledger.AtEnd op := by
  cases op with
  | write now handle buf =>
      simp only [Appends, AtEnd]
      constructor
      · intro appends member nonempty file pos content opened present
        obtain ⟨result, after⟩ := step_write now buf opened present
        cases outcome : (content.writeAt now pos buf
            ledger.desk.fs.volume).1 with
        | error error =>
            right
            exact (MemFile.writeAt_error_iff now pos nonempty).mp
              ⟨error, outcome⟩
        | ok count =>
            left
            have landed := appends member nonempty file pos content count
              opened present (result.trans outcome)
            rw [after, Option.map_some, Option.some.injEq] at landed
            exact (MemFile.writeAt_appends_iff nonempty outcome).mp landed
      · intro atEnd member nonempty file pos content count opened present
          placed
        obtain ⟨result, after⟩ := step_write now buf opened present
        rw [result] at placed
        rw [after, Option.map_some, Option.some.injEq]
        rcases atEnd member nonempty file pos content opened present with
          here | blocked
        · exact (MemFile.writeAt_appends_iff nonempty placed).mpr here
        · obtain ⟨error, failed⟩ :=
            (MemFile.writeAt_error_iff now pos nonempty).mpr blocked
          rw [failed] at placed
          cases placed
  | _ =>
      exact Iff.rfl

/-- `write_truncate` of `OpenOptions`, and an append open of the same file. -/
def overwritingRun : List DeskOp :=
  [.openWrite 0 ['/', 'f'] ⟨false, true, true, false, true, false⟩,
    .openWrite 0 ['/', 'f'] ⟨false, true, true, false, false, true⟩,
    .write 0 0 [1, 2],
    .write 0 1 [9]]

end Ledger

end Hookfs.Memory
