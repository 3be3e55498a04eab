import Hookfs.Lib.Leb128
import Hookfs.Plthook.MachOSafety
import Mathlib.Tactic.Ring

/-!
# Decoding the numbers of a bind stream

`uleb128` returns the number that its bytes spell, unless that number has ten
bytes and does not fit in 64 bits: the tenth byte has room for one bit, and
its other bits are shifted out of the word.
-/

namespace Hookfs.Plthook.MachO

open Hookfs.Lib Hookfs.Plthook

/-! ## What a view shows -/

/-- From an offset on, the view reads any piece of these bytes. -/
def MachOView.Shows (view : MachOView) (off : Nat) (bytes : List UInt8) :
    Prop :=
  ∀ start width, start + width ≤ bytes.length →
    view.read (off + start) width = .ok ((bytes.drop start).take width)

namespace MachOView

variable {view : MachOView} {off : Nat} {bytes : List UInt8}

theorem Shows.piece (shown : view.Shows off bytes) {start width : Nat}
    (inside : start + width ≤ bytes.length) :
    view.Shows (off + start) ((bytes.drop start).take width) := by
  intro first count fits
  rw [List.length_take, List.length_drop] at fits
  have whole := shown (start + first) count (by omega)
  rw [Nat.add_assoc, whole, List.drop_take, List.take_take, List.drop_drop,
    Nat.min_eq_left (by omega)]

theorem Shows.left {rest : List UInt8}
    (shown : view.Shows off (bytes ++ rest)) : view.Shows off bytes := by
  intro start width inside
  rw [shown start width (by rw [List.length_append]; omega),
    List.drop_append_of_le_length (by omega),
    List.take_append_of_le_length (by rw [List.length_drop]; omega)]

theorem Shows.right {rest : List UInt8}
    (shown : view.Shows off (bytes ++ rest)) :
    view.Shows (off + bytes.length) rest := by
  intro start width inside
  have whole := shown (bytes.length + start) width
    (by rw [List.length_append]; omega)
  rw [Nat.add_assoc, whole, List.drop_append, List.drop_eq_nil_of_le (by omega),
    List.nil_append, Nat.add_sub_cancel_left]

theorem Shows.tail {byte : UInt8} {rest : List UInt8}
    (shown : view.Shows off (byte :: rest)) : view.Shows (off + 1) rest :=
  @Shows.right view off [byte] rest shown

/-- The first byte is read as it is. -/
theorem readByte_of_shows {byte : UInt8} {rest : List UInt8}
    (shown : view.Shows off (byte :: rest)) :
    view.readByte off = .ok byte := by
  have first := shown 0 1 (by rw [List.length_cons]; omega)
  rw [Nat.add_zero] at first
  unfold readByte
  rw [first]
  rfl

end MachOView

/-- The offline view shows its own bytes. -/
theorem FileView.shows_drop (view : FileView)
    (short : view.bytes.length < 2 ^ 64) {off : Nat}
    (inside : view.base + off ≤ view.bytes.length) :
    view.toView.Shows off (view.bytes.drop (view.base + off)) := by
  intro start width fits
  rw [List.length_drop] at fits
  have first : checkedAdd view.base (off + start) =
      some (view.base + (off + start)) :=
    if_pos (by unfold wordMax; omega)
  have last : checkedAdd (view.base + (off + start)) width =
      some (view.base + (off + start) + width) :=
    if_pos (by unfold wordMax; omega)
  have room : view.base + (off + start) + width ≤ view.bytes.length := by
    omega
  change view.read (off + start) width = _
  unfold FileView.read
  simp only [first, last, if_pos room, List.drop_drop]
  rw [Nat.add_assoc]
  rfl

/-! ## One byte -/

namespace MachOView

variable {view : MachOView} {stop : Nat}

/-- The state behind a byte, with its seven bits added. -/
def Leb.behind (state : Leb) (byte : UInt8) : Leb where
  cursor := state.cursor + 1
  result :=
    (state.result + Leb128.payload byte * 2 ^ state.shift) % 2 ^ 64
  shift := state.shift + 7

/-- One round of the loop of `uleb128`. -/
def ulebRound (view : MachOView) (stop : Nat) (state : Leb) :
    Parse (Round Leb (Nat × Nat)) := do
  let read ← view.lebByte stop "ULEB128 runs past the bind stream"
    "ULEB128 overflow" state
  pure (if read.1 &&& 0x80 = 0 then .done (read.2.result, read.2.cursor)
    else .next read.2)

theorem uleb128_eq_loop (view : MachOView) (cursor stop : Nat) :
    view.uleb128 cursor stop =
      loop (view.ulebRound stop) lebRounds ⟨cursor, 0, 0⟩ :=
  rfl

/-- A byte inside the stream, while there is room for its bits. -/
theorem lebByte_of_shows {past long : String} {state : Leb} {byte : UInt8}
    {rest : List UInt8} (short : stop < 2 ^ 64)
    (shown : view.Shows state.cursor (byte :: rest))
    (before : state.cursor < stop) (narrow : state.shift < 64)
    (fits : state.result < 2 ^ state.shift) :
    view.lebByte stop past long state =
      .ok (byte, state.behind byte) := by
  have room : state.shift ≤ ulebMaxShift := by
    unfold ulebMaxShift
    omega
  unfold lebByte
  rw [Checked.ensure_eq_ok _ before, Checked.bind_ok,
    readByte_of_shows shown, Checked.bind_ok,
    Checked.add_eq_ok (by omega), Checked.bind_ok,
    Checked.ensure_eq_ok _ room, Checked.bind_ok,
    Checked.shl_eq_ok _ narrow, Checked.bind_ok,
    Checked.add_eq_ok (by omega), Checked.bind_ok, Leb128.toNat_and_low,
    Leb128.or_shiftLeft fits narrow]
  rfl

/-- No byte is taken past the end, and none for which there is no room. -/
theorem eq_of_lebByte {past long : String} {state : Leb}
    {read : UInt8 × Leb}
    (returned : view.lebByte stop past long state = .ok read) :
    state.cursor < stop ∧ state.shift ≤ 63 := by
  unfold lebByte at returned
  obtain ⟨_, inside, returned⟩ := Checked.eq_ok_of_bind returned
  obtain ⟨_, _, returned⟩ := Checked.eq_ok_of_bind returned
  obtain ⟨_, _, returned⟩ := Checked.eq_ok_of_bind returned
  obtain ⟨_, narrow, _⟩ := Checked.eq_ok_of_bind returned
  exact ⟨Checked.of_ensure inside, Checked.of_ensure narrow⟩

/-! ## The loop -/

theorem Leb.fits_behind {state : Leb} (fits : state.result < 2 ^ state.shift)
    (byte : UInt8) :
    (state.behind byte).result < 2 ^ (state.behind byte).shift := by
  have seven := Leb128.payload_lt byte
  have scaled := Nat.mul_le_mul_right (2 ^ state.shift)
    (Nat.le_of_lt_succ seven)
  have wider : 2 ^ (state.shift + 7) = 2 ^ state.shift * 128 :=
    Nat.pow_add 2 state.shift 7
  have room := Nat.mod_le
    (state.result + Leb128.payload byte * 2 ^ state.shift) (2 ^ 64)
  simp only [Leb.behind]
  omega

/-- The value is the same behind a byte, with one byte less to come. -/
theorem value_behind (state : Leb) (byte : UInt8) (rest : List UInt8) :
    ((state.behind byte).result +
        Leb128.value rest * 2 ^ (state.behind byte).shift) % 2 ^ 64 =
      (state.result + Leb128.value (byte :: rest) * 2 ^ state.shift) %
        2 ^ 64 := by
  simp only [Leb.behind, Leb128.value]
  rw [Nat.mod_add_mod, Nat.pow_add]
  congr 1
  ring

/-- The first byte of what is left of a number. -/
theorem ulebLoop_cons_eq_ok_iff {byte : UInt8} {rest : List UInt8}
    {state : Leb} {rounds : Nat} {read : Nat × Nat} (short : stop < 2 ^ 64)
    (shown : view.Shows state.cursor (byte :: rest))
    (budget : state.shift + 7 * rounds = 77)
    (fits : state.result < 2 ^ state.shift) :
    loop (view.ulebRound stop) rounds state = .ok read ↔
      state.cursor < stop ∧ state.shift ≤ 63 ∧
        if byte.toNat < 128 then
          read = ((state.behind byte).result, state.cursor + 1)
        else
          loop (view.ulebRound stop) (rounds - 1) (state.behind byte) =
            .ok read := by
  cases rounds with
  | zero =>
      have late : ¬ state.shift ≤ 63 := by omega
      simp [loop, late]
  | succ left =>
      by_cases room : state.cursor < stop ∧ state.shift ≤ 63
      · have taken : view.lebByte stop "ULEB128 runs past the bind stream"
            "ULEB128 overflow" state = .ok (byte, state.behind byte) :=
          lebByte_of_shows short shown room.1 (by omega) fits
        have round : view.ulebRound stop state =
            .ok (if byte.toNat < 128 then
                .done ((state.behind byte).result, state.cursor + 1)
              else .next (state.behind byte)) := by
          unfold ulebRound
          rw [taken, Checked.bind_ok]
          simp only [Leb128.and_high_eq_zero_iff]
          rfl
        rw [loop, round, Nat.add_sub_cancel]
        by_cases ends : byte.toNat < 128
        · rw [if_pos ends, if_pos ends]
          simp only [Except.ok.injEq, room.1, room.2, true_and]
          exact eq_comm
        · rw [if_neg ends, if_neg ends]
          simp only [room.1, room.2, true_and]
      · constructor
        · intro returned
          rw [loop] at returned
          cases round : view.ulebRound stop state with
          | error fault =>
              rw [round] at returned
              cases returned
          | ok ended =>
              obtain ⟨taken, here, _⟩ := Checked.eq_ok_of_bind round
              exact absurd (eq_of_lebByte here) room
        · intro given
          exact absurd ⟨given.1, given.2.1⟩ room

/-- What the loop returns on a terminated sequence of bytes, from any state
that has read seven bits in every round so far. -/
theorem ulebLoop_eq_ok_iff {bytes : List UInt8} {state : Leb}
    {rounds : Nat} {read : Nat × Nat} (short : stop < 2 ^ 64)
    (ends : Leb128.Terminated bytes)
    (shown : view.Shows state.cursor bytes)
    (budget : state.shift + 7 * rounds = 77)
    (fits : state.result < 2 ^ state.shift) :
    loop (view.ulebRound stop) rounds state = .ok read ↔
      state.cursor + bytes.length ≤ stop ∧
        state.shift + 7 * bytes.length ≤ 70 ∧
        read =
          ((state.result + Leb128.value bytes * 2 ^ state.shift) % 2 ^ 64,
            state.cursor + bytes.length) := by
  induction ends generalizing state rounds with
  | @last byte ends =>
      rw [ulebLoop_cons_eq_ok_iff short shown budget fits, if_pos ends]
      simp only [List.length_singleton, Leb128.value, Leb.behind]
      constructor
      · intro given
        exact ⟨given.1, by omega, given.2.2⟩
      · intro given
        exact ⟨given.1, by omega, given.2.2⟩
  | @more byte rest continues later inductionHypothesis =>
      have below : ¬ byte.toNat < 128 := Nat.not_lt.mpr continues
      rw [ulebLoop_cons_eq_ok_iff short shown budget fits, if_neg below]
      by_cases narrow : state.shift ≤ 63
      · rw [inductionHypothesis shown.tail (by simp only [Leb.behind]; omega)
          (Leb.fits_behind fits byte), value_behind]
        simp only [Leb.behind, List.length_cons]
        constructor
        · intro given
          obtain ⟨_, _, inside, enough, same⟩ := given
          exact ⟨by omega, by omega, by rw [same, Nat.add_right_comm]; rfl⟩
        · intro given
          obtain ⟨inside, enough, same⟩ := given
          exact ⟨by omega, narrow, by omega, by omega,
            by rw [same, Nat.add_right_comm]; rfl⟩
      · constructor
        · intro given
          exact absurd given.2.1 narrow
        · intro given
          have enough := given.2.1
          rw [List.length_cons] at enough
          omega

/-- `uleb128` on a terminated sequence of bytes: it takes ten bytes at most,
and the word keeps 64 bits of what they spell. -/
theorem uleb128_eq_ok_iff {bytes : List UInt8} {cursor : Nat}
    {read : Nat × Nat} (short : stop < 2 ^ 64)
    (ends : Leb128.Terminated bytes) (shown : view.Shows cursor bytes) :
    view.uleb128 cursor stop = .ok read ↔
      cursor + bytes.length ≤ stop ∧ bytes.length ≤ 10 ∧
        read = (Leb128.value bytes % 2 ^ 64, cursor + bytes.length) := by
  rw [uleb128_eq_loop, ulebLoop_eq_ok_iff short ends shown rfl Nat.one_pos]
  simp only [Nat.zero_add, Nat.pow_zero, Nat.mul_one]
  constructor
  · intro given
    exact ⟨given.1, by omega, given.2.2⟩
  · intro given
    exact ⟨given.1, by omega, given.2.2⟩

end MachOView

/-! ## Exactness -/

/-- The result is the number that the bytes spell or an error, and an error
if the number does not fit in 64 bits. -/
def DecodesExactly (result : Parse (Nat × Nat)) (bytes : List UInt8) : Prop :=
  (∀ read, result = .ok read → read.1 = Leb128.value bytes) ∧
    (2 ^ 64 ≤ Leb128.value bytes → ∃ error, result = .error (.error error))

/-- Of a number of exactly ten bytes, all inside the stream, the last byte
has only the one bit that is left of a word. -/
def TenthByteFits (cursor stop : Nat) (bytes : List UInt8) : Prop :=
  bytes.length = 10 → cursor + 10 ≤ stop →
    ∀ byte, bytes[9]? = some byte → byte.toNat ≤ 1

theorem value_lt_word_iff {bytes : List UInt8}
    (ends : Leb128.Terminated bytes) (few : bytes.length ≤ 10) :
    Leb128.value bytes < 2 ^ 64 ↔
      (bytes.length = 10 → ∀ byte, bytes[9]? = some byte →
        byte.toNat ≤ 1) := by
  obtain ⟨front, last, same, small⟩ := ends.eq_append
  have low := Leb128.value_lt front
  have total : Leb128.value bytes =
      Leb128.value front + 128 ^ front.length * last.toNat := by
    rw [same, Leb128.value_append, Leb128.value_singleton small]
  have length : bytes.length = front.length + 1 := by
    rw [same, List.length_append, List.length_singleton]
  by_cases ten : front.length = 9
  · have tenth : bytes[9]? = some last := by
      rw [same, ← ten, List.getElem?_concat_length]
    rw [ten] at low total
    constructor
    · intro fits _ byte here
      rw [tenth, Option.some.injEq] at here
      subst here
      omega
    · intro given
      have one := given (by omega) last tenth
      have scaled := Nat.mul_le_mul_left (128 ^ 9) one
      omega
  · have short : front.length + 1 ≤ 9 := by omega
    have narrow := Leb128.value_lt bytes
    have wide : 128 ^ bytes.length ≤ 128 ^ 9 :=
      Nat.pow_le_pow_right (by decide) (by omega)
    constructor
    · intro _ impossible
      omega
    · intro _
      omega

/-- For every view, cursor and end of the stream: the shortest bytes of every
64-bit number are read back, and any terminated sequence of bytes decodes
exactly if and only if its tenth byte fits. -/
theorem uleb128_exact_iff (view : MachOView) (cursor : Nat) {stop : Nat}
    (short : stop < 2 ^ 64) :
    (∀ number < 2 ^ 64, view.Shows cursor (Leb128.encode number) →
        cursor + (Leb128.encode number).length ≤ stop →
        view.uleb128 cursor stop =
          .ok (number, cursor + (Leb128.encode number).length)) ∧
      ∀ bytes, Leb128.Terminated bytes → view.Shows cursor bytes →
        (DecodesExactly (view.uleb128 cursor stop) bytes ↔
          TenthByteFits cursor stop bytes) := by
  constructor
  · intro number small shown inside
    have few : (Leb128.encode number).length ≤ 10 :=
      Leb128.length_encode_of_lt 9 (by omega)
    have ends := Leb128.terminated_encode number
    rw [MachOView.uleb128_eq_ok_iff short ends shown,
      Leb128.value_encode, Nat.mod_eq_of_lt small]
    exact ⟨inside, few, rfl⟩
  · intro bytes ends shown
    have returns := fun read =>
      @MachOView.uleb128_eq_ok_iff view stop bytes cursor read short ends shown
    constructor
    · intro exactly ten inside byte tenth
      have fits := exactly.1 _ ((returns _).mpr ⟨by omega, by omega, rfl⟩)
      have small : Leb128.value bytes < 2 ^ 64 := by
        rw [← fits]
        exact Nat.mod_lt _ (by decide)
      exact (value_lt_word_iff ends (by omega)).mp small ten byte tenth
    · intro given
      have kept : ∀ read, view.uleb128 cursor stop = .ok read →
          Leb128.value bytes < 2 ^ 64 ∧
            read.1 = Leb128.value bytes % 2 ^ 64 := by
        intro read returned
        obtain ⟨inside, few, same⟩ := (returns read).mp returned
        have small := (value_lt_word_iff ends few).mpr fun ten =>
          given ten (by omega)
        rw [same]
        exact ⟨small, rfl⟩
      constructor
      · intro read returned
        obtain ⟨small, same⟩ := kept read returned
        rw [same, Nat.mod_eq_of_lt small]
      · intro large
        have sound := view.sound_uleb128 cursor short
        rcases Sound.iff_ok_or_error.mp sound with ok | error
        · obtain ⟨read, returned, _⟩ := ok
          have small := (kept read returned).1
          omega
        · exact error

/-- A file that holds nothing but some numbers. -/
def numbersView (bytes : List UInt8) : MachOView :=
  FileView.toView ⟨bytes, 0, [], cpuTypeX8664, 3⟩

theorem numbersView_shows {bytes : List UInt8}
    (short : bytes.length < 2 ^ 64) : (numbersView bytes).Shows 0 bytes :=
  FileView.shows_drop ⟨bytes, 0, [], cpuTypeX8664, 3⟩ short
    (Nat.zero_le bytes.length)

/-- The shortest bytes of 300, and the same number in three bytes. -/
theorem uleb128_exact_iff_threeHundred :
    (numbersView (Leb128.encode 300)).uleb128 0 2 = .ok (300, 2) ∧
      DecodesExactly ((numbersView [0xac, 0x82, 0x00]).uleb128 0 3)
        [0xac, 0x82, 0x00] := by
  have shortest : Leb128.encode 300 = [0xac, 0x02] := by
    rw [Leb128.encode_of_le (by decide), Leb128.encode_of_lt (by decide)]
    rfl
  constructor
  · have short : 2 < 2 ^ 64 := by decide
    have returned := (uleb128_exact_iff (numbersView (Leb128.encode 300)) 0
        short).1 300 (by decide)
      (numbersView_shows (by rw [shortest]; decide))
      (by rw [shortest]; decide)
    rw [returned, shortest]
    rfl
  · have short : 3 < 2 ^ 64 := by decide
    have exactly := (uleb128_exact_iff (numbersView [0xac, 0x82, 0x00]) 0
        short).2 [0xac, 0x82, 0x00]
    have ends : Leb128.Terminated [0xac, 0x82, 0x00] :=
      .more (by decide) (.more (by decide) (.last (by decide)))
    exact (exactly ends (numbersView_shows (by decide))).mpr nofun

/-- Ten bytes that spell 2 ^ 64 + 5. -/
def tooLarge : List UInt8 :=
  0x85 :: List.replicate 8 0x80 ++ [0x02]

/-- The bits that do not fit are lost: the code reads 5. -/
theorem uleb128_truncates :
    Leb128.value tooLarge = 2 ^ 64 + 5 ∧
      (numbersView tooLarge).uleb128 0 10 = .ok (5, 10) ∧
      ¬ ∀ (view : MachOView) (cursor stop : Nat) (bytes : List UInt8),
        stop < 2 ^ 64 → Leb128.Terminated bytes → view.Shows cursor bytes →
          DecodesExactly (view.uleb128 cursor stop) bytes := by
  have large : Leb128.value tooLarge = 2 ^ 64 + 5 := by decide
  have ends : Leb128.Terminated tooLarge := by
    have continues : ∀ byte ∈ (0x85 :: List.replicate 8 0x80 : List UInt8),
        128 ≤ byte.toNat := by decide +kernel
    exact Leb128.Terminated.prepend continues (.last (by decide))
  have shown : (numbersView tooLarge).Shows 0 tooLarge :=
    numbersView_shows (by decide)
  have returned : (numbersView tooLarge).uleb128 0 10 = .ok (5, 10) := by
    rw [MachOView.uleb128_eq_ok_iff (by decide) ends shown, large]
    decide
  refine ⟨large, returned, ?_⟩
  intro every
  have exactly := every _ 0 10 tooLarge (by decide) ends shown
  have same := exactly.1 _ returned
  rw [large] at same
  exact absurd same (by decide)

end Hookfs.Plthook.MachO
