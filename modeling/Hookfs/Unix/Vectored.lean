import Hookfs.Memory.Pieces
import Hookfs.Unix.Owners

/-!
# `readv` and `writev`

The loops over the vector stop at a short count and forget an error behind a
whole one; so they do what one read into the joined buffers does, or one
write of them, wherever the end of the file or the capacity falls.
-/

namespace Hookfs.Unix

open Hookfs.Lib Hookfs.Vfs Hookfs.Router Hookfs.Memory

open MemoryFs (Stream)

/-! ## Cursors -/

section Cursors

/-- The stream with its cursor elsewhere. -/
def moved (stream : OpenStream Stream) (pos : Nat) : OpenStream Stream :=
  stream.replace (stream.inner.moveTo pos)

@[simp]
theorem inner_moved (stream : OpenStream Stream) (pos : Nat) :
    (moved stream pos).inner = stream.inner.moveTo pos :=
  inner_replace stream _

@[simp]
theorem position_moveTo (stream : Stream) (pos : Nat) :
    (stream.moveTo pos).position = pos := by
  cases stream with
  | source origin _ =>
      rfl
  | memory id _ =>
      rfl

theorem moved_moved (stream : OpenStream Stream) (first second : Nat) :
    moved (moved stream first) second = moved stream second := by
  cases stream with
  | read inner =>
      cases inner <;> rfl
  | write inner =>
      cases inner <;> rfl

theorem moved_position (stream : OpenStream Stream) :
    moved stream stream.inner.position = stream := by
  cases stream with
  | read inner =>
      cases inner <;> rfl
  | write inner =>
      cases inner <;> rfl

end Cursors

/-! ## Reading -/

/-- A source whose bytes are in memory. -/
def Buffered (around : Surroundings) (origin : SharedSource)
    (data : List UInt8) : Prop :=
  origin.size = data.length ∧
    ∀ pos len, around.ambient.physical origin.stream pos len =
      .ok ((data.drop pos).take len)

/-- The bytes that a stream reads from. -/
def ReadsFrom (around : Surroundings) (fs : MemoryFs) (data : List UInt8) :
    Stream → Prop
  | .source origin _ => Buffered around origin data
  | .memory id _ => ∃ content, fs.files.lookup id = some content ∧
      content.data = data

/-- How the sinks are filled in order; an empty one gets nothing. -/
def scatter : List Sink → List UInt8 → List (Nat × List UInt8)
  | [], _ => []
  | sink :: rest, bytes =>
      if sink.len = 0 ∨ bytes = [] then scatter rest bytes
      else
        (sink.base, bytes.take sink.len) ::
          scatter rest (bytes.drop sink.len)

/-- The room in a list of sinks. -/
def room (sinks : List Sink) : Nat :=
  (sinks.map Sink.len).sum

section Reading

variable {around : Surroundings} {fs : MemoryFs} {data : List UInt8}

theorem scatter_nil (sinks : List Sink) : scatter sinks [] = [] := by
  induction sinks with
  | nil =>
      rfl
  | cons sink rest inductionHypothesis =>
      unfold scatter
      rw [if_pos (.inr rfl), inductionHypothesis]

theorem room_cons (sink : Sink) (rest : List Sink) :
    room (sink :: rest) = sink.len + room rest :=
  List.sum_cons

/-- Bytes that fill the first sink, and those behind them. -/
theorem scatter_cons {sink : Sink} {first : List UInt8}
    (some : first ≠ []) (fits : first.length ≤ sink.len)
    (rest : List Sink) (others : List UInt8)
    (whole : first.length = sink.len ∨ others = []) :
    scatter (sink :: rest) (first ++ others) =
      (sink.base, first) :: scatter rest others := by
  have positive : 0 < first.length := List.length_pos_iff.mpr some
  have kept : first ++ others ≠ [] :=
    List.append_ne_nil_of_left_ne_nil some others
  have full : ¬ (sink.len = 0 ∨ first ++ others = []) := by
    rintro (zero | empty)
    · omega
    · exact kept empty
  rw [scatter, if_neg full]
  rcases whole with filled | nothing
  · rw [← filled, List.take_left, List.drop_left]
  · rw [nothing, List.append_nil, List.take_of_length_le fits,
      List.drop_eq_nil_of_le fits]

theorem ReadsFrom.moveTo {stream : Stream}
    (reads : ReadsFrom around fs data stream) (pos : Nat) :
    ReadsFrom around fs data (stream.moveTo pos) := by
  cases stream with
  | source origin _ =>
      exact reads
  | memory id _ =>
      exact reads

/-- One read. -/
theorem readBytes_eq {stream : OpenStream Stream}
    (reads : ReadsFrom around fs data stream.inner) {pos len : Nat}
    (here : stream.inner.position = pos) (word : pos + len < 2 ^ 63) :
    stream.readBytes around.machine.provider around.machine.ambient len fs =
      (.ok ((data.drop pos).take len),
        moved stream (pos + ((data.drop pos).take len).length), fs) := by
  have short : ((data.drop pos).take len).length ≤ len :=
    List.length_take_le _ _
  have plain : saturatingAdd pos ((data.drop pos).take len).length =
      pos + ((data.drop pos).take len).length := by
    unfold saturatingAdd wordMax
    omega
  have read : stream.inner.read around.ambient.physical len fs =
      (.ok ((data.drop pos).take len), stream.inner.moveTo
        (pos + ((data.drop pos).take len).length)) := by
    cases inner : stream.inner with
    | source origin start =>
        rw [inner] at reads here
        obtain ⟨size, physical⟩ := reads
        have same : start = pos := here
        subst same
        unfold Stream.read
        simp only
        split
        · rename_i beyond
          rw [List.drop_eq_nil_of_le (size ▸ beyond), List.take_nil]
          rfl
        · simp only [physical, plain]
          rfl
    | memory id start =>
        rw [inner] at reads here
        obtain ⟨content, present, bytes⟩ := reads
        have same : start = pos := here
        subst same
        unfold Stream.read
        simp only [present, MemFile.readAt, bytes, plain]
        rfl
  simp only [OpenStream.readBytes, OpenStream.both, Surroundings.machine,
    MemoryFs.provider, read]
  rfl

/-- The loop of `readv` reads what the joined sinks have room for. -/
theorem readvLoop_eq (sinks : List Sink) {stream : OpenStream Stream}
    (reads : ReadsFrom around fs data stream.inner) {pos : Nat}
    (here : stream.inner.position = pos)
    (word : pos + room sinks < 2 ^ 63)
    (based : ∀ sink ∈ sinks, sink.base ≠ 0)
    (pieces : List (Nat × List UInt8)) (total : Nat) :
    readvLoop around.machine sinks pieces total stream fs =
      (⟨((total + ((data.drop pos).take (room sinks)).length : Nat) : Int),
          none, .vectors
            (pieces ++ scatter sinks ((data.drop pos).take (room sinks)))⟩,
        moved stream (pos + ((data.drop pos).take (room sinks)).length),
        fs) := by
  induction sinks generalizing stream pos pieces total with
  | nil =>
      have still : moved stream pos = stream := by
        rw [← here]
        exact moved_position stream
      simp only [room, List.map_nil, List.sum_nil, List.take_zero,
        List.length_nil, Nat.add_zero, still, scatter, List.append_nil]
      rfl
  | cons sink rest inductionHypothesis =>
      have baseRest : ∀ other ∈ rest, other.base ≠ 0 := fun other member =>
        based other (List.mem_cons_of_mem _ member)
      rw [room_cons] at word ⊢
      by_cases empty : sink.len = 0
      · have skipped (bytes : List UInt8) :
            scatter (sink :: rest) bytes = scatter rest bytes := by
          rw [scatter, if_pos (.inl empty)]
        unfold readvLoop
        rw [if_pos (.inl empty), empty, Nat.zero_add, skipped]
        exact inductionHypothesis reads here (by omega) baseRest pieces total
      · have full : ¬ (sink.len = 0 ∨ sink.base = 0) := by
          rintro (zero | null)
          · exact empty zero
          · exact based sink List.mem_cons_self null
        obtain ⟨bytes, bytesEq⟩ : ∃ bytes,
            bytes = (data.drop pos).take sink.len := ⟨_, rfl⟩
        have read := readBytes_eq reads here
          (show pos + sink.len < 2 ^ 63 by omega)
        rw [← bytesEq] at read
        obtain ⟨others, othersEq⟩ : ∃ others, others =
            (data.drop (pos + sink.len)).take (room rest) := ⟨_, rfl⟩
        have joined : (data.drop pos).take (sink.len + room rest) =
            bytes ++ others := by
          rw [List.take_add, List.drop_drop, bytesEq, othersEq]
        have fits : bytes.length ≤ sink.len := by
          rw [bytesEq]
          exact List.length_take_le _ _
        have ended (short : bytes.length < sink.len) : others = [] := by
          rw [bytesEq, List.length_take, List.length_drop] at short
          rw [othersEq, List.drop_eq_nil_of_le (by omega), List.take_nil]
        rw [joined]
        unfold readvLoop
        rw [if_neg full]
        simp only [read]
        by_cases none : bytes.length = 0
        · -- the end of the file, before this sink
          have nothing := List.eq_nil_of_length_eq_zero none
          rw [if_pos none, ended (by omega), nothing, List.append_nil,
            scatter_nil, List.append_nil, List.length_nil, Nat.add_zero,
            Nat.add_zero]
        · have some : bytes ≠ [] := by
            intro empty
            exact none (congrArg List.length empty)
          rw [if_neg none]
          by_cases short : bytes.length < sink.len
          · -- the end of the file, inside this sink
            rw [if_pos short, scatter_cons some fits rest others
                (.inr (ended short)), ended short, scatter_nil,
              List.append_nil]
            rfl
          · have whole : bytes.length = sink.len := by omega
            have further : (moved stream (pos + bytes.length)).inner.position =
                pos + sink.len := by
              rw [inner_moved, position_moveTo, whole]
            have onward : ReadsFrom around fs data
                (moved stream (pos + bytes.length)).inner := by
              rw [inner_moved]
              exact reads.moveTo _
            have later := inductionHypothesis onward further (by omega)
              baseRest (pieces ++ [(sink.base, bytes)])
              (total + bytes.length)
            rw [if_neg short, later, moved_moved, ← othersEq,
              scatter_cons some fits rest others (.inl whole),
              List.length_append, List.append_assoc, ← whole]
            simp only [Nat.add_assoc]
            rfl

end Reading

/-! ## Writing -/

/-- What `writev` answers once everything before the last write is placed. -/
def gathered (total : Nat) :
    Except IoError Nat × OpenStream Stream × MemoryFs →
      Reply × OpenStream Stream × MemoryFs
  | (.ok count, stream, fs) =>
      (⟨((total + count : Nat) : Int), none, .nothing⟩, stream, fs)
  | (.error error, stream, fs) =>
      if total = 0 then
        (⟨-1, some (ioToErrno error), .nothing⟩, stream, fs)
      else (⟨total, none, .nothing⟩, stream, fs)

/-- The one write; an empty one does not reach the stream. -/
def writeWhole (around : Surroundings) (data : List UInt8)
    (state : OpenStream Stream × MemoryFs) :
    Except IoError Nat × OpenStream Stream × MemoryFs :=
  if data = [] then (.ok 0, state)
  else
    state.1.writeBytes around.machine.provider around.machine.ambient data
      state.2

section Writing

variable {around : Surroundings} {fs : MemoryFs} {limit : Nat}
  {outside : Nat → Nat} {stream : OpenStream Stream}
  {first second : List UInt8}

theorem writeBytes_append
    (charged : MemoryFs.Leaky (MemoryFs.Counted limit) fs outside)
    (nonempty : first ≠ []) (more : second ≠ [])
    (word : stream.inner.position + first.length + second.length < 2 ^ 63) :
    stream.writeBytes around.machine.provider around.machine.ambient
        (first ++ second) fs =
      behind first.length
        (stream.writeBytes around.machine.provider around.machine.ambient first
          fs)
        fun state => state.1.writeBytes around.machine.provider
          around.machine.ambient second state.2 := by
  cases stream with
  | read inner =>
      rfl
  | write inner =>
      have whole : inner.write around.ambient.now (first ++ second) fs = _ :=
        Stream.write_append charged around.ambient.now nonempty more word
      have seen := behind_map first.length
        (fun state : Stream × MemoryFs => (OpenStream.write state.1, state.2))
        (inner.write around.ambient.now first fs)
        (fun state => state.1.write around.ambient.now second state.2)
        (fun state => state.1.writeBytes around.machine.provider
          around.machine.ambient second state.2)
        (fun state => rfl)
      rw [← whole] at seen
      exact seen.symm

/-- The first of several buffers, and those behind it. -/
theorem writeWhole_append
    (charged : MemoryFs.Leaky (MemoryFs.Counted limit) fs outside)
    (nonempty : first ≠ [])
    (word : stream.inner.position + first.length + second.length < 2 ^ 63) :
    writeWhole around (first ++ second) (stream, fs) =
      behind first.length
        (stream.writeBytes around.machine.provider around.machine.ambient first
          fs)
        (writeWhole around second) := by
  have kept : first ++ second ≠ [] :=
    List.append_ne_nil_of_left_ne_nil nonempty second
  unfold writeWhole
  rw [if_neg kept]
  by_cases last : second = []
  · rw [last, List.append_nil]
    simp only [if_true]
    rcases stream.writeBytes around.machine.provider around.machine.ambient
      first fs with ⟨result, next⟩
    cases result with
    | error error =>
        rfl
    | ok count =>
        unfold behind
        simp only
        split
        · rfl
        · rfl
  · simp only [if_neg last]
    exact writeBytes_append charged nonempty last word

theorem writeBytes_ok {count : Nat} {buf : List UInt8}
    {after : OpenStream Stream} {next : MemoryFs}
    (wrote : stream.writeBytes around.machine.provider around.machine.ambient
      buf fs = (.ok count, after, next)) :
    count ≤ buf.length ∧
      after.inner.position ≤ stream.inner.position + count := by
  cases stream with
  | read inner =>
      cases wrote
  | write inner =>
      have result : (inner.write around.ambient.now buf fs).1 = .ok count :=
        congrArg Prod.fst wrote
      have there : after = .write (inner.write around.ambient.now buf fs).2.1 :=
        (congrArg (fun outcome => outcome.2.1) wrote).symm
      rw [there]
      exact Stream.write_ok result

/-- The loop of `writev` writes the joined buffers. -/
theorem writevLoop_eq (around : Surroundings) (buffers : List (List UInt8))
    (charged : MemoryFs.Leaky (MemoryFs.Counted limit) fs outside)
    (word : stream.inner.position + buffers.flatten.length < 2 ^ 63)
    (total : Nat) :
    writevLoop around.machine (buffers.map .bytes) total stream fs =
      gathered total (writeWhole around buffers.flatten (stream, fs)) := by
  induction buffers generalizing stream fs total with
  | nil =>
      rfl
  | cons data rest inductionHypothesis =>
      rw [List.flatten_cons] at word ⊢
      rw [List.map_cons]
      unfold writevLoop
      by_cases empty : data = []
      · rw [if_pos (by rw [empty]; rfl), empty, List.nil_append]
        rw [empty] at word
        exact inductionHypothesis charged word total
      · have some : 0 < data.length := List.length_pos_iff.mpr empty
        rw [List.length_append] at word
        rw [if_neg (by omega),
          writeWhole_append charged empty (by omega)]
        have next := (conserves_writeBytes around.ambient
          (MemoryFs.accounts_counted limit).leaky data stream fs outside
            charged).1
        rcases outcome : stream.writeBytes around.machine.provider
          around.machine.ambient data fs with ⟨result, after, tree⟩
        have there : MemoryFs.Leaky (MemoryFs.Counted limit) tree outside := by
          have same : tree = (stream.writeBytes around.machine.provider
            around.machine.ambient data fs).2.2 := by
              rw [outcome]
          rw [same]
          exact next
        cases result with
        | error error =>
            rw [behind_error]
            rfl
        | ok count =>
            obtain ⟨few, further⟩ := writeBytes_ok outcome
            simp only
            by_cases short : count < data.length
            · rw [if_pos short, behind_short short]
              rfl
            · rw [if_neg short, inductionHypothesis there (by omega)]
              rcases later : writeWhole around rest.flatten (after, tree) with
                ⟨answer, last⟩
              have all : data.length ≤ count := by omega
              cases answer with
              | error error =>
                  have placed : ¬ total + count = 0 := by omega
                  rw [behind_spent all later]
                  unfold gathered
                  exact if_neg placed
              | ok more =>
                  rw [behind_whole all later]
                  simp only [gathered, Nat.add_assoc]

end Writing

/-! ## The calls -/

/-- The stream of a descriptor, with its cursor. -/
def streamAt (fd : Int) (session : Session) : Option (OpenStream Stream) :=
  session.engine.bind fun engine =>
    (engine.registry.getFile (fdKey fd)).map OpenFile.stream

/-- The bytes that `read` leaves in its buffer. -/
def Output.delivered : Output → List UInt8
  | .bytes data => data
  | _ => []

/-- A handle on a writable file, or a cursor on a source in memory. -/
def InMemory (around : Surroundings) : Stream → Prop
  | .source origin _ => ∃ data, Buffered around origin data
  | .memory _ _ => True

/-- `readv` did what one `read` did, and put the bytes where they belong. -/
structure SameRead (fd : Int) (sinks : List Sink)
    (many one : Result MemoryFs Stream) : Prop where
  count : many.reply.ret = one.reply.ret
  errno : many.reply.errno = one.reply.errno
  bytes : many.reply.out = .vectors (scatter sinks one.reply.out.delivered)
  stream : streamAt fd many.process = streamAt fd one.process
  tree : many.process.vfs = one.process.vfs

/-- `writev` did what one `write` did. -/
structure SameWrite (fd : Int) (many one : Result MemoryFs Stream) :
    Prop where
  reply : many.reply = one.reply
  stream : streamAt fd many.process = streamAt fd one.process
  bytes : ∀ id, (many.process.vfs.files.lookup id).map MemFile.data =
    (one.process.vfs.files.lookup id).map MemFile.data
  used : many.process.vfs.volume.used = one.process.vfs.volume.used

section Calls

variable {around : Surroundings} {session : Session}
  {engine : Engine Stream} {fd : Int} {file : OpenFile Stream}

theorem streamAt_registered (active : session.engine = some engine)
    (registered : engine.registry.getFile (fdKey fd) = some file) :
    streamAt fd session = some file.stream := by
  unfold streamAt
  rw [active, Option.bind_some, registered, Option.map_some]

theorem streamAt_answerStream
    (outcome : Reply × OpenStream Stream × MemoryFs) :
    streamAt fd (answerStream fd engine file session outcome).process =
      some outcome.2.1 := by
  have kept : (engine.registry.putFile (fdKey fd)
      { file with stream := outcome.2.1 }).getFile (fdKey fd) =
        some { file with stream := outcome.2.1 } :=
    AList.lookup_insert _
  change ((engine.registry.putFile (fdKey fd)
    { file with stream := outcome.2.1 }).getFile (fdKey fd)).map
      OpenFile.stream = _
  rw [kept]
  rfl

section Registered

variable (outside : session.inHook = false)
  (active : session.engine = some engine)
  (registered : engine.registry.getFile (fdKey fd) = some file)
include outside active registered

theorem readv_answer (sinks : List Sink) :
    shim around.machine (.fd (.readv fd (some sinks) sinks.length)) session =
      answerStream fd engine file session
        (readvLoop around.machine sinks [] 0 file.stream session.vfs) := by
  change shimReadv around.machine fd (some sinks) sinks.length session = _
  unfold shimReadv
  rw [withFile_hit outside active registered]
  simp only
  rw [if_neg (by omega), Int.toNat_natCast, List.take_length]

theorem readv_sameRead {data : List UInt8} {sinks : List Sink} {base : Nat}
    (reads : ReadsFrom around session.vfs data file.stream.inner)
    (based : ∀ sink ∈ sinks, sink.base ≠ 0) (given : base ≠ 0)
    (word : file.stream.inner.position + room sinks < 2 ^ 63) :
    SameRead fd sinks
      (shim around.machine (.fd (.readv fd (some sinks) sinks.length)) session)
      (shim around.machine (.fd (.read fd ⟨base, room sinks⟩)) session) := by
  have many := readvLoop_eq sinks reads rfl word based [] 0
  rw [readv_answer outside active registered, many]
  change SameRead fd sinks _
    (shimRead around.machine fd ⟨base, room sinks⟩ session)
  unfold shimRead
  rw [withFile_hit outside active registered]
  simp only
  by_cases empty : room sinks = 0
  · rw [if_pos empty, empty, List.take_zero, List.length_nil, Nat.add_zero,
      Nat.add_zero, moved_position]
    constructor
    · rfl
    · rfl
    · rfl
    · rw [streamAt_answerStream]
      exact (streamAt_registered active registered).symm
    · rfl
  · rw [if_neg empty, if_neg given]
    simp only [readBytes_eq reads rfl word]
    constructor
    · simp [answerStream, bytesReply]
    · rfl
    · rfl
    · rw [streamAt_answerStream, streamAt_answerStream]
    · rfl

theorem writev_sameWrite {limit : Nat} {outsiders : Nat → Nat}
    (charged : MemoryFs.Leaky (MemoryFs.Counted limit) session.vfs outsiders)
    (buffers : List (List UInt8))
    (word : file.stream.inner.position + buffers.flatten.length < 2 ^ 63) :
    SameWrite fd
      (shim around.machine
        (.fd (.writev fd (some (buffers.map .bytes)) buffers.length)) session)
      (shim around.machine (.fd (.write fd (.bytes buffers.flatten)))
        session) := by
  have loop := writevLoop_eq around buffers charged word 0
  change SameWrite fd
    (shimWritev around.machine fd (some (buffers.map .bytes)) buffers.length
      session)
    (shimWrite around.machine fd (.bytes buffers.flatten) session)
  unfold shimWritev shimWrite withWritable
  rw [withFile_hit outside active registered,
    withFile_hit outside active registered]
  simp only
  cases file.writable with
  | false =>
      exact ⟨rfl, rfl, fun _ => rfl, rfl⟩
  | true =>
      have whole : (buffers.map Source.bytes).take
          (buffers.length : Int).toNat = buffers.map .bytes := by
        rw [Int.toNat_natCast, List.take_of_length_le]
        rw [List.length_map]
      have counted : (Source.bytes buffers.flatten).count =
          buffers.flatten.length := rfl
      simp only [Bool.not_true, Bool.false_eq_true, if_false]
      rw [if_neg (by omega), whole, loop, counted]
      unfold writeWhole
      by_cases empty : buffers.flatten = []
      · rw [if_pos empty, if_pos (List.length_eq_zero_iff.mpr empty)]
        refine ⟨rfl, ?_, fun _ => rfl, rfl⟩
        rw [streamAt_answerStream]
        exact (streamAt_registered active registered).symm
      · have some : 0 < buffers.flatten.length :=
          List.length_pos_iff.mpr empty
        rw [if_neg empty, if_neg (by omega)]
        rcases file.stream.writeBytes around.machine.provider
          around.machine.ambient buffers.flatten session.vfs with
          ⟨result, after, tree⟩
        cases result with
        | error error =>
            refine ⟨rfl, ?_, fun _ => rfl, rfl⟩
            rw [streamAt_answerStream, streamAt_answerStream]
            rfl
        | ok count =>
            refine ⟨?_, ?_, fun _ => rfl, rfl⟩
            · simp [answerStream, gathered, countReply]
            · rw [streamAt_answerStream, streamAt_answerStream]
              rfl

end Registered

end Calls

/-- `readv` is one read into the joined buffers, and `writev` one write of
them. -/
theorem vectored_equal_single (start : ChargedSession) (around : Surroundings)
    (engine : Engine Stream) (fd : Int) (file : OpenFile Stream)
    (outside : start.session.inHook = false)
    (active : start.session.engine = some engine)
    (registered : engine.registry.getFile (fdKey fd) = some file)
    (inMemory : InMemory around file.stream.inner) :
    (∀ (sinks : List Sink) (base : Nat),
      (∀ sink ∈ sinks, sink.base ≠ 0) → base ≠ 0 →
      file.stream.inner.position + room sinks < 2 ^ 63 →
        SameRead fd sinks
          (shim around.machine (.fd (.readv fd (some sinks) sinks.length))
            start.session)
          (shim around.machine (.fd (.read fd ⟨base, room sinks⟩))
            start.session)) ∧
    ∀ buffers : List (List UInt8),
      file.stream.inner.position + buffers.flatten.length < 2 ^ 63 →
        SameWrite fd
          (shim around.machine
            (.fd (.writev fd (some (buffers.map .bytes)) buffers.length))
            start.session)
          (shim around.machine (.fd (.write fd (.bytes buffers.flatten)))
            start.session) := by
  constructor
  · intro sinks base based given word
    have reads : ∃ data,
        ReadsFrom around start.session.vfs data file.stream.inner := by
      cases inner : file.stream.inner with
      | source origin pos =>
          rw [inner] at inMemory
          exact inMemory
      | memory id pos =>
          obtain ⟨content, present⟩ := start.charged.present
            (MemoryFs.accounts_counted start.limit).leaky active registered
              inner
          exact ⟨content.data, content, present, rfl⟩
    obtain ⟨data, reads⟩ := reads
    exact readv_sameRead outside active registered reads based given word
  · intro buffers word
    exact writev_sameWrite outside active registered start.charged buffers word

/-! ## A file that is open for both -/

/-- `/v/a`, empty, and opened as descriptor 7. -/
def openedBoth : ChargedSession :=
  (ChargedSession.install 4 (by decide) [.insertWritable 0 "/v/a".toList]
    (.fromRoot "/v".toList) true false).after
      [.call idle (.path (.open .open (some [47, 118, 47, 97]) O_RDWR 0))]

def openedEngine : Engine Stream :=
  { (Engine.new (.fromRoot "/v".toList) true : Engine Stream) with
    registry := Registry.new.putFile 7
      ⟨.write (.memory 0 0), "/v/a".toList, true⟩ }

/-- An empty buffer between two others, and a write past the capacity. -/
theorem vectored_equal_single_opened :
    SameRead 7 [⟨1, 2⟩, ⟨9, 0⟩, ⟨5, 3⟩]
        (shim idle.machine
          (.fd (.readv 7 (some [⟨1, 2⟩, ⟨9, 0⟩, ⟨5, 3⟩]) 3))
          openedBoth.session)
        (shim idle.machine (.fd (.read 7 ⟨1, 5⟩)) openedBoth.session) ∧
      SameWrite 7
        (shim idle.machine
          (.fd (.writev 7
            (some [.bytes [1, 2, 3], .bytes [], .bytes [4, 5]]) 3))
          openedBoth.session)
        (shim idle.machine (.fd (.write 7 (.bytes [1, 2, 3, 4, 5])))
          openedBoth.session) := by
  have same := vectored_equal_single openedBoth idle openedEngine 7
    ⟨.write (.memory 0 0), "/v/a".toList, true⟩ rfl rfl rfl trivial
  exact ⟨same.1 [⟨1, 2⟩, ⟨9, 0⟩, ⟨5, 3⟩] 1 (by decide) (by decide)
      (by decide),
    same.2 [[1, 2, 3], [], [4, 5]] (by decide)⟩

/-- Four bytes fit. -/
example : (shim idle.machine
    (.fd (.writev 7 (some [.bytes [1, 2, 3], .bytes [], .bytes [4, 5]]) 3))
    openedBoth.session).reply.ret = 4 := by
  decide

end Hookfs.Unix
