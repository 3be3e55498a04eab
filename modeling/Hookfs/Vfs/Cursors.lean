import Hookfs.Lib.Runs
import Hookfs.Vfs.Core
import Mathlib.Logic.Function.Basic

/-!
# Cursors over one shared source

Every open of a mounted file has a cursor of its own over one physical stream
behind a mutex.  A positioned read locks, seeks, reads and unlocks; everything
else touches the cursor alone.  Cursors are run step by step, in any order,
and each sees what it would see with the source to itself.

The physical stream is a parameter, with the states it can be in between two
positioned reads and what such a read returns there.
-/

namespace Hookfs.Vfs.Locked

open Hookfs.Lib

universe u

/-- A `Read + Seek` value. -/
structure FileStream (State : Type u) where
  seek : SeekFrom → State → Except IoError Nat × State
  read : Nat → State → Except IoError (List UInt8) × State

/-- `SharedSource`: what is behind the mutex, and the cached length. -/
structure SharedSource (State : Type u) where
  inner : State
  size : Nat

/-- `SourceCursor`, apart from the `Arc` to its source. -/
structure SourceCursor where
  pos : Nat
  deriving DecidableEq, Repr

inductive Call where
  | read (len : Nat)
  | seek (target : SeekFrom)
  | streamPosition
  | size

inductive Reply where
  | bytes (result : Except IoError (List UInt8))
  | number (result : Except IoError Nat)
  deriving DecidableEq, Repr

/-! ## The calls, one at a time -/

namespace SharedSource

variable {State : Type u}

/-- `SharedSource::read_at`. -/
def readAt (stream : FileStream State) (pos len : Nat)
    (source : SharedSource State) :
    Except IoError (List UInt8) × SharedSource State :=
  match stream.seek (.start pos) source.inner with
  | (.error error, inner) => (.error error, { source with inner := inner })
  | (.ok _, seeked) =>
      let (result, inner) := stream.read len seeked
      (result, { source with inner := inner })

end SharedSource

namespace SourceCursor

def new : SourceCursor := ⟨0⟩

/-- `Seek::seek`, with the cached length of the source. -/
def seek (size : Nat) (target : SeekFrom) (cursor : SourceCursor) :
    Except IoError Nat × SourceCursor :=
  match seekTo size cursor.pos target with
  | .error error => (.error error, cursor)
  | .ok pos => (.ok pos, ⟨pos⟩)

def streamPosition (cursor : SourceCursor) : Except IoError Nat :=
  .ok cursor.pos

/-- The default `FileStream::size`. -/
def size (size : Nat) (cursor : SourceCursor) :
    Except IoError Nat × SourceCursor :=
  match cursor.streamPosition with
  | .error error => (.error error, cursor)
  | .ok current =>
      match cursor.seek size (.end 0) with
      | (.error error, kept) => (.error error, kept)
      | (.ok last, moved) =>
          if current ≠ last then
            match moved.seek size (.start current) with
            | (.error error, kept) => (.error error, kept)
            | (.ok _, restored) => (.ok last, restored)
          else (.ok last, moved)

/-- Where a read of so many bytes leaves the cursor. -/
def advance (count : Nat) (cursor : SourceCursor) : SourceCursor :=
  ⟨saturatingAdd cursor.pos count⟩

variable {State : Type u}

/-- `Read::read`. -/
def read (stream : FileStream State) (len : Nat) (cursor : SourceCursor)
    (source : SharedSource State) :
    Except IoError (List UInt8) × SourceCursor × SharedSource State :=
  if source.size ≤ cursor.pos then (.ok [], cursor, source)
  else
    match source.readAt stream cursor.pos len with
    | (.error error, next) => (.error error, cursor, next)
    | (.ok bytes, next) => (.ok bytes, cursor.advance bytes.length, next)

/-- The answer to a call that does not get to the source. -/
def answer (size : Nat) (cursor : SourceCursor) :
    Call → Option (Reply × SourceCursor)
  | .read _ =>
      if size ≤ cursor.pos then some (.bytes (.ok []), cursor) else none
  | .seek target =>
      let (result, next) := cursor.seek size target
      some (.number result, next)
  | .streamPosition => some (.number cursor.streamPosition, cursor)
  | .size =>
      let (result, next) := cursor.size size
      some (.number result, next)

/-- One call of a cursor that has the source to itself. -/
def serve (stream : FileStream State) (cursor : SourceCursor)
    (source : SharedSource State) :
    Call → Reply × SourceCursor × SharedSource State
  | .read len =>
      let (result, next, after) := cursor.read stream len source
      (.bytes result, next, after)
  | .seek target =>
      let (result, next) := cursor.seek source.size target
      (.number result, next, source)
  | .streamPosition => (.number cursor.streamPosition, cursor, source)
  | .size =>
      let (result, next) := cursor.size source.size
      (.number result, next, source)

/-- What a cursor sees that has the source to itself. -/
def runAlone (stream : FileStream State) :
    SourceCursor → SharedSource State → List Call → List Reply
  | _, _, [] => []
  | cursor, source, call :: rest =>
      let (reply, next, after) := cursor.serve stream source call
      reply :: runAlone stream next after rest

end SourceCursor

/-! ## All cursors together -/

/-- Where a cursor is in a call: a read beyond the cached length waits for
the mutex, holds it, and has moved the physical stream. -/
inductive Phase where
  | idle
  | waiting (len : Nat)
  | holding (len : Nat)
  | seeked (len : Nat)
  deriving DecidableEq, Repr

namespace Phase

/-- The call that is under way. -/
def pending : Phase → List Call
  | .idle => []
  | .waiting len => [.read len]
  | .holding len => [.read len]
  | .seeked len => [.read len]

/-- The mutex is held. -/
def inside : Phase → Bool
  | .idle => false
  | .waiting _ => false
  | .holding _ => true
  | .seeked _ => true

end Phase

/-- A cursor with the calls it still has to make and the replies it has
seen. -/
structure Client where
  cursor : SourceCursor
  phase : Phase
  todo : List Call
  replies : List Reply

/-- The source, who holds its mutex, and the cursors over it. -/
structure Machine (State : Type u) where
  source : SharedSource State
  holder : Option Nat
  client : Nat → Client

namespace Client

/-- A call is over. -/
def done (reply : Reply) (cursor : SourceCursor) (client : Client) :
    Client :=
  { client with
    cursor := cursor
    phase := .idle
    replies := client.replies ++ [reply] }

end Client

namespace Machine

variable {State : Type u}

def start (source : SharedSource State) (calls : Nat → List Call) :
    Machine State where
  source := source
  holder := none
  client id := ⟨.new, .idle, calls id, []⟩

def put (id : Nat) (client : Client) (machine : Machine State) :
    Machine State :=
  { machine with client := Function.update machine.client id client }

/-- The mutex is released with the stream as it is left. -/
def unlock (inner : State) (machine : Machine State) : Machine State :=
  { machine with
    source := { machine.source with inner := inner }
    holder := none }

/-- The scheduler lets one cursor take a step. -/
def step (stream : FileStream State) (machine : Machine State) (id : Nat) :
    Machine State :=
  let client := machine.client id
  match client.phase with
  | .idle =>
      match client.todo with
      | [] => machine
      | call :: rest =>
          match client.cursor.answer machine.source.size call with
          | some (reply, cursor) =>
              machine.put id ({ client with todo := rest }.done reply cursor)
          | none =>
              match call with
              | .read len =>
                  machine.put id
                    { client with phase := .waiting len, todo := rest }
              | _ => machine
  | .waiting len =>
      match machine.holder with
      | none =>
          { machine with holder := some id }.put id
            { client with phase := .holding len }
      | some _ => machine
  | .holding len =>
      match stream.seek (.start client.cursor.pos) machine.source.inner with
      | (.error error, inner) =>
          (machine.unlock inner).put id
            (client.done (.bytes (.error error)) client.cursor)
      | (.ok _, inner) =>
          { machine with source := { machine.source with inner := inner } }.put
            id { client with phase := .seeked len }
  | .seeked len =>
      match stream.read len machine.source.inner with
      | (.error error, inner) =>
          (machine.unlock inner).put id
            (client.done (.bytes (.error error)) client.cursor)
      | (.ok bytes, inner) =>
          (machine.unlock inner).put id
            (client.done (.bytes (.ok bytes))
              (client.cursor.advance bytes.length))

end Machine

/-! ## What a cursor should see -/

/-- An immutable stream: from every state it rests in, seeking to a position
and reading from there succeeds, gives what is there, and leaves it in such a
state. -/
structure Immutable {State : Type u} (stream : FileStream State)
    (resting : State → Prop) (content : Nat → Nat → List UInt8) : Prop where
  reads : ∀ state pos len, resting state →
    ∃ reached seeked next,
      stream.seek (.start pos) state = (.ok reached, seeked) ∧
        stream.read len seeked = (.ok (content pos len), next) ∧
          resting next

namespace SourceCursor

/-- The reply to a call by the content alone. -/
def ideal (size : Nat) (content : Nat → Nat → List UInt8)
    (cursor : SourceCursor) (call : Call) : Reply × SourceCursor :=
  match cursor.answer size call with
  | some answered => answered
  | none =>
      match call with
      | .read len =>
          (.bytes (.ok (content cursor.pos len)),
            cursor.advance (content cursor.pos len).length)
      | _ => (.number cursor.streamPosition, cursor)

def idealAll (size : Nat) (content : Nat → Nat → List UInt8) :
    SourceCursor → List Call → List Reply × SourceCursor
  | cursor, [] => ([], cursor)
  | cursor, call :: rest =>
      let (reply, next) := cursor.ideal size content call
      let (replies, last) := idealAll size content next rest
      (reply :: replies, last)

variable {size : Nat} {content : Nat → Nat → List UInt8}

theorem answer_eq_none_iff {cursor : SourceCursor} {call : Call} :
    cursor.answer size call = none ↔
      ∃ len, call = .read len ∧ cursor.pos < size := by
  cases call with
  | read len =>
      simp [answer]
  | seek target =>
      simp [answer]
  | streamPosition =>
      simp [answer]
  | size =>
      simp [answer]

theorem ideal_of_answer {cursor : SourceCursor} {call : Call}
    {answered : Reply × SourceCursor}
    (here : cursor.answer size call = some answered) :
    cursor.ideal size content call = answered := by
  unfold ideal
  rw [here]

theorem ideal_read {cursor : SourceCursor} {len : Nat}
    (inside : cursor.pos < size) :
    cursor.ideal size content (.read len) =
      (.bytes (.ok (content cursor.pos len)),
        cursor.advance (content cursor.pos len).length) := by
  have unanswered : cursor.answer size (.read len) = none :=
    answer_eq_none_iff.mpr ⟨len, rfl, inside⟩
  rw [ideal, unanswered]

theorem idealAll_append (cursor : SourceCursor) (served later : List Call) :
    idealAll size content cursor (served ++ later) =
      ((idealAll size content cursor served).1 ++
          (idealAll size content
            (idealAll size content cursor served).2 later).1,
        (idealAll size content
          (idealAll size content cursor served).2 later).2) := by
  induction served generalizing cursor with
  | nil =>
      rfl
  | cons call rest inductionHypothesis =>
      simp only [List.cons_append, idealAll, inductionHypothesis]

/-- A cursor that has the source to itself sees the content. -/
theorem runAlone_eq_ideal {State : Type u} {stream : FileStream State}
    {resting : State → Prop} (immutable : Immutable stream resting content)
    (cursor : SourceCursor) (source : SharedSource State)
    (calls : List Call) (rests : resting source.inner) :
    runAlone stream cursor source calls =
      (idealAll source.size content cursor calls).1 := by
  induction calls generalizing cursor source with
  | nil =>
      rfl
  | cons call rest inductionHypothesis =>
      have served : ∃ after, after.size = source.size ∧
          resting after.inner ∧
          cursor.serve stream source call =
            ((cursor.ideal source.size content call).1,
              (cursor.ideal source.size content call).2, after) := by
        cases call with
        | seek target =>
            exact ⟨source, rfl, rests, rfl⟩
        | streamPosition =>
            exact ⟨source, rfl, rests, rfl⟩
        | size =>
            exact ⟨source, rfl, rests, rfl⟩
        | read len =>
            by_cases beyond : source.size ≤ cursor.pos
            · have here : cursor.answer source.size (.read len) =
                  some (.bytes (.ok []), cursor) := if_pos beyond
              refine ⟨source, rfl, rests, ?_⟩
              rw [ideal_of_answer here, serve, read, if_pos beyond]
            · obtain ⟨reached, seeked, next, moved, found, rests⟩ :=
                immutable.reads source.inner cursor.pos len rests
              refine ⟨{ source with inner := next }, rfl, rests, ?_⟩
              rw [ideal_read (Nat.lt_of_not_le beyond), serve, read,
                if_neg beyond, SharedSource.readAt, moved]
              simp only [found]
      obtain ⟨after, sameSize, rests, served⟩ := served
      rw [runAlone, served]
      simp only [idealAll]
      rw [inductionHypothesis _ after rests, sameSize]

end SourceCursor

/-! ## What every cursor sees -/

section Interleaving

variable {State : Type u} {stream : FileStream State}
  {resting : State → Prop} {content : Nat → Nat → List UInt8} {size : Nat}

/-- A cursor has served some of its calls as the content says, and the one
under way, if any, gets to the source. -/
def Follows (size : Nat) (content : Nat → Nat → List UInt8)
    (calls : List Call) (client : Client) : Prop :=
  (∃ served, calls = served ++ client.phase.pending ++ client.todo ∧
    SourceCursor.idealAll size content .new served =
      (client.replies, client.cursor)) ∧
    (client.phase ≠ .idle → client.cursor.pos < size)

namespace Follows

variable {calls : List Call} {client : Client}

theorem start (calls : List Call) :
    Follows size content calls ⟨.new, .idle, calls, []⟩ :=
  ⟨⟨[], rfl, rfl⟩, fun busy => absurd rfl busy⟩

/-- The next call is under way. -/
theorem begin {len : Nat} {rest : List Call}
    (follows : Follows size content calls client)
    (idle : client.phase = .idle) (todo : client.todo = .read len :: rest)
    (inside : client.cursor.pos < size) :
    Follows size content calls
      { client with phase := .waiting len, todo := rest } := by
  obtain ⟨⟨served, split, seen⟩, -⟩ := follows
  refine ⟨⟨served, ?_, seen⟩, fun _ => inside⟩
  rw [split, idle, todo]
  simp [Phase.pending]

/-- The call under way stays under way. -/
theorem proceed {phase : Phase}
    (follows : Follows size content calls client)
    (busy : client.phase ≠ .idle)
    (same : phase.pending = client.phase.pending) :
    Follows size content calls { client with phase := phase } := by
  obtain ⟨⟨served, split, seen⟩, inside⟩ := follows
  exact ⟨⟨served, by rw [split, same], seen⟩, fun _ => inside busy⟩

/-- A call is over, and has been answered as the content says. -/
theorem finish {call : Call} {rest : List Call} {reply : Reply}
    {cursor : SourceCursor} (follows : Follows size content calls client)
    (split : client.phase.pending ++ client.todo = call :: rest)
    (answered : client.cursor.ideal size content call = (reply, cursor)) :
    Follows size content calls
      ({ client with todo := rest }.done reply cursor) := by
  obtain ⟨⟨served, whole, seen⟩, -⟩ := follows
  refine ⟨⟨served ++ [call], ?_, ?_⟩, fun busy => absurd rfl busy⟩
  · rw [whole, List.append_assoc, split]
    simp [Client.done, Phase.pending]
  · rw [SourceCursor.idealAll_append, seen]
    simp only [SourceCursor.idealAll, answered]
    rfl

end Follows

/-- What holds between any two steps: every cursor follows the content, the
mutex has one holder, and the stream rests unless its holder has moved it to
its own position. -/
structure Sound (stream : FileStream State) (resting : State → Prop)
    (content : Nat → Nat → List UInt8) (size : Nat)
    (calls : Nat → List Call) (machine : Machine State) : Prop where
  length : machine.source.size = size
  follows : ∀ id, Follows size content (calls id) (machine.client id)
  held : ∀ id, (machine.client id).phase.inside = true ↔
    machine.holder = some id
  rests : (∀ id len, (machine.client id).phase ≠ .seeked len) →
    resting machine.source.inner
  moved : ∀ id len, (machine.client id).phase = .seeked len →
    ∃ before reached, resting before ∧
      stream.seek (.start (machine.client id).cursor.pos) before =
        (.ok reached, machine.source.inner)

namespace Machine

@[simp]
theorem client_put_self (machine : Machine State) (id : Nat)
    (client : Client) : (machine.put id client).client id = client :=
  Function.update_self _ _ _

theorem client_put_of_ne (machine : Machine State) {id other : Nat}
    (client : Client) (different : other ≠ id) :
    (machine.put id client).client other = machine.client other :=
  Function.update_of_ne different _ _

/-- What holds of every cursor once one has been replaced. -/
theorem forall_put {machine : Machine State} {id : Nat} {client : Client}
    (holds : Nat → Client → Prop) (here : holds id client)
    (elsewhere : ∀ other, other ≠ id → holds other (machine.client other))
    (other : Nat) : holds other ((machine.put id client).client other) := by
  by_cases same : other = id
  · rw [same, client_put_self]
    exact here
  · rw [client_put_of_ne _ _ same]
    exact elsewhere other same

end Machine

namespace Sound

variable {calls : Nat → List Call} {machine : Machine State} {id : Nat}

/-- The holder of the mutex is the only cursor inside. -/
theorem only (sound : Sound stream resting content size calls machine)
    (inside : (machine.client id).phase.inside = true) {other : Nat}
    (otherInside : (machine.client other).phase.inside = true) :
    other = id := by
  have holder := (sound.held id).mp inside
  rw [(sound.held other).mp otherInside] at holder
  exact Option.some.inj holder

/-- Where the stream is, for the cursor that has moved it. -/
def MovedBy (stream : FileStream State) (resting : State → Prop)
    (inner : State) (client : Client) : Prop :=
  ∀ len, client.phase = .seeked len → ∃ before reached, resting before ∧
    stream.seek (.start client.cursor.pos) before = (.ok reached, inner)

/-- A cursor outside of the mutex has not moved the stream. -/
theorem movedBy_of_outside {inner : State} {client : Client}
    (outside : client.phase.inside = false) :
    MovedBy stream resting inner client := by
  intro len seeked
  rw [seeked] at outside
  cases outside

/-- A step outside the mutex. -/
theorem put_outside (sound : Sound stream resting content size calls machine)
    {client : Client} (outside : (machine.client id).phase.inside = false)
    (stays : client.phase.inside = false)
    (follows : Follows size content (calls id) client) :
    Sound stream resting content size calls
      (machine.put id client) where
  length := sound.length
  follows := Machine.forall_put
    (fun other client => Follows size content (calls other) client) follows
    fun other _ => sound.follows other
  held := by
    apply Machine.forall_put fun other client =>
      client.phase.inside = true ↔ machine.holder = some other
    · rw [stays, ← outside]
      exact sound.held id
    · exact fun other _ => sound.held other
  rests apart := by
    apply sound.rests
    intro other len seeked
    by_cases same : other = id
    · rw [← same, seeked] at outside
      cases outside
    · apply apart other len
      rw [Machine.client_put_of_ne _ _ same]
      exact seeked
  moved := Machine.forall_put
    (fun _ client => MovedBy stream resting machine.source.inner client)
    (movedBy_of_outside stays) fun other _ => sound.moved other

/-- The mutex is taken. -/
theorem lock (sound : Sound stream resting content size calls machine)
    {len : Nat} (waiting : (machine.client id).phase = .waiting len)
    (free : machine.holder = none) :
    Sound stream resting content size calls
      ({ machine with holder := some id }.put id
        { machine.client id with phase := .holding len }) := by
  have outside : ∀ other, (machine.client other).phase.inside = false := by
    intro other
    rw [Bool.eq_false_iff]
    intro inside
    have holder := (sound.held other).mp inside
    rw [free] at holder
    cases holder
  have follows : Follows size content (calls id)
      { machine.client id with phase := .holding len } := by
    apply (sound.follows id).proceed
    · rw [waiting]
      exact Phase.noConfusion
    · rw [waiting]
      rfl
  constructor
  · exact sound.length
  · exact Machine.forall_put
      (fun other client => Follows size content (calls other) client)
      follows fun other _ => sound.follows other
  · apply Machine.forall_put fun other client =>
      client.phase.inside = true ↔ some id = some other
    · exact ⟨fun _ => rfl, fun _ => rfl⟩
    · intro other different
      constructor
      · intro inside
        have away := outside other
        rw [show (machine.client other).phase.inside = true from inside]
          at away
        cases away
      · intro holder
        exact absurd (Option.some.inj holder).symm different
  · intro _
    apply sound.rests
    intro other length seeked
    have away := outside other
    rw [seeked] at away
    cases away
  · apply Machine.forall_put fun _ client =>
      MovedBy stream resting machine.source.inner client
    · intro length seeked
      cases seeked
    · exact fun other _ => movedBy_of_outside (outside other)

/-- The stream is moved to the position of the cursor that holds it. -/
theorem moveTo (sound : Sound stream resting content size calls machine)
    {len reached : Nat} {seeked : State}
    (holding : (machine.client id).phase = .holding len)
    (rests : resting machine.source.inner)
    (movement : stream.seek (.start (machine.client id).cursor.pos)
      machine.source.inner = (.ok reached, seeked)) :
    Sound stream resting content size calls
      ({ machine with
          source := { machine.source with inner := seeked } }.put id
        { machine.client id with phase := .seeked len }) := by
  have inside : (machine.client id).phase.inside = true := by
    rw [holding]
    rfl
  have follows : Follows size content (calls id)
      { machine.client id with phase := .seeked len } := by
    apply (sound.follows id).proceed
    · rw [holding]
      exact Phase.noConfusion
    · rw [holding]
      rfl
  constructor
  · exact sound.length
  · exact Machine.forall_put
      (fun other client => Follows size content (calls other) client)
      follows fun other _ => sound.follows other
  · apply Machine.forall_put fun other client =>
      client.phase.inside = true ↔ machine.holder = some other
    · exact ⟨fun _ => (sound.held id).mp inside, fun _ => rfl⟩
    · exact fun other _ => sound.held other
  · intro nobody
    apply absurd _ (nobody id len)
    rw [Machine.client_put_self]
  · apply Machine.forall_put fun _ client =>
      MovedBy stream resting seeked client
    · intro length _
      exact ⟨machine.source.inner, reached, rests, movement⟩
    · intro other different length otherSeeked
      have otherInside : (machine.client other).phase.inside = true := by
        rw [show (machine.client other).phase = .seeked length
          from otherSeeked]
        rfl
      exact absurd (sound.only inside otherInside) different

/-- The read is over and the mutex released. -/
theorem release (sound : Sound stream resting content size calls machine)
    {next : State} {client : Client}
    (inside : (machine.client id).phase.inside = true)
    (rests : resting next) (leaves : client.phase.inside = false)
    (follows : Follows size content (calls id) client) :
    Sound stream resting content size calls
      ((machine.unlock next).put id client) := by
  have apart : ∀ other, other ≠ id →
      ((machine.unlock next).client other).phase.inside = false := by
    intro other different
    rw [Bool.eq_false_iff]
    exact fun otherInside => different (sound.only inside otherInside)
  constructor
  · exact sound.length
  · exact Machine.forall_put
      (fun other client => Follows size content (calls other) client)
      follows fun other _ => sound.follows other
  · have nobody : ∀ other, ¬ none = some (other : Nat) :=
      fun _ => nofun
    apply Machine.forall_put fun other client =>
      client.phase.inside = true ↔ none = some other
    · rw [leaves]
      exact ⟨Bool.noConfusion, fun holder => absurd holder (nobody id)⟩
    · intro other different
      rw [apart other different]
      exact ⟨Bool.noConfusion, fun holder => absurd holder (nobody other)⟩
  · exact fun _ => rests
  · exact Machine.forall_put
      (fun _ client => MovedBy stream resting next client)
      (movedBy_of_outside leaves)
      fun other different => movedBy_of_outside (apart other different)

/-- No step disturbs any cursor. -/
theorem step (immutable : Immutable stream resting content)
    (sound : Sound stream resting content size calls machine) (id : Nat) :
    Sound stream resting content size calls (machine.step stream id) := by
  have follows := sound.follows id
  unfold Machine.step
  cases phase : (machine.client id).phase with
  | idle =>
      have outside : (machine.client id).phase.inside = false := by
        rw [phase]
        rfl
      cases todo : (machine.client id).todo with
      | nil =>
          simp only [phase, todo]
          exact sound
      | cons call rest =>
          simp only [phase, todo]
          rw [sound.length]
          cases answered :
              (machine.client id).cursor.answer size call with
          | some answer =>
              apply sound.put_outside outside rfl
              apply follows.finish
              · rw [phase, todo]
                rfl
              · exact SourceCursor.ideal_of_answer answered
          | none =>
              obtain ⟨len, rfl, within⟩ :=
                SourceCursor.answer_eq_none_iff.mp answered
              exact sound.put_outside outside rfl
                (follows.begin phase todo within)
  | waiting len =>
      simp only [phase]
      cases free : machine.holder with
      | none =>
          exact sound.lock phase free
      | some other =>
          exact sound
  | holding len =>
      have inside : (machine.client id).phase.inside = true := by
        rw [phase]
        rfl
      have rests : resting machine.source.inner := by
        apply sound.rests
        intro other length seeked
        have otherInside : (machine.client other).phase.inside = true := by
          rw [seeked]
          rfl
        rw [sound.only inside otherInside, phase] at seeked
        cases seeked
      obtain ⟨reached, seeked, next, movement, -, -⟩ := immutable.reads
        machine.source.inner (machine.client id).cursor.pos len rests
      simp only [phase, movement]
      exact sound.moveTo phase rests movement
  | seeked len =>
      have inside : (machine.client id).phase.inside = true := by
        rw [phase]
        rfl
      obtain ⟨before, reached, rested, movement⟩ := sound.moved id len phase
      obtain ⟨again, seeked, next, sameMovement, found, rests⟩ :=
        immutable.reads before (machine.client id).cursor.pos len rested
      rw [movement, Prod.mk.injEq] at sameMovement
      rw [← sameMovement.2] at found
      simp only [phase, found]
      apply sound.release inside rests rfl
      have busy : (machine.client id).phase ≠ .idle := by
        rw [phase]
        exact Phase.noConfusion
      have split : (machine.client id).phase.pending ++
          (machine.client id).todo = .read len :: (machine.client id).todo := by
        rw [phase]
        rfl
      exact follows.finish split (SourceCursor.ideal_read (follows.2 busy))

theorem start {source : SharedSource State} (calls : Nat → List Call)
    (rests : resting source.inner) :
    Sound stream resting content source.size calls
      (Machine.start source calls) where
  length := rfl
  follows id := Follows.start (calls id)
  held id := by
    simp [Machine.start, Phase.inside]
  rests _ := rests
  moved id len seeked := by
    cases seeked

end Sound

/-- Whatever the order of the steps, every cursor sees what it would see with
the source to itself, as far as it has got; with no call left, all of it. -/
theorem cursors_independent
    (immutable : Immutable stream resting content)
    (source : SharedSource State) (rests : resting source.inner)
    (calls : Nat → List Call) (schedule : List Nat) (id : Nat) :
    ((run (Machine.step stream) (Machine.start source calls)
        schedule).client id).replies <+:
          SourceCursor.runAlone stream .new source (calls id) ∧
      (((run (Machine.step stream) (Machine.start source calls)
          schedule).client id).phase = .idle →
        ((run (Machine.step stream) (Machine.start source calls)
          schedule).client id).todo = [] →
        ((run (Machine.step stream) (Machine.start source calls)
          schedule).client id).replies =
            SourceCursor.runAlone stream .new source (calls id)) := by
  have sound : Sound stream resting content source.size calls
      (run (Machine.step stream) (Machine.start source calls) schedule) :=
    run_of_allowed (Sound stream resting content source.size calls)
      (fun machine next sound (_ : True) => sound.step immutable next)
      (fun _ _ => trivial) (Sound.start calls rests)
  generalize run (Machine.step stream) (Machine.start source calls) schedule =
    machine at sound
  obtain ⟨⟨served, split, seen⟩, -⟩ := sound.follows id
  rw [SourceCursor.runAlone_eq_ideal immutable .new source (calls id) rests]
  constructor
  · rw [split, List.append_assoc, SourceCursor.idealAll_append, seen]
    exact List.prefix_append _ _
  · intro idle done
    rw [split, idle, done, List.append_assoc]
    simp only [Phase.pending, List.append_nil, seen]

end Interleaving

/-- A `Cursor` over bytes in memory. -/
def inMemory (data : List UInt8) : FileStream Nat where
  seek
    | .start offset, _ => (.ok offset, offset)
    | _, pos => (.ok pos, pos)
  read len pos := (.ok ((data.drop pos).take len), pos + len)

theorem immutable_inMemory (data : List UInt8) :
    Immutable (inMemory data) (fun _ => True)
      fun pos len => (data.drop pos).take len where
  reads _ pos len _ := ⟨pos, pos, pos + len, rfl, rfl, trivial⟩

/-- Two cursors whose reads get in each other's way. -/
theorem cursors_independent_two :
    ((run (Machine.step (inMemory [1, 2, 3, 4]))
        (Machine.start ⟨0, 4⟩ fun id =>
          if id = 0 then [.seek (.start 2), .read 1, .size]
          else [.read 3, .seek (.end (-5)), .streamPosition])
        [0, 0, 1, 0, 1, 0, 0, 1, 1, 1, 1, 1]).client 1).replies =
      SourceCursor.runAlone (inMemory [1, 2, 3, 4]) .new ⟨0, 4⟩
        [.read 3, .seek (.end (-5)), .streamPosition] :=
  (cursors_independent (immutable_inMemory [1, 2, 3, 4]) ⟨0, 4⟩ trivial
    (fun id => if id = 0 then [.seek (.start 2), .read 1, .size]
      else [.read 3, .seek (.end (-5)), .streamPosition])
    [0, 0, 1, 0, 1, 0, 0, 1, 1, 1, 1, 1] 1).2 (by decide) (by decide)

end Hookfs.Vfs.Locked
