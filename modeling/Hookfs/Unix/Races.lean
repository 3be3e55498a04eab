import Mathlib.Logic.Function.Basic
import Hookfs.Unix.Exclusive

/-!
# Races of opens

Callers that open take turns: under the lock of the tree a file is found or
made, then it is truncated or measured, then the carrier is fetched.  Between
the turns of one caller, others have theirs.
-/

namespace Hookfs.Unix

open Hookfs.Lib Hookfs.Vfs Hookfs.Posix Hookfs.Router Hookfs.Memory

open MemoryFs (Stream)

/-! ## Callers and turns -/

/-- How far a caller has come. -/
inductive Phase where
  | waiting
  | found (file : Nat)
  | opened (stream : Stream)
  | succeeded
  | failed (errno : Nat)
  deriving DecidableEq, Repr

/-- A call on a virtual path, with what it asks for. -/
structure Caller where
  opening : OpenCall
  opts : OpenOptions
  path : Text
  asked : opening.options = some opts

structure Race where
  fs : MemoryFs
  phase : Nat → Phase

/-- A turn of one caller: the time, what libc would answer, and the stream
behind the handle that the caller may be given. -/
structure Turn where
  id : Nat
  now : Time
  os : LibcCall → Reply
  replaced : Option Stream

/-- The `errno` of a carrier that cannot be had. -/
def OpenCall.carrierErrno : OpenCall → Nat
  | .open _ _ _ _ => Errno.EMFILE
  | .openat _ _ _ _ => Errno.EMFILE
  | .fopen _ _ _ => Errno.EIO

instance (os : LibcCall → Reply) (opts : OpenOptions) (opening : OpenCall) :
    Decidable (opening.Refused os opts) :=
  match opening with
  | .open _ _ _ _ => inferInstanceAs (Decidable (_ < _))
  | .openat _ _ _ _ => inferInstanceAs (Decidable (_ < _))
  | .fopen _ _ _ => inferInstanceAs (Decidable (_ = _))

namespace Race

def start (fs : MemoryFs) : Race := ⟨fs, fun _ => .waiting⟩

def put (id : Nat) (phase : Phase) (fs : MemoryFs) (race : Race) : Race :=
  ⟨fs, Function.update race.phase id phase⟩

/-- A caller with a stream, or turned down. -/
def settled : Option (Except IoError Stream) → Phase
  | some (.ok stream) => .opened stream
  | declined => .failed (declinedErrno declined)

def settle (id : Nat) (race : Race)
    (outcome : Option (Except IoError Stream) × MemoryFs) : Race :=
  race.put id (settled outcome.1) outcome.2

/-- One turn, of a caller whose engine allows writes or not. -/
def turn (caller : Caller) (allows : Bool) (race : Race) (turn : Turn) :
    Race :=
  match race.phase turn.id with
  | .waiting =>
      if caller.opts.write then
        if !allows then race.put turn.id (.failed Errno.EROFS) race.fs
        else
          match race.fs.underLock turn.now (normalizeKeyStr caller.path)
              (finalComponent caller.path)
              (MemoryFs.fillAncestors caller.path) caller.opts with
          | (.error error, fs) =>
              race.put turn.id (.failed (ioToErrno error)) fs
          | (.ok file, fs) => race.put turn.id (.found file) fs
      else race.settle turn.id (race.fs.open caller.path caller.opts)
  | .found file =>
      race.settle turn.id
        (race.fs.finishOpenWrite turn.now caller.opts file)
  | .opened stream =>
      if caller.opening.Refused turn.os caller.opts then
        race.put turn.id (.failed caller.opening.carrierErrno)
          (stream.drop race.fs)
      else
        race.put turn.id .succeeded
          (match turn.replaced with
          | none => race.fs
          | some old => old.drop race.fs)
  | .succeeded => race
  | .failed _ => race

end Race

/-! ## A caller alone -/

section Alone

variable {caller : Caller} {allows : Bool} {race : Race} {turn : Turn}

@[simp]
theorem Race.phase_put (id : Nat) (phase : Phase) (fs : MemoryFs)
    (race : Race) : (race.put id phase fs).phase id = phase := by
  unfold Race.put
  exact Function.update_self _ _ _

theorem Race.put_put (id : Nat) (first second : Phase)
    (before after : MemoryFs) (race : Race) :
    (race.put id first before).put id second after =
      race.put id second after := by
  unfold Race.put
  rw [Function.update_idem]

theorem Race.put_same {id : Nat} {phase : Phase} {race : Race}
    (here : race.phase id = phase) : race.put id phase race.fs = race := by
  unfold Race.put
  rw [← here, Function.update_eq_self]

theorem turn_failed {errno : Nat}
    (here : race.phase turn.id = .failed errno) :
    race.turn caller allows turn = race := by
  unfold Race.turn
  rw [here]

theorem settled_of_closed {outcome : Option (Except IoError Stream)}
    (closed : ∀ stream, outcome ≠ some (.ok stream)) :
    Race.settled outcome = .failed (declinedErrno outcome) := by
  unfold Race.settled
  split
  · rename_i stream
    exact absurd rfl (closed stream)
  · rfl

/-- A caller who is refused his carrier gives up his stream. -/
theorem turn_refused {stream : Stream}
    (reached : race.phase turn.id = .opened stream)
    (refused : caller.opening.Refused turn.os caller.opts) :
    race.turn caller allows turn =
      race.put turn.id (.failed caller.opening.carrierErrno)
        (stream.drop race.fs) := by
  unfold Race.turn
  rw [reached]
  exact if_pos refused

/-- A caller who has his carrier drops the stream behind its handle. -/
theorem turn_granted {stream : Stream}
    (reached : race.phase turn.id = .opened stream)
    (granted : ¬ caller.opening.Refused turn.os caller.opts) :
    race.turn caller allows turn =
      race.put turn.id .succeeded
        (turn.replaced.elim race.fs fun old => old.drop race.fs) := by
  unfold Race.turn
  rw [reached]
  simp only [if_neg granted]
  cases turn.replaced with
  | none =>
      rfl
  | some old =>
      rfl

/-- A caller that is settled takes one more turn, if any. -/
theorem turn_turn_settled
    {outcome : Option (Except IoError Stream)}
    (here : race.phase turn.id = Race.settled outcome) :
    (race.turn caller allows turn).turn caller allows turn =
      race.turn caller allows turn := by
  unfold Race.settled at here
  split at here
  · rename_i stream
    have finished : ∃ phase fs, race.turn caller allows turn =
        race.put turn.id phase fs ∧
          (phase = .succeeded ∨ ∃ errno, phase = .failed errno) := by
      by_cases refused : caller.opening.Refused turn.os caller.opts
      · exact ⟨_, _, turn_refused here refused, .inr ⟨_, rfl⟩⟩
      · exact ⟨_, _, turn_granted here refused, .inl rfl⟩
    obtain ⟨phase, fs, taken, done⟩ := finished
    rw [taken]
    unfold Race.turn
    rw [Race.phase_put]
    rcases done with rfl | ⟨errno, rfl⟩
    · rfl
    · rfl
  · have stays : race.turn caller allows turn = race := by
      unfold Race.turn
      rw [here]
    rw [stays, stays]

/-- Three turns of a caller are what is left of the provider's part, and the
turn after it. -/
theorem turns_settle (waits : race.phase turn.id = .waiting)
    (permits : caller.opts.write = true → allows = true) :
    ((race.turn caller allows turn).turn caller allows turn).turn caller
        allows turn =
      (race.settle turn.id
        (openTree turn.now caller.path caller.opts race.fs)).turn caller
          allows turn := by
  cases write : caller.opts.write with
  | true =>
      have allowed := permits write
      have provided : openTree turn.now caller.path caller.opts race.fs =
          MemoryFs.afterLock turn.now caller.opts
            (race.fs.underLock turn.now (normalizeKeyStr caller.path)
              (finalComponent caller.path)
              (MemoryFs.fillAncestors caller.path) caller.opts) := by
        rw [openTree, write, if_pos rfl, MemoryFs.openWrite_eq,
          MemoryFs.openWriteAt_eq_afterLock]
      rw [provided]
      cases locked : race.fs.underLock turn.now (normalizeKeyStr caller.path)
          (finalComponent caller.path)
          (MemoryFs.fillAncestors caller.path) caller.opts with
      | mk outcome fs =>
          cases outcome with
          | error error =>
              have first : race.turn caller allows turn =
                  race.put turn.id (.failed (ioToErrno error)) fs := by
                unfold Race.turn
                rw [waits]
                simp [write, allowed, locked]
              rw [first, turn_failed (Race.phase_put _ _ _ _)]
              rfl
          | ok file =>
              have first : race.turn caller allows turn =
                  race.put turn.id (.found file) fs := by
                unfold Race.turn
                rw [waits]
                simp [write, allowed, locked]
              have second : (race.put turn.id (.found file) fs).turn caller
                  allows turn = race.settle turn.id
                    (fs.finishOpenWrite turn.now caller.opts file) := by
                unfold Race.turn
                rw [Race.phase_put]
                exact Race.put_put _ _ _ _ _ _
              rw [first, second]
              rfl
  | false =>
      have first : race.turn caller allows turn = race.settle turn.id
          (openTree turn.now caller.path caller.opts race.fs) := by
        unfold Race.turn openTree
        rw [waits]
        simp [write]
      rw [first]
      exact turn_turn_settled (Race.phase_put _ _ _ _)

/-- Three turns of a caller on his own do what the shim does. -/
theorem turns_alone {around : Surroundings} {session : Session}
    {engine : Engine Stream} {id : Nat}
    (arrives : Arrives caller.opening.call.path session engine
      (.virtual caller.path))
    (waits : race.phase id = .waiting) (here : race.fs = session.vfs) :
    ∃ replaced last, last = (((race.turn caller engine.allowWrites
        ⟨id, around.ambient.now, around.os, replaced⟩).turn caller
          engine.allowWrites ⟨id, around.ambient.now, around.os, replaced⟩).turn
            caller engine.allowWrites
              ⟨id, around.ambient.now, around.os, replaced⟩) ∧
      last.fs = (shim around.machine (.path caller.opening.call)
        session).process.vfs ∧
      (last.phase id = .succeeded ↔
        (shim around.machine (.path caller.opening.call)
          session).reply.ret ≠ caller.opening.failure) := by
  let taken (replaced : Option Stream) : Turn :=
    ⟨id, around.ambient.now, around.os, replaced⟩
  have stays (errno : Nat) (fs : MemoryFs) :
      (race.put id (.failed errno) fs).turn caller engine.allowWrites
        (taken none) = race.put id (.failed errno) fs :=
    turn_failed (Race.phase_put id _ _ _)
  have settles (replaced : Option Stream)
      (permits : Permits engine caller.opts) :
      ((race.turn caller engine.allowWrites (taken replaced)).turn caller
        engine.allowWrites (taken replaced)).turn caller engine.allowWrites
          (taken replaced) =
        (race.settle id (openTree around.ambient.now caller.path caller.opts
          session.vfs)).turn caller engine.allowWrites (taken replaced) := by
    rw [← here]
    exact turns_settle waits permits
  cases opens_shim around arrives with
  | invalid given failed same =>
      rw [caller.asked] at given
      cases given
  | denied opts given write denies failed same =>
      rw [caller.asked] at given
      cases given
      have first : race.turn caller engine.allowWrites (taken none) =
          race.put id (.failed Errno.EROFS) race.fs := by
        unfold Race.turn
        rw [waits]
        simp [taken, write, denies]
      refine ⟨none, _, rfl, ?_⟩
      rw [first, stays, stays, Race.phase_put, same, failed]
      exact ⟨here, by simp⟩
  | declined opts given permits closed failed errno after =>
      rw [caller.asked] at given
      cases given
      refine ⟨none, _, rfl, ?_⟩
      rw [settles none permits, Race.settle, settled_of_closed closed, stays,
        Race.phase_put, after, failed]
      exact ⟨rfl, by simp⟩
  | refused opts given permits stream opened refused failed errno after =>
      rw [caller.asked] at given
      cases given
      refine ⟨none, _, rfl, ?_⟩
      rw [settles none permits, Race.settle, opened, Race.settled]
      have last : (race.put id (.opened stream) (openTree around.ambient.now
          caller.path caller.opts session.vfs).2).turn caller
            engine.allowWrites (taken none) = _ :=
        turn_refused (Race.phase_put _ _ _ _) refused
      rw [last, Race.put_put, Race.phase_put, after, failed]
      exact ⟨rfl, by simp⟩
  | granted opts given permits stream opened granted succeeded after =>
      rw [caller.asked] at given
      cases given
      have last (replaced : Option Stream) :
          (race.put id (.opened stream) (openTree around.ambient.now
            caller.path caller.opts session.vfs).2).turn caller
              engine.allowWrites (taken replaced) = _ :=
        turn_granted (Race.phase_put _ _ _ _) granted
      rcases after with same | ⟨handle, old, -, same⟩
      · refine ⟨none, _, rfl, ?_⟩
        rw [settles none permits, Race.settle, opened, Race.settled, last,
          Race.put_put, Race.phase_put, same]
        exact ⟨rfl, by simp [succeeded]⟩
      · refine ⟨some old.stream.inner, _, rfl, ?_⟩
        rw [settles (some old.stream.inner) permits, Race.settle, opened,
          Race.settled, last, Race.put_put, Race.phase_put, same]
        exact ⟨rfl, by simp [succeeded]⟩

end Alone

/-! ## Exclusive creates of one path -/

/-- A turn of one of the callers, or whatever else becomes of the tree. -/
inductive RaceEvent where
  | turn (turn : Turn)
  | other (fs : MemoryFs)

def raceStep (callers : Nat → Caller) (race : Race) : RaceEvent → Race
  | .turn turn => race.turn (callers turn.id) true turn
  | .other fs => { race with fs := fs }

/-- Every caller asks for write access to a file at the key that is not there
yet. -/
structure Contestants (callers : Nat → Caller) (key : Text) : Prop where
  writes : ∀ id, (callers id).opts.write = true
  exclusive : ∀ id, (callers id).opts.createNew = true
  same : ∀ id, normalizeKeyStr (callers id).path = key

/-- Carriers can be had, and nobody else touches what is at the key. -/
def Fair (callers : Nat → Caller) (key : Text) (race : Race) :
    RaceEvent → Prop
  | .turn turn =>
      ¬ (callers turn.id).opening.Refused turn.os (callers turn.id).opts
  | .other fs =>
      fs.entries.lookup key = race.fs.entries.lookup key ∧ fs.volume.Within

/-- A caller who has the file, with or without a carrier. -/
inductive Phase.Leads : Phase → Prop where
  | found (file : Nat) : Phase.Leads (.found file)
  | opened (stream : Stream) : Phase.Leads (.opened stream)
  | succeeded : Phase.Leads .succeeded

/-- Nobody has begun, or one caller has the file and all others that have
begun were turned down. -/
inductive Contest (key : Text) (race : Race) : Prop where
  | idle (absent : race.fs.entries.lookup key = none)
      (waits : ∀ id, race.phase id = .waiting)
  | led (winner : Nat) (there : WritableFile key race.fs)
      (leads : (race.phase winner).Leads)
      (others : ∀ id, id ≠ winner → race.phase id = .waiting ∨
        race.phase id = .failed Errno.EEXIST)

section Contest

variable {callers : Nat → Caller} {key : Text} {race : Race}

theorem phase_put_ne {id other : Nat} (different : other ≠ id)
    (phase : Phase) (fs : MemoryFs) (race : Race) :
    (race.put id phase fs).phase other = race.phase other :=
  Function.update_of_ne different _ _

section Turns

variable (contestants : Contestants callers key) {turn : Turn}
  (within : race.fs.volume.Within)
include contestants within

/-- The first caller to get the lock makes the file. -/
theorem contest_begins (absent : race.fs.entries.lookup key = none)
    (waits : ∀ id, race.phase id = .waiting) :
    Contest key (race.turn (callers turn.id) true turn) ∧
      (race.turn (callers turn.id) true turn).fs.volume.Within := by
  have same := contestants.same turn.id
  have write := contestants.writes turn.id
  have creates := creates_of_createNew (contestants.exclusive turn.id)
  let fill := MemoryFs.fillAncestors (callers turn.id).path
  let made := race.fs.withNew turn.now key
    (finalComponent (callers turn.id).path) fill
  have taken : race.turn (callers turn.id) true turn =
      race.put turn.id (.found race.fs.nextFile) made := by
    unfold Race.turn
    rw [waits, same, MemoryFs.underLock_absent absent creates]
    simp [write, made, fill]
  have there : WritableFile key made :=
    ⟨race.fs.nextFile, _, MemoryFs.fills_fillAncestors _ _ _ _
      (AList.lookup_insert _)⟩
  rw [taken]
  constructor
  · refine .led turn.id there ?_ fun id other => .inl ?_
    · rw [Race.phase_put]
      exact .found _
    · rw [phase_put_ne other]
      exact waits id
  · exact within

omit contestants in
/-- A caller who has the file goes on. -/
theorem leader_goes_on (leads : (race.phase turn.id).Leads)
    (granted : ¬ (callers turn.id).opening.Refused turn.os
      (callers turn.id).opts) :
    ∃ phase fs, race.turn (callers turn.id) true turn =
        race.put turn.id phase fs ∧ phase.Leads ∧
      fs.entries = race.fs.entries ∧ fs.volume.Within := by
  cases reached : race.phase turn.id with
  | waiting =>
      rw [reached] at leads
      cases leads
  | failed errno =>
      rw [reached] at leads
      cases leads
  | found file =>
      unfold Race.turn
      rw [reached]
      refine ⟨_, _, rfl, ?_⟩
      rw [MemoryFs.finishOpenWrite_eq within]
      exact ⟨.opened _, MemoryFs.entries_emptied _ _ _ _,
        MemoryFs.within_emptied within _ _ _⟩
  | opened stream =>
      refine ⟨_, _, turn_granted reached granted, .succeeded, ?_⟩
      cases turn.replaced with
      | none =>
          exact ⟨rfl, within⟩
      | some old =>
          exact ⟨MemoryFs.entries_dropStream old race.fs,
            MemoryFs.within_dropStream within old⟩
  | succeeded =>
      refine ⟨.succeeded, race.fs, ?_, .succeeded, rfl, within⟩
      rw [Race.put_same reached]
      unfold Race.turn
      rw [reached]

omit within in
/-- A caller who comes later is turned down. -/
theorem late_is_refused (there : WritableFile key race.fs)
    (late : race.phase turn.id = .waiting ∨
      race.phase turn.id = .failed Errno.EEXIST) :
    race.turn (callers turn.id) true turn =
      race.put turn.id (.failed Errno.EEXIST) race.fs := by
  obtain ⟨file, name, found⟩ := there
  have same := contestants.same turn.id
  have write := contestants.writes turn.id
  have exclusive := contestants.exclusive turn.id
  rcases late with waits | failed
  · unfold Race.turn MemoryFs.underLock
    rw [waits, same, found]
    simp [write, exclusive, ioToErrno, ioToErrno.ofKind]
  · rw [turn_failed failed, Race.put_same failed]

end Turns

theorem contest_step (contestants : Contestants callers key) (race : Race)
    (event : RaceEvent)
    (here : Contest key race ∧ race.fs.volume.Within)
    (fair : Fair callers key race event) :
    Contest key (raceStep callers race event) ∧
      (raceStep callers race event).fs.volume.Within := by
  obtain ⟨contest, within⟩ := here
  cases event with
  | other fs =>
      obtain ⟨same, next⟩ := fair
      refine ⟨?_, next⟩
      cases contest with
      | idle absent waits =>
          exact .idle (same.trans absent) waits
      | led winner there leads others =>
          obtain ⟨file, name, found⟩ := there
          exact .led winner ⟨file, name, same.trans found⟩ leads others
  | turn turn =>
      cases contest with
      | idle absent waits =>
          exact contest_begins contestants within absent waits
      | led winner there leads others =>
          by_cases own : turn.id = winner
          · subst own
            obtain ⟨phase, fs, taken, next, entries, kept⟩ :=
              leader_goes_on within leads fair
            obtain ⟨file, name, found⟩ := there
            simp only [raceStep, taken]
            refine ⟨.led turn.id ⟨file, name, ?_⟩ ?_ fun id other => ?_, kept⟩
            · exact (congrArg (AList.lookup key) entries).trans found
            · rw [Race.phase_put]
              exact next
            · rw [phase_put_ne other]
              exact others id other
          · have refused := late_is_refused contestants there
              (others turn.id own)
            simp only [raceStep, refused]
            refine ⟨.led winner there ?_ fun id other => ?_, within⟩
            · rw [phase_put_ne (Ne.symm own)]
              exact leads
            · by_cases mine : id = turn.id
              · subst mine
                exact .inr (Race.phase_put _ _ _ _)
              · rw [phase_put_ne mine]
                exact others id other

/-- Nobody is between two turns. -/
def Race.Settled (race : Race) : Prop :=
  ∀ id, race.phase id = .waiting ∨ race.phase id = .succeeded ∨
    ∃ errno, race.phase id = .failed errno

/-- Exactly one caller has succeeded, and all others that have begun were
told that the file is there. -/
def Race.OneWinner (race : Race) : Prop :=
  ∃ winner, race.phase winner = .succeeded ∧
    ∀ id, id ≠ winner → race.phase id = .waiting ∨
      race.phase id = .failed Errno.EEXIST

theorem Contest.oneWinner (contest : Contest key race)
    (settled : race.Settled) (begun : ∃ id, race.phase id ≠ .waiting) :
    race.OneWinner := by
  cases contest with
  | idle absent waits =>
      obtain ⟨id, different⟩ := begun
      exact absurd (waits id) different
  | led winner there leads others =>
      refine ⟨winner, ?_, others⟩
      rcases settled winner with waits | succeeded | ⟨errno, failed⟩
      · rw [waits] at leads
        cases leads
      · exact succeeded
      · rw [failed] at leads
        cases leads

/-- Of any number of callers exactly one creates the file. -/
theorem race_has_one_winner (contestants : Contestants callers key)
    {fs : MemoryFs} (within : fs.volume.Within)
    (absent : fs.entries.lookup key = none) {events : List RaceEvent}
    (fair : EachStep (raceStep callers) (Fair callers key) (.start fs)
      events)
    (settled : (run (raceStep callers) (.start fs) events).Settled)
    (begun : ∃ id, (run (raceStep callers) (.start fs) events).phase id ≠
      .waiting) :
    (run (raceStep callers) (.start fs) events).OneWinner := by
  have whole := throughout_of_eachStep (contest_step contestants) events
    (Race.start fs) ⟨.idle absent fun _ => rfl, within⟩ fair
  have last := (throughout_iff_prefixes _ events (Race.start fs)).mp whole
    events [] (List.append_nil events).symm
  exact last.1.oneWinner settled begun

theorem phase_turn_ne {caller : Caller} {allows : Bool} {turn : Turn}
    {id : Nat} (other : id ≠ turn.id) :
    (race.turn caller allows turn).phase id = race.phase id := by
  fun_cases Race.turn caller allows race turn with
  | _ =>
      first
      | rfl
      | exact phase_put_ne other _ _ _

end Contest

/-- A single exclusive create keeps its promise exactly where nothing is, or
where it asks for write access to a writable file; and of any number of
callers who ask for write access and can be given a carrier, exactly one
creates the file. -/
theorem exclusive_create_iff (start : SoundSession) :
    (∀ (around : Surroundings) (opening : OpenCall) (opts : OpenOptions)
      (engine : Engine Stream) (path : Text),
        opening.options = some opts → opts.createNew = true →
        engine.allowWrites = true →
        Arrives opening.call.path start.session engine (.virtual path) →
        (CreatesExclusively around opening path start.session ↔
          start.session.vfs.entries.lookup (normalizeKeyStr path) = none ∨
            opts.write = true ∧
              WritableFile (normalizeKeyStr path) start.session.vfs)) ∧
    ∀ (callers : Nat → Caller) (key : Text) (events : List RaceEvent),
        Contestants callers key →
        start.session.vfs.entries.lookup key = none →
        EachStep (raceStep callers) (Fair callers key)
          (.start start.session.vfs) events →
        (run (raceStep callers) (.start start.session.vfs) events).Settled →
        (∃ id, (run (raceStep callers) (.start start.session.vfs)
          events).phase id ≠ .waiting) →
        (run (raceStep callers) (.start start.session.vfs)
          events).OneWinner := by
  constructor
  · intro around opening opts engine path asked exclusive allows arrives
    exact createsExclusively_iff asked exclusive allows arrives start.sound
  · intro callers key events contestants absent fair settled begun
    exact race_has_one_winner contestants start.sound.within absent fair
      settled begun

/-- A tree with the writable file `/v/a`, behind `/v`, with writes. -/
def writableSession : SoundSession :=
  .install 32 (by decide) [.insertWritable 0 "/v/a".toList]
    (.fromRoot "/v".toList) true false

/-- `open("/v/b", O_WRONLY | O_CREAT | O_EXCL)`. -/
def createB : Caller where
  opening := .open .open (some [47, 118, 47, 98])
    (O_WRONLY ||| O_CREAT ||| O_EXCL) 0
  opts := openOptions (O_WRONLY ||| O_CREAT ||| O_EXCL)
  path := "/v/b".toList
  asked := rfl

/-- A turn with a carrier at hand. -/
def turnOf (id : Nat) : RaceEvent :=
  .turn ⟨id, 1, fun _ => ⟨7, none, .nothing⟩, none⟩

/-- Two callers in turns. -/
def twoCallers : List RaceEvent :=
  [turnOf 0, turnOf 1, turnOf 0, turnOf 0]

/-- A call that makes `/v/b`, and two callers who race for it. -/
theorem exclusive_create_iff_two :
    (CreatesExclusively idle createB.opening "/v/b".toList
        writableSession.session ↔
      writableSession.session.vfs.entries.lookup
          (normalizeKeyStr "/v/b".toList) = none ∨
        createB.opts.write = true ∧
          WritableFile (normalizeKeyStr "/v/b".toList)
            writableSession.session.vfs) ∧
    (run (raceStep fun _ => createB) (.start writableSession.session.vfs)
      twoCallers).OneWinner := by
  have exclusive := exclusive_create_iff writableSession
  constructor
  · apply exclusive.1 _ _ _ (.new (.fromRoot "/v".toList) true) _ rfl
      (by decide) rfl
    refine ⟨rfl, rfl, ?_⟩
    decide
  · apply exclusive.2 _ "/v/b".toList
    · exact ⟨fun _ => by decide, fun _ => by decide, fun _ => by decide⟩
    · decide
    · refine ⟨?_, ?_, ?_, ?_, trivial⟩
      · exact (by decide : ¬ (7 : Int) < 0)
      · exact (by decide : ¬ (7 : Int) < 0)
      · exact (by decide : ¬ (7 : Int) < 0)
      · exact (by decide : ¬ (7 : Int) < 0)
    · intro id
      by_cases first : id = 0
      · subst first
        right; left
        decide
      · by_cases second : id = 1
        · subst second
          right; right
          exact ⟨Errno.EEXIST, by decide⟩
        · left
          simp only [twoCallers, turnOf, run, List.foldl, raceStep]
          rw [phase_turn_ne, phase_turn_ne, phase_turn_ne, phase_turn_ne]
          · rfl
          · exact first
          · exact second
          · exact first
          · exact first
    · refine ⟨0, ?_⟩
      decide

/-- `open("/v/a", O_RDONLY | O_CREAT | O_EXCL)` opens the file that is
there. -/
theorem exclusive_create_opens_existing :
    Arrives (some [47, 118, 47, 97]) writableSession.session
        (.new (.fromRoot "/v".toList) true) (.virtual "/v/a".toList) ∧
      ¬ CreatesExclusively idle
        (.open .open (some [47, 118, 47, 97]) (O_CREAT ||| O_EXCL) 0)
        "/v/a".toList writableSession.session := by
  constructor
  · refine ⟨rfl, rfl, ?_⟩
    decide
  · intro law
    have failed := (law.refuses (by decide)).1
    revert failed
    decide

end Hookfs.Unix
