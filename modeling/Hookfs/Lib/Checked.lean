import Mathlib.Algebra.Group.Nat.Defs
import Mathlib.Data.List.Basic

/-!
# Computations that may trap

A computation over machine words either returns, reports an error of its own
type, or traps: an addition overflows, a shift is too wide, an index or a raw
read is out of range, or a loop does not end.  `Sound` is the judgment that a
computation does not trap and that what it returns meets a postcondition; its
rules follow the computation.
-/

namespace Hookfs.Lib

universe u v w

/-- How a computation can fail: with an error of its own, or by a trap. -/
inductive Fault (Error : Type u) where
  | error (error : Error)
  | overflow
  | badShift
  | badIndex
  | wildRead
  | unfinished
  deriving DecidableEq, Repr

/-- A computation that may fail or trap. -/
abbrev Checked (Error : Type u) (Value : Type v) :=
  Except (Fault Error) Value

/-! ## Primitives -/

namespace Checked

variable {Error : Type u} {Value : Type v}

def fail (error : Error) : Checked Error Value :=
  .error (.error error)

/-- Go on only if the condition holds. -/
def ensure (condition : Prop) [Decidable condition] (error : Error) :
    Checked Error Unit :=
  if condition then .ok () else fail error

/-- `Option::ok_or`. -/
def require (found : Option Value) (error : Error) : Checked Error Value :=
  match found with
  | some value => .ok value
  | none => fail error

/-- `+` on 64-bit words. -/
def add (left right : Nat) : Checked Error Nat :=
  if left + right < 2 ^ 64 then .ok (left + right) else .error .overflow

/-- `*` on 64-bit words. -/
def mul (left right : Nat) : Checked Error Nat :=
  if left * right < 2 ^ 64 then .ok (left * right) else .error .overflow

/-- `-` on unsigned words. -/
def sub (left right : Nat) : Checked Error Nat :=
  if right ≤ left then .ok (left - right) else .error .overflow

/-- `<<` on 64-bit words: the bits that leave the word are lost. -/
def shl (value shift : Nat) : Checked Error Nat :=
  if shift < 64 then .ok ((value <<< shift) % 2 ^ 64)
  else .error .badShift

/-- Indexing a list. -/
def index (values : List Value) (position : Nat) : Checked Error Value :=
  match values[position]? with
  | some value => .ok value
  | none => .error .badIndex

/-- The result of a call that cannot trap. -/
def propagate (result : Except Error Value) : Checked Error Value :=
  match result with
  | .ok value => .ok value
  | .error error => fail error

/-- What a caller that looks at the result sees of a computation: a trap is
no result. -/
def attempt (action : Checked Error Value) :
    Checked Error (Except Error Value) :=
  match action with
  | .ok value => .ok (.ok value)
  | .error (.error error) => .ok (.error error)
  | .error .overflow => .error .overflow
  | .error .badShift => .error .badShift
  | .error .badIndex => .error .badIndex
  | .error .wildRead => .error .wildRead
  | .error .unfinished => .error .unfinished

variable {Result : Type v} {action : Checked Error Value}

theorem eq_ok_of_bind {next : Value → Checked Error Result} {last : Result}
    (returned : action >>= next = .ok last) :
    ∃ value, action = .ok value ∧ next value = .ok last := by
  cases action with
  | ok value =>
      exact ⟨value, rfl, returned⟩
  | error fault =>
      cases returned

theorem bind_ok (value : Value) (next : Value → Checked Error Result) :
    ((.ok value : Checked Error Value) >>= next) = next value :=
  rfl

theorem bind_eq_ok_iff {next : Value → Checked Error Result}
    {last : Result} :
    action >>= next = .ok last ↔
      ∃ value, action = .ok value ∧ next value = .ok last := by
  constructor
  · exact eq_ok_of_bind
  · intro given
    obtain ⟨value, here, later⟩ := given
    rw [here, bind_ok, later]

theorem ensure_eq_ok {condition : Prop} [Decidable condition] (error : Error)
    (holds : condition) :
    ensure condition error = (.ok () : Checked Error Unit) :=
  if_pos holds

theorem add_eq_ok {left right : Nat} (fits : left + right < 2 ^ 64) :
    (add left right : Checked Error Nat) = .ok (left + right) :=
  if_pos fits

theorem mul_eq_ok {left right : Nat} (fits : left * right < 2 ^ 64) :
    (mul left right : Checked Error Nat) = .ok (left * right) :=
  if_pos fits

theorem shl_eq_ok (value : Nat) {shift : Nat} (narrow : shift < 64) :
    (shl value shift : Checked Error Nat) =
      .ok ((value <<< shift) % 2 ^ 64) :=
  if_pos narrow

theorem eq_of_add {left right sum : Nat}
    (returned : (add left right : Checked Error Nat) = .ok sum) :
    sum = left + right := by
  unfold add at returned
  split at returned
  · exact (Except.ok.inj returned).symm
  · cases returned

theorem eq_of_mul {left right product : Nat}
    (returned : (mul left right : Checked Error Nat) = .ok product) :
    product = left * right := by
  unfold mul at returned
  split at returned
  · exact (Except.ok.inj returned).symm
  · cases returned

theorem eq_some_of_require {found : Option Value} {error : Error}
    {value : Value} (returned : require found error = .ok value) :
    found = some value := by
  cases found with
  | none =>
      cases returned
  | some other =>
      exact congrArg some (Except.ok.inj returned)

theorem of_ensure {condition : Prop} [Decidable condition] {error : Error}
    {unit : Unit} (returned : ensure condition error = .ok unit) :
    condition := by
  unfold ensure at returned
  split at returned
  · rename_i holds
    exact holds
  · cases returned

theorem eq_some_of_index {values : List Value} {position : Nat}
    {value : Value}
    (returned : (index values position : Checked Error Value) =
      .ok value) : values[position]? = some value := by
  unfold index at returned
  split at returned
  · rename_i found here
    rw [here, Except.ok.inj returned]
  · cases returned

theorem require_some {value : Value} {error : Error} :
    require (some value) error = .ok value :=
  rfl

theorem require_eq_ok_iff {found : Option Value} {error : Error}
    {value : Value} : require found error = .ok value ↔ found = some value := by
  constructor
  · exact eq_some_of_require
  · intro here
    rw [here]
    rfl

theorem propagate_eq_ok_iff {result : Except Error Value} {value : Value} :
    propagate result = .ok value ↔ result = .ok value := by
  cases result with
  | ok other =>
      simp [propagate]
  | error error =>
      simp [propagate, fail]

theorem ensure_bind_eq_ok_iff {Final : Type} {condition : Prop}
    [Decidable condition] {error : Error}
    {next : Unit → Checked Error Final} {last : Final} :
    ensure condition error >>= next = .ok last ↔
      condition ∧ next () = .ok last := by
  rw [bind_eq_ok_iff]
  constructor
  · intro given
    obtain ⟨_, checked, returned⟩ := given
    exact ⟨of_ensure checked, returned⟩
  · intro given
    exact ⟨(), ensure_eq_ok error given.1, given.2⟩

theorem add_bind_eq_ok_iff {Final : Type} {left right : Nat}
    {next : Nat → Checked Error Final} {last : Final} :
    add left right >>= next = .ok last ↔
      left + right < 2 ^ 64 ∧ next (left + right) = .ok last := by
  rw [bind_eq_ok_iff]
  constructor
  · intro given
    obtain ⟨sum, added, returned⟩ := given
    have word : left + right < 2 ^ 64 := by
      unfold add at added
      split at added
      · assumption
      · cases added
    rw [eq_of_add added] at returned
    exact ⟨word, returned⟩
  · intro given
    exact ⟨_, add_eq_ok given.1, given.2⟩

theorem mul_bind_eq_ok_iff {Final : Type} {left right : Nat}
    {next : Nat → Checked Error Final} {last : Final} :
    mul left right >>= next = .ok last ↔
      left * right < 2 ^ 64 ∧ next (left * right) = .ok last := by
  rw [bind_eq_ok_iff]
  constructor
  · intro given
    obtain ⟨product, multiplied, returned⟩ := given
    have word : left * right < 2 ^ 64 := by
      unfold mul at multiplied
      split at multiplied
      · assumption
      · cases multiplied
    rw [eq_of_mul multiplied] at returned
    exact ⟨word, returned⟩
  · intro given
    exact ⟨_, mul_eq_ok given.1, given.2⟩

theorem attempt_eq_ok_iff {outcome : Except Error Value} :
    attempt action = .ok outcome ↔
      action =
        match outcome with
        | .ok value => .ok value
        | .error error => .error (.error error) := by
  cases action with
  | ok value =>
      cases outcome <;> simp [attempt]
  | error fault =>
      cases fault <;> cases outcome <;> simp [attempt]

end Checked

/-! ## Loops -/

/-- How one round of a loop ends: with the state for the next round, or for
good. -/
inductive Round (State : Type u) (Value : Type v) where
  | next (state : State)
  | done (value : Value)
  deriving DecidableEq, Repr

section Loops

variable {Error : Type u} {State : Type v} {Value : Type w}

/-- `for index in start..start + count`, with what comes after the loop when
no round has left it. -/
def forRange (body : Nat → State → Checked Error (Round State Value))
    (after : State → Checked Error Value) :
    Nat → Nat → State → Checked Error Value
  | 0, _, state => after state
  | count + 1, start, state =>
      match body start state with
      | .error fault => .error fault
      | .ok (.done value) => .ok value
      | .ok (.next state) => forRange body after count (start + 1) state

/-- A loop that only its body ends; running out of rounds is a trap. -/
def loop (body : State → Checked Error (Round State Value)) :
    Nat → State → Checked Error Value
  | 0, _ => .error .unfinished
  | rounds + 1, state =>
      match body state with
      | .error fault => .error fault
      | .ok (.done value) => .ok value
      | .ok (.next state) => loop body rounds state

/-- `for value in values`. -/
def forEach {Item : Type*}
    (body : Item → State → Checked Error (Round State Value))
    (after : State → Checked Error Value) :
    List Item → State → Checked Error Value
  | [], state => after state
  | item :: rest, state =>
      match body item state with
      | .error fault => .error fault
      | .ok (.done value) => .ok value
      | .ok (.next state) => forEach body after rest state

theorem forRange_succ_eq_ok_iff
    {body : Nat → State → Checked Error (Round State Value)}
    {after : State → Checked Error Value} {count start : Nat} {state : State}
    {value : Value} :
    forRange body after (count + 1) start state = .ok value ↔
      body start state = .ok (.done value) ∨
        ∃ next, body start state = .ok (.next next) ∧
          forRange body after count (start + 1) next = .ok value := by
  rw [forRange]
  cases body start state with
  | error fault =>
      simp
  | ok ended =>
      cases ended with
      | next state =>
          simp
      | done other =>
          simp

theorem loop_succ_eq_ok_iff
    {body : State → Checked Error (Round State Value)} {rounds : Nat}
    {state : State} {value : Value} :
    loop body (rounds + 1) state = .ok value ↔
      body state = .ok (.done value) ∨
        ∃ next, body state = .ok (.next next) ∧
          loop body rounds next = .ok value := by
  rw [loop]
  cases body state with
  | error fault =>
      simp
  | ok ended =>
      cases ended with
      | next state =>
          simp
      | done other =>
          simp

end Loops

section StepLoops

variable {Error : Type u} {State Value : Type v}

/-- The first round of a counted loop that no round leaves. -/
theorem forRange_next_succ (step : Nat → State → Checked Error State)
    (after : State → Checked Error Value) (count start : Nat)
    (state : State) :
    forRange
        (fun position state => do
          let state ← step position state
          pure (.next state))
        after (count + 1) start state =
      step start state >>= fun state =>
        forRange
          (fun position state => do
            let state ← step position state
            pure (.next state))
          after count (start + 1) state := by
  rw [forRange]
  cases step start state with
  | error fault =>
      rfl
  | ok next =>
      rfl

end StepLoops

/-! ## The judgment -/

/-- The computation does not trap, and what it returns meets the
postcondition. -/
def Sound {Error : Type u} {Value : Type v} (action : Checked Error Value)
    (post : Value → Prop) : Prop :=
  match action with
  | .ok value => post value
  | .error (.error _) => True
  | .error _ => False

/-- The rounds of a sound loop body. -/
def Round.Meets {State : Type u} {Value : Type v} (invariant : State → Prop)
    (post : Value → Prop) : Round State Value → Prop
  | .next state => invariant state
  | .done value => post value

namespace Sound

section Rules

variable {Error : Type u} {Value Result : Type v}
  {action : Checked Error Value} {post : Value → Prop}

theorem iff_ok_or_error :
    Sound action post ↔
      (∃ value, action = .ok value ∧ post value) ∨
        ∃ error, action = .error (.error error) := by
  cases action with
  | ok value =>
      simp [Sound]
  | error fault =>
      cases fault <;> simp [Sound]

theorem pure {value : Value} (holds : post value) :
    Sound (Pure.pure value : Checked Error Value) post :=
  holds

theorem fail (error : Error) :
    Sound (Checked.fail error : Checked Error Value) post :=
  trivial

theorem mono {weaker : Value → Prop} (sound : Sound action post)
    (implies : ∀ value, post value → weaker value) :
    Sound action weaker := by
  cases action with
  | ok value =>
      exact implies value sound
  | error fault =>
      cases fault <;> exact sound

theorem bind {next : Value → Checked Error Result} {last : Result → Prop}
    (first : Sound action post)
    (rest : ∀ value, post value → Sound (next value) last) :
    Sound (action >>= next) last := by
  cases action with
  | ok value =>
      exact rest value first
  | error fault =>
      cases fault <;> exact first

theorem value_of_ok {value : Value} (sound : Sound action post)
    (returned : action = .ok value) : post value := by
  rw [returned] at sound
  exact sound

theorem ensure (condition : Prop) [Decidable condition] (error : Error) :
    Sound (Checked.ensure condition error) fun _ => condition := by
  unfold Checked.ensure
  by_cases holds : condition
  · rw [if_pos holds]
    exact holds
  · rw [if_neg holds]
    trivial

theorem require (found : Option Value) (error : Error) :
    Sound (Checked.require found error) fun value => found = some value := by
  cases found with
  | none =>
      trivial
  | some value =>
      rfl

theorem add {left right : Nat} (fits : left + right < 2 ^ 64) :
    Sound (Checked.add left right : Checked Error Nat)
      fun sum => sum = left + right := by
  unfold Checked.add
  rw [if_pos fits]
  rfl

theorem mul {left right : Nat} (fits : left * right < 2 ^ 64) :
    Sound (Checked.mul left right : Checked Error Nat)
      fun product => product = left * right := by
  unfold Checked.mul
  rw [if_pos fits]
  rfl

theorem sub {left right : Nat} (fits : right ≤ left) :
    Sound (Checked.sub left right : Checked Error Nat)
      fun difference => difference = left - right := by
  unfold Checked.sub
  rw [if_pos fits]
  rfl

theorem shl (value : Nat) {shift : Nat} (narrow : shift < 64) :
    Sound (Checked.shl value shift : Checked Error Nat)
      fun shifted => shifted = (value <<< shift) % 2 ^ 64 := by
  unfold Checked.shl
  rw [if_pos narrow]
  rfl

theorem index {values : List Value} {position : Nat}
    (inside : position < values.length) :
    Sound (Checked.index values position : Checked Error Value)
      fun value => values[position]? = some value := by
  unfold Checked.index
  rw [List.getElem?_eq_getElem inside]
  rfl

theorem propagate (result : Except Error Value) :
    Sound (Checked.propagate result) fun value => result = .ok value := by
  cases result with
  | ok value =>
      rfl
  | error error =>
      trivial

theorem attempt (sound : Sound action post) :
    Sound (Checked.attempt action) fun outcome =>
      ∀ value, outcome = .ok value → post value := by
  cases action with
  | ok value =>
      intro other same
      injection same with same
      exact same ▸ sound
  | error fault =>
      cases fault with
      | error error =>
          intro other same
          cases same
      | _ =>
          exact sound

end Rules

section LoopRules

variable {Error : Type u} {State : Type v} {Value : Type w}
  {post : Value → Prop} {after : State → Checked Error Value}

/-- One round of a loop, with what a round that goes on leads to. -/
theorem after_round {action : Checked Error (Round State Value)}
    {invariant : State → Prop} {goOn : State → Checked Error Value}
    (here : Sound action (Round.Meets invariant post))
    (rest : ∀ state, invariant state → Sound (goOn state) post) :
    Sound
      (match action with
        | .error fault => .error fault
        | .ok (.done value) => .ok value
        | .ok (.next state) => goOn state) post := by
  cases action with
  | error fault =>
      cases fault <;> exact here
  | ok ended =>
      cases ended with
      | done value =>
          exact here
      | next state =>
          exact rest state here

/-- The rule for a counted loop: an invariant over the index and the state,
kept by every round. -/
theorem forRange {body : Nat → State → Checked Error (Round State Value)}
    (invariant : Nat → State → Prop) (limit : Nat)
    (round : ∀ position state, position < limit → invariant position state →
      Sound (body position state)
        (Round.Meets (invariant (position + 1)) post))
    (last : ∀ state, invariant limit state → Sound (after state) post) :
    ∀ (count start : Nat) (state : State), start + count = limit →
      invariant start state →
        Sound (Lib.forRange body after count start state) post := by
  intro count
  induction count with
  | zero =>
      intro start state reaches holds
      have arrived : start = limit := by omega
      subst arrived
      exact last state holds
  | succ count inductionHypothesis =>
      intro start state reaches holds
      have here := round start state (by omega) holds
      apply after_round here
      intro next kept
      exact inductionHypothesis (start + 1) next (by omega) kept

/-- The rule for a loop with a measure: the invariant speaks of the rounds
that are left. -/
theorem loop {body : State → Checked Error (Round State Value)}
    (invariant : Nat → State → Prop)
    (round : ∀ rounds state, invariant rounds state →
      ∃ left, rounds = left + 1 ∧
        Sound (body state) (Round.Meets (invariant left) post)) :
    ∀ (rounds : Nat) (state : State), invariant rounds state →
      Sound (Lib.loop body rounds state) post := by
  intro rounds
  induction rounds with
  | zero =>
      intro state holds
      obtain ⟨left, impossible, _⟩ := round 0 state holds
      omega
  | succ rounds inductionHypothesis =>
      intro state holds
      obtain ⟨left, same, here⟩ := round (rounds + 1) state holds
      have exactly : left = rounds := by omega
      rw [exactly] at here
      exact after_round here inductionHypothesis

theorem forEach {Item : Type*}
    {body : Item → State → Checked Error (Round State Value)}
    (invariant : State → Prop) {items : List Item}
    (round : ∀ item ∈ items, ∀ state, invariant state →
      Sound (body item state) (Round.Meets invariant post))
    (last : ∀ state, invariant state → Sound (after state) post)
    {state : State} (holds : invariant state) :
    Sound (Lib.forEach body after items state) post := by
  induction items generalizing state with
  | nil =>
      exact last state holds
  | cons item rest inductionHypothesis =>
      apply after_round (round item List.mem_cons_self state holds)
      intro next kept
      apply inductionHypothesis
      · intro other member
        exact round other (List.mem_cons_of_mem item member)
      · exact kept

end LoopRules

section StepRules

variable {Error : Type u} {State Value : Type v} {post : Value → Prop}
  {after : State → Checked Error Value}

/-- A step as a round that goes on. -/
theorem next {action : Checked Error State} {invariant : State → Prop}
    (step : Sound action invariant) :
    Sound
      (do
        let state ← action
        Pure.pure (.next state) : Checked Error (Round State Value))
      (Round.Meets invariant post) :=
  Sound.bind step fun _ holds => Sound.pure holds

/-- A counted loop that no round leaves. -/
theorem forRange_next {step : Nat → State → Checked Error State}
    (invariant : State → Prop) (count : Nat)
    (each : ∀ position state, position < count → invariant state →
      Sound (step position state) invariant)
    (last : ∀ state, invariant state → Sound (after state) post)
    {state : State} (holds : invariant state) :
    Sound
      (Lib.forRange
        (fun position state => do
          let state ← step position state
          Pure.pure (.next state))
        after count 0 state) post := by
  apply Sound.forRange (fun _ => invariant) count
  · intro position state before kept
    exact Sound.next (each position state before kept)
  · exact last
  · exact Nat.zero_add count
  · exact holds

/-- A loop over a list that no item leaves. -/
theorem forEach_next {Item : Type*} {step : Item → State → Checked Error State}
    (invariant : State → Prop) {items : List Item}
    (each : ∀ item ∈ items, ∀ state, invariant state →
      Sound (step item state) invariant)
    (last : ∀ state, invariant state → Sound (after state) post)
    {state : State} (holds : invariant state) :
    Sound
      (Lib.forEach
        (fun item state => do
          let state ← step item state
          Pure.pure (.next state))
        after items state) post := by
  apply Sound.forEach invariant
  · intro item member state kept
    exact Sound.next (each item member state kept)
  · exact last
  · exact holds

end StepRules

end Sound

/-! ## What is returned, if anything is -/

/-- The partial judgment: a computation may fail or trap, but a value that it
returns meets the postcondition. -/
def Returns {Error : Type u} {Value : Type v} (action : Checked Error Value)
    (post : Value → Prop) : Prop :=
  ∀ value, action = .ok value → post value

namespace Returns

variable {Error : Type u} {State Value Result : Type v}
  {action : Checked Error Value} {post : Value → Prop}

theorem pure {value : Value} (holds : post value) :
    Returns (Pure.pure value : Checked Error Value) post := by
  intro other same
  rw [← Except.ok.inj same]
  exact holds

theorem bind {next : Value → Checked Error Result} {last : Result → Prop}
    (first : Returns action post)
    (rest : ∀ value, post value → Returns (next value) last) :
    Returns (action >>= next) last := by
  intro result returned
  obtain ⟨value, here, later⟩ := Checked.eq_ok_of_bind returned
  exact rest value (first value here) result later

/-- Nothing is asked of the first of two computations. -/
theorem after {next : Value → Checked Error Result} {last : Result → Prop}
    (rest : ∀ value, Returns (next value) last) :
    Returns (action >>= next) last := by
  intro result returned
  obtain ⟨value, _, later⟩ := Checked.eq_ok_of_bind returned
  exact rest value result later

/-- A counted loop that no round leaves. -/
theorem forRange_next {step : Nat → State → Checked Error State}
    {last : State → Checked Error Value} (invariant : State → Prop)
    (each : ∀ position state, invariant state →
      Returns (step position state) invariant)
    (ends : ∀ state, invariant state → Returns (last state) post)
    {count start : Nat} {state : State} (holds : invariant state) :
    Returns
      (Lib.forRange
        (fun position state => do
          let state ← step position state
          Pure.pure (.next state))
        last count start state) post := by
  induction count generalizing start state with
  | zero =>
      exact ends state holds
  | succ count inductionHypothesis =>
      rw [forRange_next_succ]
      exact bind (each start state holds) fun _ kept =>
        inductionHypothesis kept

/-- A loop over a list that no item leaves. -/
theorem forEach_next {Item : Type*}
    {step : Item → State → Checked Error State}
    {last : State → Checked Error Value} (invariant : State → Prop)
    (each : ∀ item state, invariant state →
      Returns (step item state) invariant)
    (ends : ∀ state, invariant state → Returns (last state) post)
    {items : List Item} {state : State} (holds : invariant state) :
    Returns
      (Lib.forEach
        (fun item state => do
          let state ← step item state
          Pure.pure (.next state))
        last items state) post := by
  induction items generalizing state with
  | nil =>
      exact ends state holds
  | cons item rest inductionHypothesis =>
      intro value returned
      rw [Lib.forEach] at returned
      cases result : step item state with
      | error fault =>
          rw [result] at returned
          cases returned
      | ok next =>
          rw [result] at returned
          exact inductionHypothesis (each item state holds next result)
            value returned

end Returns

/-! ## Little-endian numbers -/

/-- The number that a list of bytes encodes, lowest byte first. -/
def littleEndian : List UInt8 → Nat
  | [] => 0
  | byte :: rest => byte.toNat + 256 * littleEndian rest

/-- `to_le_bytes`, by width. -/
def toLittleEndian : Nat → Nat → List UInt8
  | 0, _ => []
  | width + 1, value =>
      UInt8.ofNat value :: toLittleEndian width (value / 256)

theorem littleEndian_lt : ∀ bytes : List UInt8,
    littleEndian bytes < 256 ^ bytes.length := by
  intro bytes
  induction bytes with
  | nil =>
      exact Nat.one_pos
  | cons byte rest inductionHypothesis =>
      have small := byte.toNat_lt
      rw [littleEndian, List.length_cons, Nat.pow_succ]
      omega

theorem length_toLittleEndian : ∀ width value : Nat,
    (toLittleEndian width value).length = width := by
  intro width
  induction width with
  | zero =>
      intro value
      rfl
  | succ width inductionHypothesis =>
      intro value
      rw [toLittleEndian, List.length_cons, inductionHypothesis]

theorem littleEndian_toLittleEndian : ∀ width value : Nat,
    littleEndian (toLittleEndian width value) = value % 256 ^ width := by
  intro width
  induction width with
  | zero =>
      intro value
      exact (Nat.mod_one value).symm
  | succ width inductionHypothesis =>
      intro value
      have low : (UInt8.ofNat value).toNat = value % 256 :=
        UInt8.toNat_ofNat'
      rw [toLittleEndian, littleEndian, inductionHypothesis, low,
        Nat.pow_succ', Nat.mod_mul]

theorem toLittleEndian_littleEndian : ∀ bytes : List UInt8,
    toLittleEndian bytes.length (littleEndian bytes) = bytes
  | [] => rfl
  | byte :: rest => by
      have small := byte.toNat_lt
      have quotient :
          (byte.toNat + 256 * littleEndian rest) / 256 =
            littleEndian rest := by
        omega
      have low :
          UInt8.ofNat (byte.toNat + 256 * littleEndian rest) = byte := by
        rw [← UInt8.toNat_inj, UInt8.toNat_ofNat']
        omega
      rw [littleEndian, List.length_cons, toLittleEndian, quotient, low,
        toLittleEndian_littleEndian]

end Hookfs.Lib
