import Hookfs.Lib.Checked

/-!
# Tables as lists

A table means the list of what its entries mean.  It has so many entries
(`Joined`), or it ends in a sentinel (`Scanned`), or every entry leads on to
the next (`Chain`).  Each says so as a relation between a table and a list,
and determines the list when every entry determines its own part.  A counted
loop that takes up the parts one by one returns such a list, whenever it
returns.
-/

namespace Hookfs.Lib

universe u v w

/-- The index is the first one that stops. -/
def IsFirst (stop : Nat → Prop) (count : Nat) : Prop :=
  stop count ∧ ∀ index, index < count → ¬ stop index

theorem IsFirst.unique {stop : Nat → Prop} {left right : Nat}
    (first : IsFirst stop left) (second : IsFirst stop right) :
    left = right := by
  rcases Nat.lt_trichotomy left right with before | same | after
  · exact absurd first.1 (second.2 left before)
  · exact same
  · exact absurd second.1 (first.2 right after)

/-! ## The lists -/

section Lists

variable {Item : Type u}

/-- The list joins what so many indices from a start on mean. -/
inductive Joined (means : Nat → List Item → Prop) :
    Nat → Nat → List Item → Prop where
  | nil {start : Nat} : Joined means start 0 []
  | cons {start count : Nat} {part rest : List Item}
      (here : means start part) (later : Joined means (start + 1) count rest) :
      Joined means start (count + 1) (part ++ rest)

/-- The list joins what the indices before the first sentinel mean. -/
def Scanned (stop : Nat → Prop) (means : Nat → List Item → Prop)
    (whole : List Item) : Prop :=
  ∃ count, IsFirst stop count ∧ Joined means 0 count whole

/-- The list joins what the entries of a chain mean, from a cursor on: every
entry says how far the next one is, zero being the last, and at most so many
are followed. -/
inductive Chain (link : Nat → Nat → List Item → Prop) :
    Nat → Nat → List Item → Prop where
  | cut {cursor : Nat} : Chain link 0 cursor []
  | last {rounds cursor : Nat} {part : List Item}
      (here : link cursor 0 part) : Chain link (rounds + 1) cursor part
  | more {rounds cursor next : Nat} {part rest : List Item}
      (goesOn : next ≠ 0) (here : link cursor next part)
      (later : Chain link rounds (cursor + next) rest) :
      Chain link (rounds + 1) cursor (part ++ rest)

theorem Joined.unique {means : Nat → List Item → Prop} {start count : Nat}
    {left right : List Item}
    (determined : ∀ index first second, means index first →
      means index second → first = second)
    (leftJoined : Joined means start count left)
    (rightJoined : Joined means start count right) : left = right := by
  induction leftJoined generalizing right with
  | nil =>
      cases rightJoined with
      | nil =>
          rfl
  | cons here later inductionHypothesis =>
      cases rightJoined with
      | cons otherHere otherLater =>
          rw [determined _ _ _ here otherHere,
            inductionHypothesis otherLater]

/-- What every index determines, the scan determines. -/
theorem Scanned.unique {stop : Nat → Prop} {means : Nat → List Item → Prop}
    {left right : List Item}
    (determined : ∀ index first second, means index first →
      means index second → first = second)
    (leftScan : Scanned stop means left)
    (rightScan : Scanned stop means right) : left = right := by
  obtain ⟨count, first, leftJoined⟩ := leftScan
  obtain ⟨other, second, rightJoined⟩ := rightScan
  rw [second.unique first] at rightJoined
  exact leftJoined.unique determined rightJoined

theorem Chain.unique {link : Nat → Nat → List Item → Prop}
    {rounds cursor : Nat} {left right : List Item}
    (determined : ∀ cursor next part otherNext otherPart,
      link cursor next part → link cursor otherNext otherPart →
        next = otherNext ∧ part = otherPart)
    (leftChain : Chain link rounds cursor left)
    (rightChain : Chain link rounds cursor right) : left = right := by
  induction leftChain generalizing right with
  | cut =>
      cases rightChain with
      | cut =>
          rfl
  | last here =>
      cases rightChain with
      | last otherHere =>
          exact (determined _ _ _ _ _ here otherHere).2
      | more goesOn otherHere _ =>
          have same := (determined _ _ _ _ _ here otherHere).1
          exact absurd same.symm goesOn
  | more goesOn here later inductionHypothesis =>
      cases rightChain with
      | last otherHere =>
          exact absurd (determined _ _ _ _ _ here otherHere).1 goesOn
      | more _ otherHere otherLater =>
          obtain ⟨sameNext, samePart⟩ :=
            determined _ _ _ _ _ here otherHere
          rw [← sameNext] at otherLater
          rw [samePart, inductionHypothesis otherLater]

end Lists

/-! ## Loops -/

section Loops

variable {Item : Type u} {Found : Type v} {Error : Type w}

/-- A way to take up items one after the other. -/
structure Absorbs (absorb : Found → List Item → Found) : Prop where
  nil : ∀ found, absorb found [] = found
  append : ∀ found first second,
    absorb found (first ++ second) = absorb (absorb found first) second

theorem absorbs_append :
    Absorbs fun (found : List Item) items => found ++ items where
  nil := List.append_nil
  append found first second := (List.append_assoc found first second).symm

theorem absorbs_foldl (step : Found → Item → Found) :
    Absorbs fun found items => items.foldl step found where
  nil _ := rfl
  append _ _ _ := List.foldl_append

variable {absorb : Found → List Item → Found}

/-- A round that takes up what its index means. -/
def JoinRound (means : Nat → List Item → Prop)
    (absorb : Found → List Item → Found) (position : Nat) (found : Found) :
    Round Found Found → Prop
  | .done _ => False
  | .next next => ∃ part, means position part ∧ next = absorb found part

/-- A counted loop of such rounds that returns has joined its table. -/
theorem joined_of_forRange {means : Nat → List Item → Prop}
    {body : Nat → Found → Checked Error (Round Found Found)}
    (absorbs : Absorbs absorb)
    (round : ∀ position found ended, body position found = .ok ended →
      JoinRound means absorb position found ended) :
    ∀ (count start : Nat) (found value : Found),
      forRange body pure count start found = .ok value →
        ∃ whole, Joined means start count whole ∧
          value = absorb found whole := by
  intro count
  induction count with
  | zero =>
      intro start found value returned
      refine ⟨[], Joined.nil, ?_⟩
      rw [absorbs.nil]
      exact (Except.ok.inj returned).symm
  | succ count inductionHypothesis =>
      intro start found value returned
      rcases forRange_succ_eq_ok_iff.mp returned with left | goesOn
      · exact (round start found _ left).elim
      · obtain ⟨middle, ended, later⟩ := goesOn
        obtain ⟨part, meant, rfl⟩ := round start found _ ended
        obtain ⟨rest, joined, rfl⟩ :=
          inductionHypothesis (start + 1) _ value later
        exact ⟨part ++ rest, Joined.cons meant joined,
          (absorbs.append found part rest).symm⟩

/-- A round at the sentinel leaves with what has been found; any other round
takes up what its index means. -/
def ScanRound (stop : Nat → Prop) (means : Nat → List Item → Prop)
    (absorb : Found → List Item → Found) (position : Nat) (found : Found) :
    Round Found Found → Prop
  | .done value => stop position ∧ value = found
  | .next next => ¬ stop position ∧
      ∃ part, means position part ∧ next = absorb found part

/-- A counted loop of such rounds, from any index on. -/
theorem scan_from {stop : Nat → Prop} {means : Nat → List Item → Prop}
    {body : Nat → Found → Checked Error (Round Found Found)}
    {after : Found → Checked Error Found} (absorbs : Absorbs absorb)
    (round : ∀ position found ended, body position found = .ok ended →
      ScanRound stop means absorb position found ended)
    (never : ∀ found value, after found ≠ .ok value) :
    ∀ (rounds start : Nat) (found value : Found),
      forRange body after rounds start found = .ok value →
        ∃ count whole, stop (start + count) ∧
          (∀ index, index < count → ¬ stop (start + index)) ∧
          Joined means start count whole ∧ value = absorb found whole := by
  intro rounds
  induction rounds with
  | zero =>
      intro start found value returned
      exact absurd returned (never found value)
  | succ rounds inductionHypothesis =>
      intro start found value returned
      rcases forRange_succ_eq_ok_iff.mp returned with left | more
      · -- the sentinel is the entry the loop is at
        obtain ⟨stops, rfl⟩ := round start found _ left
        refine ⟨0, [], stops, ?_, Joined.nil, ?_⟩
        · intro index impossible
          exact absurd impossible (Nat.not_lt_zero index)
        · rw [absorbs.nil]
      · obtain ⟨middle, ended, later⟩ := more
        obtain ⟨goesOn, part, meant, rfl⟩ := round start found _ ended
        obtain ⟨count, rest, stops, before, joined, rfl⟩ :=
          inductionHypothesis (start + 1) _ value later
        refine ⟨count + 1, part ++ rest, ?_, ?_,
          Joined.cons meant joined,
          (absorbs.append found part rest).symm⟩
        · rwa [Nat.add_right_comm, Nat.add_assoc] at stops
        · intro index inside
          cases index with
          | zero =>
              exact goesOn
          | succ index =>
              have shifted := before index (by omega)
              rwa [Nat.add_right_comm, Nat.add_assoc] at shifted

/-- A counted loop of such rounds that returns has scanned its table. -/
theorem scanned_of_forRange {stop : Nat → Prop}
    {means : Nat → List Item → Prop}
    {body : Nat → Found → Checked Error (Round Found Found)}
    {after : Found → Checked Error Found} (absorbs : Absorbs absorb)
    (round : ∀ position found ended, body position found = .ok ended →
      ScanRound stop means absorb position found ended)
    (never : ∀ found value, after found ≠ .ok value) {rounds : Nat}
    {found value : Found}
    (returned : forRange body after rounds 0 found = .ok value) :
    ∃ whole, Scanned stop means whole ∧ value = absorb found whole := by
  obtain ⟨count, whole, stops, before, joined, split⟩ :=
    scan_from absorbs round never rounds 0 found value returned
  rw [Nat.zero_add] at stops
  simp only [Nat.zero_add] at before
  exact ⟨whole, ⟨count, ⟨stops, before⟩, joined⟩, split⟩

/-- A round takes up what its entry means; the last entry leaves the loop, any
other leads on. -/
def ChainRound (link : Nat → Nat → List Item → Prop)
    (absorb : Found → List Item → Found) (cursor : Nat) (found : Found) :
    Round (Nat × Found) Found → Prop
  | .done value => ∃ part, link cursor 0 part ∧ value = absorb found part
  | .next state => ∃ next part, next ≠ 0 ∧ link cursor next part ∧
      state = (cursor + next, absorb found part)

/-- A counted loop of such rounds that returns has followed its chain. -/
theorem chain_of_forRange {link : Nat → Nat → List Item → Prop}
    {body : Nat → Nat × Found → Checked Error (Round (Nat × Found) Found)}
    (absorbs : Absorbs absorb)
    (round : ∀ position cursor found ended,
      body position (cursor, found) = .ok ended →
        ChainRound link absorb cursor found ended) :
    ∀ (rounds start cursor : Nat) (found value : Found),
      forRange body (fun state => pure state.2) rounds start
          (cursor, found) = .ok value →
        ∃ whole, Chain link rounds cursor whole ∧
          value = absorb found whole := by
  intro rounds
  induction rounds with
  | zero =>
      intro start cursor found value returned
      refine ⟨[], Chain.cut, ?_⟩
      rw [absorbs.nil]
      exact (Except.ok.inj returned).symm
  | succ rounds inductionHypothesis =>
      intro start cursor found value returned
      rcases forRange_succ_eq_ok_iff.mp returned with left | more
      · obtain ⟨part, linked, rfl⟩ := round start cursor found _ left
        exact ⟨part, Chain.last linked, rfl⟩
      · obtain ⟨state, ended, later⟩ := more
        obtain ⟨next, part, goesOn, linked, rfl⟩ :=
          round start cursor found _ ended
        obtain ⟨rest, chain, rfl⟩ :=
          inductionHypothesis (start + 1) _ _ value later
        exact ⟨part ++ rest, Chain.more goesOn linked chain,
          (absorbs.append found part rest).symm⟩

end Loops

end Hookfs.Lib
