import Hookfs.Lib.Runs

/-!
# Enumerations over a snapshot

An enumeration takes a snapshot once and hands out its items one after the
other, with other operations of the system in between.  The rules below say
what all the requests of a run are told: the items in order, each one once,
and from then on that there are no more.
-/

namespace Hookfs.Lib

universe u v w x

/-- The items of a snapshot, and how many of them were handed out. -/
structure Enumeration (Item : Type u) where
  items : List Item
  next : Nat
  deriving DecidableEq, Repr

namespace Enumeration

variable {Item : Type u}

/-- The item that the next request is told, if there is one. -/
def current (enumeration : Enumeration Item) : Option Item :=
  enumeration.items[enumeration.next]?

/-- After a request. -/
def advance (enumeration : Enumeration Item) : Enumeration Item :=
  { enumeration with
    next := min (enumeration.next + 1)
      (max enumeration.next enumeration.items.length) }

/-- What the request with this number is told, counted from now. -/
def told (enumeration : Enumeration Item) (index : Nat) : Option Item :=
  enumeration.items[enumeration.next + index]?

theorem advance_of_current {enumeration : Enumeration Item} {item : Item}
    (found : enumeration.current = some item) :
    enumeration.advance =
      { enumeration with next := enumeration.next + 1 } := by
  obtain ⟨inside, _⟩ := List.getElem?_eq_some_iff.mp found
  unfold advance
  rw [show min (enumeration.next + 1)
      (max enumeration.next enumeration.items.length) =
    enumeration.next + 1 by omega]

theorem advance_of_none {enumeration : Enumeration Item}
    (done : enumeration.current = none) :
    enumeration.advance = enumeration := by
  have outside := List.getElem?_eq_none_iff.mp done
  unfold advance
  rw [show min (enumeration.next + 1)
      (max enumeration.next enumeration.items.length) =
    enumeration.next by omega]

theorem told_zero (enumeration : Enumeration Item) :
    enumeration.told 0 = enumeration.current := rfl

/-- A request moves the count by one. -/
theorem told_advance (enumeration : Enumeration Item) (index : Nat) :
    enumeration.advance.told index = enumeration.told (index + 1) := by
  cases found : enumeration.current with
  | some item =>
      rw [advance_of_current found]
      unfold told
      rw [show enumeration.next + (index + 1) =
        enumeration.next + 1 + index by omega]
  | none =>
      have outside := List.getElem?_eq_none_iff.mp found
      rw [advance_of_none found]
      unfold told
      rw [List.getElem?_eq_none (by omega), List.getElem?_eq_none (by omega)]

end Enumeration

section Requests

variable {State : Type u} {Op : Type v} {Reply : Type w} {Item : Type x}

/-- The replies to the operations of a run that ask. -/
def heard (step : State → Op → Reply × State) (asks : Op → Bool) :
    State → List Op → List Reply
  | _, [] => []
  | state, op :: rest =>
      if asks op then
        (step state op).1 :: heard step asks (step state op).2 rest
      else heard step asks (step state op).2 rest

/-- A system with an enumeration in it: a request is answered from the
snapshot, and everything else that is allowed leaves the enumeration where it
was. -/
structure Enumerates (step : State → Op → Reply × State)
    (cell : State → Option (Enumeration Item)) (asks : Op → Bool)
    (allowed : Op → Prop) (answer : Op → Option Item → Nat → Reply) :
    Prop where
  asked : ∀ state op enumeration, cell state = some enumeration →
    allowed op → asks op = true →
      (step state op).1 =
          answer op enumeration.current enumeration.next ∧
        cell (step state op).2 = some enumeration.advance
  other : ∀ state op enumeration, cell state = some enumeration →
    allowed op → asks op = false → cell (step state op).2 = some enumeration

/-- Answers do not read the count once there are no more items. -/
def Settled (answer : Op → Option Item → Nat → Reply) : Prop :=
  ∀ op first second, answer op none first = answer op none second

variable {step : State → Op → Reply × State}
  {cell : State → Option (Enumeration Item)} {asks : Op → Bool}
  {allowed : Op → Prop} {answer : Op → Option Item → Nat → Reply}

theorem answer_told (settled : Settled answer)
    (enumeration : Enumeration Item) (op : Op) (index : Nat) :
    answer op (enumeration.advance.told index)
        (enumeration.advance.next + index) =
      answer op (enumeration.told (index + 1))
        (enumeration.next + (index + 1)) := by
  rw [enumeration.told_advance]
  cases found : enumeration.current with
  | some item =>
      rw [Enumeration.advance_of_current found,
        show enumeration.next + (index + 1) =
          enumeration.next + 1 + index by omega]
  | none =>
      have outside := List.getElem?_eq_none_iff.mp found
      have done : enumeration.told (index + 1) = none :=
        List.getElem?_eq_none (by omega)
      rw [done]
      exact settled op _ _

/-- The enumeration rule: the requests of a run are told the snapshot, item
by item, whatever else the run does in between. -/
theorem Enumerates.heard_eq
    (enumerates : Enumerates step cell asks allowed answer)
    (settled : Settled answer) :
    ∀ (ops : List Op) (state : State) (enumeration : Enumeration Item),
      cell state = some enumeration → (∀ op ∈ ops, allowed op) →
        heard step asks state ops =
          (ops.filter asks).mapIdx fun index op =>
            answer op (enumeration.told index) (enumeration.next + index) := by
  intro ops
  induction ops with
  | nil =>
      intro state enumeration _ _
      rfl
  | cons op rest inductionHypothesis =>
      intro state enumeration here all
      obtain ⟨permitted, others⟩ := List.forall_mem_cons.mp all
      cases asking : asks op with
      | true =>
          obtain ⟨reply, moved⟩ :=
            enumerates.asked state op enumeration here permitted asking
          have later := inductionHypothesis (step state op).2
            enumeration.advance moved others
          rw [heard, if_pos asking, reply, later,
            List.filter_cons_of_pos asking, List.mapIdx_cons]
          simp only [answer_told settled]
          rfl
      | false =>
          have kept := enumerates.other state op enumeration here permitted
            asking
          have later := inductionHypothesis (step state op).2 enumeration
            kept others
          rw [heard, if_neg (by rw [asking]; exact Bool.false_ne_true), later,
            List.filter_cons_of_neg (by rw [asking]; exact Bool.false_ne_true)]

end Requests

end Hookfs.Lib
