import Hookfs.Vfs.Provider

/-!
# Overlays

`OverlayFs` asks its layers front to back and keeps the first answer.  Its
state is that of all layers; a stream it hands out belongs to the layer it
came from.
-/

namespace Hookfs.Vfs

open Hookfs.Lib

variable {Ambient State Stream : Type}

namespace OverlayFs

/-- `layers.iter().find_map(ask)`: the first answer, with the number of the
layer that gave it.  The layers asked before it have been asked, too. -/
def findMap {Value : Type} (ask : State → Option Value × State) :
    List State → Option (Nat × Value) × List State
  | [] => (none, [])
  | layer :: rest =>
      match ask layer with
      | (some value, next) => (some (0, value), next :: rest)
      | (none, next) =>
          let (found, others) := findMap ask rest
          (found.map fun answer => (answer.1 + 1, answer.2), next :: others)

/-- The answer alone. -/
def first {Value : Type} (ask : State → Option Value × State)
    (layers : List State) : Option Value × List State :=
  ((findMap ask layers).1.map Prod.snd, (findMap ask layers).2)

/-- An answer that is a stream stays with its layer. -/
def firstStream
    (ask : State → Option (Except IoError Stream) × State)
    (layers : List State) :
    Option (Except IoError (Nat × Stream)) × List State :=
  ((findMap ask layers).1.map fun answer =>
      answer.2.map fun stream => (answer.1, stream),
    (findMap ask layers).2)

/-- A method of a stream, in the layer it belongs to. -/
def within {Value : Type} (absent : Value)
    (method : Stream → State → Value × Stream × State)
    (stream : Nat × Stream) (layers : List State) :
    Value × (Nat × Stream) × List State :=
  match layers[stream.1]? with
  | none => (absent, stream, layers)
  | some layer =>
      let (value, next, state) := method stream.2 layer
      (value, (stream.1, next), layers.set stream.1 state)

/-- A stream without its layer, which no overlay hands out. -/
def lost : IoError := .simple .other

/-- `impl VirtualFs for OverlayFs`, over layers of one kind. -/
def provider (layer : VirtualFs Ambient State Stream) :
    VirtualFs Ambient (List State) (Nat × Stream) where
  «open» ambient path opts := firstStream (layer.open ambient path opts)
  metadata ambient path := first (layer.metadata ambient path)
  readDir ambient path := first (layer.readDir ambient path)
  «exists» ambient path := first (layer.exists ambient path)
  openWrite ambient path opts :=
    firstStream (layer.openWrite ambient path opts)
  remove ambient path := first (layer.remove ambient path)
  rename ambient source target :=
    first (layer.rename ambient source target)
  createDir ambient path := first (layer.createDir ambient path)
  setLen ambient path len := first (layer.setLen ambient path len)
  volumeInfo ambient := first (layer.volumeInfo ambient)
  read ambient len := within (.error lost) (layer.read ambient len)
  write ambient bytes := within (.error lost) (layer.write ambient bytes)
  seek ambient target := within (.error lost) (layer.seek ambient target)
  streamPosition ambient :=
    within (.error lost) (layer.streamPosition ambient)
  size ambient := within (.error lost) (layer.size ambient)
  streamSetLen ambient len :=
    within (.error lost) (layer.streamSetLen ambient len)
  flush ambient := within (.error lost) (layer.flush ambient)
  drop ambient stream layers :=
    (within () (fun inner state =>
      ((), inner, layer.drop ambient inner state)) stream layers).2.2

/-! ## Who is asked -/

section Asked

variable {Value : Type} {ask : State → Option Value × State}

/-- The layer declines and stays as it is. -/
def Declines (ask : State → Option Value × State) (layer : State) : Prop :=
  ask layer = (none, layer)

/-- When the layers before it decline, a layer that answers is the one that
is asked. -/
theorem findMap_of_declines {value : Value} {layer next : State} :
    ∀ {layers : List State} {index : Nat},
      layers[index]? = some layer →
      (∀ earlier other, earlier < index → layers[earlier]? = some other →
        Declines ask other) →
      ask layer = (some value, next) →
        findMap ask layers = (some (index, value), layers.set index next)
  | [], _, present, _, _ => by
      simp at present
  | head :: rest, 0, present, _, answers => by
      simp only [List.getElem?_cons_zero, Option.some.injEq] at present
      subst present
      simp only [findMap, answers, List.set_cons_zero]
  | head :: rest, index + 1, present, before, answers => by
      have declined : Declines ask head :=
        before 0 head (Nat.succ_pos index) rfl
      have there : rest[index]? = some layer := by simpa using present
      have later := findMap_of_declines there
        (fun earlier other below found =>
          before (earlier + 1) other (by omega) (by simpa using found))
        answers
      unfold Declines at declined
      simp only [findMap, declined, later, Option.map_some,
        List.set_cons_succ]

/-- Wrapping every answer wraps the one that is kept. -/
theorem findMap_wrapped {Reply : Type} (ask : State → Option Value × State)
    (wrap : Value → Reply) (layers : List State) :
    findMap (fun layer => ((ask layer).1.map wrap, (ask layer).2)) layers =
      ((findMap ask layers).1.map fun answer => (answer.1, wrap answer.2),
        (findMap ask layers).2) := by
  induction layers with
  | nil =>
      rfl
  | cons layer rest inductionHypothesis =>
      simp only [findMap, inductionHypothesis]
      rcases ask layer with ⟨result, next⟩
      cases result with
      | none =>
          simp only [Option.map_none, Option.map_map]
          rfl
      | some value =>
          rfl

/-- The first layer is asked, whatever stands behind it. -/
theorem findMap_of_head {value : Value} {layer next : State}
    {rest : List State} (answers : ask layer = (some value, next)) :
    findMap ask (layer :: rest) = (some (0, value), next :: rest) := by
  simp only [findMap, answers]

end Asked

end OverlayFs

end Hookfs.Vfs
