import Hookfs.Lib.Dialogue
import Hookfs.Plthook.Slot

/-!
# What the transaction asks

`apply` and `HookGuard::restore` by what they ask of memory and of the
platform below them, whichever it is.
-/

namespace Hookfs.Plthook

open Hookfs.Lib

/-- A call of `sys`, or an access to a slot. -/
inductive Ask where
  | makeWritable (page : Nat)
  | restoreProtection (page protection : Nat)
  | slotSwap (slot new : Nat)
  | slotCompareExchange (slot expected new : Nat)

abbrev Ask.Answer : Ask → Type
  | .makeWritable _ => Except Error Nat
  | .restoreProtection _ _ => Except Error Unit
  | .slotSwap _ _ => Nat
  | .slotCompareExchange _ _ _ => Except Nat Nat

abbrev Asks (Value : Type) := Dialogue Ask Ask.Answer Value

namespace Asks

/-! ## The source's functions -/

/-- `PageProtector::restore_all` before its result. -/
def restoreLoop : List (Nat × Nat) → Option Error → Asks (Option Error)
  | [], firstError => .done firstError
  | (page, old) :: rest, firstError =>
      .ask (.restoreProtection page old) fun (answer : Except Error Unit) =>
        match answer with
        | .ok _ => restoreLoop rest firstError
        | .error error => restoreLoop rest (firstError.getD error)

def capture : List Nat → List (Nat × Nat) →
    Asks (Except Error PageProtector)
  | [], done => .done (.ok ⟨done⟩)
  | page :: rest, done =>
      .ask (.makeWritable page) fun (answer : Except Error Nat) =>
        match answer with
        | .ok old => capture rest (done ++ [(page, old)])
        | .error error =>
            (restoreLoop done.reverse none).bind fun _ => .done (.error error)

def makeWritable (pageSize : Nat) (slots : List Nat) :
    Asks (Except Error PageProtector) :=
  capture (pagesOf pageSize slots) []

def restore (protector : PageProtector) : Asks (Except Error Unit) :=
  (restoreLoop protector.pages.reverse none).bind fun first =>
    match first with
    | none => .done (.ok ())
    | some error => .done (.error error)

def swapAll : List (Nat × Nat) → Asks (List Nat)
  | [] => .done []
  | (slot, new) :: rest =>
      .ask (.slotSwap slot new) fun (prior : Nat) =>
        (swapAll rest).bind fun priors => .done (prior :: priors)

def apply (pageSize : Nat) (patches : List (Nat × Nat)) :
    Asks (Except Error (List Nat)) :=
  let slots := patches.map Prod.fst
  (makeWritable pageSize slots).bind fun opened =>
    match opened with
    | .error error => .done (.error error)
    | .ok protector =>
        (swapAll patches).bind fun priors =>
          (restore protector).bind fun closed =>
            match closed with
            | .ok _ => .done (.ok priors)
            | .error error =>
                (makeWritable pageSize slots).bind fun reopened =>
                  match reopened with
                  | .ok reprotect =>
                      (swapAll (slots.zip priors)).bind fun _ =>
                        (restore reprotect).bind fun _ =>
                          .done (.error error)
                  | .error _ => .done (.error error)

def exchangeLoop (belongs : Nat → Bool) :
    List InstalledHook → Option Error → Asks (Option Error)
  | [], firstError => .done firstError
  | hook :: rest, firstError =>
      if belongs hook.slot then
        .ask (.slotCompareExchange hook.slot hook.replacement
            hook.priorValue) fun (answer : Except Nat Nat) =>
          match answer with
          | .ok _ => exchangeLoop belongs rest firstError
          | .error found =>
              if found = hook.priorValue then
                exchangeLoop belongs rest firstError
              else
                exchangeLoop belongs rest
                  (firstError.getD
                    (.restoreConflict hook.slot hook.replacement found))
      else exchangeLoop belongs rest firstError

/-- `HookGuard::restore` of an active guard in a module that is loaded. -/
def restoreHooks (pageSize : Nat) (belongs : Nat → Bool)
    (hooks : List InstalledHook) : Asks (Except Error Unit) :=
  (makeWritable pageSize (hooks.map (·.slot))).bind fun opened =>
    match opened with
    | .error error => .done (.error error)
    | .ok protector =>
        (exchangeLoop belongs hooks none).bind fun firstError =>
          (restore protector).bind fun closed =>
            match closed with
            | .ok _ =>
                .done (match firstError with
                  | none => .ok ()
                  | some error => .error error)
            | .error error => .done (.error (firstError.getD error))

end Asks

/-! ## Over `Sys` -/

def Sys.serve (sys : Sys) : (ask : Ask) → Machine → ask.Answer × Machine
  | .makeWritable page, machine => sys.makeWritable page machine
  | .restoreProtection page protection, machine =>
      sys.restoreProtection page protection machine
  | .slotSwap slot new, machine => machine.slotSwap slot new
  | .slotCompareExchange slot expected new, machine =>
      machine.slotCompareExchange slot expected new

namespace Asks

variable (sys : Sys)

theorem run_restoreLoop (pages : List (Nat × Nat)) :
    ∀ (firstError : Option Error) (machine : Machine),
      (restoreLoop pages firstError).run sys.serve machine =
        PageProtector.restoreLoop sys pages firstError machine := by
  induction pages with
  | nil =>
      intro firstError machine
      rfl
  | cons entry rest inductionHypothesis =>
      intro firstError machine
      obtain ⟨page, old⟩ := entry
      unfold restoreLoop PageProtector.restoreLoop
      rw [Dialogue.run_ask]
      simp only [Sys.serve]
      cases answered : sys.restoreProtection page old machine with
      | mk answer next =>
          cases answer with
          | ok value =>
              exact inductionHypothesis firstError next
          | error error =>
              exact inductionHypothesis (firstError.getD error) next

end Asks

end Hookfs.Plthook
