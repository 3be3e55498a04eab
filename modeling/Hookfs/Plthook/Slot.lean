import Hookfs.Lib.Text
import Mathlib.Logic.Function.Basic
import Mathlib.Data.List.Nodup

/-!
# The patch transaction of `plthook`

The platform-independent part of the import-rebinding engine: resolve every
slot first, make the pages writable, swap the pointers, put the protections
back, and undo everything on failure.  A guard restores its slots by
compare-exchange.

The process is seen as pointer cells plus one protection word per page.  The
two protection primitives of `sys` are numbered calls of which any may fail;
a failed call changes nothing.
-/

namespace Hookfs.Plthook

open Hookfs.Lib

/-! ## Values -/

/-- An imported symbol, by name or by ordinal. -/
inductive Symbol where
  | name (name : Text)
  | ordinal (ordinal : Nat)
  deriving DecidableEq, Repr

namespace Symbol

/-- A name never matches an ordinal. -/
def «matches» : Symbol → Symbol → Bool
  | .name left, .name right => left = right
  | .ordinal left, .ordinal right => left = right
  | _, _ => false

/-- Human-readable form for diagnostics. -/
def describe : Symbol → Text
  | .name text => text
  | .ordinal index => '#' :: Nat.toDigits 10 index

end Symbol

inductive ImportKind where
  | standard
  | delayLoad
  deriving DecidableEq, Repr

/-- The engine's errors that the transaction can return. -/
inductive Error where
  /-- `Module::imports` could not parse the image. -/
  | malformed (what : Text)
  | symbolNotFound (module symbol : Text)
  | originalUnresolved (module library symbol : Text)
  | authenticatedSlot (module symbol : Text)
  | protect (slot osError : Nat)
  | restoreConflict (slot expected found : Nat)
  deriving DecidableEq, Repr

/-- One import slot discovered in a module.  The observed symbol version is
informational and left out. -/
structure ImportSlot where
  library : Text
  symbol : Option Symbol
  address : Nat
  kind : ImportKind
  authenticated : Bool
  deriving DecidableEq, Repr

/-- A requested slot replacement. -/
structure Replacement where
  library : Option (List UInt8)
  symbol : Symbol
  replacement : Nat
  required : Bool
  deriving DecidableEq, Repr

/-- A loaded module: its name, its base, and what parsing its import tables
gives. -/
structure Module where
  name : Text
  base : Nat
  imports : Except Error (List ImportSlot)

/-- Enough of an installed hook to restore it and to hand out the original. -/
structure InstalledHook where
  library : Text
  symbol : Symbol
  slot : Nat
  original : Nat
  priorValue : Nat
  replacement : Nat
  deriving DecidableEq, Repr

/-- RAII owner of a set of installed hooks. -/
structure HookGuard where
  moduleBase : Nat
  hooks : List InstalledHook
  active : Bool
  deriving DecidableEq, Repr

structure PendingHook where
  library : Text
  symbol : Symbol
  slot : Nat
  original : Nat
  replacement : Nat
  deriving DecidableEq, Repr

/-! ## The process and its system calls -/

/-- Pointer cells by address, protections by page start, and the number of
protection calls made so far. -/
@[ext]
structure Machine where
  slot : Nat → Nat
  protection : Nat → Nat
  calls : Nat

/-- The platform below the transaction (`crate::sys`). -/
structure Sys where
  pageSize : Nat
  /-- The protection `make_writable` leaves on a page that had the given one:
  read/write on Windows, the given one with read and write added elsewhere. -/
  raised : Nat → Nat
  /-- Which protection calls fail, and the OS error they report. -/
  fails : Nat → Bool
  osError : Nat → Nat
  moduleStillLoaded : Nat → Bool
  slotBelongsToModule : Nat → Nat → Bool
  resolveOriginal : ImportKind → Text → Symbol → Nat → Option Nat

namespace Sys

/-- `sys::make_writable`: returns the protection the page had. -/
def makeWritable (sys : Sys) (page : Nat) (machine : Machine) :
    Except Error Nat × Machine :=
  if sys.fails machine.calls then
    (.error (.protect page (sys.osError machine.calls)),
      { machine with calls := machine.calls + 1 })
  else
    (.ok (machine.protection page),
      { machine with
        protection := Function.update machine.protection page
          (sys.raised (machine.protection page))
        calls := machine.calls + 1 })

def restoreProtection (sys : Sys) (page protection : Nat)
    (machine : Machine) : Except Error Unit × Machine :=
  if sys.fails machine.calls then
    (.error (.protect page (sys.osError machine.calls)),
      { machine with calls := machine.calls + 1 })
  else
    (.ok (),
      { machine with
        protection := Function.update machine.protection page protection
        calls := machine.calls + 1 })

end Sys

/-- Width in bytes of an import slot. -/
def ptrSize : Nat := 8

namespace Machine

/-- `slot_swap`: the previous value, and the machine with the new one. -/
def slotSwap (machine : Machine) (slot new : Nat) : Nat × Machine :=
  (machine.slot slot,
    { machine with slot := Function.update machine.slot slot new })

def slotCompareExchange (machine : Machine) (slot expected new : Nat) :
    Except Nat Nat × Machine :=
  if machine.slot slot = expected then
    (.ok expected,
      { machine with slot := Function.update machine.slot slot new })
  else
    (.error (machine.slot slot), machine)

end Machine

/-! ## Page protection -/

/-- `address & !(page_size - 1)`: the page size is a power of two. -/
def pageStart (pageSize address : Nat) : Nat :=
  address - address % pageSize

/-- The inner loop of `PageProtector::make_writable`: record `page`, stop at
`last`, go on with the next page. -/
def spanLoop (pageSize last : Nat) : Nat → Nat → List Nat → List Nat
  | 0, _, pages => pages
  | fuel + 1, page, pages =>
      let recorded := if page ∈ pages then pages else pages ++ [page]
      if page = last then recorded
      else spanLoop pageSize last fuel (saturatingAdd page pageSize) recorded

/-- The pages one slot spans, appended to those already collected. -/
def spanPages (pageSize slot : Nat) (pages : List Nat) : List Nat :=
  let first := pageStart pageSize slot
  let last := pageStart pageSize (saturatingAdd slot (ptrSize - 1))
  spanLoop pageSize last ((last - first) / pageSize + 1) first pages

/-- Every page spanned by the slots, each once, in order of discovery. -/
def pagesOf (pageSize : Nat) (slots : List Nat) : List Nat :=
  slots.foldl (fun pages slot => spanPages pageSize slot pages) []

/-- A batch of protection changes: `(page, original protection)` in the order
the pages were made writable. -/
structure PageProtector where
  pages : List (Nat × Nat)

namespace PageProtector

/-- Put captured protections back one call at a time and keep the first
error. -/
def restoreLoop (sys : Sys) :
    List (Nat × Nat) → Option Error → Machine → Option Error × Machine
  | [], firstError, machine => (firstError, machine)
  | (page, old) :: rest, firstError, machine =>
      match sys.restoreProtection page old machine with
      | (.ok _, next) => restoreLoop sys rest firstError next
      | (.error error, next) =>
          restoreLoop sys rest (firstError.getD error) next

/-- Capture the pages one by one; on an error put back what was captured and
ignore what those calls answer. -/
def capture (sys : Sys) :
    List Nat → List (Nat × Nat) → Machine →
      Except Error PageProtector × Machine
  | [], done, machine => (.ok ⟨done⟩, machine)
  | page :: rest, done, machine =>
      match sys.makeWritable page machine with
      | (.ok old, next) => capture sys rest (done ++ [(page, old)]) next
      | (.error error, next) =>
          (.error error, (restoreLoop sys done.reverse none next).2)

def makeWritable (sys : Sys) (slots : List Nat) (machine : Machine) :
    Except Error PageProtector × Machine :=
  capture sys (pagesOf sys.pageSize slots) [] machine

def restore (sys : Sys) (protector : PageProtector) (machine : Machine) :
    Except Error Unit × Machine :=
  match restoreLoop sys protector.pages.reverse none machine with
  | (none, next) => (.ok (), next)
  | (some error, next) => (.error error, next)

end PageProtector

/-! ## Applying patches -/

/-- The swap loop: the values found, and the machine after it. -/
def swapAll : List (Nat × Nat) → Machine → List Nat × Machine
  | [], machine => ([], machine)
  | (slot, new) :: rest, machine =>
      let (prior, next) := machine.slotSwap slot new
      let (priors, last) := swapAll rest next
      (prior :: priors, last)

/-- `apply`: the writes of one transaction, or nothing. -/
def apply (sys : Sys) (patches : List (Nat × Nat)) (machine : Machine) :
    Except Error (List Nat) × Machine :=
  let slots := patches.map Prod.fst
  match PageProtector.makeWritable sys slots machine with
  | (.error error, opened) => (.error error, opened)
  | (.ok protector, opened) =>
      let (priors, swapped) := swapAll patches opened
      match protector.restore sys swapped with
      | (.ok _, closed) => (.ok priors, closed)
      | (.error error, closed) =>
          -- defensive rollback: undo the swaps, best-effort re-restore
          match PageProtector.makeWritable sys slots closed with
          | (.ok reprotect, reopened) =>
              let (_, undone) := swapAll (slots.zip priors) reopened
              (.error error, (reprotect.restore sys undone).2)
          | (.error _, reopened) => (.error error, reopened)

/-! ## Restoring a guard -/

namespace HookGuard

/-- The compare-exchange loop of `HookGuard::restore`. -/
def exchangeLoop (sys : Sys) (moduleBase : Nat) :
    List InstalledHook → Option Error → Machine → Option Error × Machine
  | [], firstError, machine => (firstError, machine)
  | hook :: rest, firstError, machine =>
      if sys.slotBelongsToModule hook.slot moduleBase then
        match machine.slotCompareExchange hook.slot hook.replacement
            hook.priorValue with
        | (.ok _, next) => exchangeLoop sys moduleBase rest firstError next
        | (.error found, next) =>
            if found = hook.priorValue then
              exchangeLoop sys moduleBase rest firstError next
            else
              exchangeLoop sys moduleBase rest
                (firstError.getD
                  (.restoreConflict hook.slot hook.replacement found)) next
      else
        exchangeLoop sys moduleBase rest firstError machine

/-- `HookGuard::restore`, shared by `uninstall` and `Drop`.  The guard comes
back inactive whatever happens. -/
def restore (sys : Sys) (guard : HookGuard) (machine : Machine) :
    Except Error Unit × HookGuard × Machine :=
  if guard.active then
    let spent := { guard with active := false }
    if guard.hooks.isEmpty then
      (.ok (), spent, machine)
    else if sys.moduleStillLoaded guard.moduleBase then
      match PageProtector.makeWritable sys (guard.hooks.map (·.slot))
          machine with
      | (.error error, opened) => (.error error, spent, opened)
      | (.ok protector, opened) =>
          let (firstError, exchanged) :=
            exchangeLoop sys guard.moduleBase guard.hooks none opened
          match protector.restore sys exchanged with
          | (.ok _, closed) =>
              (match firstError with
                | none => .ok ()
                | some error => .error error, spent, closed)
          | (.error error, closed) =>
              (.error (firstError.getD error), spent, closed)
    else
      -- the module has unloaded: leak the patch state
      (.ok (), spent, machine)
  else
    (.ok (), guard, machine)

end HookGuard

/-! ## Installing -/

/-- `library_matches`: no filter matches any library. -/
def libraryMatches (filter : Option (List UInt8)) (actual : Text) : Bool :=
  match filter with
  | none => true
  | some wanted => Text.eqIgnoreAsciiCase wanted actual.utf8

def ImportSlot.matchReplacement (slot : ImportSlot)
    (replacement : Replacement) : Option Symbol :=
  match slot.symbol with
  | none => none
  | some symbol =>
      if libraryMatches replacement.library slot.library then
        if symbol.matches replacement.symbol then some symbol else none
      else none

/-- The loop over the imports for one replacement.  The state is whether one
of them matched, and the hooks pending so far. -/
def pendImports (sys : Sys) (machine : Machine) (moduleName : Text)
    (replacement : Replacement) :
    List ImportSlot → Bool → List PendingHook →
      Except Error (Bool × List PendingHook)
  | [], matched, pending => .ok (matched, pending)
  | slot :: rest, matched, pending =>
      match slot.matchReplacement replacement with
      | none =>
          pendImports sys machine moduleName replacement rest matched pending
      | some symbol =>
          if slot.authenticated then
            .error (.authenticatedSlot moduleName symbol.describe)
          else if pending.any (·.slot = slot.address) then
            pendImports sys machine moduleName replacement rest true pending
          else
            match sys.resolveOriginal slot.kind slot.library symbol
                (machine.slot slot.address) with
            | some original =>
                pendImports sys machine moduleName replacement rest true
                  (pending ++ [{
                    library := slot.library
                    symbol := symbol
                    slot := slot.address
                    original := original
                    replacement := replacement.replacement }])
            | none =>
                if replacement.required then
                  .error (.originalUnresolved moduleName slot.library
                    symbol.describe)
                else
                  pendImports sys machine moduleName replacement rest true
                    pending

/-- The loop over the replacements. -/
def pendAll (sys : Sys) (machine : Machine) (moduleName : Text)
    (imports : List ImportSlot) :
    List Replacement → List PendingHook → Except Error (List PendingHook)
  | [], pending => .ok pending
  | replacement :: rest, pending =>
      match pendImports sys machine moduleName replacement imports false
          pending with
      | .error error => .error error
      | .ok (matched, next) =>
          if !matched && replacement.required then
            .error (.symbolNotFound moduleName replacement.symbol.describe)
          else
            pendAll sys machine moduleName imports rest next

/-- A pending hook together with the value its slot held. -/
def InstalledHook.ofPending (pending : PendingHook) (priorValue : Nat) :
    InstalledHook where
  library := pending.library
  symbol := pending.symbol
  slot := pending.slot
  original := pending.original
  priorValue := priorValue
  replacement := pending.replacement

/-- `install`: every target slot is resolved before the first write. -/
def install (sys : Sys) (module : Module) (replacements : List Replacement)
    (machine : Machine) : Except Error HookGuard × Machine :=
  match module.imports with
  | .error error => (.error error, machine)
  | .ok imports =>
      match pendAll sys machine module.name imports replacements [] with
      | .error error => (.error error, machine)
      | .ok [] => (.ok ⟨module.base, [], true⟩, machine)
      | .ok pending =>
          match apply sys (pending.map fun hook =>
              (hook.slot, hook.replacement)) machine with
          | (.error error, failed) => (.error error, failed)
          | (.ok priors, patched) =>
              (.ok ⟨module.base,
                pending.zipWith InstalledHook.ofPending priors, true⟩,
                patched)

end Hookfs.Plthook
