import Hookfs.Lib.Checked
import Hookfs.Plthook.Slot

/-!
# Raw imports

The record that the ELF, PE and Mach-O walkers of `plthook` produce for an
imported symbol, and the errors of parsing.  A raw read of the process's
memory is a trap unless it stays inside what is mapped.
-/

namespace Hookfs.Plthook

open Hookfs.Lib

/-- One parsed import. -/
structure RawImport where
  library : Text
  symbol : Option Symbol
  version : Option Text
  slot : Nat
  kind : ImportKind
  authenticated : Bool
  deriving DecidableEq, Repr

/-- `Error`, as far as parsing returns it. -/
inductive ParseError where
  | malformed (reason : String)
  | unsupported (reason : String)
  deriving DecidableEq, Repr

abbrev Parse := Checked ParseError

def malformed {Value : Type} (reason : String) : Parse Value :=
  .fail (.malformed reason)

def unsupported {Value : Type} (reason : String) : Parse Value :=
  .fail (.unsupported reason)

theorem malformed_ne_ok {Value : Type} (reason : String) (value : Value) :
    (malformed reason : Parse Value) ≠ .ok value := by
  intro impossible
  cases impossible

/-- The bytes at `[address, address + len)`. -/
def bytesAt (memory : Nat → UInt8) (address len : Nat) : List UInt8 :=
  (List.range len).map fun offset => memory (address + offset)

theorem length_bytesAt (memory : Nat → UInt8) (address len : Nat) :
    (bytesAt memory address len).length = len := by
  unfold bytesAt
  rw [List.length_map, List.length_range]

end Hookfs.Plthook
