import Automat.Failure
import Automat.Vending.Context

/-!
Displays of the vending machine. A display is called through four hooks, acts on the outside world
and may panic after having acted.
-/

namespace Automat.Vending

inductive Hook where
  | showDispensing (item : Option Item)
  | showReturning (change : UInt64)
  | dispenseItem (item : Item)
  | dispenseChange (amount : UInt64)
deriving DecidableEq

/-- A display: what a call of a hook does to the world, and how it gives up, if it does. -/
abbrev Display (W : Type) := Hook → W → W × Option Fault

def Display.blank {W : Type} : Display W := fun _ world => (world, none)

def dispensingMessage (item : Option Item) : String :=
  let name := match item with
    | some item => item.name
    | none => "item"
  s!"Dispensing {name}... Please wait."

def returningMessage (change : UInt64) : String :=
  if 0 < change then
    let amount := change.toNat
    s!"Returning change: Rp{amount}. Thank you!"
  else "Transaction complete. Thank you!"

end Automat.Vending
