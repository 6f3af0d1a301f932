import Automat.Json.Basic

/-!
The world that scripted actions and guards act on: a list of effects, and how often each step that
is to fail at first has been tried.
-/

namespace Automat.Script

/-- A step of a scripted action: the index of the action and that of the step in it. -/
abbrev Place := Nat × Nat

/-- Effects, the newest first, and the number of tries by place. -/
structure World where
  effects : List Json
  tries : List (Place × Nat)

namespace World

def empty : World := ⟨[], []⟩

def emit (effect : Json) (world : World) : World :=
  { world with effects := effect :: world.effects }

def triesOf (place : Place) (world : World) : Nat := (world.tries.lookup place).getD 0

def countTry (place : Place) (world : World) : World :=
  { world with
    tries := (place, world.triesOf place + 1) :: world.tries.filter fun entry => entry.1 ≠ place }

def takeEffects (world : World) : List Json × World :=
  (world.effects.reverse, { world with effects := [] })

end World

end Automat.Script
