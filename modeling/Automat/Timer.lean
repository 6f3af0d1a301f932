import Automat.Event
import Automat.Duration

/-!
The timer behind a delayed transition. At most one timer is armed. It belongs to one visit of a
state, and its id comes up again only after `2 ^ 64` others, so a report that a timer has run out can
be matched against the timer that is live now. A timer is live once it has fired, until it is
replaced or cancelled.
-/

namespace Automat

/-- An armed timer. `visit` counts the states entered up to the one that owns it. -/
structure Timer (S : Type) where
  id : TimerId
  owner : S
  visit : Nat
  due : Duration
  fired : Bool
deriving DecidableEq

/-- The armed timer, if there is one, and how many have been armed so far. -/
structure Timers (S : Type) where
  issued : Nat
  armed : Option (Timer S)
deriving DecidableEq

namespace Timers

variable {S : Type}

def empty : Timers S := ⟨0, none⟩

/-- The id of the next timer: ids count up from one. -/
def nextId (timers : Timers S) : TimerId := ⟨UInt64.ofNat (timers.issued + 1)⟩

def arm (owner : S) (visit : Nat) (now delay : Duration) (timers : Timers S) : Timers S where
  issued := timers.issued + 1
  armed := some ⟨timers.nextId, owner, visit, now + delay, false⟩

def cancel (timers : Timers S) : Timers S := { timers with armed := none }

/-- When the next timer fires: that of the armed timer, unless it has fired. -/
def nextDue? (timers : Timers S) : Option Duration :=
  match timers.armed with
  | some timer => if timer.fired then none else some timer.due
  | none => none

/-- Fires the armed timer if it is due and has not fired. -/
def fire? (now : Duration) (timers : Timers S) : Option (TimerId × Timers S) :=
  match timers.armed with
  | some timer =>
    if timer.fired ∨ now < timer.due then none
    else some (timer.id, { timers with armed := some { timer with fired := true } })
  | none => none

/-- Whether the id is that of the armed timer, fired, in this visit. -/
def isLive (id : TimerId) (visit : Nat) (timers : Timers S) : Bool :=
  match timers.armed with
  | some timer => timer.fired && timer.id = id && timer.visit = visit
  | none => false

@[simp]
theorem nextDue?_cancel (timers : Timers S) : timers.cancel.nextDue? = none := rfl

@[simp]
theorem isLive_cancel (id : TimerId) (visit : Nat) (timers : Timers S) :
    timers.cancel.isLive id visit = false := rfl

@[simp]
theorem nextDue?_arm (owner : S) (visit : Nat) (now delay : Duration) (timers : Timers S) :
    (timers.arm owner visit now delay).nextDue? = some (now + delay) := rfl

end Timers

end Automat
