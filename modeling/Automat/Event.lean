import Automat.Json.Coded

/-!
What a machine asks of its states, event kinds and events. States and kinds have names. An event
has a kind, may be malformed, and may report that a timer has run out; events of the latter sort
are made by the machine itself.
-/

namespace Automat

/-- The identity of a timer: the number of timers armed up to and including it. -/
structure TimerId where
  generation : UInt64
deriving DecidableEq

namespace TimerId

def text (id : TimerId) : String := "timer#" ++ toString id.generation.toNat

instance : Coded TimerId where
  encode id := encode id.generation
  decode j := (decode j).map TimerId.mk

instance : LawfulCoded TimerId where
  decode_encode id := by
    show (decode (encode id.generation)).map TimerId.mk = some id
    simp

end TimerId

/-- Things that reports mention by name. -/
class Named (α : Type) where
  name : α → String

export Named (name)

instance : Named String := ⟨id⟩

/-- Events of the type `E`, with kinds of the type `K`. -/
class EventLike (E : Type) (K : outParam Type) where
  kind : E → K
  /-- A malformed event is ignored in every state. -/
  isWellFormed : E → Bool
  /-- The timer whose end the event reports. -/
  elapsedTimer? : E → Option TimerId
  /-- The event that reports the end of a timer. -/
  ofTimer : TimerId → E

/-- The machine's own reports of ended timers are well formed and name their timer. -/
class LawfulEventLike (E : Type) {K : Type} [EventLike E K] : Prop where
  isWellFormed_ofTimer (id : TimerId) : EventLike.isWellFormed (EventLike.ofTimer id : E) = true
  elapsedTimer?_ofTimer (id : TimerId) :
    EventLike.elapsedTimer? (EventLike.ofTimer id : E) = some id

end Automat
