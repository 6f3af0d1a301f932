import Automat.Failure
import Automat.Duration

/-!
What a machine tells about each processed event: the outcome, and the machine right after it.
-/

namespace Automat

/-- What became of an event. -/
inductive Outcome (S : Type) where
  /-- The machine entered its initial state; there was no event. -/
  | started
  /-- The machine moved to another state. -/
  | transitioned (source target : S)
  /-- A rule was carried out and the state stayed. -/
  | handled
  /-- There is no rule for the event, or it is malformed. -/
  | ignored
  /-- The guard of the rule said no. -/
  | guardRejected (guard : String)
  /-- A guard or an action failed, and nothing was changed. -/
  | failed (failure : Failure)
deriving DecidableEq

/-- The machine after an event was processed; `event` is `none` only for the start. -/
structure Snapshot (S C E : Type) where
  state : S
  previous : Option S
  context : C
  event : Option E
  outcome : Outcome S
  visit : Nat
  time : Duration

def Outcome.isTransition {S : Type} : Outcome S → Bool
  | .transitioned _ _ => true
  | _ => false

def Snapshot.changed {S C E : Type} (snapshot : Snapshot S C E) : Bool :=
  snapshot.outcome.isTransition

/-! ## JSON -/

namespace Outcome

def transitionShape : Json.Shape := { fields := ["from", "to"] }

def guardShape : Json.Shape := { fields := ["guard"] }

instance {S : Type} [Coded S] : Coded (Outcome S) where
  encode
    | .started => .text "Started"
    | .transitioned source target =>
      .variant "Transitioned" (.record [("from", encode source), ("to", encode target)])
    | .handled => .text "Handled"
    | .ignored => .text "Ignored"
    | .guardRejected guard => .variant "GuardRejected" (.record [("guard", .text guard)])
    | .failed failure => .variant "Failed" (encode failure)
  decode j := do
    match ← j.variant? with
    | ("Started", value) => if Json.isUnit value then some .started else none
    | ("Handled", value) => if Json.isUnit value then some .handled else none
    | ("Ignored", value) => if Json.isUnit value then some .ignored else none
    | ("Transitioned", some value) =>
      match ← transitionShape.slots? value with
      | [some source, some target] => some (.transitioned (← decode source) (← decode target))
      | _ => none
    | ("GuardRejected", some value) =>
      match ← guardShape.slots? value with
      | [some guard] => some (.guardRejected (← guard.toText?))
      | _ => none
    | ("Failed", some value) => (decode value).map .failed
    | _ => none

end Outcome

end Automat
