import Automat.Json.Coded

/-!
What goes wrong while a machine runs. A fault is how one action or guard gave up; a failure is
the machine's report of it, with the names of everything involved. `StartError` says why a
machine did not start.
-/

namespace Automat

/-- How an action, a guard or a display gave up: with an error message, or by a panic whose
payload may be something other than a text. -/
inductive Fault where
  | error (message : String)
  | panic (message : String)
  | panicOther
deriving DecidableEq

def Fault.message : Fault → String
  | .error message => message
  | .panic message => message
  | .panicOther => "panicked with a non-string payload"

/-- The machine's report that a guard or an action failed, or is not known. -/
inductive Failure where
  | guard (name state event message : String)
  | action (name state event message : String)
  | unknownAction (name : String)
  | unknownGuard (name : String)
deriving DecidableEq

namespace Failure

def message : Failure → String
  | .guard name state event message =>
    s!"Guard '{name}' failed in state '{state}' on {event}: {message}"
  | .action name state event message =>
    s!"Action '{name}' failed in state '{state}' on {event}: {message}"
  | .unknownAction name => s!"Action '{name}' has no implementation"
  | .unknownGuard name => s!"Guard '{name}' has no implementation"

def guardShape : Json.Shape := { fields := ["guard", "state", "event", "message"] }

def actionShape : Json.Shape := { fields := ["action", "state", "event", "message"] }

/-- Four texts in the fields of a record. -/
def readTexts (shape : Json.Shape) (make : String → String → String → String → Failure)
    (j : Json) : Option Failure := do
  match ← shape.slots? j with
  | [some a, some b, some c, some d] =>
    some (make (← a.toText?) (← b.toText?) (← c.toText?) (← d.toText?))
  | _ => none

instance : Coded Failure where
  encode
    | .guard name state event message => .variant "GuardEvaluationFailure" (.record
        [("guard", .text name), ("state", .text state), ("event", .text event),
          ("message", .text message)])
    | .action name state event message => .variant "ActionFailure" (.record
        [("action", .text name), ("state", .text state), ("event", .text event),
          ("message", .text message)])
    | .unknownAction name => .variant "UnknownAction" (.text name)
    | .unknownGuard name => .variant "UnknownGuard" (.text name)
  decode j := do
    match ← j.variant? with
    | ("GuardEvaluationFailure", some value) => readTexts guardShape .guard value
    | ("ActionFailure", some value) => readTexts actionShape .action value
    | ("UnknownAction", some value) => (value.toText?).map .unknownAction
    | ("UnknownGuard", some value) => (value.toText?).map .unknownGuard
    | _ => none

end Failure

/-- Why a machine did not start. -/
inductive StartError where
  | alreadyStarted (id : String)
  | entry (failure : Failure)
deriving DecidableEq

namespace StartError

def message : StartError → String
  | .alreadyStarted id => s!"Machine '{id}' was already started"
  | .entry failure => s!"Machine could not enter its initial state: {failure.message}"

def cause? : StartError → Option Failure
  | .alreadyStarted _ => none
  | .entry failure => some failure

end StartError

end Automat
