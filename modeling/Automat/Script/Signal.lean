import Automat.Event
import Automat.Script.Condition

/-!
A plain family of machines for scripts: states are texts, events are signals with a free kind and
an optional value, and the context is a log with a counter.
-/

namespace Automat.Script

structure Signal where
  kind : String
  value : Option Int := none
  timer : Option TimerId := none
  malformed : Bool := false
deriving DecidableEq

instance : EventLike Signal String where
  kind := Signal.kind
  isWellFormed signal := !signal.malformed
  elapsedTimer? := Signal.timer
  ofTimer timer := { kind := "Timer", timer := some timer }

instance : LawfulEventLike Signal where
  isWellFormed_ofTimer _ := rfl
  elapsedTimer?_ofTimer _ := rfl

/-- The fields of a signal, of which only the kind is needed. -/
def Signal.shape : Json.Shape where
  fields := ["kind", "value", "timer", "malformed"]
  shortArrays := true

/-- A signal that has nothing but a kind may be written as that kind alone. -/
instance : Coded Signal where
  encode signal := .record
    [("kind", encode signal.kind), ("value", (signal.value.map Json.int).getD .null),
      ("timer", encode signal.timer), ("malformed", encode signal.malformed)]
  decode
    | .string kind => kind.map fun kind => { kind := kind }
    | j => do
      match ← Signal.shape.slots? j with
      | [some kind, value, timer, malformed] =>
        let value : Option Int64 ← Json.field? value
        some ⟨← decode kind, value.map Int64.toInt, ← Json.field? timer,
          ← Json.fieldD false malformed⟩
      | _ => none

structure Tally where
  log : List String := []
  count : Int := 0
deriving DecidableEq

namespace Tally

def shape : Json.Shape := { fields := ["log", "count"], shortArrays := true }

/-- Both fields may be left out or `null`. -/
instance : Coded Tally where
  encode tally := .record
    [("log", encode tally.log), ("count", .int tally.count)]
  decode j := do
    match ← shape.slots? j with
    | [log, count] =>
      let log : Option (List String) ← Json.field? log
      let count : Option Int64 ← Json.field? count
      some ⟨log.getD [], (count.map Int64.toInt).getD 0⟩
    | _ => none

/-- Tests of a tally and the signal. -/
inductive Test where
  | countAtLeast (n : Int)
  | countIs (n : Int)
  /-- No signal or no value counts as not enough. -/
  | valueAtLeast (n : Int)
  | logHas (text : String)

inductive Assignment where
  | log (text : String)
  | logEvent
  | clearLog
  | set (n : Int)
  | add (n : Int)
  | addValue

def fits (n : Int) : Bool := Int64.minValue.toInt ≤ n && n ≤ Int64.maxValue.toInt

def add (n : Int) (tally : Tally) : Except Fault Tally :=
  if fits (tally.count + n) then .ok { tally with count := tally.count + n }
  else .error (.error "count overflow")

def line (signal : Option Signal) (tally : Tally) : String :=
  let kind := match signal with
    | some signal => signal.kind
    | none => "<none>"
  s!"{kind}:{tally.count}"

def append (text : String) (tally : Tally) : Tally := { tally with log := tally.log ++ [text] }

instance : Vocabulary Signal Tally Test Assignment where
  test
    | .countAtLeast n, _, tally => n ≤ tally.count
    | .countIs n, _, tally => tally.count = n
    | .valueAtLeast n, signal, _ =>
      match signal >>= Signal.value with
      | some value => n ≤ value
      | none => false
    | .logHas text, _, tally => tally.log.contains text
  assign
    | .log text, _, tally => .ok (tally.append text)
    | .logEvent, signal, tally => .ok (tally.append (tally.line signal))
    | .clearLog, _, tally => .ok { tally with log := [] }
    | .set n, _, tally => .ok { tally with count := n }
    | .add n, _, tally => tally.add n
    | .addValue, signal, tally => tally.add ((signal >>= Signal.value).getD 0)
  line signal tally := tally.line signal

end Tally

end Automat.Script
