import Automat.Machine
import Automat.Text.Basic
import Automat.Text.Quoted

/-!
Short texts that show a machine and its parts in logs. The machine's own identity is drawn anew for
each machine and stands as `<id>`. A duration is shown in the largest unit that does not leave zero
in front of the point, with the exact fraction without zeros at its end.
-/

namespace Automat

open Text

/-- A number of units with `places` decimal places, of which only the needed ones are written. -/
def Duration.unitText (whole fraction places : Nat) (unit : String) : String :=
  let digits := dropTrailingZeros (padded places fraction)
  let point := if digits.isEmpty then [] else '.' :: digits
  String.ofList (Nat.toDigits 10 whole ++ point) ++ unit

def Duration.text (d : Duration) : String :=
  if d.total ≥ nanosPerSecond then unitText (d.total / nanosPerSecond) d.subsecond 9 "s"
  else if d.total ≥ 1000000 then unitText (d.total / 1000000) (d.total % 1000000) 6 "ms"
  else if d.total ≥ 1000 then unitText (d.total / 1000) (d.total % 1000) 3 "µs"
  else unitText d.total 0 0 "ns"

/-- A run of the machine at a glance. -/
def Machine.text {S K E C W O : Type} [Named S] (m : Machine S K E C W) (run : Run S E C W O) :
    String :=
  let definition := quoted m.definition.id
  let status := run.status.name
  let state := name run.state
  let now := run.now.text
  s!"Interpreter \x7b id: <id>, definition: {definition}, status: {status}, state: {state}, " ++
    s!"instance: {run.visit}, now: {now}, .. \x7d"

def subscriptionText (id : Nat) : String := s!"Subscription \x7b id: {id} \x7d"

/-- Code shows nothing of itself. -/
def guardText : String := "Guard \x7b .. \x7d"

def actionText : String := "Action \x7b .. \x7d"

end Automat
