import Automat.Json.Coded
import Automat.Timestamp.Parser
import Automat.Timestamp.Printer

/-!
The history of a machine: its last committed changes of state, at most `limit` of them, the oldest
first. A history may hold more than its limit when it was read from outside; the next record
brings it down.
-/

namespace Automat

instance : Coded Timestamp where
  encode t := .text t.text
  decode j := do Timestamp.parse? (← j.toText?)

/-- One committed change of state: the kind of event by name, the wall clock and the machine
clock. -/
structure Transition (S : Type) where
  source : S
  target : S
  event : String
  timestamp : Timestamp
  time : Duration
deriving DecidableEq

structure History (S : Type) where
  transitions : List (Transition S)
  limit : UInt64
deriving DecidableEq

namespace History

variable {S : Type}

def defaultLimit : UInt64 := 64

def withLimit (limit : UInt64) : History S := ⟨[], limit⟩

/-- Appends a record after dropping the oldest ones until there is room for it. A history of
limit zero stays as it is. -/
def record (transition : Transition S) (history : History S) : History S :=
  if history.limit.toNat = 0 then history
  else
    let excess := history.transitions.length + 1 - history.limit.toNat
    { history with transitions := history.transitions.drop excess ++ [transition] }

def path (history : History S) : List S :=
  (history.transitions.head?.map (·.source)).toList ++ history.transitions.map (·.target)

def last? (history : History S) : Option (Transition S) := history.transitions.getLast?

def duration? (history : History S) : Option Duration := do
  some ((← history.last?).time - (← history.transitions.head?).time)

@[simp]
theorem limit_record (transition : Transition S) (history : History S) :
    (history.record transition).limit = history.limit := by
  unfold record
  split <;> rfl

/-- A recording history never holds more than its limit. -/
theorem length_record_le (transition : Transition S) (history : History S)
    (h : history.limit.toNat ≠ 0) :
    (history.record transition).transitions.length ≤ history.limit.toNat := by
  simp only [record, h, if_false, List.length_append, List.length_drop, List.length_singleton]
  omega

end History

/-! ## JSON -/

def Transition.shape : Json.Shape := { fields := ["from", "to", "event", "timestamp", "at"] }

def History.shape : Json.Shape := { fields := ["transitions", "limit"] }

variable {S : Type} [Coded S]

instance : Coded (Transition S) where
  encode t := .record
    [("from", encode t.source), ("to", encode t.target), ("event", encode t.event),
      ("timestamp", encode t.timestamp), ("at", encode t.time)]
  decode j := do
    match ← Transition.shape.slots? j with
    | [some source, some target, some event, some timestamp, some time] =>
      some ⟨← decode source, ← decode target, ← decode event, ← decode timestamp, ← decode time⟩
    | _ => none

instance : Coded (History S) where
  encode h := .record [("transitions", encode h.transitions), ("limit", encode h.limit)]
  decode j := do
    match ← History.shape.slots? j with
    | [some transitions, some limit] => some ⟨← decode transitions, ← decode limit⟩
    | _ => none

end Automat
