import Automat.Audience
import Automat.History
import Automat.Snapshot
import Automat.Timer

/-!
Everything that changes while a machine runs. The journal holds all published snapshots, the
newest first; the world of actions and guards is part of the run but is never rolled back.
-/

namespace Automat

inductive Status where
  | notStarted
  | running
  /-- Stopped for good. -/
  | stopped
deriving DecidableEq

def Status.name : Status → String
  | .notStarted => "NotStarted"
  | .running => "Running"
  | .stopped => "Stopped"

def Status.all : List Status := [.notStarted, .running, .stopped]

instance : Coded Status where
  encode status := .text status.name
  decode := Json.unitVariant? Status.all Status.name

/-- What a sequence of actions works on: a draft of the context, the events raised so far, and the
world. -/
structure Draft (E C W : Type) where
  context : C
  raised : List E
  world : W

/-- A run without its audience, for states `S`, events `E`, contexts `C` and an action world `W`. -/
structure Course (S E C W : Type) where
  status : Status
  state : S
  previous : Option S
  context : C
  /-- How many states have been entered so far; a counter of 64 bits comes back to zero after
  `2 ^ 64` of them, this one does not. -/
  visit : Nat
  now : Duration
  queue : List E
  timers : Timers S
  history : History S
  journal : List (Snapshot S C E)
  world : W

/-- A run of a machine, with an audience whose callbacks share a world `O`. -/
structure Run (S E C W O : Type) extends Course S E C W where
  audience : Audience (Snapshot S C E) O

namespace Run

variable {S E C W O : Type}

def isRunning (run : Run S E C W O) : Bool := run.status = .running

def snapshot? (run : Run S E C W O) : Option (Snapshot S C E) := run.journal.head?

/-- When the next timer is due, while the machine runs. -/
def nextDeadline? (run : Run S E C W O) : Option Duration :=
  if run.status = .running then run.timers.nextDue? else none

/-! ## Updates -/

/-- The first event in the queue, while the machine runs, and the run without it. -/
def dequeue? (run : Run S E C W O) : Option (E × Run S E C W O) :=
  match run.status, run.queue with
  | .running, event :: queue => some (event, { run with queue := queue })
  | _, _ => none

def enqueue (events : List E) (run : Run S E C W O) : Run S E C W O :=
  { run with queue := run.queue ++ events }

def withWorld (world : W) (run : Run S E C W O) : Run S E C W O := { run with world := world }

def withTimers (timers : Timers S) (run : Run S E C W O) : Run S E C W O :=
  { run with timers := timers }

def withObservers (observers : O) (run : Run S E C W O) : Run S E C W O :=
  { run with audience := { run.audience with world := observers } }

/-- Moves the clock forward to a time; it never moves back. -/
def moveClock (time : Duration) (run : Run S E C W O) : Run S E C W O :=
  { run with now := max run.now time }

def adopt (draft : Draft E C W) (run : Run S E C W O) : Run S E C W O :=
  { run with context := draft.context, world := draft.world }

def begin (initial : S) (run : Run S E C W O) : Run S E C W O :=
  { run with status := .running, state := initial, previous := none, visit := 1 }

/-- Leaves the current state for another one, because of an event of the given kind. -/
def moveTo (target : S) (kind : String) (timestamp : Timestamp) (run : Run S E C W O) :
    Run S E C W O :=
  { run with
    state := target
    previous := some run.state
    visit := run.visit + 1
    timers := run.timers.cancel
    history := run.history.record ⟨run.state, target, kind, timestamp, run.now⟩ }

def publish (event : Option E) (outcome : Outcome S) (run : Run S E C W O) : Run S E C W O :=
  let snapshot : Snapshot S C E :=
    ⟨run.state, run.previous, run.context, event, outcome, run.visit, run.now⟩
  { run with journal := snapshot :: run.journal, audience := run.audience.notify snapshot }

/-- Registers a callback; its id is that of the audience before. -/
def subscribe (callback : Snapshot S C E → O → O × Reaction) (run : Run S E C W O) :
    Run S E C W O :=
  { run with audience := run.audience.add callback }

def unsubscribe (id : Nat) (run : Run S E C W O) : Run S E C W O :=
  { run with audience := run.audience.drop [id] }

/-- Ends the run: no timer, no queue, no subscribers, and no way back. -/
def stop (run : Run S E C W O) : Run S E C W O :=
  if run.status = .stopped then run
  else
    { run with
      status := .stopped
      timers := run.timers.cancel
      queue := []
      audience := run.audience.clear }

@[simp]
theorem status_stop (run : Run S E C W O) : run.stop.status = .stopped := by
  unfold stop
  split <;> simp_all

@[simp]
theorem stop_stop (run : Run S E C W O) : run.stop.stop = run.stop := by
  rw [stop.eq_1 run.stop, if_pos (status_stop run)]

@[simp]
theorem snapshot?_publish (event : Option E) (outcome : Outcome S) (run : Run S E C W O) :
    (run.publish event outcome).snapshot? =
      some ⟨run.state, run.previous, run.context, event, outcome, run.visit, run.now⟩ := rfl

end Run

/-- Whether a subscription is still delivered to, asked of its handle, which may outlive the
machine. -/
def delivers {S E C W O : Type} (machine : Option (Run S E C W O)) (id : Nat) : Bool :=
  machine.any (·.audience.isActive id)

end Automat
