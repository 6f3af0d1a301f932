import Automat.Machine

/-!
A dispatcher owns a run and serves the commands that handles put into its queue, one at a time and
in order. It maps real time onto the machine clock: before every command, and whenever a deadline
is reached, it advances the run to the clock reading at the start plus the time elapsed since. It
ends with the first stop command, or when every handle has been dropped and the queue is empty.

The clock reading is a plain sum, and the moment of a deadline is a plain sum too; a dispatcher
that would leave the range of either breaks down, and with it every request not answered yet. How
far moments reach is up to the host, and any `Timeline` will do.
-/

namespace Automat

/-! ## Clock -/

/-- The moments of real time on a host, in nanoseconds. -/
structure Timeline where
  /-- The moment at which a dispatcher starts. -/
  start : Nat
  /-- The last moment that there is. -/
  last : Nat
  start_le : start ≤ last

/-- Maps real time onto the clock of a machine. -/
structure Clock where
  timeline : Timeline
  /-- What the machine clock showed at the start. -/
  base : Duration

namespace Clock

def now? (elapsed : Duration) (clock : Clock) : Option Duration := clock.base.add? elapsed

/-- How long after the start the machine clock shows a time; no earlier than at the start. -/
def wait (due : Duration) (clock : Clock) : Duration := due - clock.base

/-- The moment at which the machine clock shows a time, if there is such a moment. -/
def moment? (due : Duration) (clock : Clock) : Option Nat :=
  let moment := clock.timeline.start + (clock.wait due).total
  if moment ≤ clock.timeline.last then some moment else none

end Clock

/-! ## Queue and replies -/

inductive Command (K E : Type) where
  | send (event : E)
  | snapshot
  | can (kind : K)
  | stop

/-- The answer to a request. -/
inductive Reply (S C E : Type) where
  | snapshot (snapshot : Option (Snapshot S C E))
  | answer (answer : Bool)
  | stopped

def closedMessage : String := "Machine driver has stopped"

inductive Phase where
  | serving
  | ended
  | broken
deriving DecidableEq

/-- A dispatcher and its queue. Commands and replies carry the number under which the command was
posted. -/
structure Dispatcher (S K E C W O : Type) where
  run : Run S E C W O
  clock : Clock
  phase : Phase := .serving
  handles : Nat := 1
  posted : Nat := 0
  queue : List (Nat × Command K E) := []
  replies : List (Nat × Reply S C E) := []

namespace Dispatcher

variable {S K E C W O : Type}

def spawn (timeline : Timeline) (run : Run S E C W O) : Dispatcher S K E C W O :=
  { run := run, clock := ⟨timeline, run.now⟩ }

def isClosed (d : Dispatcher S K E C W O) : Bool := d.phase ≠ .serving

/-- Puts a command into the queue, unless the dispatcher is closed. -/
def post (command : Command K E) (d : Dispatcher S K E C W O) : Dispatcher S K E C W O :=
  if d.isClosed then d
  else { d with posted := d.posted + 1, queue := d.queue ++ [(d.posted, command)] }

def addHandle (d : Dispatcher S K E C W O) : Dispatcher S K E C W O :=
  { d with handles := d.handles + 1 }

def dropHandle (d : Dispatcher S K E C W O) : Dispatcher S K E C W O :=
  { d with handles := d.handles - 1 }

/-- The reply to the command posted under a number, if it has been answered. -/
def reply? (number : Nat) (d : Dispatcher S K E C W O) : Option (Reply S C E) :=
  d.replies.lookup number

/-- Closes the dispatcher; commands still in the queue are lost. -/
def close (phase : Phase) (d : Dispatcher S K E C W O) : Dispatcher S K E C W O :=
  { d with phase := phase, queue := [] }

/-! ## Serving -/

/-- When the next deadline is reached, in time elapsed since the start. -/
def wait? (d : Dispatcher S K E C W O) : Option Duration := d.run.nextDeadline?.map d.clock.wait

/-- Whether the next deadline has a moment, so that the dispatcher can wait for it. -/
def canWait (d : Dispatcher S K E C W O) : Bool :=
  match d.run.nextDeadline? with
  | some due => (d.clock.moment? due).isSome
  | none => true

variable [DecidableEq S] [DecidableEq K] [Named S] [Named K] [EventLike E K]

/-- Advances the run to now. -/
def catchUp (m : Machine S K E C W) (fuel : Nat) (elapsed : Duration)
    (d : Dispatcher S K E C W O) : Option (Dispatcher S K E C W O) :=
  match d.clock.now? elapsed with
  | some time => do some { d with run := ← m.advanceTo fuel time d.run }
  | none => some (d.close .broken)

/-- Carries out one command on the run. -/
def carryOut (m : Machine S K E C W) (fuel : Nat) (number : Nat) (command : Command K E)
    (d : Dispatcher S K E C W O) : Option (Dispatcher S K E C W O) :=
  match command with
  | .send event => do some { d with run := ← m.send fuel event d.run }
  | .snapshot => some { d with replies := (number, .snapshot d.run.snapshot?) :: d.replies }
  | .can kind =>
    let (run, answer) := m.canTransition kind d.run
    some { d with run := run, replies := (number, .answer answer) :: d.replies }
  | .stop =>
    some ({ d with run := d.run.stop, replies := (number, .stopped) :: d.replies }.close .ended)

/-- Whether a look into the queue finds something: a command, or that there will be none. -/
def canReceive (d : Dispatcher S K E C W O) : Bool := !d.queue.isEmpty || d.handles == 0

/-- Looks into the queue once: serves the first command, or ends if there will be none. -/
def receive (m : Machine S K E C W) (fuel : Nat) (elapsed : Duration)
    (d : Dispatcher S K E C W O) : Option (Dispatcher S K E C W O) :=
  if d.isClosed then some d
  else
    match d.queue with
    | (number, command) :: queue => do
      let d ← { d with queue := queue }.catchUp m fuel elapsed
      if d.isClosed then some d else d.carryOut m fuel number command
    | [] =>
      if d.handles = 0 then do
        let d ← d.catchUp m fuel elapsed
        some (if d.isClosed then d else d.close .ended)
      else some d

def wake (m : Machine S K E C W) (fuel : Nat) (elapsed : Duration)
    (d : Dispatcher S K E C W O) : Option (Dispatcher S K E C W O) :=
  if d.isClosed then some d else d.catchUp m fuel elapsed

def await (d : Dispatcher S K E C W O) : Dispatcher S K E C W O :=
  if d.isClosed ∨ d.canWait then d else d.close .broken

end Dispatcher

end Automat
