import Automat.Dispatcher.Simulation
import Automat.Scenario.Session

/-!
Scenarios on a dispatcher in virtual time: steps of a caller that holds handles under names, sleeps,
and waits for replies. The dispatcher works whenever the caller waits or has used up its turn.
-/

namespace Automat.Scenario

open Dispatcher (Simulation)

/-- A request for which the caller waits. -/
inductive Request (K : Type) where
  | snapshot
  | can (kind : K)
  | stop

def Request.command {K E : Type} : Request K → Command K E
  | .snapshot => .snapshot
  | .can kind => .can kind
  | .stop => .stop

/-- What a step does with a handle. -/
inductive HandleStep (K E : Type) where
  | send (event : Option E)
  | ask (request : Request K)
  | isClosed
  | clone (name : String)
  | drop
  | text
  /-- Posts a stop and another request at once. -/
  | stopThen (request : Request K)

inductive RemoteStep (K E : Type) where
  | sleep (ms : Nat)
  | on (handle : String) (step : HandleStep K E)

inductive RemoteResult (S C E : Type) where
  | done
  | noHandle
  | noEvent
  | closed
  | reply (reply : Reply S C E)
  | replies (first second : Option (Reply S C E))
  | flag (value : Bool)
  | text (text : String)

structure RemoteReport (S C E : Type) where
  result : RemoteResult S C E
  seen : List (String × Snapshot S C E)
  effects : List Json

/-- A machine served by a dispatcher, and the names of the handles that are held. -/
structure Remote (S K E C : Type) where
  machine : Machine S K E C Script.World
  simulation : Simulation S K E C Script.World (Gallery (Snapshot S C E))
  handles : List String

def handleText (closed : Bool) : String := s!"MachineHandle \x7b id: <id>, closed: {closed} \x7d"

namespace Remote

variable {S K E C : Type}

/-- Hands a session's run over to a dispatcher, with a handle called `main`. -/
def ofSession (timeline : Timeline) (session : Session S K E C) : Remote S K E C :=
  ⟨session.machine, { dispatcher := .spawn timeline session.run }, ["main"]⟩

def onDispatcher (r : Remote S K E C)
    (f : Dispatcher S K E C Script.World (Gallery (Snapshot S C E)) →
      Dispatcher S K E C Script.World (Gallery (Snapshot S C E))) : Remote S K E C :=
  { r with simulation := { r.simulation with dispatcher := f r.simulation.dispatcher } }

def reply? (number : Option Nat) (r : Remote S K E C) : Option (Reply S C E) :=
  number >>= r.simulation.dispatcher.reply?

def ofReply : Option (Reply S C E) → RemoteResult S C E
  | some reply => .reply reply
  | none => .closed

variable [DecidableEq S] [DecidableEq K] [Named S] [Named K] [EventLike E K]

/-- Posts requests in order and waits for the replies. -/
def ask (first : Request K) (second : Option (Request K)) (r : Remote S K E C) :
    Option (Remote S K E C × Option (Reply S C E) × Option (Reply S C E)) := do
  let (simulation, one) := r.simulation.post first.command
  let (simulation, two) := match second with
    | some second => simulation.post second.command
    | none => (simulation, none)
  let waits := one.isSome || two.isSome
  let simulation ← if waits then simulation.awaitReplies r.machine budget else some simulation
  let r := { r with simulation := simulation }
  some (r, r.reply? one, r.reply? two)

def onHandle (handle : String) (step : HandleStep K E) (r : Remote S K E C) :
    Option (Remote S K E C × RemoteResult S C E) :=
  match step with
  | .send none => some (r, .noEvent)
  | .send (some event) =>
    let (simulation, number) := r.simulation.post (.send event)
    some ({ r with simulation := simulation }, if number.isSome then .done else .closed)
  | .ask request => do
    let (r, reply, _) ← r.ask request none
    some (r, ofReply reply)
  | .stopThen request => do
    let (r, first, second) ← r.ask .stop (some request)
    some (r, .replies first second)
  | .isClosed => some (r, .flag r.simulation.dispatcher.isClosed)
  | .clone name =>
    if r.handles.contains name then some (r, .done)
    else some ({ r with handles := name :: r.handles }.onDispatcher .addHandle, .done)
  | .drop =>
    some ({ r with handles := r.handles.filter (· ≠ handle) }.onDispatcher .dropHandle, .done)
  | .text => some (r, .text (handleText r.simulation.dispatcher.isClosed))

def perform (step : RemoteStep K E) (r : Remote S K E C) :
    Option (Remote S K E C × RemoteResult S C E) :=
  match step with
  | .sleep ms => do
    some ({ r with simulation := ← r.simulation.sleep r.machine budget ms }, .done)
  | .on handle step =>
    if r.handles.contains handle then r.onHandle handle step else some (r, .noHandle)

def collect (r : Remote S K E C) :
    List (String × Snapshot S C E) × List Json × Remote S K E C :=
  let (seen, effects, run) := Scenario.collect r.simulation.dispatcher.run
  (seen, effects, r.onDispatcher fun d => { d with run := run })

def step (step : RemoteStep K E) (r : Remote S K E C) :
    Option (Remote S K E C × RemoteReport S C E) := do
  let (r, result) ← r.perform step
  let (seen, effects, r) := r.collect
  some (r, ⟨result, seen, effects⟩)

def steps : List (RemoteStep K E) → Remote S K E C →
    Option (Remote S K E C × List (RemoteReport S C E))
  | [], r => some (r, [])
  | first :: rest, r => do
    let (r, report) ← r.step first
    let (r, reports) ← r.steps rest
    some (r, report :: reports)

/-- Drops all handles and waits for the end. The run comes back unless the dispatcher broke down. -/
def join (r : Remote S K E C) : Option (Remote S K E C × Option (Report S C E)) := do
  let simulation ← r.simulation.join r.machine budget
  let r := { r with simulation := simulation, handles := [] }
  let (seen, effects, r) := r.collect
  let d := r.simulation.dispatcher
  some (r, if d.phase = .broken then none else some ⟨.done, some d.run, seen, effects⟩)

def toSession (r : Remote S K E C) : Session S K E C :=
  { machine := r.machine, run := r.simulation.dispatcher.run }

end Remote

/-- What comes of a scenario that hands a machine to a dispatcher and takes it back. -/
inductive Handover (S C E : Type) where
  | done (before : List (Report S C E)) (remote : List (RemoteReport S C E))
      (joined : Report S C E) (after : List (Report S C E))
  /-- The dispatcher broke down. Whoever waits for the machine breaks down with it, and nothing is
  reported. -/
  | lost

/-- Steps on the machine, then steps on its dispatcher, then steps on the machine that came
back. -/
def Session.handOver {S K E C : Type} [DecidableEq S] [DecidableEq K] [Named S] [Named K]
    [EventLike E K] (timeline : Timeline) (before : List (Step S K E))
    (remote : List (RemoteStep K E)) (after : List (Step S K E)) (session : Session S K E C) :
    Option (Handover S C E) := do
  let (session, before) ← session.steps before
  let (r, remote) ← (Remote.ofSession timeline session).steps remote
  let (r, joined) ← r.join
  match joined with
  | some joined => do
    let (_, after) ← r.toSession.steps after
    some (.done before remote joined after)
  | none => some .lost

end Automat.Scenario
