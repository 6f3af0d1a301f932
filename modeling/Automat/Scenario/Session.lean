import Automat.Machine.Call
import Automat.Machine.Text
import Automat.Scenario.Observer
import Automat.Script.World

/-!
Scenarios on a machine: a list of steps, carried out one after the other, each with a report of its
result, of the run after it, of what observers saw and of the effects that were left.
-/

namespace Automat.Scenario

open Script (World)

/-- A step of a scenario. -/
inductive Step (S K E : Type) where
  | call (call : Call K E)
  /-- Sends something that is no event. -/
  | sendUnreadable
  /-- Asks about several kinds in order. -/
  | canAll (kinds : List K)
  | snapshot
  | isIn (state : S)
  | history
  | subscribe (observer : Observer)
  | unsubscribe (name : String)
  | isActive (name : String)
  | machineText
  | subscriptionText (name : String)
  /-- Throws the machine away. -/
  | discard

/-- The result of a step. -/
inductive Result (S C E : Type) where
  | done
  | replaced
  | noMachine
  | noEvent
  | answer (answer : Answer)
  | answers (answers : List Answer)
  | flag (value : Option Bool)
  | snapshot (snapshot : Option (Snapshot S C E))
  | history (history : History S)
  | text (text : Option String)

abbrev WatchedRun (S C E : Type) := Run S E C World (Gallery (Snapshot S C E))

/-- A machine and its run; once discarded, only the names of subscriptions live on. -/
structure Session (S K E C : Type) where
  machine : Machine S K E C World
  run : WatchedRun S C E
  discarded : Bool := false

structure Report (S C E : Type) where
  result : Result S C E
  /-- The run after the step, unless the machine has been discarded. -/
  run : Option (WatchedRun S C E)
  seen : List (String × Snapshot S C E)
  effects : List Json

/-- Steps that one call may take before it counts as endless. -/
def budget : Nat := 10000000

/-- What was seen and which effects were left since the last time, and the run without them. -/
def collect {S C E : Type} (run : WatchedRun S C E) :
    List (String × Snapshot S C E) × List Json × WatchedRun S C E :=
  let (effects, world) := run.world.takeEffects
  let (seen, gallery) := run.audience.world.takeSeen
  (seen, effects, (run.withWorld world).withObservers gallery)

namespace Session

variable {S K E C : Type} [DecidableEq S] [DecidableEq K] [Named S] [Named K] [EventLike E K]

/-- Subscribes an observer and then drops the subscription that had its name. -/
def subscribe (observer : Observer) (run : WatchedRun S C E) : WatchedRun S C E × Bool :=
  let id := run.audience.nextId
  let old := run.audience.world.find? observer.name
  let run := run.subscribe (observer.callback id)
  let run := run.withObservers (run.audience.world.hold observer.name id)
  match old with
  | some old => (run.unsubscribe old, true)
  | none => (run, false)

/-- Drops the subscription with that name, if there is one. -/
def unsubscribe (name : String) (run : WatchedRun S C E) : WatchedRun S C E × Bool :=
  match run.audience.world.find? name with
  | some id =>
    let run := run.unsubscribe id
    (run.withObservers (run.audience.world.forget name), true)
  | none => (run, false)

/-- The steps that need no machine. -/
def performDetached (step : Step S K E) (session : Session S K E C) :
    Session S K E C × Result S C E :=
  let gallery := session.run.audience.world
  match step with
  | .isActive name =>
    (session, .flag ((gallery.find? name).map (delivers (none : Option (WatchedRun S C E)))))
  | .unsubscribe name =>
    let (run, known) := unsubscribe name session.run
    ({ session with run := run }, .flag (some known))
  | .subscriptionText name => (session, .text ((gallery.find? name).map Automat.subscriptionText))
  | _ => (session, .noMachine)

/-- The steps on a machine; `none` stands for a call that does not end within the budget. -/
def performAttached (step : Step S K E) (session : Session S K E C) :
    Option (Session S K E C × Result S C E) :=
  let m := session.machine
  let run := session.run
  let after (run : WatchedRun S C E) : Session S K E C := { session with run := run }
  match step with
  | .call call => do
    let (run, answer) ← m.call budget call run
    some (after run, .answer answer)
  | .sendUnreadable => some (session, .noEvent)
  | .canAll kinds => do
    let (run, answers) ← m.calls budget (kinds.map .can) run
    some (after run, .answers answers)
  | .snapshot => some (session, .snapshot run.snapshot?)
  | .isIn state =>
    some (session, .flag (run.snapshot?.map fun snapshot => decide (snapshot.state = state)))
  | .history => some (session, .history run.history)
  | .subscribe observer =>
    let (run, replaced) := subscribe observer run
    some (after run, if replaced then .replaced else .done)
  | .isActive name =>
    some (session, .flag ((run.audience.world.find? name).map (delivers (some run))))
  | .machineText => some (session, .text (some (m.text run)))
  | .discard => some ({ session with discarded := true }, .done)
  | step => some (performDetached step session)

/-- Carries out one step and reports on it. -/
def step (step : Step S K E) (session : Session S K E C) :
    Option (Session S K E C × Report S C E) := do
  let (session, result) ←
    if session.discarded then some (performDetached step session)
    else performAttached step session
  let (seen, effects, run) := collect session.run
  let report := ⟨result, if session.discarded then none else some run, seen, effects⟩
  some ({ session with run := run }, report)

/-- Carries out steps in order. -/
def steps : List (Step S K E) → Session S K E C → Option (Session S K E C × List (Report S C E))
  | [], session => some (session, [])
  | first :: rest, session => do
    let (session, report) ← session.step first
    let (session, reports) ← session.steps rest
    some (session, report :: reports)

end Session

end Automat.Scenario
