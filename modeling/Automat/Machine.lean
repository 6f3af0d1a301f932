import Automat.Action
import Automat.Definition
import Automat.Run

/-!
Machines and how they run. An event is processed to its end before the next one is taken from the
queue: guard, actions on a draft of the context, change of state, timer, notification. If anything
fails the draft and the events raised on it are dropped. The clock of a run moves only in
`advance` and `advanceTo`, which fire every timer due on the way at its own deadline.

Raised events and timers can keep a machine busy for ever, so the functions that empty the queue
take a bound on the number of steps and return `none` when it is used up.
-/

namespace Automat

/-- A machine ready to run: its table, the code behind the names, the context to start with, the
number of transitions to remember, and where the outside world keeps its wall clock. -/
structure Machine (S K E C W : Type) where
  definition : Definition S K
  actions : Registry (Action E C W)
  guards : Registry (Guard E C W)
  context : C
  historyLimit : UInt64
  clock : W → Timestamp

namespace Machine

variable {S K E C W O : Type}

/-- A run that has not started. -/
def newRun (m : Machine S K E C W) (world : W) (observers : O) : Run S E C W O where
  status := .notStarted
  state := m.definition.initial
  previous := none
  context := m.context
  visit := 0
  now := .zero
  queue := []
  timers := .empty
  history := .withLimit m.historyLimit
  journal := []
  world := world
  audience := .empty observers

/-! ## Guards and actions -/

def cause [Named K] [EventLike E K] (event : Option E) : String :=
  match event with
  | some event => name (EventLike.kind event)
  | none => "start"

/-- Runs actions in order, each named for the state it belongs to, up to the first that fails. -/
def perform [Named S] [Named K] [EventLike E K] (m : Machine S K E C W) (event : Option E) :
    List (S × String) → Draft E C W → Draft E C W × Option Failure
  | [], draft => (draft, none)
  | (state, action) :: rest, draft =>
    match m.actions.find? action with
    | none => (draft, some (.unknownAction action))
    | some run =>
      let done := run event draft.context draft.world
      let draft := ⟨done.context, draft.raised ++ done.raised, done.world⟩
      match done.fault with
      | none => m.perform event rest draft
      | some fault => (draft, some (.action action (name state) (cause event) fault.message))

/-- Asks a guard in the given state and context. -/
def check [Named S] [Named K] [EventLike E K] (m : Machine S K E C W) (guard : String) (state : S)
    (event : Option E) (context : C) (world : W) : W × Except Failure Bool :=
  match m.guards.find? guard with
  | none => (world, .error (.unknownGuard guard))
  | some ask =>
    match ask event context world with
    | (world, .ok answer) => (world, .ok answer)
    | (world, .error fault) =>
      (world, .error (.guard guard (name state) (cause event) fault.message))

def entrySteps [DecidableEq S] (m : Machine S K E C W) (state : S) : List (S × String) :=
  match m.definition.node? state with
  | some node => node.entry.map (state, ·)
  | none => []

/-! ## Changing the state -/

/-- Arms the timer of the current state, if the state has a delayed transition. -/
def arm [DecidableEq S] (m : Machine S K E C W) (run : Run S E C W O) : Run S E C W O :=
  match m.definition.after? run.state with
  | some after => run.withTimers (run.timers.arm run.state run.visit run.now after.delay)
  | none => run

def enter [DecidableEq S] [Named K] [EventLike E K] (m : Machine S K E C W) (target : S) (event : E)
    (run : Run S E C W O) : Run S E C W O :=
  m.arm (run.moveTo target (name (EventLike.kind event)) (m.clock run.world))

/-- The actions of a rule in a state, and those on entering its target. -/
def ruleSteps [DecidableEq S] (m : Machine S K E C W) (state : S) (actions : List String)
    (target : Option S) : List (S × String) :=
  actions.map (state, ·) ++ target.toList.flatMap m.entrySteps

/-- Makes the draft of a rule real: the context, the change of state if there is one, and after the
notification the raised events. -/
def commit [DecidableEq S] [Named K] [EventLike E K] (m : Machine S K E C W) (target : Option S)
    (event : E) (draft : Draft E C W) (run : Run S E C W O) : Run S E C W O :=
  match target with
  | some target =>
    ((m.enter target event (run.adopt draft)).publish (some event)
      (.transitioned run.state target)).enqueue draft.raised
  | none => ((run.adopt draft).publish (some event) .handled).enqueue draft.raised

variable [DecidableEq S] [Named S] [Named K] [EventLike E K]

/-- Carries out a rule. A target that is the current state counts as none. Nothing but the world
changes unless every action succeeds. -/
def apply (m : Machine S K E C W) (target : Option S) (actions : List String) (event : E)
    (run : Run S E C W O) : Run S E C W O :=
  let target := target.filter (· ≠ run.state)
  match m.perform (some event) (m.ruleSteps run.state actions target)
      ⟨run.context, [], run.world⟩ with
  | (draft, none) => m.commit target event draft run
  | (draft, some failure) => (run.withWorld draft.world).publish (some event) (.failed failure)

/-! ## Processing events -/

/-- Carries out a rule for an event if its guard lets it pass. -/
def applyGuarded (m : Machine S K E C W) (rule : Rule S) (event : E) (run : Run S E C W O) :
    Run S E C W O :=
  match rule.guard with
  | none => m.apply rule.target rule.actions event run
  | some guard =>
    match m.check guard run.state (some event) run.context run.world with
    | (world, .ok true) => m.apply rule.target rule.actions event (run.withWorld world)
    | (world, .ok false) => (run.withWorld world).publish (some event) (.guardRejected guard)
    | (world, .error failure) => (run.withWorld world).publish (some event) (.failed failure)

/-- Takes the delayed transition of a node if the timer that has run out is the live one; the report
of any other timer is dropped without notice. -/
def applyDelayed (m : Machine S K E C W) (node : Node S K) (timer : TimerId) (event : E)
    (run : Run S E C W O) : Run S E C W O :=
  match node.after with
  | some after =>
    if run.timers.isLive timer run.visit then m.apply (some after.target) after.actions event run
    else run
  | none => run

variable [DecidableEq K]

/-- Processes one event that has been taken from the queue. -/
def process (m : Machine S K E C W) (event : E) (run : Run S E C W O) : Run S E C W O :=
  match m.definition.node? run.state with
  | none => run.publish (some event) .ignored
  | some node =>
    if EventLike.isWellFormed event then
      match EventLike.elapsedTimer? event with
      | some timer => m.applyDelayed node timer event run
      | none =>
        match node.rule? (EventLike.kind event) with
        | some rule => m.applyGuarded rule event run
        | none => run.publish (some event) .ignored
    else run.publish (some event) .ignored

/-- Processes the queue until it is empty, in at most `fuel` events. -/
def drain (m : Machine S K E C W) (fuel : Nat) (run : Run S E C W O) : Option (Run S E C W O) :=
  match run.dequeue?, fuel with
  | none, _ => some run
  | some _, 0 => none
  | some (event, run), fuel + 1 => m.drain fuel (m.process event run)

/-! ## Calls -/

/-- The run right after its initial state was entered with the draft of the entry actions. -/
def enterInitial (m : Machine S K E C W) (draft : Draft E C W) (run : Run S E C W O) :
    Run S E C W O :=
  ((m.arm ((run.adopt draft).begin m.definition.initial)).publish none .started).enqueue
    draft.raised

/-- Enters the initial state on a fresh copy of the first context. A machine starts once; when an
entry action fails nothing but the world has changed, and the start may be tried again. -/
def start (m : Machine S K E C W) (fuel : Nat) (run : Run S E C W O) :
    Option (Run S E C W O × Except StartError Unit) :=
  if run.status = .notStarted then
    match m.perform none (m.entrySteps m.definition.initial) ⟨m.context, [], run.world⟩ with
    | (draft, none) => (m.drain fuel (m.enterInitial draft run)).map (·, .ok ())
    | (draft, some failure) => some (run.withWorld draft.world, .error (.entry failure))
  else some (run, .error (.alreadyStarted m.definition.id))

/-- Queues an event and processes the queue. A machine that is not running drops the event. -/
def send (m : Machine S K E C W) (fuel : Nat) (event : E) (run : Run S E C W O) :
    Option (Run S E C W O) :=
  if run.status = .running then m.drain fuel (run.enqueue [event]) else some run

/-- Whether an event of the kind would be taken now, as far as can be told without an event. -/
def canTransition (m : Machine S K E C W) (kind : K) (run : Run S E C W O) :
    Run S E C W O × Bool :=
  if run.status = .running then
    match m.definition.rule? run.state kind with
    | none => (run, false)
    | some rule =>
      match rule.guard with
      | none => (run, true)
      | some guard =>
        match m.check guard run.state none run.context run.world with
        | (world, .ok answer) => (run.withWorld world, answer)
        | (world, .error _) => (run.withWorld world, false)
  else (run, false)

/-- Fires the timer that is due and processes its event. -/
def fire (m : Machine S K E C W) (fuel : Nat) (run : Run S E C W O) : Option (Run S E C W O) :=
  match run.timers.fire? run.now with
  | some (timer, timers) =>
    m.drain fuel ((run.withTimers timers).enqueue [EventLike.ofTimer timer])
  | none => some run

/-- Moves the clock to `time`, firing every timer due on the way with the clock at its deadline.
The clock never moves back. -/
def advanceTo (m : Machine S K E C W) (fuel : Nat) (time : Duration) (run : Run S E C W O) :
    Option (Run S E C W O) :=
  match run.nextDeadline?.filter (· ≤ time), fuel with
  | none, _ => some (run.moveClock time)
  | some _, 0 => none
  | some due, fuel + 1 => (m.fire fuel (run.moveClock due)).bind (m.advanceTo fuel time)

def advance (m : Machine S K E C W) (fuel : Nat) (elapsed : Duration) (run : Run S E C W O) :
    Option (Run S E C W O) :=
  m.advanceTo fuel (run.now + elapsed) run

end Machine

end Automat
