import Automat.Machine
import Automat.Script.Condition

/-!
Scripted actions: lists of steps on a draft. The first step that gives a fault ends the action; what
the steps before it did stays in the draft, for the machine to drop.
-/

namespace Automat.Script

inductive Step (E T A : Type) where
  | emit (text : String)
  /-- Leaves a line with the event and the context as effect. -/
  | tap
  | raise (event : E)
  | give (fault : Fault)
  /-- Gives an error the first `times` times. Steps inside a branch count together with it. -/
  | failFirst (times : Int) (message : String)
  | branch (condition : Condition T) (yes no : List (Step E T A))
  | assign (assignment : A)

namespace Step

variable {E C T A : Type} [Vocabulary E C T A]

mutual

def perform (place : Place) (event : Option E) :
    Step E T A → Draft E C World → Draft E C World × Option Fault
  | .emit text, draft => ({ draft with world := draft.world.emit (.text text) }, none)
  | .tap, draft =>
    let line := Vocabulary.line T A event draft.context
    ({ draft with world := draft.world.emit (.text line) }, none)
  | .raise raised, draft => ({ draft with raised := draft.raised ++ [raised] }, none)
  | .give fault, draft => (draft, some fault)
  | .failFirst times message, draft =>
    let world := draft.world.countTry place
    ({ draft with world := world },
      if (world.triesOf place : Int) ≤ times then some (.error message) else none)
  | .branch condition yes no, draft =>
    match condition.evaluate (Vocabulary.test A) event draft.context draft.world with
    | (world, .ok true) => performAll place event yes { draft with world := world }
    | (world, .ok false) => performAll place event no { draft with world := world }
    | (world, .error fault) => ({ draft with world := world }, some fault)
  | .assign assignment, draft =>
    match Vocabulary.assign T assignment event draft.context with
    | .ok context => ({ draft with context := context }, none)
    | .error fault => (draft, some fault)

def performAll (place : Place) (event : Option E) :
    List (Step E T A) → Draft E C World → Draft E C World × Option Fault
  | [], draft => (draft, none)
  | step :: rest, draft =>
    match perform place event step draft with
    | (draft, none) => performAll place event rest draft
    | (draft, some fault) => (draft, some fault)

end

end Step

/-- What of the work of its steps an action keeps. -/
inductive Form where
  /-- The draft and the raised events. -/
  | full
  /-- The draft. -/
  | assign
  /-- Neither. -/
  | effect
  /-- The action does nothing at all. -/
  | nothing
deriving DecidableEq

/-- A scripted action. -/
structure Program (E T A : Type) where
  form : Form
  steps : List (Step E T A)

namespace Program

variable {E C T A : Type} [Vocabulary E C T A]

/-- Performs the steps of the action with this index, from step `place` on. -/
def perform (index : Nat) (event : Option E) :
    Nat → List (Step E T A) → Draft E C World → Draft E C World × Option Fault
  | _, [], draft => (draft, none)
  | place, step :: rest, draft =>
    match step.perform (index, place) event draft with
    | (draft, none) => perform index event (place + 1) rest draft
    | (draft, some fault) => (draft, some fault)

def body (index : Nat) (steps : List (Step E T A)) : Action E C World := fun event context world =>
  let (draft, fault) := perform index event 0 steps ⟨context, [], world⟩
  ⟨draft.context, draft.raised, draft.world, fault⟩

/-- The program as an action; `index` keeps its counters apart from those of other actions. -/
def toAction (index : Nat) (program : Program E T A) : Action E C World :=
  match program.form with
  | .full => body index program.steps
  | .assign => (body index program.steps).withoutRaising
  | .effect => (body index program.steps).onCopy
  | .nothing => .nothing

end Program

end Automat.Script
