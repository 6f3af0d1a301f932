import Automat.Action
import Automat.Script.World

/-!
Scripted guards: conditions put together from tests. The parts of a conjunction or disjunction are
evaluated from the left until the answer is known, and the first fault is the fault of the whole.
What can be tested, and done, depends on the kind of machine.
-/

namespace Automat.Script

/-- The tests `T` and assignments `A` of scripts over events `E` and contexts `C`. -/
class Vocabulary (E C T A : Type) where
  test : T → Option E → C → Bool
  assign : A → Option E → C → Except Fault C
  /-- A line that shows an event and a context. -/
  line : Option E → C → String

inductive Condition (T : Type) where
  | constant (answer : Bool)
  | hasEvent
  | test (test : T)
  | not (condition : Condition T)
  | all (conditions : List (Condition T))
  | any (conditions : List (Condition T))
  /-- Leaves an effect and holds. -/
  | emit (text : String)
  | give (fault : Fault)

namespace Condition

variable {E C T A : Type}

mutual

def evaluate (test : T → Option E → C → Bool) (event : Option E) (context : C) :
    Condition T → World → World × Except Fault Bool
  | .constant answer, world => (world, .ok answer)
  | .hasEvent, world => (world, .ok event.isSome)
  | .test t, world => (world, .ok (test t event context))
  | .not condition, world =>
    match evaluate test event context condition world with
    | (world, .ok answer) => (world, .ok !answer)
    | (world, .error fault) => (world, .error fault)
  | .all conditions, world => evaluateAll test event context conditions world
  | .any conditions, world => evaluateAny test event context conditions world
  | .emit text, world => (world.emit (.text text), .ok true)
  | .give fault, world => (world, .error fault)

def evaluateAll (test : T → Option E → C → Bool) (event : Option E) (context : C) :
    List (Condition T) → World → World × Except Fault Bool
  | [], world => (world, .ok true)
  | condition :: rest, world =>
    match evaluate test event context condition world with
    | (world, .ok true) => evaluateAll test event context rest world
    | (world, answer) => (world, answer)

def evaluateAny (test : T → Option E → C → Bool) (event : Option E) (context : C) :
    List (Condition T) → World → World × Except Fault Bool
  | [], world => (world, .ok false)
  | condition :: rest, world =>
    match evaluate test event context condition world with
    | (world, .ok false) => evaluateAny test event context rest world
    | (world, answer) => (world, answer)

end

def toGuard (A : Type) [Vocabulary E C T A] (condition : Condition T) : Guard E C World :=
  fun event context world => condition.evaluate (Vocabulary.test A) event context world

end Condition

end Automat.Script
