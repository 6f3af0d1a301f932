import Automat.Definition
import Automat.Event

/-!
What can be wrong with a transition table, and the list of everything that is wrong with one. The
list goes check by check: the initial state, states declared twice, rules given twice, targets,
action names, guard names; inside a check it follows the table.
-/

namespace Automat

inductive Issue where
  | unknownInitialState (state : String)
  | duplicateState (state : String)
  | duplicateRule (state event : String)
  | undeclaredTarget (state target : String)
  | unknownAction (name : String)
  | unknownGuard (name : String)
deriving DecidableEq

def Issue.message : Issue → String
  | .unknownInitialState state => s!"Initial state '{state}' has no state node"
  | .duplicateState state => s!"State '{state}' is declared more than once"
  | .duplicateRule state event => s!"State '{state}' has more than one rule for {event}"
  | .undeclaredTarget state target => s!"State '{state}' targets undeclared state '{target}'"
  | .unknownAction name => s!"Action '{name}' is referenced but has no implementation"
  | .unknownGuard name => s!"Guard '{name}' is referenced but has no implementation"

/-- The items that are equal to an earlier one, given those that came before the list. -/
def repeated {α : Type} [DecidableEq α] (before : List α) : List α → List α
  | [] => []
  | a :: rest =>
    let later := repeated (a :: before) rest
    if a ∈ before then a :: later else later

/-- The items that are not equal to an earlier one, given those that came before the list. -/
def distinct {α : Type} [DecidableEq α] (before : List α) : List α → List α
  | [] => []
  | a :: rest => if a ∈ before then distinct before rest else a :: distinct (a :: before) rest

namespace Definition

variable {S K : Type} [DecidableEq S] [DecidableEq K] [Named S] [Named K]

def initialIssues (definition : Definition S K) : List Issue :=
  match definition.node? definition.initial with
  | some _ => []
  | none => [.unknownInitialState (name definition.initial)]

def stateIssues (definition : Definition S K) : List Issue :=
  (repeated [] (definition.nodes.map (·.state))).map fun state => .duplicateState (name state)

def ruleIssues (definition : Definition S K) : List Issue :=
  definition.nodes.flatMap fun node =>
    (repeated [] (node.rules.map (·.1))).map fun kind =>
      .duplicateRule (name node.state) (name kind)

def targetIssues (definition : Definition S K) : List Issue :=
  definition.nodes.flatMap fun node =>
    (node.targets.filter fun target => (definition.node? target).isNone).map fun target =>
      .undeclaredTarget (name node.state) (name target)

/-- The names that are not registered, each once, in order of first appearance. -/
def unregistered (isRegistered : String → Bool) (names : List String) : List String :=
  (distinct [] names).filter fun name => !isRegistered name

/-- Everything that is wrong with the table, given which names are registered. -/
def issues (definition : Definition S K) (isAction isGuard : String → Bool) : List Issue :=
  definition.initialIssues ++ definition.stateIssues ++ definition.ruleIssues ++
    definition.targetIssues ++
    (unregistered isAction definition.actionNames).map .unknownAction ++
    (unregistered isGuard definition.guardNames).map .unknownGuard

end Definition

end Automat
