import Automat.Duration

/-!
Transition tables. A definition lists the states of a machine; each state has entry actions, at
most one rule per kind of event, and at most one transition that is taken after a delay. Actions
and guards appear by name.
-/

namespace Automat

/-- What an event does in a state. Without a target the state stays and is not entered again. -/
structure Rule (S : Type) where
  target : Option S
  guard : Option String := none
  actions : List String := []
deriving DecidableEq

/-- A transition taken once a state has been current for `delay`. -/
structure Delayed (S : Type) where
  delay : Duration
  target : S
  actions : List String := []
deriving DecidableEq

/-- What a table says about one state. -/
structure Node (S K : Type) where
  state : S
  entry : List String := []
  rules : List (K × Rule S) := []
  after : Option (Delayed S) := none
deriving DecidableEq

/-- A transition table and the state it starts in. -/
structure Definition (S K : Type) where
  id : String
  initial : S
  nodes : List (Node S K)
deriving DecidableEq

variable {S K : Type}

def Node.rule? [DecidableEq K] (node : Node S K) (kind : K) : Option (Rule S) :=
  (node.rules.find? fun entry => entry.1 = kind).map (·.2)

/-- The targets of a node, that of the delayed transition last. -/
def Node.targets (node : Node S K) : List S :=
  node.rules.filterMap (·.2.target) ++ node.after.toList.map (·.target)

/-- The actions a node refers to: on entry, in rules, in the delayed transition. -/
def Node.actionNames (node : Node S K) : List String :=
  node.entry ++ node.rules.flatMap (·.2.actions) ++ node.after.toList.flatMap (·.actions)

def Node.guardNames (node : Node S K) : List String :=
  node.rules.filterMap (·.2.guard)

namespace Definition

/-- The first node of the state. -/
def node? [DecidableEq S] (definition : Definition S K) (state : S) : Option (Node S K) :=
  definition.nodes.find? fun node => node.state = state

def rule? [DecidableEq S] [DecidableEq K] (definition : Definition S K) (state : S) (kind : K) :
    Option (Rule S) := do
  (← definition.node? state).rule? kind

def after? [DecidableEq S] (definition : Definition S K) (state : S) : Option (Delayed S) := do
  (← definition.node? state).after

def actionNames (definition : Definition S K) : List String :=
  definition.nodes.flatMap (·.actionNames)

def guardNames (definition : Definition S K) : List String :=
  definition.nodes.flatMap (·.guardNames)

theorem node?_eq_some_state [DecidableEq S] {definition : Definition S K} {state : S}
    {node : Node S K} (h : definition.node? state = some node) : node.state = state := by
  simpa using List.find?_some h

theorem mem_nodes_of_node? [DecidableEq S] {definition : Definition S K} {state : S}
    {node : Node S K} (h : definition.node? state = some node) : node ∈ definition.nodes :=
  List.mem_of_find?_eq_some h

end Definition

end Automat
