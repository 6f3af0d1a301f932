import Automat.Definition.Issue
import Automat.Machine

/-!
Putting a machine together: a table, implementations by name, a context to start with. A machine
is built only from a table without issues; otherwise all issues are reported at once.
-/

namespace Automat

/-- Why no machine could be built. -/
inductive BuildError where
  | missingContext
  | invalidDefinition (id : String) (issues : List Issue)
deriving DecidableEq

def BuildError.message : BuildError → String
  | .missingContext => "Initial context not specified. Call .context(value) before .build()"
  | .invalidDefinition id issues =>
    let list := String.intercalate "; " (issues.map (·.message))
    s!"Machine '{id}' has {issues.length} definition issue(s): {list}"

/-- A machine in the making. -/
structure Builder (S K E C W : Type) where
  definition : Definition S K
  actions : Registry (Action E C W) := []
  guards : Registry (Guard E C W) := []
  context : Option C := none
  historyLimit : UInt64 := History.defaultLimit
  /-- The wall clock, from which transitions in the history take their timestamps. -/
  clock : W → Timestamp

namespace Builder

variable {S K E C W : Type}

/-- Registers an action, in place of an earlier one of the same name. -/
def action (name : String) (action : Action E C W) (builder : Builder S K E C W) :
    Builder S K E C W :=
  { builder with actions := builder.actions.register name action }

/-- Registers a guard, in place of an earlier one of the same name. -/
def guard (name : String) (guard : Guard E C W) (builder : Builder S K E C W) :
    Builder S K E C W :=
  { builder with guards := builder.guards.register name guard }

def withActions (actions : List (String × Action E C W)) (builder : Builder S K E C W) :
    Builder S K E C W :=
  actions.foldl (fun builder entry => builder.action entry.1 entry.2) builder

def withGuards (guards : List (String × Guard E C W)) (builder : Builder S K E C W) :
    Builder S K E C W :=
  guards.foldl (fun builder entry => builder.guard entry.1 entry.2) builder

variable [DecidableEq S] [DecidableEq K] [Named S] [Named K]

/-- What is wrong with the table, given the registered names. -/
def issues (builder : Builder S K E C W) : List Issue :=
  builder.definition.issues builder.actions.contains builder.guards.contains

/-- The finished machine. A missing context is reported before anything about the table. -/
def build (builder : Builder S K E C W) : Except BuildError (Machine S K E C W) :=
  match builder.context with
  | none => .error .missingContext
  | some context =>
    if builder.issues.isEmpty then
      .ok ⟨builder.definition, builder.actions, builder.guards, context, builder.historyLimit,
        builder.clock⟩
    else .error (.invalidDefinition builder.definition.id builder.issues)

/-- Exactly the tables without issues are built, once there is a context. -/
theorem build_isOk_iff {builder : Builder S K E C W} {context : C}
    (h : builder.context = some context) :
    (∃ m, builder.build = .ok m) ↔ builder.issues = [] := by
  unfold build
  rw [h]
  by_cases hi : builder.issues = [] <;> simp [hi]

end Builder

end Automat
