import Automat.Failure

/-!
Actions and guards, and the names they are registered under.

Both see the event being processed, if there is one, and the outside world `W`, which they may
change and which nothing ever rolls back. An action works on a draft of the context and may raise
events; when it gives up it leaves behind draft and events as far as it came, and it is for the
machine to drop them. A guard only reads the context.
-/

namespace Automat

/-- What an action leaves behind. The events are in the order in which they were raised. -/
structure Performed (E C W : Type) where
  context : C
  raised : List E
  world : W
  fault : Option Fault

/-- An action, given the event, the draft of the context and the world. -/
abbrev Action (E C W : Type) := Option E → C → W → Performed E C W

abbrev Guard (E C W : Type) := Option E → C → W → W × Except Fault Bool

namespace Action

variable {E C W : Type}

def nothing : Action E C W := fun _ context world => ⟨context, [], world, none⟩

def assign (f : Option E → C → C) : Action E C W := fun event context world =>
  ⟨f event context, [], world, none⟩

def effect (f : Option E → C → W → W × Option Fault) : Action E C W := fun event context world =>
  let (world, fault) := f event context world
  ⟨context, [], world, fault⟩

/-- Keeps what an action does to the draft and drops the events it raises. -/
def withoutRaising (action : Action E C W) : Action E C W := fun event context world =>
  { action event context world with raised := [] }

/-- Keeps what an action does to the world, and nothing else. -/
def onCopy (action : Action E C W) : Action E C W := fun event context world =>
  { action event context world with context := context, raised := [] }

end Action

def Guard.pure {E C W : Type} (f : Option E → C → Bool) : Guard E C W := fun event context world =>
  (world, .ok (f event context))

/-- Implementations by name. A later registration of a name replaces the earlier one. -/
abbrev Registry (α : Type) := List (String × α)

namespace Registry

variable {α : Type}

def find? (registry : Registry α) (name : String) : Option α :=
  match registry with
  | [] => none
  | (n, a) :: rest => if n = name then some a else Registry.find? rest name

/-- Registers an implementation in front, where it hides those registered before. -/
def register (registry : Registry α) (name : String) (a : α) : Registry α := (name, a) :: registry

def contains (registry : Registry α) (name : String) : Bool := (registry.find? name).isSome

@[simp]
theorem find?_register (registry : Registry α) (name other : String) (a : α) :
    (registry.register name a).find? other =
      if name = other then some a else registry.find? other := rfl

end Registry

end Automat
