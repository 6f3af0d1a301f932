import Automat.Action
import Automat.Vending.Display
import Automat.Vending.Event

/-!
The actions and the guard of the vending machine, under the names its table uses.
-/

namespace Automat.Vending

variable {W : Type}

/-- Why an action that needs a certain event cannot go on. -/
def unexpected (action : String) (event : Option Event) : String :=
  match event with
  | some event =>
    let text := event.text
    s!"{action} cannot handle {text}"
  | none => s!"{action} needs an event"

def resetContext : Action Event Context W := .assign fun _ _ => .empty

def assignSelectedItem : Action Event Context W := fun event context world =>
  match event with
  | some (.selectItem item) => ⟨{ context with selectedItem := some item }, [], world, none⟩
  | event => ⟨context, [], world, some (.error (unexpected "assignSelectedItem" event))⟩

/-- Adds an amount to the money, unless the sum needs more than 64 bits. -/
def accumulateInsertedMoney : Action Event Context W := fun event context world =>
  match event with
  | some (.insertMoney amount) =>
    if context.insertedMoney.toNat + amount.toNat < UInt64.size then
      ⟨{ context with insertedMoney := context.insertedMoney + amount }, [], world, none⟩
    else
      let sum := amount.toNat
      ⟨context, [], world, some (.error s!"inserting {sum} overflows the money counter")⟩
  | event => ⟨context, [], world, some (.error (unexpected "accumulateInsertedMoney" event))⟩

def computeRefund : Action Event Context W := .assign fun _ context =>
  { context with change := context.insertedMoney }

def computeChange : Action Event Context W := .assign fun _ context =>
  { context with change := context.changeAfterPurchase }

def displayDispensing (display : Display W) : Action Event Context W := .effect fun _ context =>
  display (.showDispensing context.selectedItem)

def displayReturning (display : Display W) : Action Event Context W := .effect fun _ context =>
  display (.showReturning context.change)

def dispenseItem (display : Display W) : Action Event Context W := .effect fun _ context world =>
  match context.selectedItem with
  | some item => display (.dispenseItem item) world
  | none => (world, none)

def dispenseChange (display : Display W) : Action Event Context W := .effect fun _ context world =>
  if 0 < context.change then display (.dispenseChange context.change) world else (world, none)

def canPurchase : Guard Event Context W := .pure fun _ context => context.canPurchase

def defaultActions (display : Display W) : List (String × Action Event Context W) :=
  [("resetContext", resetContext),
    ("assignSelectedItem", assignSelectedItem),
    ("accumulateInsertedMoney", accumulateInsertedMoney),
    ("computeRefund", computeRefund),
    ("computeChange", computeChange),
    ("displayDispensing", displayDispensing display),
    ("displayReturning", displayReturning display),
    ("dispenseItem", dispenseItem display),
    ("dispenseChange", dispenseChange display)]

def defaultGuards : List (String × Guard Event Context W) := [("canPurchase", canPurchase)]

end Automat.Vending
