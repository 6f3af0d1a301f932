import Automat.Script.Condition
import Automat.Vending.Actions

/-!
Scripts for the vending machine, and displays that show what they do as effects.
-/

namespace Automat.Script.Sale

open Vending

/-- Tests of a sale. -/
inductive Test where
  | moneyAtLeast (n : Int)
  | hasItem
  | canPurchase

inductive Assignment where
  | set (context : Context)

def line (event : Option Vending.Event) (context : Context) : String :=
  let kind := match event with
    | some event => event.kind.tag
    | none => "<none>"
  let money := context.insertedMoney.toNat
  let change := context.change.toNat
  s!"{kind}:{money}:{change}"

instance : Vocabulary Vending.Event Context Test Assignment where
  test
    | .moneyAtLeast n, _, context => n ≤ (context.insertedMoney.toNat : Int)
    | .hasItem, _, context => context.selectedItem.isSome
    | .canPurchase, _, context => context.canPurchase
  assign
    | .set context, _, _ => .ok context
  line := line

/-! ## Displays -/

/-- What a hook is called with, as a line or a log entry. -/
inductive Style where
  | lines
  | entries

/-- A call of a hook as a line of text. -/
def lineOf : Hook → Json
  | .showDispensing item => .text (dispensingMessage item)
  | .showReturning change => .text (returningMessage change)
  | .dispenseItem item =>
    let price := item.price.toNat
    .text s!"item {item.id} {price}"
  | .dispenseChange amount =>
    let amount := amount.toNat
    .text s!"change {amount}"

/-- A call of a hook as the fields of a log entry. -/
def entryOf : Hook → Json
  | .showDispensing item =>
    .record [("text", .text (dispensingMessage item)), ("message", .text "display updated")]
  | .showReturning change =>
    .record [("text", .text (returningMessage change)), ("message", .text "display updated")]
  | .dispenseItem item => .record
      [("item", .text item.id), ("price", encode item.price), ("message", .text "item dispensed")]
  | .dispenseChange amount =>
    .record [("amount", encode amount), ("message", .text "change dispensed")]

def hookName : Hook → String
  | .showDispensing _ => "show_dispensing"
  | .showReturning _ => "show_returning"
  | .dispenseItem _ => "dispense_item"
  | .dispenseChange _ => "dispense_change"

/-- A display that leaves every call as an effect, and panics afterwards in the broken hooks. -/
def recording (style : Style) (broken : List String) : Display World := fun hook world =>
  let shown := match style with
    | .lines => lineOf hook
    | .entries => entryOf hook
  let hookName := hookName hook
  let fault :=
    if broken.contains hookName then some (.panic s!"{hookName} is broken") else none
  (world.emit shown, fault)

end Automat.Script.Sale
