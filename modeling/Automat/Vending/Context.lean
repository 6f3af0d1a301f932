import Automat.Json.Coded

/-!
What a vending machine knows during a sale: the money put in, the item chosen, the change to give.
-/

namespace Automat.Vending

structure Item where
  id : String
  name : String
  price : UInt64
deriving DecidableEq

def catalog : List Item := [⟨"slipperA", "Slipper A", 25000⟩, ⟨"slipperB", "Slipper B", 30000⟩]

/-- The amounts that the slot of the machine takes. -/
def acceptedAmounts : List UInt64 := [10000, 20000, 50000]

structure Context where
  insertedMoney : UInt64 := 0
  selectedItem : Option Item := none
  change : UInt64 := 0
deriving DecidableEq

namespace Context

def empty : Context := {}

def canPurchase (context : Context) : Bool :=
  match context.selectedItem with
  | some item => item.price ≤ context.insertedMoney
  | none => false

def price (context : Context) : UInt64 :=
  match context.selectedItem with
  | some item => item.price
  | none => 0

/-- What is left of the money after paying, and nothing if it does not reach. -/
def changeAfterPurchase (context : Context) : UInt64 :=
  if context.price ≤ context.insertedMoney then context.insertedMoney - context.price else 0

end Context

/-! ## JSON -/

def Item.shape : Json.Shape := { fields := ["id", "name", "price"] }

def Item.members (item : Item) : List (String × Json) :=
  [("id", encode item.id), ("name", encode item.name), ("price", encode item.price)]

instance : Coded Item where
  encode item := .record item.members
  decode j := do
    match ← Item.shape.slots? j with
    | [some id, some name, some price] => some ⟨← decode id, ← decode name, ← decode price⟩
    | _ => none

def Context.shape : Json.Shape := { fields := ["inserted_money", "selected_item", "change"] }

instance : Coded Context where
  encode context := .record
    [("inserted_money", encode context.insertedMoney),
      ("selected_item", encode context.selectedItem), ("change", encode context.change)]
  decode j := do
    match ← Context.shape.slots? j with
    | [some money, item, some change] =>
      some ⟨← decode money, ← Json.field? item, ← decode change⟩
    | _ => none

end Automat.Vending
