import Automat.Event
import Automat.Json.Strict
import Automat.Text.Quoted
import Automat.Vending.Context

/-!
The states and events of the vending machine, and the JSON form of events: an object whose member
`type` names the kind and whose other members are the fields of that kind, or an array of the tag
and the fields. The value is held until its tag is known, so all of it must be strict JSON.
-/

namespace Automat.Vending

inductive State where
  | idle
  | selecting
  | dispensing
  | returning
deriving DecidableEq

def State.all : List State := [.idle, .selecting, .dispensing, .returning]

instance : Named State where
  name
    | .idle => "Idle"
    | .selecting => "Selecting"
    | .dispensing => "Dispensing"
    | .returning => "Returning"

instance : Coded State where
  encode state := .text (name state)
  decode := Json.unitVariant? State.all name

inductive Kind where
  | start
  | selectItem
  | insertMoney
  | purchase
  | cancel
  | timerElapsed
deriving DecidableEq

namespace Kind

def all : List Kind := [.start, .selectItem, .insertMoney, .purchase, .cancel, .timerElapsed]

/-- The name in JSON. -/
def tag : Kind → String
  | .start => "START"
  | .selectItem => "SELECT_ITEM"
  | .insertMoney => "INSERT_MONEY"
  | .purchase => "PURCHASE"
  | .cancel => "CANCEL"
  | .timerElapsed => "TIMER_ELAPSED"

def ofTag? (tag : String) : Option Kind := all.find? fun kind => kind.tag = tag

/-- The name in reports. -/
instance : Named Kind where
  name
    | .start => "Start"
    | .selectItem => "SelectItem"
    | .insertMoney => "InsertMoney"
    | .purchase => "Purchase"
    | .cancel => "Cancel"
    | .timerElapsed => "TimerElapsed"

instance : Coded Kind where
  encode kind := .text kind.tag
  decode := Json.unitVariant? all tag

@[simp]
theorem ofTag?_tag (kind : Kind) : ofTag? kind.tag = some kind := by cases kind <;> rfl

end Kind

inductive Event where
  | start
  | selectItem (item : Item)
  | insertMoney (amount : UInt64)
  | purchase
  | cancel
  | timerElapsed (timer : TimerId)
deriving DecidableEq

namespace Event

def kind : Event → Kind
  | .start => .start
  | .selectItem _ => .selectItem
  | .insertMoney _ => .insertMoney
  | .purchase => .purchase
  | .cancel => .cancel
  | .timerElapsed _ => .timerElapsed

/-- Money that amounts to nothing is malformed. -/
instance : EventLike Event Kind where
  kind := kind
  isWellFormed
    | .insertMoney amount => amount ≠ 0
    | _ => true
  elapsedTimer?
    | .timerElapsed timer => some timer
    | _ => none
  ofTimer := .timerElapsed

instance : LawfulEventLike Event where
  isWellFormed_ofTimer _ := rfl
  elapsedTimer?_ofTimer _ := rfl

open Text in
/-- The text of an event in messages. -/
def text : Event → String
  | .selectItem item =>
    let id := quoted item.id
    let name := quoted item.name
    let price := item.price.toNat
    s!"SelectItem(Item \x7b id: {id}, name: {name}, price: {price} \x7d)"
  | .insertMoney amount =>
    let amount := amount.toNat
    s!"InsertMoney \x7b amount: {amount} \x7d"
  | .timerElapsed timer =>
    let generation := timer.generation.toNat
    s!"TimerElapsed \x7b timer: TimerId({generation}) \x7d"
  | event => name event.kind

/-! ## JSON -/

/-- The members of an event in JSON, without its tag. -/
def members : Event → List (String × Json)
  | .selectItem item => item.members
  | .insertMoney amount => [("amount", encode amount)]
  | .timerElapsed timer => [("timer", encode timer)]
  | _ => []

/-- Reads the fields of an event of the kind. An array may hold nothing but the fields. -/
def ofFields? (kind : Kind) (fields : Json) : Option Event :=
  match kind with
  | .start => bare .start
  | .purchase => bare .purchase
  | .cancel => bare .cancel
  | .selectItem => (decode fields).map .selectItem
  | .insertMoney => do
    match ← ({ fields := ["amount"] } : Json.Shape).slots? fields with
    | [some amount] => (decode amount).map .insertMoney
    | _ => none
  | .timerElapsed => do
    match ← ({ fields := ["timer"] } : Json.Shape).slots? fields with
    | [some timer] => (decode timer).map .timerElapsed
    | _ => none
where
  bare (event : Event) : Option Event :=
    match fields with
    | .object _ | .array [] => some event
    | _ => none

/-- Splits a value into its tag and its fields. An object may have only one tag. -/
def untag? : Json → Option (Kind × Json)
  | .object members => do
    match Json.Shape.named "type" members with
    | [tag] =>
      some (← Kind.ofTag? (← tag.toText?),
        .object (members.filter fun member => member.1 ≠ some "type"))
    | _ => none
  | .array (tag :: fields) => do some (← Kind.ofTag? (← tag.toText?), .array fields)
  | _ => none

instance : Coded Event where
  encode event := .record (("type", encode event.kind) :: event.members)
  decode j := do
    if j.isStrict then
      let (kind, fields) ← untag? j
      ofFields? kind fields
    else none

end Event

end Automat.Vending
