import Automat.Json.Basic

/-!
Records and variants in JSON. A record is an object with one member per field, or an array of its
fields in their declared order. A variant is its name alone, or an object whose only member has
the name of the variant.
-/

namespace Automat.Json

/-- What a record looks like: its fields in order, whether an array may leave out the last ones,
and whether an object may hold members that are no fields. -/
structure Shape where
  fields : List String
  shortArrays : Bool := false
  extraMembers : Bool := true

namespace Shape

def named (name : String) (members : List (Option String × Json)) : List Json :=
  members.filterMap fun (n, value) => if n = some name then some value else none

/-- The value of a field in an object: `some none` if it is missing, `none` if it is repeated. -/
def slot? (members : List (Option String × Json)) (name : String) : Option (Option Json) :=
  match named name members with
  | [] => some none
  | [value] => some (some value)
  | _ => none

def admits (shape : Shape) : Option String → Bool
  | some name => shape.extraMembers || shape.fields.contains name
  | none => false

/-- The fields of a record in order, those left out being `none`. -/
def slots? (shape : Shape) : Json → Option (List (Option Json))
  | .object members =>
    if members.all fun member => shape.admits member.1 then shape.fields.mapM (slot? members)
    else none
  | .array items =>
    let missing := shape.fields.length - items.length
    if items.length ≤ shape.fields.length ∧ (missing = 0 ∨ shape.shortArrays) then
      some (items.map some ++ List.replicate missing none)
    else none
  | _ => none

end Shape

def variant? : Json → Option (String × Option Json)
  | .string (some name) => some (name, none)
  | .object [(some name, value)] => some (name, some value)
  | _ => none

/-- Whether a variant that carries nothing may be written with this after its name. -/
def isUnit : Option Json → Bool
  | none => true
  | some value => value.isNull

/-- Finds the value of that name, given all values; it may carry nothing. -/
def unitVariant? {α : Type} (all : List α) (nameOf : α → String) (j : Json) : Option α := do
  let (name, value) ← j.variant?
  if isUnit value then all.find? fun a => nameOf a = name else none

def variant (name : String) (value : Json) : Json := record [(name, value)]

@[simp]
theorem variant?_text (name : String) : (text name).variant? = some (name, none) := rfl

@[simp]
theorem variant?_variant (name : String) (value : Json) :
    (variant name value).variant? = some (name, some value) := rfl

end Automat.Json
