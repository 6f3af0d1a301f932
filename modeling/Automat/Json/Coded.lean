import Automat.Json.Shape
import Automat.Duration

/-!
Types with a JSON form. `Coded` pairs the writer with the reader, and says what a record field of
the type means when it is left out; `LawfulCoded` is the promise that what was written is read
back.
-/

namespace Automat

/-- A JSON form: how a value is written, how it is read, and what a missing field stands for. -/
class Coded (α : Type) where
  encode : α → Json
  decode : Json → Option α
  absent : Option α := none

export Coded (encode decode)

/-- What was written is read back. -/
class LawfulCoded (α : Type) [Coded α] : Prop where
  decode_encode (a : α) : decode (encode a) = some a

export LawfulCoded (decode_encode)

attribute [simp] decode_encode

namespace Json

def field? {α : Type} [Coded α] : Option Json → Option α
  | none => Coded.absent
  | some value => decode value

def fieldD {α : Type} [Coded α] (default : α) : Option Json → Option α
  | none => some default
  | some value => decode value

@[simp]
theorem field?_some {α : Type} [Coded α] (j : Json) : field? (some j) = (decode j : Option α) := rfl

end Json

instance : Coded String where
  encode := Json.text
  decode := Json.toText?

instance : LawfulCoded String := ⟨fun _ => rfl⟩

instance : Coded UInt64 where
  encode n := Json.nat n.toNat
  decode j := (j.toNatBelow? UInt64.size).map UInt64.ofNat

instance : LawfulCoded UInt64 where
  decode_encode n := by
    show (Json.toNatBelow? UInt64.size (Json.nat n.toNat)).map UInt64.ofNat = some n
    rw [Json.toNatBelow?_nat n.toNat_lt]
    simp

instance : Coded Int64 where
  encode n := Json.int n.toInt
  decode j := do
    let n ← j.toInt?
    if Int64.minValue.toInt ≤ n ∧ n ≤ Int64.maxValue.toInt then some (Int64.ofInt n) else none

instance : LawfulCoded Int64 where
  decode_encode n := by
    show ((Json.int n.toInt).toInt?.bind fun k =>
      if Int64.minValue.toInt ≤ k ∧ k ≤ Int64.maxValue.toInt then some (Int64.ofInt k)
      else none) = some n
    have hl := n.minValue_le_toInt
    have hu := n.toInt_le
    rw [Json.toInt?_int, Option.bind_some, if_pos ⟨hl, hu⟩, Int64.ofInt_toInt]

instance : Coded Bool where
  encode := Json.bool
  decode := Json.toBool?

instance : LawfulCoded Bool := ⟨fun _ => rfl⟩

/-- An optional value is written as itself, and `null` stands for none; a field may be left out. -/
instance {α : Type} [Coded α] : Coded (Option α) where
  encode
    | none => .null
    | some a => encode a
  decode
    | .null => some none
    | j => (decode j).map some
  absent := some none

instance {α : Type} [Coded α] : Coded (List α) where
  encode items := .array (items.map encode)
  decode
    | .array items => items.mapM decode
    | _ => none

instance {α : Type} [Coded α] [LawfulCoded α] : LawfulCoded (List α) where
  decode_encode items := by
    show (items.map encode).mapM decode = some items
    induction items with
    | nil => rfl
    | cons item items ih => simp [ih]

/-- The fields of a duration; no other members are allowed. -/
def Duration.shape : Json.Shape where
  fields := ["secs", "nanos"]
  extraMembers := false

instance : Coded Duration where
  encode d := .record [("secs", encode d.seconds), ("nanos", .nat d.subsecond)]
  decode j := do
    match ← Duration.shape.slots? j with
    | [some seconds, some nanos] =>
      Duration.ofSeconds? (← decode seconds) (← nanos.toNatBelow? UInt32.size)
    | _ => none

end Automat
