/-!
JSON values as they are written. A number keeps its digits, so `1`, `1.0` and `-0` stay apart;
an object keeps its members in order, repeated names included; a string literal has no text when
one of its escapes is half of a surrogate pair.
-/

namespace Automat

/-- A number literal: sign, digits before the point, digits after it, exponent. -/
structure Json.Number where
  negative : Bool
  whole : Nat
  fraction : Option (List Char)
  exponent : Option Int
deriving DecidableEq

/-- A JSON value. A string or member name is `none` where the literal denotes no text. -/
inductive Json where
  | null
  | bool (value : Bool)
  | number (value : Json.Number)
  | string (value : Option String)
  | array (items : List Json)
  | object (members : List (Option String × Json))

namespace Json

instance : Inhabited Json := ⟨.null⟩

def text (s : String) : Json := .string (some s)

def nat (n : Nat) : Json := .number ⟨false, n, none, none⟩

def int (n : Int) : Json := .number ⟨n < 0, n.natAbs, none, none⟩

/-- An object whose member names are all texts. -/
def record (members : List (String × Json)) : Json :=
  .object (members.map fun (name, value) => (some name, value))

/-- The integer that a literal without point and exponent denotes. The literal `-0` denotes the
negative zero, which is no integer. -/
def Number.toInt? (n : Number) : Option Int :=
  match n.fraction, n.exponent with
  | none, none =>
    if n.negative then if n.whole = 0 then none else some (-n.whole)
    else some n.whole
  | _, _ => none

def toInt? : Json → Option Int
  | .number n => n.toInt?
  | _ => none

def toNatBelow? (bound : Nat) (j : Json) : Option Nat :=
  match j.toInt? with
  | some (.ofNat n) => if n < bound then some n else none
  | _ => none

def toText? : Json → Option String
  | .string s => s
  | _ => none

def toBool? : Json → Option Bool
  | .bool b => some b
  | _ => none

def isNull : Json → Bool
  | .null => true
  | _ => false

@[simp]
theorem toInt?_nat (n : Nat) : (nat n).toInt? = some (n : Int) := rfl

@[simp]
theorem toInt?_int (n : Int) : (int n).toInt? = some n := by
  by_cases h : n < 0
  · have hz : n.natAbs ≠ 0 := by omega
    have hn : -(n.natAbs : Int) = n := by omega
    simp only [int, toInt?, Number.toInt?, h, hz, hn, decide_true, if_true, if_false]
  · have hn : (n.natAbs : Int) = n := by omega
    simp [int, toInt?, Number.toInt?, h, hn]

@[simp]
theorem toNatBelow?_nat {bound n : Nat} (h : n < bound) : (nat n).toNatBelow? bound = some n := by
  show (if n < bound then some n else none) = _
  simp [h]

@[simp]
theorem toText?_text (s : String) : (text s).toText? = some s := rfl

@[simp]
theorem isNull_nat (n : Nat) : (nat n).isNull = false := rfl

@[simp]
theorem isNull_text (s : String) : (text s).isNull = false := rfl

end Json

end Automat
