import Automat.Json.Basic

/-!
Which values can be held before their meaning is known: every string and member name has a text,
every number has a finite value in binary floating point, and containers nest at most 127 deep.
A value that is only skipped needs none of this.
-/

namespace Automat.Json

/-! ## Finite numbers -/

/-- The nearest integer with at most 53 leading bits; a tie goes to the even one. -/
def roundToDouble (n : Nat) : Nat :=
  if n < 1 <<< 53 then n
  else
    let shift := n.log2 - 52
    let kept := n >>> shift
    let lost := n % (1 <<< shift)
    let half := 1 <<< (shift - 1)
    (if lost > half ∨ (lost = half ∧ kept % 2 = 1) then kept + 1 else kept) <<< shift

/-- Takes digits into a significand while it stays below 2^64; returns the digits left over. -/
def takeSignificand (significand : Nat) : List Char → Nat × List Char
  | [] => (significand, [])
  | c :: rest =>
    let next := significand * 10 + (c.toNat - '0'.toNat)
    if next < UInt64.size then takeSignificand next rest else (significand, c :: rest)

/-- Whether a literal has a finite value: its first digits that fit 64 bits, times a power of
ten, each rounded to a binary floating point number. -/
def Number.isFinite (n : Number) : Bool :=
  let (whole, wholeRest) := takeSignificand 0 (Nat.toDigits 10 n.whole)
  let fraction := n.fraction.getD []
  let (significand, fractionRest) := takeSignificand whole fraction
  let taken := fraction.length - fractionRest.length
  let exponent : Int := n.exponent.getD 0 + wholeRest.length - taken
  if significand = 0 ∨ exponent < 0 then true
  else if exponent > 308 then false
  else roundToDouble significand * roundToDouble (Nat.pow 10 exponent.toNat) < (1 <<< 1024) - (1 <<< 970)

/-! ## Whole values -/

mutual

def depth : Json → Nat
  | .array items => depthItems items + 1
  | .object members => depthMembers members + 1
  | _ => 0

def depthItems : List Json → Nat
  | [] => 0
  | item :: items => max (depth item) (depthItems items)

def depthMembers : List (Option String × Json) → Nat
  | [] => 0
  | (_, value) :: members => max (depth value) (depthMembers members)

end

mutual

/-- Whether all strings have a text and all numbers are finite. -/
def isSound : Json → Bool
  | .number n => n.isFinite
  | .string s => s.isSome
  | .array items => isSoundItems items
  | .object members => isSoundMembers members
  | _ => true

def isSoundItems : List Json → Bool
  | [] => true
  | item :: items => isSound item && isSoundItems items

def isSoundMembers : List (Option String × Json) → Bool
  | [] => true
  | (name, value) :: members => name.isSome && isSound value && isSoundMembers members

end

/-- Containers may nest this deep in a value that is held. -/
def depthLimit : Nat := 127

/-- Whether the value can be held before its meaning is known. -/
def isStrict (j : Json) : Bool := j.depth ≤ depthLimit && j.isSound

end Automat.Json
