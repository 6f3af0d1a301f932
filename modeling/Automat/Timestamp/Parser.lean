import Automat.Timestamp.Basic
import Automat.Text.Basic

/-!
Reading the text of a moment: date, `T` or a space, time, and the offset from universal time.
Blanks may stand in front of each number, around the marks of the date and the time, and at the
end; a fraction may have any number of digits, of which nine count; the offset is `Z`, `UTC` or
hours and minutes.
-/

namespace Automat.Timestamp

open Automat.Text

namespace Parser

def readNumber (width : Nat) (cs : List Char) : Option (Nat × List Char) :=
  let cs := skipBlanks cs
  let digits := (cs.take width).takeWhile Char.isDigit
  if digits.isEmpty then none else some (ofDigits digits, cs.drop digits.length)

/-- A year: up to four digits, or a sign and any number of digits. -/
def readYear (cs : List Char) : Option (Int × List Char) :=
  match skipBlanks cs with
  | '-' :: rest => (signed rest).map fun (n, rest) => (-(n : Int), rest)
  | '+' :: rest => (signed rest).map fun (n, rest) => ((n : Int), rest)
  | cs => (readNumber 4 cs).map fun (n, rest) => ((n : Int), rest)
where
  signed (cs : List Char) : Option (Nat × List Char) :=
    let digits := cs.takeWhile Char.isDigit
    if digits.isEmpty then none else some (ofDigits digits, cs.drop digits.length)

def readMark (mark : Char) (cs : List Char) : Option (List Char) :=
  match skipBlanks cs with
  | c :: rest => if c = mark then some rest else none
  | [] => none

def readSeparator : List Char → Option (List Char)
  | 'T' :: rest | 't' :: rest | ' ' :: rest => some rest
  | _ => none

/-- Nanoseconds from the digits behind the point, of which nine count. -/
def readFraction : List Char → Option (Nat × List Char)
  | '.' :: rest =>
    let digits := rest.takeWhile Char.isDigit
    if digits.isEmpty then none
    else
      let kept := digits.take 9
      some (ofDigits kept * Nat.pow 10 (9 - kept.length), rest.drop digits.length)
  | cs => some (0, cs)

def readPair : List Char → Option (Nat × List Char)
  | a :: b :: rest => if a.isDigit && b.isDigit then some (ofDigits [a, b], rest) else none
  | _ => none

/-- Minutes from hours and minutes, with colons and blanks allowed between them. -/
def readHoursMinutes (cs : List Char) : Option (Int × List Char) := do
  let (hours, rest) ← readPair cs
  let (minutes, rest) ← readPair (rest.dropWhile fun c => c = ':' || isBlank c)
  if minutes < 60 then some ((hours * 60 + minutes : Nat), rest) else none

/-- The offset from universal time in minutes. -/
def readOffset (cs : List Char) : Option (Int × List Char) :=
  match skipBlanks cs with
  | 'Z' :: rest | 'z' :: rest => some (0, rest)
  | '+' :: rest => readHoursMinutes rest
  | '-' :: rest | '−' :: rest => (readHoursMinutes rest).map fun (minutes, rest) => (-minutes, rest)
  | u :: t :: c :: rest =>
    if [u.toUpper, t.toUpper, c.toUpper] = ['U', 'T', 'C'] then some (0, rest) else none
  | _ => none

/-- Date and time as written, and the offset. -/
def read (cs : List Char) : Option (Timestamp × Int × List Char) := do
  let (year, rest) ← readYear cs
  let rest ← readMark '-' rest
  let (month, rest) ← readNumber 2 rest
  let rest ← readMark '-' rest
  let (day, rest) ← readNumber 2 rest
  let rest ← readSeparator rest
  let (hour, rest) ← readNumber 2 rest
  let rest ← readMark ':' rest
  let (minute, rest) ← readNumber 2 rest
  let rest ← readMark ':' rest
  let (second, rest) ← readNumber 2 rest
  let (nanos, rest) ← readFraction rest
  let (offset, rest) ← readOffset rest
  let moment ← of? (← Date.of? year month day) hour minute second nanos
  some (moment, offset, rest)

end Parser

def parse? (s : String) : Option Timestamp := do
  let (moment, offset, rest) ← Parser.read s.toList
  if (skipBlanks rest).isEmpty ∧ -1440 < offset ∧ offset < 1440 then moment.shiftBack? offset
  else none

end Automat.Timestamp
