import Automat.Timestamp.Basic
import Automat.Text.Basic

/-!
The text of a moment: date and time in universal time, with none, three, six or nine digits of
fraction, whichever is the shortest that loses nothing. A year outside 0 to 9999 has a sign.
-/

namespace Automat.Timestamp

open Automat.Text

def writeYear (year : Int) : List Char :=
  if 0 ≤ year ∧ year ≤ 9999 then padded 4 year.toNat
  else (if year < 0 then '-' else '+') :: padded 4 year.natAbs

def writeFraction (nanos : Nat) : List Char :=
  if nanos = 0 then []
  else if nanos % 1000000 = 0 then '.' :: padded 3 (nanos / 1000000)
  else if nanos % 1000 = 0 then '.' :: padded 6 (nanos / 1000)
  else '.' :: padded 9 nanos

def write (t : Timestamp) : List Char :=
  writeYear t.date.year ++ '-' :: padded 2 t.date.month ++ '-' :: padded 2 t.date.day ++
    'T' :: padded 2 t.hour ++ ':' :: padded 2 t.minute ++ ':' :: padded 2 t.second ++
    writeFraction t.nanos ++ ['Z']

def text (t : Timestamp) : String := String.ofList t.write

end Automat.Timestamp
