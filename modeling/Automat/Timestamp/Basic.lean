import Automat.Date

/-!
Moments in universal time, to the nanosecond. A leap second is the sixtieth second of a minute.
-/

namespace Automat

/-- A moment in universal time. A leap second has `second = 60`. -/
structure Timestamp where
  date : Date
  hour : Nat
  minute : Nat
  second : Nat
  nanos : Nat
  hour_lt : hour < 24
  minute_lt : minute < 60
  second_le : second ≤ 60
  nanos_lt : nanos < 1000000000
deriving DecidableEq

namespace Timestamp

def of? (date : Date) (hour minute second nanos : Nat) : Option Timestamp :=
  if h : hour < 24 ∧ minute < 60 ∧ second ≤ 60 ∧ nanos < 1000000000 then
    some ⟨date, hour, minute, second, nanos, h.1, h.2.1, h.2.2.1, h.2.2.2⟩
  else none

@[simp]
theorem of?_self (t : Timestamp) : of? t.date t.hour t.minute t.second t.nanos = some t := by
  simp [of?, t.hour_lt, t.minute_lt, t.second_le, t.nanos_lt]

/-- The moment so many seconds after the start of 1970. From the last second of a minute, the
nanoseconds may run through a leap second. -/
def ofUnix? (seconds : Int) (nanos : Nat) : Option Timestamp := do
  let leap := decide (1000000000 ≤ nanos)
  if leap ∧ seconds % 60 ≠ 59 then none
  else do
    let date ← Date.ofDays? (seconds / 86400)
    let second := (seconds % 86400).toNat
    of? date (second / 3600) (second / 60 % 60) (if leap then 60 else second % 60)
      (if leap then nanos - 1000000000 else nanos)

/-- The moment as read on a clock that is `offset` minutes ahead, turned into universal time. -/
def shiftBack? (t : Timestamp) (offset : Int) : Option Timestamp := do
  let minutes : Int := t.hour * 60 + t.minute - offset
  let date ←
    if minutes < 0 then t.date.previous?
    else if 1440 ≤ minutes then t.date.next?
    else some t.date
  let minuteOfDay := (minutes % 1440).toNat
  of? date (minuteOfDay / 60) (minuteOfDay % 60) t.second t.nanos

def epoch : Timestamp :=
  ⟨⟨1970, 1, 1, by decide, by decide, by decide, by decide, by decide, by decide⟩, 0, 0, 0, 0,
    by decide, by decide, by decide, by decide⟩

end Timestamp

end Automat
