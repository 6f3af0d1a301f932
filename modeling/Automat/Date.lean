/-!
Calendar dates of the proleptic Gregorian calendar, from year -262143 to year 262142, and the
count of days from 1 January 1970.
-/

namespace Automat

namespace Date

def isLeapYear (year : Int) : Bool :=
  year % 4 = 0 && (year % 100 ≠ 0 || year % 400 = 0)

def daysInMonth (year : Int) (month : Nat) : Nat :=
  match month with
  | 2 => if isLeapYear year then 29 else 28
  | 4 | 6 | 9 | 11 => 30
  | _ => 31

def firstYear : Int := -262143

def lastYear : Int := 262142

end Date

/-- A date; the month and the day count from one. -/
structure Date where
  year : Int
  month : Nat
  day : Nat
  year_ge : Date.firstYear ≤ year
  year_le : year ≤ Date.lastYear
  month_pos : 1 ≤ month
  month_le : month ≤ 12
  day_pos : 1 ≤ day
  day_le : day ≤ Date.daysInMonth year month
deriving DecidableEq

namespace Date

def of? (year : Int) (month day : Nat) : Option Date :=
  if h : firstYear ≤ year ∧ year ≤ lastYear ∧ 1 ≤ month ∧ month ≤ 12 ∧ 1 ≤ day ∧
      day ≤ daysInMonth year month then
    some ⟨year, month, day, h.1, h.2.1, h.2.2.1, h.2.2.2.1, h.2.2.2.2.1, h.2.2.2.2.2⟩
  else none

@[simp]
theorem of?_self (d : Date) : of? d.year d.month d.day = some d := by
  simp [of?, d.year_ge, d.year_le, d.month_pos, d.month_le, d.day_pos, d.day_le]

def next? (d : Date) : Option Date :=
  if d.day < daysInMonth d.year d.month then of? d.year d.month (d.day + 1)
  else if d.month < 12 then of? d.year (d.month + 1) 1
  else of? (d.year + 1) 1 1

def previous? (d : Date) : Option Date :=
  if 1 < d.day then of? d.year d.month (d.day - 1)
  else if 1 < d.month then of? d.year (d.month - 1) (daysInMonth d.year (d.month - 1))
  else of? (d.year - 1) 12 31

/-! ## Counting days -/

def daysBeforeYear (year : Int) : Int :=
  let y := year - 1
  365 * (year - 1970) + (y / 4 - y / 100 + y / 400) - 477

/-- The month and day of a day of the year counted from zero, looking from month `month` on. -/
def monthAndDay (year : Int) (month : Nat) : Nat → Nat → Nat × Nat
  | 0, day => (month, day + 1)
  | fuel + 1, day =>
    if day < daysInMonth year month then (month, day + 1)
    else monthAndDay year (month + 1) fuel (day - daysInMonth year month)

/-- The date so many days after 1 January 1970. The mean year has 146097 / 400 days, so the year
is one of two. -/
def ofDays? (days : Int) : Option Date :=
  let guess := 1970 + days * 400 / 146097
  let year :=
    if daysBeforeYear (guess + 1) ≤ days then guess + 1
    else if daysBeforeYear guess ≤ days then guess
    else guess - 1
  let (month, day) := monthAndDay year 1 11 (days - daysBeforeYear year).toNat
  of? year month day

end Date

end Automat
