/-!
Lengths of time in whole nanoseconds, from zero to just under 2^64 seconds. A sum stops at the
longest duration and a difference at zero, so clock arithmetic never fails; `add?` is the sum
that fails instead of stopping.
-/

namespace Automat

abbrev nanosPerSecond : Nat := 1000000000

abbrev Duration.maxTotal : Nat := 18446744073709551615999999999

/-- A length of time, counted in nanoseconds. -/
structure Duration where
  total : Nat
  total_le : total ≤ Duration.maxTotal
deriving DecidableEq

namespace Duration

@[ext]
theorem ext {a b : Duration} (h : a.total = b.total) : a = b := by
  cases a; cases b; cases h; rfl

def zero : Duration := ⟨0, Nat.zero_le _⟩

def longest : Duration := ⟨maxTotal, Nat.le_refl _⟩

instance : Inhabited Duration := ⟨zero⟩

instance : LE Duration := ⟨fun a b => a.total ≤ b.total⟩

instance : LT Duration := ⟨fun a b => a.total < b.total⟩

instance (a b : Duration) : Decidable (a ≤ b) := inferInstanceAs (Decidable (a.total ≤ b.total))

instance (a b : Duration) : Decidable (a < b) := inferInstanceAs (Decidable (a.total < b.total))

theorem le_def {a b : Duration} : a ≤ b ↔ a.total ≤ b.total := Iff.rfl

theorem lt_def {a b : Duration} : a < b ↔ a.total < b.total := Iff.rfl

/-- The duration of `n` nanoseconds, or the longest one. -/
def clamp (n : Nat) : Duration := ⟨min n maxTotal, Nat.min_le_right _ _⟩

/-- The duration of `n` nanoseconds, if there is one. -/
def ofTotal? (n : Nat) : Option Duration :=
  if h : n ≤ maxTotal then some ⟨n, h⟩ else none

/-- Sum, cut off at the longest duration. -/
instance : Add Duration := ⟨fun a b => clamp (a.total + b.total)⟩

/-- Difference, cut off at zero. -/
instance : Sub Duration :=
  ⟨fun a b => ⟨a.total - b.total, Nat.le_trans (Nat.sub_le _ _) a.total_le⟩⟩

instance : Max Duration := ⟨fun a b => if a ≤ b then b else a⟩

@[simp]
theorem total_clamp (n : Nat) : (clamp n).total = min n maxTotal := rfl

@[simp]
theorem total_zero : zero.total = 0 := rfl

@[simp]
theorem total_longest : longest.total = maxTotal := rfl

@[simp]
theorem total_add (a b : Duration) : (a + b).total = min (a.total + b.total) maxTotal := rfl

@[simp]
theorem total_sub (a b : Duration) : (a - b).total = a.total - b.total := rfl

@[simp]
theorem total_max (a b : Duration) : (max a b).total = max a.total b.total := by
  show (if a ≤ b then b else a).total = _
  by_cases h : a ≤ b <;> simp only [h, if_true, if_false] <;> rw [le_def] at h <;> omega

/-- The sum, if it is a duration. -/
def add? (a b : Duration) : Option Duration := ofTotal? (a.total + b.total)

def seconds (d : Duration) : UInt64 := UInt64.ofNat (d.total / nanosPerSecond)

def subsecond (d : Duration) : Nat := d.total % nanosPerSecond

/-- Seconds and nanoseconds together; whole seconds among the nanoseconds carry over. -/
def ofSeconds? (seconds : UInt64) (nanos : Nat) : Option Duration :=
  ofTotal? (seconds.toNat * nanosPerSecond + nanos)

theorem millis_le (ms : UInt64) : ms.toNat * 1000000 ≤ maxTotal := by
  have := ms.toNat_lt
  simp only [maxTotal]
  omega

def ofMillis (ms : UInt64) : Duration := ⟨ms.toNat * 1000000, millis_le ms⟩

/-- Reading back seconds and nanoseconds gives the duration they were taken from. -/
theorem ofSeconds?_seconds_subsecond (d : Duration) :
    ofSeconds? d.seconds d.subsecond = some d := by
  have h := d.total_le
  simp only [maxTotal] at h
  have hs : d.total / nanosPerSecond < 2 ^ 64 := by
    simp only [nanosPerSecond]; omega
  have hd : d.seconds.toNat = d.total / nanosPerSecond := by
    simp only [seconds, UInt64.toNat_ofNat']
    exact Nat.mod_eq_of_lt hs
  have hsum : d.seconds.toNat * nanosPerSecond + d.subsecond = d.total := by
    rw [hd, subsecond, Nat.mul_comm]
    exact Nat.div_add_mod _ _
  simp [ofSeconds?, ofTotal?, hsum, d.total_le]

end Duration

end Automat
