import Automat.Duration
import Mathlib.Algebra.Group.Basic
import Mathlib.Order.Defs.LinearOrder

/-!
The order of durations, and their sums. Durations are ordered as their nanoseconds are. Sums that are
cut off at the longest duration may be taken in any order, and where nothing is cut off they agree
with the sums that may fail.
-/

namespace Automat.Duration

instance : LinearOrder Duration where
  le_refl a := Nat.le_refl a.total
  le_trans a b c := Nat.le_trans
  lt_iff_le_not_ge a b := Nat.lt_iff_le_and_not_ge
  le_antisymm a b h k := ext (Nat.le_antisymm h k)
  le_total a b := Nat.le_total a.total b.total
  toDecidableLE := inferInstance
  toDecidableEq := inferInstance
  toDecidableLT := inferInstance

instance : AddCommSemigroup Duration where
  add_assoc a b c := by
    apply ext
    simp only [total_add]
    omega
  add_comm a b := by
    apply ext
    rw [total_add, total_add, Nat.add_comm]

/-! ## Sums that are cut off -/

theorem le_add (a b : Duration) : a ≤ a + b := by
  have ha := a.total_le
  rw [le_def, total_add]
  omega

theorem add_le_add_right {a b : Duration} (h : a ≤ b) (c : Duration) : a + c ≤ b + c := by
  rw [le_def] at h
  rw [le_def, total_add, total_add]
  omega

theorem max_add (a b c : Duration) : max a b + c = max (a + c) (b + c) := by
  apply ext
  simp only [total_add, total_max]
  omega

theorem total_add_of_le {a b : Duration} (h : a.total + b.total ≤ maxTotal) :
    (a + b).total = a.total + b.total := by
  rw [total_add]
  exact Nat.min_eq_left h

/-! ## Sums that may fail -/

/-- The sum that may fail is exact when it succeeds, and succeeds when it can be. -/
theorem add?_eq_some_iff {a b c : Duration} : a.add? b = some c ↔ c.total = a.total + b.total := by
  unfold add? ofTotal?
  constructor
  · intro h
    split at h
    · cases h
      rfl
    · cases h
  · intro h
    have hle : a.total + b.total ≤ maxTotal := h ▸ c.total_le
    rw [dif_pos hle, Option.some.injEq]
    exact ext h.symm

theorem add?_eq_none_iff {a b : Duration} :
    a.add? b = none ↔ maxTotal < a.total + b.total := by
  rw [← Nat.not_le, Option.eq_none_iff_forall_ne_some]
  constructor
  · intro h hle
    exact h ⟨a.total + b.total, hle⟩ (add?_eq_some_iff.2 rfl)
  · intro h c hc
    exact h (add?_eq_some_iff.1 hc ▸ c.total_le)

theorem eq_add_of_add? {a b c : Duration} (h : a.add? b = some c) : c = a + b := by
  have htotal := add?_eq_some_iff.1 h
  apply ext
  rw [total_add, ← htotal]
  exact (Nat.min_eq_left c.total_le).symm

end Automat.Duration
