import Automat.Machine.Call
import Automat.Proofs.Run

/-!
Emptying the queue and advancing, without the bound on the steps (`Drained`, `Advanced`). Main
statements: an advance that ends on the way and one that goes on from there come to the same as one
advance to the end (`advanceTo_join`), and every advance can be stopped on the way
(`advanceTo_split`).
-/

namespace Automat

/-- A stop on the way of the clock leaves no trace. -/
theorem Run.moveClock_moveClock {S E C W O : Type} (run : Run S E C W O) {a b : Duration}
    (h : a ≤ b) : (run.moveClock a).moveClock b = run.moveClock b := by
  have hmax : max (max run.now a) b = max run.now b := by
    apply Duration.ext
    rw [Duration.le_def] at h
    simp only [Duration.total_max]
    omega
  show ({ run with now := max (max run.now a) b } : Run S E C W O) = _
  rw [hmax]
  rfl

namespace Machine

variable {S K E C W O : Type} [DecidableEq S] [DecidableEq K] [Named S] [Named K] [EventLike E K]

/-- What emptying the queue does if it comes to an end within a bound: events are processed one
after the other until none is left. -/
inductive Drained (m : Machine S K E C W) : Nat → Run S E C W O → Run S E C W O → Prop where
  | rested {fuel : Nat} {run : Run S E C W O} : run.dequeue? = none → Drained m fuel run run
  | took {fuel : Nat} {run rest done : Run S E C W O} {event : E} :
      run.dequeue? = some (event, rest) → Drained m fuel (m.process event rest) done →
      Drained m (fuel + 1) run done

/-- What an advance to a time does if it comes to an end within a bound: the timers due on the way
fire one after the other, and in the end only the clock moves. -/
inductive Advanced (m : Machine S K E C W) (time : Duration) :
    Nat → Run S E C W O → Run S E C W O → Prop where
  | clear {fuel : Nat} {run : Run S E C W O} :
      run.nextDeadline?.filter (· ≤ time) = none → Advanced m time fuel run (run.moveClock time)
  | fired {fuel : Nat} {run next done : Run S E C W O} {due : Duration} :
      run.nextDeadline? = some due → due ≤ time → m.fire fuel (run.moveClock due) = some next →
      Advanced m time fuel next done → Advanced m time (fuel + 1) run done

variable {m : Machine S K E C W} {run middle done : Run S E C W O} {a b : Duration}

theorem drained_iff {fuel : Nat} : m.drain fuel run = some done ↔ m.Drained fuel run done := by
  constructor
  · intro h
    induction fuel generalizing run with
    | zero =>
      unfold drain at h
      cases hq : run.dequeue? with
      | none =>
        obtain rfl : run = done := by simpa [hq] using h
        exact .rested hq
      | some next => simp [hq] at h
    | succ fuel ih =>
      unfold drain at h
      cases hq : run.dequeue? with
      | none =>
        obtain rfl : run = done := by simpa [hq] using h
        exact .rested hq
      | some next =>
        simp only [hq] at h
        exact .took hq (ih h)
  · intro h
    induction h with
    | rested hq =>
      unfold drain
      rw [hq]
    | took hq _ ih =>
      unfold drain
      rw [hq]
      exact ih

theorem advanced_iff {fuel : Nat} {time : Duration} :
    m.advanceTo fuel time run = some done ↔ m.Advanced time fuel run done := by
  constructor
  · intro h
    induction fuel generalizing run with
    | zero =>
      unfold advanceTo at h
      cases hd : run.nextDeadline?.filter (· ≤ time) with
      | none =>
        obtain rfl : run.moveClock time = done := by simpa [hd] using h
        exact .clear hd
      | some due => simp [hd] at h
    | succ fuel ih =>
      unfold advanceTo at h
      cases hd : run.nextDeadline?.filter (· ≤ time) with
      | none =>
        obtain rfl : run.moveClock time = done := by simpa [hd] using h
        exact .clear hd
      | some due =>
        simp only [hd, Option.bind_eq_some_iff] at h
        obtain ⟨next, hf, ht⟩ := h
        obtain ⟨hn, hle⟩ := Option.filter_eq_some_iff.1 hd
        exact .fired hn (of_decide_eq_true hle) hf (ih ht)
  · intro h
    induction h with
    | clear hd =>
      unfold advanceTo
      rw [hd]
    | @fired fuel run next done due hn hle hf _ ih =>
      have hd : run.nextDeadline?.filter (· ≤ time) = some due :=
        Option.filter_eq_some_iff.2 ⟨hn, decide_eq_true hle⟩
      unfold advanceTo
      simp only [hd, Option.bind_eq_some_iff]
      exact ⟨next, hf, ih⟩

/-- Moving the clock ahead of an advance changes nothing, as long as no deadline is passed. -/
theorem advanceTo_moveClock (h : run.nextDeadline?.filter (· ≤ a) = none) (hab : a ≤ b)
    (fuel : Nat) : m.advanceTo fuel b (run.moveClock a) = m.advanceTo fuel b run := by
  have hdeadline : (run.moveClock a).nextDeadline? = run.nextDeadline? := rfl
  unfold advanceTo
  rw [hdeadline]
  cases hd : run.nextDeadline?.filter (· ≤ b) with
  | none => simp only [Run.moveClock_moveClock run hab]
  | some due =>
    cases fuel with
    | zero => rfl
    | succ fuel =>
      have hlt := Run.lt_of_nextDeadline? h (Option.filter_eq_some_iff.1 hd).1
      simp only [Run.moveClock_moveClock run (Nat.le_of_lt hlt)]

/-- Two advances one after the other are one advance. -/
theorem advanceTo_join {fuel more : Nat} (ha : m.advanceTo fuel a run = some middle)
    (hab : a ≤ b) (hb : m.advanceTo more b middle = some done) :
    m.advanceTo (fuel + more) b run = some done := by
  have h := advanced_iff.1 ha
  induction h with
  | clear hd =>
    rw [advanceTo_moveClock hd hab] at hb
    exact advanceTo_mono hb (Nat.le_add_left _ _)
  | fired hn hle hf ht ih =>
    -- A deadline on the way to the first time is also on the way to the second.
    have hjoin := advanced_iff.1 (ih (advanced_iff.2 ht) hb)
    rw [Nat.succ_add]
    exact advanced_iff.2
      (.fired hn (le_trans hle hab) (fire_mono hf (Nat.le_add_right _ _)) hjoin)

theorem advanceTo_split_of_clear {fuel : Nat} (h : m.advanceTo fuel b run = some done)
    (hab : a ≤ b) (hd : run.nextDeadline?.filter (· ≤ a) = none) :
    ∃ middle, m.advanceTo fuel a run = some middle ∧ m.advanceTo fuel b middle = some done := by
  refine ⟨run.moveClock a, advanced_iff.2 (.clear hd), ?_⟩
  rw [advanceTo_moveClock hd hab]
  exact h

/-- An advance can be stopped on the way and taken up again. -/
theorem advanceTo_split {fuel : Nat} (h : m.advanceTo fuel b run = some done) (hab : a ≤ b) :
    ∃ middle, m.advanceTo fuel a run = some middle ∧ m.advanceTo fuel b middle = some done := by
  have hsteps := advanced_iff.1 h
  induction hsteps with
  | @clear fuel run hd =>
    refine advanceTo_split_of_clear h hab ?_
    rw [Option.filter_eq_none_iff] at hd ⊢
    intro due hn hle
    exact hd due hn (decide_eq_true (le_trans (of_decide_eq_true hle) hab))
  | @fired fuel run next done due hn hle hf ht ih =>
    by_cases hdue : due ≤ a
    · obtain ⟨middle, ha, hb⟩ := ih (advanced_iff.2 ht)
      exact ⟨middle, advanced_iff.2 (.fired hn hdue hf (advanced_iff.1 ha)),
        advanceTo_mono hb (Nat.le_succ fuel)⟩
    · refine advanceTo_split_of_clear h hab ?_
      rw [hn, Option.filter_some, if_neg (by simpa using hdue)]

end Machine

end Automat
