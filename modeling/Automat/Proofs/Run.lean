import Automat.Proofs.Duration
import Automat.Run

/-!
The queue and the next deadline of a run: what it means that there is a next event or a deadline,
and that there is none. Besides, the snapshot that a publication makes of a run.
-/

namespace Automat

/-- Firing marks the armed timer and changes nothing else. -/
theorem Timers.fire?_eq_some_iff {S : Type} {timers fired : Timers S} {now : Duration} {id : TimerId} :
    timers.fire? now = some (id, fired) ↔ ∃ timer, timers.armed = some timer ∧
      timer.fired = false ∧ timer.due ≤ now ∧ timer.id = id ∧
      fired = { timers with armed := some { timer with fired := true } } := by
  unfold fire?
  constructor
  · intro h
    split at h
    · next timer ha =>
      split at h
      · cases h
      · next hn =>
        cases h
        rw [not_or, Duration.lt_def, Nat.not_lt] at hn
        exact ⟨timer, ha, by simpa using hn.1, hn.2, rfl, rfl⟩
    · cases h
  · rintro ⟨timer, ha, hf, hd, rfl, rfl⟩
    have hn : ¬ (timer.fired = true ∨ now < timer.due) := by
      rw [not_or, hf, Duration.lt_def, Nat.not_lt]
      exact ⟨Bool.false_ne_true, hd⟩
    simp only [ha]
    rw [if_neg hn]

namespace Run

variable {S E C W O : Type} {run rest : Run S E C W O}

def shown (event : Option E) (outcome : Outcome S) (run : Run S E C W O) : Snapshot S C E :=
  ⟨run.state, run.previous, run.context, event, outcome, run.visit, run.now⟩

/-! ## Queue -/

theorem queue_eq_nil (hr : run.status = .running) (h : run.dequeue? = none) : run.queue = [] := by
  unfold dequeue? at h
  split at h
  · cases h
  · next hne =>
    cases hq : run.queue with
    | nil => rfl
    | cons event queue => exact absurd hq (hne event queue hr)

/-- What is put into an empty queue is the next event. -/
theorem dequeue?_enqueue (run : Run S E C W O) (hr : run.status = .running) (hq : run.queue = [])
    (event : E) : (run.enqueue [event]).dequeue? = some (event, run) := by
  obtain ⟨⟨status, state, previous, context, visit, now, queue, timers, history, journal, world⟩,
    audience⟩ := run
  cases hr
  cases hq
  rfl

/-- Taking an event from the queue changes nothing but the queue. -/
theorem dequeue?_eq_some_iff {event : E} :
    run.dequeue? = some (event, rest) ↔ run.status = .running ∧
      ∃ queue, run.queue = event :: queue ∧ rest = { run with queue := queue } := by
  unfold dequeue?
  constructor
  · intro h
    split at h
    · next first queue hr hq =>
      cases h
      exact ⟨hr, queue, hq, rfl⟩
    · cases h
  · rintro ⟨hr, queue, hq, rfl⟩
    rw [hr, hq]

theorem dequeue?_eq_none (hq : run.queue = []) : run.dequeue? = none := by
  unfold dequeue?
  rw [hq]
  split <;> simp_all

/-! ## Deadline -/

theorem running_of_nextDeadline? {due : Duration} (h : run.nextDeadline? = some due) :
    run.status = .running := by
  unfold nextDeadline? at h
  split at h
  · assumption
  · cases h

/-- The next deadline is that of the armed timer, unless it has fired. -/
theorem nextDeadline?_eq_some_iff {due : Duration} :
    run.nextDeadline? = some due ↔ run.status = .running ∧
      ∃ timer, run.timers.armed = some timer ∧ timer.fired = false ∧ timer.due = due := by
  unfold nextDeadline? Timers.nextDue?
  constructor
  · intro h
    split at h
    · next hr =>
      split at h
      · next timer ha =>
        split at h
        · cases h
        · next hf => exact ⟨hr, timer, ha, by simpa using hf, Option.some.inj h⟩
      · cases h
    · cases h
  · rintro ⟨hr, timer, ha, hf, rfl⟩
    simp [hr, ha, hf]

theorem lt_of_nextDeadline? {time due : Duration}
    (h : run.nextDeadline?.filter (· ≤ time) = none) (hd : run.nextDeadline? = some due) :
    time < due := by
  rw [hd, Option.filter_some, ite_eq_right_iff] at h
  rw [Duration.lt_def, ← Nat.not_le]
  intro hle
  cases h (decide_eq_true hle)

theorem exists_fire?_of_nextDeadline? {due : Duration} (h : run.nextDeadline? = some due) :
    ∃ id timers, (run.moveClock due).timers.fire? (run.moveClock due).now = some (id, timers) := by
  obtain ⟨-, timer, ha, hf, rfl⟩ := nextDeadline?_eq_some_iff.1 h
  exact ⟨_, _, Timers.fire?_eq_some_iff.2
    ⟨timer, ha, hf, le_max_right run.now timer.due, rfl, rfl⟩⟩

end Run

end Automat
