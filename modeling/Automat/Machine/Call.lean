import Automat.Machine

/-!
The calls that drive a machine, as data, and what a machine answers. Registering callbacks is not
among them: it concerns the audience alone. Main statement: a larger bound on the steps never
changes the answer of a call that came to an end (`call_mono`).
-/

namespace Automat

/-- A call that drives a machine. -/
inductive Call (K E : Type) where
  | start
  | send (event : E)
  | advance (elapsed : Duration)
  | advanceTo (time : Duration)
  | stop
  | can (kind : K)

inductive Answer where
  | done
  | refused (error : StartError)
  | can (answer : Bool)
deriving DecidableEq

namespace Machine

variable {S K E C W O : Type} [DecidableEq S] [DecidableEq K] [Named S] [Named K] [EventLike E K]

/-- Carries out a call within a bound on the steps. -/
def call (m : Machine S K E C W) (fuel : Nat) (call : Call K E) (run : Run S E C W O) :
    Option (Run S E C W O × Answer) :=
  match call with
  | .start => (m.start fuel run).map fun
      | (run, .ok _) => (run, .done)
      | (run, .error error) => (run, .refused error)
  | .send event => (m.send fuel event run).map (·, .done)
  | .advance elapsed => (m.advance fuel elapsed run).map (·, .done)
  | .advanceTo time => (m.advanceTo fuel time run).map (·, .done)
  | .stop => some (run.stop, .done)
  | .can kind =>
    let (run, answer) := m.canTransition kind run
    some (run, .can answer)

/-- Carries out calls in order. -/
def calls (m : Machine S K E C W) (fuel : Nat) :
    List (Call K E) → Run S E C W O → Option (Run S E C W O × List Answer)
  | [], run => some (run, [])
  | first :: rest, run => do
    let (run, answer) ← m.call fuel first run
    let (run, answers) ← m.calls fuel rest run
    some (run, answer :: answers)

/-! ## The bound -/

theorem drain_mono {m : Machine S K E C W} {fuel more : Nat} {run done : Run S E C W O}
    (h : m.drain fuel run = some done) (hle : fuel ≤ more) : m.drain more run = some done := by
  induction fuel generalizing more run with
  | zero =>
    unfold drain at h ⊢
    cases hq : run.dequeue? with
    | none => simpa [hq] using h
    | some next => simp [hq] at h
  | succ fuel ih =>
    obtain ⟨more, rfl⟩ : ∃ k, more = k + 1 := ⟨more - 1, by omega⟩
    unfold drain at h ⊢
    cases hq : run.dequeue? with
    | none => simpa [hq] using h
    | some next =>
      simp only [hq] at h ⊢
      exact ih h (by omega)

theorem fire_mono {m : Machine S K E C W} {fuel more : Nat} {run done : Run S E C W O}
    (h : m.fire fuel run = some done) (hle : fuel ≤ more) : m.fire more run = some done := by
  unfold fire at h ⊢
  cases hf : run.timers.fire? run.now with
  | none => simpa [hf] using h
  | some fired =>
    simp only [hf] at h ⊢
    exact drain_mono h hle

theorem send_mono {m : Machine S K E C W} {event : E} {fuel more : Nat} {run done : Run S E C W O}
    (h : m.send fuel event run = some done) (hle : fuel ≤ more) :
    m.send more event run = some done := by
  unfold send at h ⊢
  split
  · next hr => exact drain_mono (by simpa [hr] using h) hle
  · next hr => simpa [hr] using h

theorem advanceTo_mono {m : Machine S K E C W} {time : Duration} {fuel more : Nat}
    {run done : Run S E C W O} (h : m.advanceTo fuel time run = some done) (hle : fuel ≤ more) :
    m.advanceTo more time run = some done := by
  induction fuel generalizing more run with
  | zero =>
    unfold advanceTo at h ⊢
    cases hd : run.nextDeadline?.filter (· ≤ time) with
    | none => simpa [hd] using h
    | some due => simp [hd] at h
  | succ fuel ih =>
    obtain ⟨more, rfl⟩ : ∃ k, more = k + 1 := ⟨more - 1, by omega⟩
    unfold advanceTo at h ⊢
    cases hd : run.nextDeadline?.filter (· ≤ time) with
    | none => simpa [hd] using h
    | some due =>
      simp only [hd, Option.bind_eq_some_iff] at h ⊢
      obtain ⟨fired, hf, ht⟩ := h
      exact ⟨fired, fire_mono hf (by omega), ih ht (by omega)⟩

theorem start_mono {m : Machine S K E C W} {fuel more : Nat} {run : Run S E C W O}
    {done : Run S E C W O × Except StartError Unit}
    (h : m.start fuel run = some done) (hle : fuel ≤ more) : m.start more run = some done := by
  unfold start at h ⊢
  split
  · next hr =>
    rw [if_pos hr] at h
    split
    · next hp =>
      simp only [hp, Option.map_eq_some_iff] at h ⊢
      obtain ⟨fired, hd, rfl⟩ := h
      exact ⟨fired, drain_mono hd hle, rfl⟩
    · next hp => simpa only [hp] using h
  · next hr => rwa [if_neg hr] at h

theorem call_mono {m : Machine S K E C W} {call : Call K E} {fuel more : Nat}
    {run : Run S E C W O} {done : Run S E C W O × Answer}
    (h : m.call fuel call run = some done) (hle : fuel ≤ more) :
    m.call more call run = some done := by
  cases call with
  | start =>
    simp only [Machine.call, Option.map_eq_some_iff] at h ⊢
    obtain ⟨result, hs, rfl⟩ := h
    exact ⟨result, start_mono hs hle, rfl⟩
  | send event =>
    simp only [Machine.call, Option.map_eq_some_iff] at h ⊢
    obtain ⟨result, hs, rfl⟩ := h
    exact ⟨result, send_mono hs hle, rfl⟩
  | advance elapsed =>
    simp only [Machine.call, advance, Option.map_eq_some_iff] at h ⊢
    obtain ⟨result, hs, rfl⟩ := h
    exact ⟨result, advanceTo_mono hs hle, rfl⟩
  | advanceTo time =>
    simp only [Machine.call, Option.map_eq_some_iff] at h ⊢
    obtain ⟨result, hs, rfl⟩ := h
    exact ⟨result, advanceTo_mono hs hle, rfl⟩
  | stop => exact h
  | can kind => exact h

end Machine

end Automat
