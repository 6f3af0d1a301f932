import Automat.Proofs.Machine.Timed
import Automat.Script.Signal

/-!
The clock of a run. It waits for the timer that is due (`Punctual`), and it stands after an advance
where it was asked to go, unless it was there before (`now_advanceTo`). So an advance can be made
in parts, and an advance to the past does nothing (`advance_in_parts`).
-/

namespace Automat

namespace Machine

section

variable {S K E C W O : Type}

/-- No deadline lies in the past, and there is none without a running machine. -/
structure Punctual (run : Run S E C W O) : Prop where
  disarmed : run.status ≠ .running → run.timers.armed = none
  ahead : ∀ due, run.nextDeadline? = some due → run.now ≤ due

variable {m : Machine S K E C W} {run next : Run S E C W O}

/-! ## What keeps the clock in front of the timer -/

theorem punctual_newRun (world : W) (observers : O) : Punctual (m.newRun world observers) where
  disarmed _ := rfl
  ahead due hd := by cases hd

theorem Punctual.of_eq (h : Punctual run) (hr : next.status = run.status)
    (ht : next.timers = run.timers) (hn : next.now = run.now) : Punctual next := by
  constructor
  · rw [hr, ht]
    exact h.disarmed
  · unfold Run.nextDeadline?
    rw [hr, ht, hn]
    exact h.ahead

theorem punctual_of_disarmed (ha : run.timers.armed = none) : Punctual run where
  disarmed _ := ha
  ahead due hd := by
    obtain ⟨-, timer, harmed, -⟩ := Run.nextDeadline?_eq_some_iff.1 hd
    cases ha.symm.trans harmed

theorem Punctual.running_of_armed (h : Punctual run) {timer : Timer S}
    (ha : run.timers.armed = some timer) : run.status = .running := by
  by_cases hr : run.status = .running
  · exact hr
  · cases (h.disarmed hr).symm.trans ha

theorem Punctual.now_le_due (h : Punctual run) {timer : Timer S}
    (ha : run.timers.armed = some timer) (hf : timer.fired = false) : run.now ≤ timer.due :=
  h.ahead timer.due
    (Run.nextDeadline?_eq_some_iff.2 ⟨h.running_of_armed ha, timer, ha, hf, rfl⟩)

/-- The deadline in a state just entered is measured from now. -/
theorem after?_of_entry [DecidableEq S] (ha : run.timers.armed = none) {due : Duration}
    (hd : (run.withTimers (m.entryTimers run)).nextDeadline? = some due) :
    ∃ after, m.definition.after? run.state = some after ∧ due = run.now + after.delay := by
  obtain ⟨-, timer, harmed, -, rfl⟩ := Run.nextDeadline?_eq_some_iff.1 hd
  change (m.entryTimers run).armed = some timer at harmed
  unfold entryTimers at harmed
  split at harmed
  · next after hafter =>
    cases harmed
    exact ⟨after, hafter, rfl⟩
  · cases ha.symm.trans harmed

/-- A timer that has just been armed is not due before now, even if its delay is zero. -/
theorem punctual_entry [DecidableEq S] (m : Machine S K E C W) {run : Run S E C W O}
    (hr : run.status = .running) (ha : run.timers.armed = none) :
    Punctual (run.withTimers (m.entryTimers run)) where
  disarmed h := absurd hr h
  ahead due hd := by
    obtain ⟨after, -, rfl⟩ := after?_of_entry ha hd
    exact Duration.le_add _ _

theorem nextDeadline?_of_fire? {id : TimerId} {timers : Timers S}
    (hf : run.timers.fire? run.now = some (id, timers)) :
    (run.withTimers timers).nextDeadline? = none := by
  obtain ⟨timer, -, -, -, -, rfl⟩ := Timers.fire?_eq_some_iff.1 hf
  cases hd : (run.withTimers _).nextDeadline? with
  | none => rfl
  | some due =>
    obtain ⟨-, fired, harmed, hunfired, -⟩ := Run.nextDeadline?_eq_some_iff.1 hd
    cases harmed
    cases hunfired

theorem Punctual.fire {id : TimerId} {timers : Timers S} (h : Punctual run)
    (hf : run.timers.fire? run.now = some (id, timers)) : Punctual (run.withTimers timers) where
  disarmed hr := by
    obtain ⟨timer, ha, -⟩ := Timers.fire?_eq_some_iff.1 hf
    cases (h.disarmed hr).symm.trans ha
  ahead due hd := by cases (nextDeadline?_of_fire? hf).symm.trans hd

end

variable {S K E C W O : Type} [DecidableEq S] [DecidableEq K] [Named S] [Named K] [EventLike E K]
variable {m : Machine S K E C W} {run next middle done : Run S E C W O}

theorem Processed.punctual {event : E} (h : m.Processed event run next) (hp : Punctual run)
    (hr : run.status = .running) : Punctual next := by
  cases h with
  | dropped => exact hp
  | kept => exact hp.of_eq rfl rfl rfl
  | @committed target _ draft world =>
    cases target.filter (· ≠ run.state) with
    | none => exact hp.of_eq rfl rfl rfl
    | some target =>
      have he : Punctual ((m.moved event draft (run.withWorld world) target).withTimers
          (m.entryTimers (m.moved event draft (run.withWorld world) target))) :=
        punctual_entry m hr rfl
      rw [commit_some]
      exact he.of_eq rfl rfl rfl

theorem Step.punctual {happening : Happening K E} (hs : Step m run happening next)
    (hp : Punctual run) : Punctual next := by
  cases hs with
  | @begin draft hr _ =>
    have ha : run.timers.armed = none := hp.disarmed (by rw [hr]; decide)
    have he : Punctual (((run.adopt draft).begin m.definition.initial).withTimers
        (m.entryTimers ((run.adopt draft).begin m.definition.initial))) :=
      punctual_entry m rfl ha
    rw [enterInitial, arm_eq]
    exact he.of_eq rfl rfl rfl
  | @take rest event hq =>
    obtain ⟨hr, queue, -, rfl⟩ := Run.dequeue?_eq_some_iff.1 hq
    exact (m.processed event _).punctual (hp.of_eq rfl rfl rfl) hr
  | elapse hr _ hf => exact (m.processed _ _).punctual (hp.fire hf) hr
  | tick time _ hd =>
    refine ⟨hp.disarmed, ?_⟩
    intro due hn
    exact max_le (hp.ahead due hn) (hd due hn)
  | ask kind =>
    obtain ⟨world, hw⟩ := m.canTransition_eq kind run
    rw [hw]
    exact hp.of_eq rfl rfl rfl
  | stop =>
    unfold Run.stop
    split
    · exact hp
    · exact punctual_of_disarmed rfl
  | refuse | accept | listen => exact hp.of_eq rfl rfl rfl

theorem Steps.punctual {world : W} {observers : O} {trace : List (Run S E C W O × Happening K E)}
    (hs : Steps m (m.newRun world observers) trace run) : Punctual run :=
  hs.keeps (fun _ _ _ _ hs hp => hs.punctual hp) (punctual_newRun world observers)

theorem Reachable.punctual (h : m.Reachable run) : Punctual run := by
  obtain ⟨world, observers, hr⟩ := h
  exact hr.keeps rfl (punctual_newRun world observers) fun _ _ _ hs _ hp => hs.punctual hp

/-! ## How far ahead the timer lies -/

/-- After an event the deadline is that of before, or that of the state just entered. -/
theorem Processed.deadline_cases {event : E} (h : m.Processed event run next) {due : Duration}
    (hd : next.nextDeadline? = some due) : next.now = run.now ∧ (run.nextDeadline? = some due ∨
      ∃ after, m.definition.after? next.state = some after ∧ due = next.now + after.delay) := by
  cases h with
  | dropped => exact ⟨rfl, .inl hd⟩
  | kept => exact ⟨rfl, .inl hd⟩
  | @committed target _ draft world =>
    cases ht : target.filter (· ≠ run.state) with
    | none =>
      rw [ht] at hd
      exact ⟨rfl, .inl hd⟩
    | some target =>
      have ha : (m.moved event draft (run.withWorld world) target).timers.armed = none := rfl
      rw [ht, commit_some] at hd
      rw [commit_some]
      exact ⟨rfl, .inr (after?_of_entry ha hd)⟩

/-- A deadline is that of before, with the clock no further back, or that of the state just entered. -/
theorem Step.deadline_cases {happening : Happening K E} (hs : Step m run happening next)
    (hp : Punctual run) {due : Duration} (hd : next.nextDeadline? = some due) :
    run.now ≤ next.now ∧ (run.nextDeadline? = some due ∨
      ∃ after, m.definition.after? next.state = some after ∧ due = next.now + after.delay) := by
  cases hs with
  | @begin draft hr _ =>
    have ha : ((run.adopt draft).begin m.definition.initial).timers.armed = none :=
      hp.disarmed (by rw [hr]; decide)
    rw [enterInitial, arm_eq] at hd ⊢
    exact ⟨Nat.le_refl _, .inr (after?_of_entry ha hd)⟩
  | @take rest event hq =>
    obtain ⟨-, queue, -, rfl⟩ := Run.dequeue?_eq_some_iff.1 hq
    obtain ⟨hn, hcases⟩ := (m.processed event _).deadline_cases hd
    exact ⟨Nat.le_of_eq (congrArg Duration.total hn.symm), hcases⟩
  | elapse _ _ hf =>
    obtain ⟨hn, hdue | hentry⟩ := (m.processed _ _).deadline_cases hd
    · cases (nextDeadline?_of_fire? hf).symm.trans hdue
    · exact ⟨Nat.le_of_eq (congrArg Duration.total hn.symm), .inr hentry⟩
  | tick time => exact ⟨le_max_left _ _, .inl hd⟩
  | ask kind =>
    obtain ⟨world, hw⟩ := m.canTransition_eq kind run
    rw [hw] at hd ⊢
    exact ⟨Nat.le_refl _, .inl hd⟩
  | stop =>
    obtain ⟨hr, -⟩ := Run.nextDeadline?_eq_some_iff.1 hd
    cases hr.symm.trans run.status_stop
  | refuse | accept | listen => exact ⟨Nat.le_refl _, .inl hd⟩

/-- The deadline lies between now and a delay from now. -/
structure Foreseen (slowest : Nat) (run : Run S E C W O) : Prop extends Punctual run where
  due_le : ∀ due, run.nextDeadline? = some due → due.total ≤ run.now.total + slowest

theorem Step.foreseen {happening : Happening K E} {slowest : Nat}
    (hs : Step m run happening next) (h : Foreseen slowest run)
    (hd : ∀ state after, m.definition.after? state = some after → after.delay.total ≤ slowest) :
    Foreseen slowest next where
  toPunctual := hs.punctual h.toPunctual
  due_le due hdue := by
    obtain ⟨hn, hold | ⟨after, hafter, rfl⟩⟩ := hs.deadline_cases h.toPunctual hdue
    · exact Nat.le_trans (h.due_le due hold) (Nat.add_le_add_right hn slowest)
    · rw [Duration.total_add]
      exact Nat.le_trans (Nat.min_le_left _ _) (Nat.add_le_add_left (hd _ after hafter) _)

/-- No deadline lies further ahead than the longest delay of the table. -/
theorem Reachable.foreseen (h : m.Reachable run) {slowest : Nat}
    (hd : ∀ state after, m.definition.after? state = some after → after.delay.total ≤ slowest) :
    Foreseen slowest run := by
  obtain ⟨world, observers, hr⟩ := h
  have hfirst : Foreseen slowest (m.newRun world observers) :=
    ⟨punctual_newRun world observers, fun due hdue => by cases hdue⟩
  exact hr.keeps rfl hfirst fun _ _ _ hs _ hold => hs.foreseen hold hd

/-! ## Where the clock stands after a call -/

theorem now_drain {fuel : Nat} (h : m.drain fuel run = some done) : done.now = run.now := by
  rw [drained_iff] at h
  induction h with
  | rested => rfl
  | took hq _ ih =>
    obtain ⟨-, queue, -, rfl⟩ := Run.dequeue?_eq_some_iff.1 hq
    rw [ih, (m.processed _ _).now_eq]

theorem now_fire {fuel : Nat} (h : m.fire fuel run = some done) : done.now = run.now := by
  unfold fire at h
  split at h
  · next timers _ =>
    have hnow : done.now = ((run.withTimers timers).enqueue [_]).now := now_drain h
    exact hnow
  · cases h
    rfl

/-- The clock goes where it is asked to go, unless that lies in the past. -/
theorem now_advanceTo {fuel : Nat} {time : Duration} (h : m.advanceTo fuel time run = some done) :
    done.now = max run.now time := by
  rw [advanced_iff] at h
  induction h with
  | clear => rfl
  | @fired fuel run next done due _ hle hf _ ih =>
    rw [ih, now_fire hf]
    apply Duration.ext
    rw [Duration.le_def] at hle
    show (max (max run.now due) time).total = _
    simp only [Duration.total_max]
    omega

theorem now_send {fuel : Nat} {event : E} (h : m.send fuel event run = some done) :
    done.now = run.now := by
  unfold send at h
  split at h
  · have hnow : done.now = (run.enqueue [event]).now := now_drain h
    exact hnow
  · cases h
    rfl

/-! ## The status after a call -/

theorem status_drain {fuel : Nat} (h : m.drain fuel run = some done) :
    done.status = run.status := by
  rw [drained_iff] at h
  induction h with
  | rested => rfl
  | took hq _ ih =>
    obtain ⟨-, queue, -, rfl⟩ := Run.dequeue?_eq_some_iff.1 hq
    rw [ih, (m.processed _ _).status_eq]

theorem status_fire {fuel : Nat} (h : m.fire fuel run = some done) : done.status = run.status := by
  unfold fire at h
  split at h
  · next timers _ =>
    have hstatus : done.status = ((run.withTimers timers).enqueue [_]).status := status_drain h
    exact hstatus
  · cases h
    rfl

theorem status_advanceTo {fuel : Nat} {time : Duration}
    (h : m.advanceTo fuel time run = some done) : done.status = run.status := by
  rw [advanced_iff] at h
  induction h with
  | clear => rfl
  | @fired fuel run next done due _ _ hf _ ih =>
    have hclock : next.status = (run.moveClock due).status := status_fire hf
    exact ih.trans hclock

theorem status_send {fuel : Nat} {event : E} (h : m.send fuel event run = some done) :
    done.status = run.status := by
  unfold send at h
  split at h
  · have hstatus : done.status = (run.enqueue [event]).status := status_drain h
    exact hstatus
  · cases h
    rfl

/-! ## Advancing to the past -/

omit [DecidableEq S] [DecidableEq K] [Named S] [Named K] [EventLike E K] in
theorem moveClock_of_le {time : Duration} (h : time ≤ run.now) : run.moveClock time = run := by
  show ({ run with now := max run.now time } : Run S E C W O) = run
  rw [max_eq_left h]

theorem Punctual.advanceTo_past (h : Punctual run) {time : Duration} (ht : time < run.now)
    (fuel : Nat) : m.advanceTo fuel time run = some run := by
  rw [advanced_iff]
  -- At the time of the clock itself a timer without delay may still be waiting, but not before.
  have hd : run.nextDeadline?.filter (· ≤ time) = none := by
    rw [Option.filter_eq_none_iff]
    intro due hn hle
    exact absurd (le_trans (h.ahead due hn) (of_decide_eq_true hle)) (not_le.2 ht)
  have hclear : m.Advanced time fuel run (run.moveClock time) := .clear hd
  rwa [moveClock_of_le (Nat.le_of_lt ht)] at hclear

/-! ## Advancing in parts -/

/-- The call comes to an end, and the second run is what it leaves. -/
def Ends (m : Machine S K E C W) (call : Call K E) (run done : Run S E C W O) : Prop :=
  ∃ fuel answer, m.call fuel call run = some (done, answer)

theorem Reachable.ends {call : Call K E} (h : m.Reachable run) (hd : m.Ends call run done) :
    m.Reachable done := by
  obtain ⟨world, observers, hr⟩ := h
  obtain ⟨fuel, answer, hc⟩ := hd
  exact ⟨world, observers, hr.call trivial hc⟩

/-- A call that comes to an end leaves one run only, whatever the bound on the steps. -/
theorem Ends.unique {call : Call K E} (h : m.Ends call run next) (hd : m.Ends call run done) :
    next = done := by
  obtain ⟨fuel, answer, hf⟩ := h
  obtain ⟨more, other, hm⟩ := hd
  have hn := call_mono hf (Nat.le_add_right fuel more)
  have ho := call_mono hm (Nat.le_add_left more fuel)
  cases hn.symm.trans ho
  rfl

theorem ends_advanceTo_iff {time : Duration} :
    m.Ends (.advanceTo time) run done ↔ ∃ fuel, m.advanceTo fuel time run = some done := by
  unfold Ends
  simp only [call, Option.map_eq_some_iff, Prod.mk.injEq]
  constructor
  · rintro ⟨fuel, answer, other, h, rfl, -⟩
    exact ⟨fuel, h⟩
  · rintro ⟨fuel, h⟩
    exact ⟨fuel, .done, done, h, rfl, rfl⟩

theorem ends_advance_iff {elapsed : Duration} :
    m.Ends (.advance elapsed) run done ↔ m.Ends (.advanceTo (run.now + elapsed)) run done :=
  Iff.rfl

theorem ends_advanceTo_split_iff {a b : Duration} (hab : a ≤ b) :
    m.Ends (.advanceTo b) run done ↔
      ∃ middle, m.Ends (.advanceTo a) run middle ∧ m.Ends (.advanceTo b) middle done := by
  simp only [ends_advanceTo_iff]
  constructor
  · rintro ⟨fuel, h⟩
    obtain ⟨middle, ha, hb⟩ := advanceTo_split h hab
    exact ⟨middle, ⟨fuel, ha⟩, fuel, hb⟩
  · rintro ⟨middle, ⟨fuel, ha⟩, more, hb⟩
    exact ⟨fuel + more, advanceTo_join ha hab hb⟩

/-- After an advance the clock has moved by what was asked for, cut off at the longest duration. -/
theorem now_of_ends_advance {elapsed : Duration} (h : m.Ends (.advance elapsed) run done) :
    done.now = run.now + elapsed := by
  obtain ⟨fuel, ha⟩ := ends_advanceTo_iff.1 (ends_advance_iff.1 h)
  rw [now_advanceTo ha, max_eq_right (Duration.le_add _ _)]

theorem ends_advance_split_iff {x y : Duration} :
    m.Ends (.advance (x + y)) run done ↔
      ∃ middle, m.Ends (.advance x) run middle ∧ m.Ends (.advance y) middle done := by
  rw [ends_advance_iff, ← add_assoc, ends_advanceTo_split_iff (Duration.le_add _ y)]
  refine exists_congr fun middle => and_congr_right ?_
  intro hx
  rw [ends_advance_iff, now_of_ends_advance hx]

/-- From every reachable run, an advance to a time and one to a later time from there are the same
as the later one alone: both come to an end or neither does, and they leave the same run, with all
that was published and done to the world. So are an advance by a time and one by another, with the
cut at the longest duration. An advance to the past changes nothing at all. -/
theorem advance_in_parts (hr : m.Reachable run) :
    (∀ a b done, a ≤ b → (m.Ends (.advanceTo b) run done ↔
      ∃ middle, m.Ends (.advanceTo a) run middle ∧ m.Ends (.advanceTo b) middle done)) ∧
    (∀ x y done, m.Ends (.advance (x + y)) run done ↔
      ∃ middle, m.Ends (.advance x) run middle ∧ m.Ends (.advance y) middle done) ∧
    (∀ time done, time < run.now → (m.Ends (.advanceTo time) run done ↔ done = run)) := by
  refine ⟨fun a b done hab => ends_advanceTo_split_iff hab,
    fun x y done => ends_advance_split_iff, ?_⟩
  intro time done ht
  have hpast : m.Ends (.advanceTo time) run run :=
    ends_advanceTo_iff.2 ⟨0, hr.punctual.advanceTo_past ht 0⟩
  constructor
  · intro h
    exact h.unique hpast
  · rintro rfl
    exact hpast

/-! ## A light that blinks -/

section

open Script

/-- It is on and off for ten milliseconds each, and counts how often it was switched. -/
def blinker : Machine String String Signal Nat Unit where
  definition :=
    { id := "blinker"
      initial := "on"
      nodes :=
        [{ state := "on"
           after := some { delay := .ofMillis 10, target := "off", actions := ["count"] } },
         { state := "off"
           after := some { delay := .ofMillis 10, target := "on", actions := ["count"] } }] }
  actions := [("count", .assign fun _ switched => switched + 1)]
  guards := []
  context := 0
  historyLimit := History.defaultLimit
  clock _ := .epoch

/-- Twelve milliseconds after its start it has been switched once, and then it runs on. -/
theorem exists_blinker_run : ∃ run done : Run String Signal Nat Unit Unit,
    blinker.Reachable run ∧ run.now = .ofMillis 12 ∧ run.context = 1 ∧
    blinker.Ends (.advanceTo (.ofMillis 35)) run done ∧ done.context = 3 := by
  have hstart : (blinker.calls 2 [.start, .advance (.ofMillis 12)] (blinker.newRun () ())).map
      (fun result => (result.1.now, result.1.context)) = some (.ofMillis 12, 1) := rfl
  have hrest : ((blinker.calls 2 [.start, .advance (.ofMillis 12)] (blinker.newRun () ())).bind
      fun result => blinker.advanceTo 3 (.ofMillis 35) result.1).map (·.context) = some 3 := rfl
  obtain ⟨⟨run, answers⟩, hcalls, hrun⟩ := Option.map_eq_some_iff.1 hstart
  rw [hcalls, Option.bind_some, Option.map_eq_some_iff] at hrest
  obtain ⟨done, hadvance, hdone⟩ := hrest
  have hreach : Reached blinker (fun _ _ => True) (blinker.newRun () ()) run :=
    Reached.first.calls (fun _ _ _ => trivial) hcalls
  rw [Prod.mk.injEq] at hrun
  exact ⟨run, done, ⟨(), (), hreach⟩, hrun.1, hrun.2, ends_advanceTo_iff.2 ⟨3, hadvance⟩, hdone⟩

/-- The next two deadlines may be passed at once, or in two parts with the cut on one of them. -/
theorem advance_in_parts_blinker : ∃ run done : Run String Signal Nat Unit Unit,
    blinker.Reachable run ∧ done.context = run.context + 2 ∧
    blinker.Ends (.advanceTo (.ofMillis 35)) run done ∧
    (∃ middle, blinker.Ends (.advanceTo (.ofMillis 20)) run middle ∧
      blinker.Ends (.advanceTo (.ofMillis 35)) middle done) ∧
    (∃ middle, blinker.Ends (.advance (.ofMillis 8)) run middle ∧
      blinker.Ends (.advance (.ofMillis 15)) middle done) ∧
    blinker.Ends (.advanceTo (.ofMillis 5)) run run := by
  obtain ⟨run, done, hreach, hnow, hcount, hends, hdone⟩ := exists_blinker_run
  obtain ⟨hcut, hparts, hpast⟩ := advance_in_parts hreach
  have hadvance : blinker.Ends (.advance (.ofMillis 8 + .ofMillis 15)) run done := by
    have htime : run.now + (.ofMillis 8 + .ofMillis 15) = .ofMillis 35 := by
      rw [hnow]
      decide
    rwa [ends_advance_iff, htime]
  have hcutting : Duration.ofMillis 20 ≤ .ofMillis 35 := by decide
  have hlate : Duration.ofMillis 5 < run.now := by
    rw [hnow]
    decide
  exact ⟨run, done, hreach, by rw [hcount, hdone], hends, (hcut _ _ _ hcutting).1 hends,
    (hparts _ _ _).1 hadvance, (hpast _ _ hlate).2 rfl⟩

end

end Machine

end Automat
