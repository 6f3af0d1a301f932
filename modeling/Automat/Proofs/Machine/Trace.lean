import Automat.Proofs.Machine.Step

/-!
What happens in a call, step by step. Every call on a run at rest that comes to an end has a trace
(`callTrace_of_call`), and the trace is made of steps that lead to a run at rest again
(`CallTrace.leads`).
-/

namespace Automat

namespace Machine

variable {S K E C W O : Type} [DecidableEq S] [DecidableEq K] [Named S] [Named K] [EventLike E K]

/-! ## Traces -/

/-- What happens while the queue is emptied. -/
inductive DrainTrace (m : Machine S K E C W) :
    Run S E C W O → List (Run S E C W O × Happening K E) → Run S E C W O → Prop where
  | rested {run : Run S E C W O} : run.dequeue? = none → DrainTrace m run [] run
  | took {run rest done : Run S E C W O} {event : E}
      {later : List (Run S E C W O × Happening K E)} :
      run.dequeue? = some (event, rest) → DrainTrace m (m.process event rest) later done →
      DrainTrace m run ((run, .take event) :: later) done

/-- What happens while the clock is advanced to a time. The report of a timer that fires is processed
at once, and then the queue is emptied before the clock moves on. -/
inductive AdvanceTrace (m : Machine S K E C W) (time : Duration) :
    Run S E C W O → List (Run S E C W O × Happening K E) → Run S E C W O → Prop where
  | clear {run : Run S E C W O} : run.nextDeadline?.filter (· ≤ time) = none →
      AdvanceTrace m time run [(run, .tick time)] (run.moveClock time)
  | fired {run next done : Run S E C W O} {due : Duration} {timer : TimerId} {timers : Timers S}
      {taken later : List (Run S E C W O × Happening K E)} :
      run.nextDeadline? = some due → due ≤ time →
      (run.moveClock due).timers.fire? (run.moveClock due).now = some (timer, timers) →
      DrainTrace m (m.process (EventLike.ofTimer timer) ((run.moveClock due).withTimers timers))
        taken next →
      AdvanceTrace m time next later done →
      AdvanceTrace m time run
        ((run, .tick due) :: (run.moveClock due, .elapse timer) :: (taken ++ later)) done

/-- What happens in a call. -/
inductive CallTrace (m : Machine S K E C W) : Call K E → Run S E C W O →
    List (Run S E C W O × Happening K E) → Run S E C W O → Answer → Prop where
  | begun {run done : Run S E C W O} {draft : Draft E C W}
      {steps : List (Run S E C W O × Happening K E)} :
      run.status = .notStarted →
      m.perform none (m.entrySteps m.definition.initial) ⟨m.context, [], run.world⟩ =
        (draft, none) →
      DrainTrace m (m.enterInitial draft run) steps done →
      CallTrace m .start run ((run, .begin) :: steps) done .done
  | refused {run : Run S E C W O} {draft : Draft E C W} {failure : Failure} :
      run.status = .notStarted →
      m.perform none (m.entrySteps m.definition.initial) ⟨m.context, [], run.world⟩ =
        (draft, some failure) →
      CallTrace m .start run [(run, .refuse)] (run.withWorld draft.world)
        (.refused (.entry failure))
  | late {run : Run S E C W O} : run.status ≠ .notStarted →
      CallTrace m .start run [] run (.refused (.alreadyStarted m.definition.id))
  | sent {run done : Run S E C W O} {event : E} {steps : List (Run S E C W O × Happening K E)} :
      run.status = .running → DrainTrace m (run.enqueue [event]) steps done →
      CallTrace m (.send event) run ((run, .accept event) :: steps) done .done
  | dropped {run : Run S E C W O} {event : E} : run.status ≠ .running →
      CallTrace m (.send event) run [] run .done
  | advanced {run done : Run S E C W O} {elapsed : Duration}
      {steps : List (Run S E C W O × Happening K E)} :
      AdvanceTrace m (run.now + elapsed) run steps done →
      CallTrace m (.advance elapsed) run steps done .done
  | advancedTo {run done : Run S E C W O} {time : Duration}
      {steps : List (Run S E C W O × Happening K E)} :
      AdvanceTrace m time run steps done → CallTrace m (.advanceTo time) run steps done .done
  | stopped {run : Run S E C W O} : CallTrace m .stop run [(run, .stop)] run.stop .done
  | asked {run : Run S E C W O} (kind : K) : CallTrace m (.can kind) run [(run, .ask kind)]
      (m.canTransition kind run).1 (.can (m.canTransition kind run).2)

variable {m : Machine S K E C W} {fuel : Nat} {run next done : Run S E C W O}
variable {steps : List (Run S E C W O × Happening K E)} {answer : Answer} {time : Duration}

/-! ## Traces are steps -/

theorem running_process (event : E) (hr : run.status = .running) :
    (m.process event run).status = .running :=
  (m.processed event run).status_eq.trans hr

theorem DrainTrace.leads (allowed : Run S E C W O → E → Prop) (h : m.DrainTrace run steps done)
    (hr : run.status = .running) :
    m.Leads allowed run steps done ∧ done.status = .running := by
  induction h with
  | rested hq => exact ⟨.refl _ (Run.queue_eq_nil hr hq), hr⟩
  | @took run rest done event later hq _ ih =>
    obtain ⟨-, queue, -, rfl⟩ := Run.dequeue?_eq_some_iff.1 hq
    obtain ⟨hs, hd⟩ := ih (running_process event hr)
    exact ⟨hs.cons_quiet (.take hq) rfl, hd⟩

theorem AdvanceTrace.leads (allowed : Run S E C W O → E → Prop)
    (h : m.AdvanceTrace time run steps done) (hq : run.queue = []) :
    m.Leads allowed run steps done := by
  induction h with
  | @clear run hd =>
    refine (Leads.refl (run.moveClock time) hq).cons_quiet (.tick time hq ?_) rfl
    intro due hn
    exact Nat.le_of_lt (Run.lt_of_nextDeadline? hd hn)
  | @fired run next done due timer timers taken later hn hle hf hd _ ih =>
    have hr : run.status = .running := Run.running_of_nextDeadline? hn
    obtain ⟨htaken, -⟩ := hd.leads allowed (running_process _ hr)
    refine ((htaken.trans (ih htaken.rest)).cons_quiet (.elapse hr hq hf) rfl).cons_quiet
      (.tick due hq ?_) rfl
    intro other ho
    obtain rfl : due = other := Option.some.inj (hn.symm.trans ho)
    exact Nat.le_refl _

/-- The trace of a call is made of steps that lead to a run at rest, and only a send accepts an
event: its own, before anything else happens. -/
theorem CallTrace.leads {call : Call K E} (allowed : Run S E C W O → E → Prop)
    (h : m.CallTrace call run steps done answer)
    (hq : run.queue = []) (ha : ∀ event, call = .send event → allowed run event) :
    m.Leads allowed run steps done := by
  cases h with
  | @begun _ _ draft steps hr hp hd =>
    exact (hd.leads allowed (m.status_enterInitial run draft)).1.cons_quiet (.begin hr hp) rfl
  | @refused _ draft failure hr hp =>
    exact (Leads.refl (run.withWorld draft.world) hq).cons_quiet (.refuse hr hp) rfl
  | late => exact .refl run hq
  | @sent _ _ event steps hr hd =>
    have hs : m.Leads allowed (run.enqueue [event]) steps done := (hd.leads allowed hr).1
    refine hs.cons (.accept event hr hq) ?_
    intro other he
    cases he
    exact ha event rfl
  | dropped => exact .refl run hq
  | advanced h | advancedTo h => exact h.leads allowed hq
  | stopped =>
    have hd : run.stop.queue = [] := by
      unfold Run.stop
      split
      · exact hq
      · rfl
    exact (Leads.refl _ hd).cons_quiet .stop rfl
  | asked kind =>
    have hd : (m.canTransition kind run).1.queue = [] := by
      obtain ⟨world, hw⟩ := m.canTransition_eq kind run
      rw [hw]
      exact hq
    exact (Leads.refl _ hd).cons_quiet (.ask kind) rfl

/-- Whatever may be sent, the trace of a call leads to a run at rest. -/
theorem CallTrace.arrives {call : Call K E} (h : m.CallTrace call run steps done answer)
    (hq : run.queue = []) : m.Leads (fun _ _ => True) run steps done :=
  h.leads _ hq fun _ _ => trivial

/-! ## Calls have traces -/

theorem drainTrace_of_drain (h : m.drain fuel run = some done) :
    ∃ steps, m.DrainTrace run steps done := by
  rw [drained_iff] at h
  induction h with
  | rested hq => exact ⟨[], .rested hq⟩
  | took hq _ ih =>
    obtain ⟨later, hl⟩ := ih
    exact ⟨_, .took hq hl⟩

theorem drain_enqueue_eq_some {event : E} (hr : run.status = .running) (hq : run.queue = [])
    (h : m.drain fuel (run.enqueue [event]) = some done) :
    ∃ less, m.drain less (m.process event run) = some done := by
  unfold drain at h
  rw [Run.dequeue?_enqueue run hr hq] at h
  cases fuel with
  | zero => cases h
  | succ fuel => exact ⟨fuel, h⟩

/-- A timer that fires has its report processed, and then the queue is emptied. -/
theorem drainTrace_of_fire {due : Duration} (hq : run.queue = []) (hn : run.nextDeadline? = some due)
    (hf : m.fire fuel (run.moveClock due) = some next) :
    ∃ timer timers taken,
      (run.moveClock due).timers.fire? (run.moveClock due).now = some (timer, timers) ∧
      m.DrainTrace (m.process (EventLike.ofTimer timer) ((run.moveClock due).withTimers timers))
        taken next := by
  have hr : run.status = .running := Run.running_of_nextDeadline? hn
  obtain ⟨timer, timers, ht⟩ := Run.exists_fire?_of_nextDeadline? hn
  unfold fire at hf
  simp only [ht] at hf
  have hready : ((run.moveClock due).withTimers timers).status = .running := hr
  obtain ⟨less, hdrain⟩ := drain_enqueue_eq_some hready hq hf
  obtain ⟨taken, htaken⟩ := drainTrace_of_drain hdrain
  exact ⟨timer, timers, taken, ht, htaken⟩

theorem advanceTrace_of_advanceTo (hq : run.queue = []) (h : m.advanceTo fuel time run = some done) :
    ∃ steps, m.AdvanceTrace time run steps done := by
  rw [advanced_iff] at h
  induction h with
  | clear hd => exact ⟨_, .clear hd⟩
  | @fired fuel run next done due hn hle hf _ ih =>
    have hr : run.status = .running := Run.running_of_nextDeadline? hn
    obtain ⟨timer, timers, taken, ht, htaken⟩ := drainTrace_of_fire hq hn hf
    have hrest : next.queue = [] :=
      (htaken.leads (fun _ _ => True) (running_process _ hr)).1.rest
    obtain ⟨later, hlater⟩ := ih hrest
    exact ⟨_, .fired hn hle ht htaken hlater⟩

/-- Every call on a run at rest that comes to an end has a trace. -/
theorem callTrace_of_call {call : Call K E} (hq : run.queue = [])
    (h : m.call fuel call run = some (done, answer)) :
    ∃ steps, m.CallTrace call run steps done answer := by
  cases call with
  | start =>
    obtain ⟨⟨last, result⟩, hs, he⟩ := Option.map_eq_some_iff.1 h
    unfold start at hs
    split at hs
    · next hr =>
      split at hs
      · next draft hp =>
        obtain ⟨_, hd, hlast⟩ := Option.map_eq_some_iff.1 hs
        cases hlast
        cases he
        obtain ⟨steps, ht⟩ := drainTrace_of_drain hd
        exact ⟨_, .begun hr hp ht⟩
      · next draft failure hp =>
        cases hs
        cases he
        exact ⟨_, .refused hr hp⟩
    · next hr =>
      cases hs
      cases he
      exact ⟨_, .late hr⟩
  | send event =>
    obtain ⟨last, hs, he⟩ := Option.map_eq_some_iff.1 h
    cases he
    unfold send at hs
    split at hs
    · next hr =>
      obtain ⟨steps, ht⟩ := drainTrace_of_drain hs
      exact ⟨_, .sent hr ht⟩
    · next hr =>
      cases hs
      exact ⟨_, .dropped hr⟩
  | advance elapsed =>
    obtain ⟨last, hs, he⟩ := Option.map_eq_some_iff.1 h
    cases he
    obtain ⟨steps, ht⟩ := advanceTrace_of_advanceTo hq hs
    exact ⟨steps, .advanced ht⟩
  | advanceTo time =>
    obtain ⟨last, hs, he⟩ := Option.map_eq_some_iff.1 h
    cases he
    obtain ⟨steps, ht⟩ := advanceTrace_of_advanceTo hq hs
    exact ⟨steps, .advancedTo ht⟩
  | stop =>
    cases h
    exact ⟨_, .stopped⟩
  | can kind =>
    cases h
    exact ⟨_, .asked kind⟩

theorem settles_of_drain {allowed : Run S E C W O → E → Prop}
    (h : m.drain fuel run = some done) (hr : run.status = .running) :
    m.Settles allowed run done ∧ done.status = .running := by
  obtain ⟨steps, ht⟩ := drainTrace_of_drain h
  exact (ht.leads allowed hr).imp_left Leads.settles

end Machine

end Automat
