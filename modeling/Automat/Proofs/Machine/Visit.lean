import Automat.Proofs.Machine.Timed

/-!
Visits of states. Every step either stays in the visit and leaves its timer as it is, or enters a
state, fires the timer without leaving the state, or stops the machine (`Step.turn`). The journal
shows the run after every step that is reported, and when the current visit began.
-/

namespace Automat

def Outcome.enters {S : Type} : Outcome S → Bool
  | .started | .transitioned _ _ => true
  | _ => false

theorem Outcome.Keeps.enters_eq_false {S : Type} {outcome : Outcome S} (h : outcome.Keeps) :
    outcome.enters = false := by
  cases outcome with
  | ignored | guardRejected | failed => rfl
  | started | transitioned | handled => cases h

namespace Run

variable {S E C W O : Type}

/-- The snapshot of the entry into the current state: the last one of its kind. -/
def entry? (run : Run S E C W O) : Option (Snapshot S C E) :=
  run.journal.find? (·.outcome.enters)

theorem entry?_of_cons {run next : Run S E C W O} {snapshot : Snapshot S C E}
    (hj : next.journal = snapshot :: run.journal) (h : snapshot.outcome.enters = false) :
    next.entry? = run.entry? := by
  unfold entry?
  rw [hj, List.find?_cons_of_neg (by simp [h])]

theorem entry?_of_enters {run next : Run S E C W O} {snapshot : Snapshot S C E}
    (hj : next.journal = snapshot :: run.journal) (h : snapshot.outcome.enters = true) :
    next.entry? = some snapshot := by
  unfold entry?
  rw [hj]
  exact List.find?_cons_of_pos h

end Run

namespace Machine

variable {S K E C W O : Type} [DecidableEq S] [DecidableEq K] [Named S] [Named K] [EventLike E K]
variable {m : Machine S K E C W} {run next : Run S E C W O} {event : E}
variable {happening : Happening K E}

/-! ## What is shown -/

/-- What processing an event publishes, if anything, shows the run that it leads to. -/
theorem Processed.journal_cases (h : m.Processed event run next) :
    next.journal = run.journal ∨
      ∃ outcome, next.journal = next.shown (some event) outcome :: run.journal := by
  cases h with
  | dropped => exact .inl rfl
  | kept world outcome => exact .inr ⟨outcome, rfl⟩
  | @committed target =>
    refine .inr ?_
    cases target.filter (· ≠ run.state) with
    | none => exact ⟨.handled, rfl⟩
    | some target =>
      rw [commit_some]
      exact ⟨.transitioned run.state target, rfl⟩

/-- A step publishes at most one snapshot, which shows the run that it leads to. -/
theorem Step.journal_cases (hs : Step m run happening next) :
    next.journal = run.journal ∨
      ∃ event outcome, next.journal = next.shown event outcome :: run.journal := by
  cases hs with
  | begin =>
    refine .inr ⟨none, .started, ?_⟩
    rw [enterInitial, arm_eq]
    rfl
  | @take rest event hq =>
    obtain ⟨-, queue, -, rfl⟩ := Run.dequeue?_eq_some_iff.1 hq
    exact (m.processed event _).journal_cases.imp_right fun hj => ⟨_, hj⟩
  | elapse => exact (m.processed _ _).journal_cases.imp_right fun hj => ⟨_, hj⟩
  | ask kind =>
    obtain ⟨world, hw⟩ := m.canTransition_eq kind run
    rw [hw]
    exact .inl rfl
  | stop =>
    unfold Run.stop
    split <;> exact .inl rfl
  | refuse | accept | tick | listen => exact .inl rfl

/-- What holds at first and is kept by every step holds of every reached run, and all that was ever
published shows a run of which it holds. -/
theorem Reached.keeps_journal {allowed : Run S E C W O → Call K E → Prop}
    {first run : Run S E C W O} {P : Run S E C W O → Prop} {Q : Snapshot S C E → Prop}
    (h : Reached m allowed first run) (hq : first.queue = []) (hj : first.journal = [])
    (hp : P first) (hshown : ∀ run event outcome, P run → Q (run.shown event outcome))
    (hstep : ∀ run happening next, Step m run happening next → P run → P next) :
    P run ∧ ∀ snapshot ∈ run.journal, Q snapshot := by
  refine h.keeps (P := fun run => P run ∧ ∀ snapshot ∈ run.journal, Q snapshot) hq
    ⟨hp, by simp [hj]⟩ ?_
  rintro run happening next hs - ⟨hrun, hold⟩
  have hnext := hstep run happening next hs hrun
  refine ⟨hnext, ?_⟩
  rcases hs.journal_cases with hsame | ⟨event, outcome, hcons⟩
  · rwa [hsame]
  · intro snapshot hmem
    rw [hcons] at hmem
    rcases List.mem_cons.1 hmem with rfl | hmem
    · exact hshown next event outcome hnext
    · exact hold snapshot hmem

/-! ## Turns -/

section

omit [DecidableEq K] [Named S] [Named K]

/-- What a step does to the visit of a state and its timer. -/
inductive Turn (m : Machine S K E C W) (run next : Run S E C W O) : Prop where
  | stayed : next.state = run.state → next.visit = run.visit → next.timers = run.timers →
      next.entry? = run.entry? → run.now ≤ next.now → Turn m run next
  | entered {entry : Snapshot S C E} : next.entry? = some entry → entry.visit = next.visit →
      entry.time = next.now → run.visit < next.visit →
      next.timers = m.entryTimers (next.withTimers run.timers.cancel) → Turn m run next
  | fired {timer : Timer S} {after : Delayed S} {report : Snapshot S C E} :
      run.timers.armed = some timer → timer.fired = false → timer.due ≤ run.now →
      m.definition.after? run.state = some after →
      next.state = run.state → next.visit = run.visit → next.now = run.now →
      next.timers = { run.timers with armed := some { timer with fired := true } } →
      next.entry? = run.entry? → report ∈ next.journal → report.visit = run.visit →
      report.time = run.now → report.event = some (EventLike.ofTimer timer.id) →
      ((∃ failure, report.outcome = .failed failure) ∨
        report.outcome = .handled ∧ after.target = run.state) → Turn m run next
  | stopped : next.visit = run.visit → next.timers = run.timers.cancel → Turn m run next

theorem turn_of_eq (hs : next.state = run.state) (hv : next.visit = run.visit)
    (ht : next.timers = run.timers) (he : next.entry? = run.entry?) (hn : next.now = run.now) :
    Turn m run next := by
  exact .stayed hs hv ht he (ge_of_eq hn)

theorem Turn.of_queue {queue : List E} (h : Turn m { run with queue := queue } next) :
    Turn m run next := by
  cases h with
  | stayed hs hv ht he hn => exact .stayed hs hv ht he hn
  | entered he hv hn hlt ht => exact .entered he hv hn hlt ht
  | fired ha hf hd hafter hs hv hn ht he hmem hrv hrn hre ho =>
    exact .fired ha hf hd hafter hs hv hn ht he hmem hrv hrn hre ho
  | stopped hv ht => exact .stopped hv ht

end

omit [DecidableEq K] [Named S] in
theorem turn_commit_some {before : Run S E C W O} (hv : before.visit = run.visit)
    (ht : before.timers.cancel = run.timers.cancel) (draft : Draft E C W) (target : S) :
    Turn m run (m.commit (some target) event draft before) := by
  rw [commit_some]
  refine .entered (Run.entry?_of_enters rfl rfl) rfl rfl ?_ ?_
  · rw [← hv]
    exact Nat.lt_succ_self _
  · rw [← ht]
    rfl

theorem Processed.turn (h : m.Processed event run next) : Turn m run next := by
  cases h with
  | dropped => exact turn_of_eq rfl rfl rfl rfl rfl
  | kept world outcome hk =>
    exact turn_of_eq rfl rfl rfl (Run.entry?_of_cons rfl hk.enters_eq_false) rfl
  | @committed target actions draft world =>
    cases target.filter (· ≠ run.state) with
    | none => exact turn_of_eq rfl rfl rfl (Run.entry?_of_cons rfl rfl) rfl
    | some target => exact turn_commit_some rfl rfl draft target

omit [DecidableEq K] in
/-- A delayed transition fails, stays in its state, or enters another one. -/
theorem apply_cases (after : Delayed S) (event : E) (run : Run S E C W O) :
    (∃ world failure, m.apply (some after.target) after.actions event run =
      (run.withWorld world).publish (some event) (.failed failure)) ∨
    (after.target = run.state ∧ ∃ draft, m.apply (some after.target) after.actions event run =
      m.commit none event draft run) ∨
    ∃ draft, m.apply (some after.target) after.actions event run =
      m.commit (some after.target) event draft run := by
  simp only [apply]
  split
  · next draft hp =>
    by_cases ht : after.target = run.state
    · refine .inr (.inl ⟨ht, draft, ?_⟩)
      rw [Option.filter_some, if_neg (by simp [ht])]
    · refine .inr (.inr ⟨draft, ?_⟩)
      rw [Option.filter_some, if_pos (by simp [ht])]
  · next draft failure hp => exact .inl ⟨draft.world, failure, rfl⟩

/-- A timer that fires has its delayed transition attempted at once. -/
theorem turn_elapse [LawfulEventLike E] (ht : m.Timed run) (hr : run.status = .running)
    {id : TimerId} {timers : Timers S} (hf : run.timers.fire? run.now = some (id, timers)) :
    Turn m run (m.process (EventLike.ofTimer id) (run.withTimers timers)) := by
  obtain ⟨after, hd⟩ := Option.isSome_iff_exists.1 (ht.isSome_delayed?_fire hr hf)
  have hafter := after?_of_delayed? hd
  obtain ⟨timer, harmed, hunfired, hdue, rfl, rfl⟩ := Timers.fire?_eq_some_iff.1 hf
  rw [process_eq_apply hd]
  rcases m.apply_cases after (EventLike.ofTimer timer.id) (run.withTimers _) with
    ⟨world, failure, h⟩ | ⟨htarget, draft, h⟩ | ⟨draft, h⟩
  · rw [h]
    exact .fired harmed hunfired hdue hafter rfl rfl rfl rfl (Run.entry?_of_cons rfl rfl)
      (List.mem_cons_self ..) rfl rfl rfl (.inl ⟨failure, rfl⟩)
  · rw [h]
    exact .fired harmed hunfired hdue hafter rfl rfl rfl rfl (Run.entry?_of_cons rfl rfl)
      (List.mem_cons_self ..) rfl rfl rfl (.inr ⟨rfl, htarget⟩)
  · rw [h]
    exact turn_commit_some rfl rfl draft after.target

/-- Whatever happens, it is one of the four. -/
theorem Step.turn [LawfulEventLike E] (hs : Step m run happening next) (ht : m.Timed run) :
    Turn m run next := by
  cases hs with
  | @begin draft hr hp =>
    have hdis : run.timers.armed = none := ht.disarmed (by rw [hr]; decide)
    have hcancel : run.timers.cancel = run.timers := by rw [Timers.cancel, ← hdis]
    rw [enterInitial, arm_eq]
    refine .entered (Run.entry?_of_enters rfl rfl) rfl rfl ?_ ?_
    · rw [ht.unvisited hr]
      exact Nat.one_pos
    · rw [hcancel]
      rfl
  | @take rest event hq =>
    obtain ⟨-, queue, -, rfl⟩ := Run.dequeue?_eq_some_iff.1 hq
    exact (m.processed event _).turn.of_queue
  | elapse hr hq hf => exact turn_elapse ht hr hf
  | tick time => exact .stayed rfl rfl rfl rfl (le_max_left _ _)
  | ask kind =>
    obtain ⟨world, hw⟩ := m.canTransition_eq kind run
    rw [hw]
    exact turn_of_eq rfl rfl rfl rfl rfl
  | stop =>
    unfold Run.stop
    split
    · exact turn_of_eq rfl rfl rfl rfl rfl
    · exact .stopped rfl rfl
  | refuse | accept | listen => exact turn_of_eq rfl rfl rfl rfl rfl

end Machine

end Automat
