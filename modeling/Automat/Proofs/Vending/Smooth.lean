import Automat.Proofs.Machine.Journal
import Automat.Proofs.Vending.Ledger

/-!
Runs with a display whose hooks return. What is planned is carried out (`CarriedOut.eq_commit`), so
no timer stays behind that has fired, and the timer and the clock are in order after every step
(`Smooth.steps`). While the machine dispenses or returns, only the clock makes it go on
(`Handled.undisturbed`, `Smooth.elapse`).
-/

namespace Automat.Vending

variable {W O : Type} {clock : W → Timestamp} {display : Display W} {config : Config}
variable {run next : Run State Event Context W O} {event : Event}

/-! ## One event -/

/-- No hook keeps a plan from being carried out. -/
theorem CarriedOut.eq_commit {target : Option State} {hooks : List Hook} {context : Context}
    (hc : CarriedOut clock display config event target hooks context run next)
    (hd : display.Returns) :
    next = (assembled clock display config).commit target event
      ⟨context, [], (display.callAll hooks run.world).1⟩ run := by
  cases hc with
  | committed hall => rw [hall]
  | failed failure hall =>
    have hnone := hd.callAll_eq_none hooks run.world
    rw [hall] at hnone
    cases hnone

theorem ends_send (hr : run.status = .running) (hq : run.queue = []) (event : Event) :
    (assembled clock display config).Ends (.send event) run
      ((assembled clock display config).process event run) := by
  refine ⟨1, .done, ?_⟩
  have hrest := (handled clock display config run event).queue_eq.trans hq
  simp only [Machine.call, Machine.send_succ hr hq, Machine.drain_of_queue_eq_nil hrest,
    Option.map_some]

theorem ends_send_of_not_running (hr : run.status ≠ .running) (event : Event) :
    (assembled clock display config).Ends (.send event) run run := by
  refine ⟨0, .done, ?_⟩
  simp only [Machine.call, Machine.send, if_neg hr, Option.map_some]

/-- The timer and the clock are in order, and the timer has not fired. -/
structure Smooth (clock : W → Timestamp) (display : Display W) (config : Config)
    (run : Run State Event Context W O) : Prop where
  unstarted : run.status = .notStarted → run.state = .idle
  timed : (assembled clock display config).Timed run
  punctual : Machine.Punctual run
  dated : (assembled clock display config).Dated run
  entered : ∀ entry, run.entry? = some entry → Enters entry run
  unfired : run.timers.hasFired = false

theorem not_isLive_of_hasFired (hf : run.timers.hasFired = false) (id : TimerId) :
    ¬ run.timers.isLive id run.visit = true := by
  unfold Timers.hasFired at hf
  unfold Timers.isLive
  cases ha : run.timers.armed with
  | none => exact Bool.false_ne_true
  | some timer =>
    rw [ha] at hf
    have hunfired : timer.fired = false := hf
    simp [hunfired]

/-- An event from the queue leaves no timer behind that has fired. -/
theorem Handled.hasFired (hh : Handled clock display config event run next) (hd : display.Returns)
    (hf : run.timers.hasFired = false) : next.timers.hasFired = false := by
  cases hh with
  | stale => exact hf
  | kept => exact hf
  | @planned target hooks context _ hp hdone =>
    rw [hdone.eq_commit hd]
    cases target with
    | none => exact hf
    | some target => exact Machine.hasFired_commit target _ _ _

/-- Neither does the clock: the timer that fires is replaced by the transition that it causes. -/
theorem Handled.hasFired_of_delayed? {id : TimerId}
    (hh : Handled clock display config (.timerElapsed id) run next) (hd : display.Returns)
    (hdelayed : (assembled clock display config).delayed? (.timerElapsed id) run ≠ none) :
    next.timers.hasFired = false := by
  cases hh with
  | stale h => exact absurd h hdelayed
  | kept outcome h => cases h
  | planned hp hdone =>
    rw [hdone.eq_commit hd]
    cases hp with
    | dispense | giveBack => exact Machine.hasFired_commit _ _ _ _

/-! ## Whole runs -/

theorem hasFired_step {happening : Happening Kind Event} (hd : display.Returns)
    (hs : Machine.Step (assembled clock display config) run happening next)
    (ht : (assembled clock display config).Timed run) (hf : run.timers.hasFired = false) :
    next.timers.hasFired = false := by
  cases hs with
  | begin hr hp =>
    cases hp
    have hdis : run.timers.armed = none := ht.disarmed (by rw [hr]; decide)
    rw [Machine.enterInitial, Machine.arm_eq]
    exact Machine.hasFired_entryTimers ((run.adopt ⟨.empty, [], run.world⟩).begin .idle) hdis
  | @take rest event hq =>
    obtain ⟨-, queue, -, rfl⟩ := Run.dequeue?_eq_some_iff.1 hq
    exact (handled clock display config _ event).hasFired hd hf
  | @elapse id timers hr hq hfire =>
    have hh := handled clock display config (run.withTimers timers) (.timerElapsed id)
    refine hh.hasFired_of_delayed? hd ?_
    exact Option.isSome_iff_ne_none.1 (ht.isSome_delayed?_fire hr hfire)
  | ask kind =>
    rw [canTransition_fst]
    exact hf
  | stop =>
    unfold Run.stop
    split
    · exact hf
    · rfl
  | refuse | accept | tick | listen => exact hf

theorem smooth_newRun (world : W) (observers : O) :
    Smooth clock display config ((assembled clock display config).newRun world observers) where
  unstarted _ := rfl
  timed := Machine.timed_newRun (assembled_accepted _ _ _) _ _
  punctual := Machine.punctual_newRun _ _
  dated := Machine.dated_of_disarmed rfl
  entered _ h := by cases h
  unfired := rfl

theorem Smooth.step {happening : Happening Kind Event} (h : Smooth clock display config run)
    (hd : display.Returns) (hs : Machine.Step (assembled clock display config) run happening next) :
    Smooth clock display config next where
  unstarted := hs.published.unstarted h.unstarted
  timed := hs.timed (assembled_accepted _ _ _) h.timed
  punctual := hs.punctual h.punctual
  dated := (hs.turn h.timed).dated hs.journal_suffix h.punctual h.dated
  entered := hs.published.enters h.entered
  unfired := hasFired_step hd hs h.timed h.unfired

theorem Smooth.steps {trace : List (Run State Event Context W O × Happening Kind Event)}
    (h : Smooth clock display config run) (hd : display.Returns)
    (hs : Machine.Steps (assembled clock display config) run trace next) :
    Smooth clock display config next :=
  hs.keeps (fun _ _ _ _ hs h => h.step hd hs) h

theorem smooth_of_reachable (hd : display.Returns)
    (hr : (assembled clock display config).Reachable run) : Smooth clock display config run := by
  obtain ⟨world, observers, hr⟩ := hr
  exact hr.keeps rfl (smooth_newRun world observers) fun _ _ _ hs _ h => h.step hd hs

/-! ## States that the machine leaves by itself -/

/-- Where the machine goes by itself from the current state: after how long, to which state, and with
which context. -/
inductive Leaving (config : Config) (run : Run State Event Context W O) :
    Duration → State → Context → Prop where
  | dispensing : run.state = .dispensing → Leaving config run config.dispenseDelay .returning
      { run.context with change := run.context.changeAfterPurchase }
  | returning : run.state = .returning → Leaving config run config.returnDelay .idle .empty

variable {delay due : Duration} {target : State} {context : Context}

theorem Leaving.exists_after? (hl : Leaving config run delay target context) :
    ∃ after, (definition config).after? run.state = some after ∧ after.delay = delay := by
  cases hl with
  | dispensing hs | returning hs =>
    rw [hs]
    exact ⟨_, rfl, rfl⟩

/-- A state that the machine leaves by itself has a deadline, which is measured from the entry. -/
theorem Smooth.exists_entry (h : Smooth clock display config run) (hr : run.status = .running)
    (hl : Leaving config run delay target context) :
    ∃ entry, run.entry? = some entry ∧ Enters entry run ∧
      run.nextDeadline? = some (entry.time + delay) := by
  obtain ⟨after, hafter, rfl⟩ := hl.exists_after?
  have harmed : run.timers.armed.isSome := by
    rw [h.timed.armed hr]
    exact Option.isSome_of_eq_some hafter
  obtain ⟨timer, htimer⟩ := Option.isSome_iff_exists.1 harmed
  obtain ⟨entry, he, -, hdue⟩ := h.dated.due timer after htimer hafter
  have hunfired : timer.fired = false := by
    have hf := h.unfired
    rwa [Timers.hasFired, htimer] at hf
  exact ⟨entry, he, h.entered entry he,
    Run.nextDeadline?_eq_some_iff.2 ⟨hr, timer, htimer, hunfired, hdue⟩⟩

/-- State, context, deadline and status are the same. -/
structure Undisturbed (run next : Run State Event Context W O) : Prop where
  state : next.state = run.state
  context : next.context = run.context
  deadline : next.nextDeadline? = run.nextDeadline?
  status : next.status = run.status

theorem Undisturbed.refl (run : Run State Event Context W O) : Undisturbed run run :=
  ⟨rfl, rfl, rfl, rfl⟩

/-- Whatever is sent, nothing changes as long as the timer has not fired. -/
theorem Handled.undisturbed (hh : Handled clock display config event run next)
    (hf : run.timers.hasFired = false) (hl : Leaving config run delay target context) :
    Undisturbed run next ∧ next.now = run.now := by
  cases hh with
  | stale => exact ⟨.refl run, rfl⟩
  | kept outcome => exact ⟨⟨rfl, rfl, rfl, rfl⟩, rfl⟩
  | planned hp =>
    exfalso
    cases hp with
    | dispense _ hlive | giveBack _ hlive => exact not_isLive_of_hasFired hf _ hlive
    | start hs | choose _ hs | pay hs | buy hs | cancel hs =>
      cases hl with
      | dispensing ht | returning ht => cases hs.symm.trans ht

/-- The report of the timer makes the machine go on. -/
theorem Handled.leaves {id : TimerId}
    (hh : Handled clock display config (.timerElapsed id) run next)
    (hd : display.Returns)
    (hdelayed : (assembled clock display config).delayed? (.timerElapsed id) run ≠ none)
    (hl : Leaving config run delay target context) :
    ∃ world, next = (assembled clock display config).commit (some target) (.timerElapsed id)
      ⟨context, [], world⟩ run := by
  cases hh with
  | stale h => exact absurd h hdelayed
  | kept outcome h => cases h
  | planned hp hdone =>
    rw [hdone.eq_commit hd]
    cases hp with
    | dispense hs =>
      cases hl with
      | dispensing => exact ⟨_, rfl⟩
      | returning ht => cases hs.symm.trans ht
    | giveBack hs =>
      cases hl with
      | dispensing ht => cases hs.symm.trans ht
      | returning => exact ⟨_, rfl⟩

/-- At the deadline the timer fires, and the machine goes on. -/
theorem Smooth.elapse (h : Smooth clock display config run) (hd : display.Returns)
    (hq : run.queue = []) (hl : Leaving config run delay target context)
    (hn : run.nextDeadline? = some due) :
    ∃ next, (assembled clock display config).fire 1 (run.moveClock due) = some next ∧
      Smooth clock display config next ∧ next.status = .running ∧ next.queue = [] ∧
      next.now = due ∧ next.state = target ∧ next.context = context ∧
      ∃ event, next.journal =
        next.shown (some event) (.transitioned run.state target) :: run.journal := by
  have hr : run.status = .running := Run.running_of_nextDeadline? hn
  obtain ⟨id, timers, hfire⟩ := Run.exists_fire?_of_nextDeadline? hn
  have hclock : Smooth clock display config (run.moveClock due) := by
    refine h.step hd (.tick due hq ?_)
    intro other ho
    cases hn.symm.trans ho
    exact Nat.le_refl _
  have hnow : (run.moveClock due).now = due := max_eq_right (h.punctual.ahead due hn)
  have helapse : Machine.Step (assembled clock display config) (run.moveClock due) (.elapse id) _ :=
    .elapse hr hq hfire
  have hsmooth := hclock.step hd helapse
  have hdelayed := Option.isSome_iff_ne_none.1 (hclock.timed.isSome_delayed?_fire hr hfire)
  have hleaving : Leaving config ((run.moveClock due).withTimers timers) delay target context := by
    cases hl with
    | dispensing hs => exact .dispensing hs
    | returning hs => exact .returning hs
  have hh := handled clock display config ((run.moveClock due).withTimers timers) (.timerElapsed id)
  have hready : ((run.moveClock due).withTimers timers).status = .running := hr
  have hrest : ((run.moveClock due).withTimers timers).queue = [] := hq
  refine ⟨_, ?_, hsmooth, hh.status_eq.trans hr, hh.queue_eq.trans hq, ?_⟩
  · unfold Machine.fire Machine.drain
    rw [hfire]
    simp only
    rw [Run.dequeue?_enqueue _ hready hrest]
    exact Machine.drain_of_queue_eq_nil (hh.queue_eq.trans hq) 0
  · obtain ⟨world, hnext⟩ := hh.leaves hd hdelayed hleaving
    have hprocess : (assembled clock display config).process (EventLike.ofTimer id)
        ((run.moveClock due).withTimers timers) = _ := hnext
    rw [hprocess, Machine.now_commit, Machine.state_commit, Machine.context_commit]
    exact ⟨hnow, rfl, rfl, .timerElapsed id, by rw [Machine.commit_some]; rfl⟩

end Automat.Vending
