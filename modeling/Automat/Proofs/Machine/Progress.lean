import Automat.Proofs.Machine.Deadlines

/-!
How long an advance takes. Where every delay of the table has a least length, each timer that fires on
the way is at least that long after the one before (`Waits`). Main statement: an advance comes to an
end after no more timers than fit into the time that it is to pass, and one more (`advances_end`).
-/

namespace Automat

def Happening.isElapse {K E : Type} : Happening K E → Bool
  | .elapse _ => true
  | _ => false

def Definition.DelaysFrom {S K : Type} (definition : Definition S K) (least : Duration) : Prop :=
  ∀ node ∈ definition.nodes, ∀ after, node.after = some after → least ≤ after.delay

namespace Machine

section

variable {S K E C W O : Type}

def firings (steps : List (Run S E C W O × Happening K E)) : Nat := steps.countP (·.2.isElapse)

theorem firings_tick (run : Run S E C W O) (time : Duration) :
    firings [(run, (.tick time : Happening K E))] = 0 := rfl

theorem firings_round (before fired : Run S E C W O) (due : Duration) (timer : TimerId)
    (taken later : List (Run S E C W O × Happening K E)) :
    firings ((before, .tick due) :: (fired, .elapse timer) :: (taken ++ later)) =
      1 + (firings taken + firings later) := by
  unfold firings
  rw [List.countP_cons_of_neg Bool.false_ne_true, List.countP_cons_of_pos rfl, List.countP_append,
    Nat.add_comm]

/-- The next deadline is at least so far ahead of the clock. -/
def Waits (least : Duration) (run : Run S E C W O) : Prop :=
  ∀ due, run.nextDeadline? = some due → run.now + least ≤ due

/-- The actions raise no events. -/
def Silent (m : Machine S K E C W) : Prop :=
  ∀ entry action, m.actions.find? entry = some action →
    ∀ event context world, (action event context world).raised = []

variable {least time : Duration} {run next : Run S E C W O}

theorem Waits.of_eq (h : Waits least run) (hr : next.status = run.status)
    (ht : next.timers = run.timers) (hn : next.now = run.now) : Waits least next := by
  unfold Waits Run.nextDeadline?
  rw [hr, ht, hn]
  exact h

/-- A deadline that a wait leads to is not a cut-off one, unless it is the longest duration. -/
theorem Waits.total_le (h : Waits least run) {due : Duration} (hd : run.nextDeadline? = some due)
    (hlt : due < .longest) : run.now.total + least.total ≤ due.total := by
  have hle := h due hd
  rw [Duration.le_def, Duration.total_add] at hle
  rw [Duration.lt_def, Duration.total_longest] at hlt
  omega

end

variable {S K E C W O : Type} [DecidableEq S] [DecidableEq K] [Named S] [Named K] [EventLike E K]

/-- Whatever a timer sets going subsides: after some steps the queue is empty. -/
def Subsides (m : Machine S K E C W) (O : Type) : Prop :=
  ∀ run : Run S E C W O, m.Reachable run → ∀ due, run.nextDeadline? = some due →
    ∃ fuel next, m.fire fuel (run.moveClock due) = some next

variable {m : Machine S K E C W} {least time due : Duration} {run next done : Run S E C W O}
variable {steps taken : List (Run S E C W O × Happening K E)}

/-! ## Waits -/

omit [DecidableEq K] [Named S] [Named K] [EventLike E K] in
/-- A state just entered waits for its delay, if it has a delayed transition. -/
theorem waits_entry (hl : m.definition.DelaysFrom least) (ha : run.timers.armed = none) :
    Waits least (run.withTimers (m.entryTimers run)) := by
  intro due hd
  obtain ⟨-, timer, harmed, -, rfl⟩ := Run.nextDeadline?_eq_some_iff.1 hd
  change (m.entryTimers run).armed = some timer at harmed
  unfold entryTimers at harmed
  split at harmed
  · next after hafter =>
    cases harmed
    obtain ⟨node, hn, hnode⟩ := Option.bind_eq_some_iff.1 hafter
    have hdelay := hl node (Definition.mem_nodes_of_node? hn) after hnode
    show run.now + least ≤ run.now + after.delay
    rw [Duration.le_def] at hdelay ⊢
    simp only [Duration.total_add]
    omega
  · cases ha.symm.trans harmed

theorem Processed.waits {event : E} (hl : m.definition.DelaysFrom least)
    (h : m.Processed event run next) (hw : Waits least run) : Waits least next := by
  cases h with
  | dropped => exact hw
  | kept => exact hw.of_eq rfl rfl rfl
  | @committed target _ draft world =>
    cases target.filter (· ≠ run.state) with
    | none => exact hw.of_eq rfl rfl rfl
    | some target =>
      have hentry : Waits least ((m.moved event draft (run.withWorld world) target).withTimers
          (m.entryTimers (m.moved event draft (run.withWorld world) target))) :=
        waits_entry hl rfl
      rw [commit_some]
      exact hentry.of_eq rfl rfl rfl

theorem DrainTrace.waits (hl : m.definition.DelaysFrom least) (h : m.DrainTrace run steps done)
    (hw : Waits least run) : done.now = run.now ∧ Waits least done := by
  induction h with
  | rested => exact ⟨rfl, hw⟩
  | @took run rest done event later hq _ ih =>
    obtain ⟨-, queue, -, rfl⟩ := Run.dequeue?_eq_some_iff.1 hq
    have hprocessed := m.processed event { run with queue := queue }
    obtain ⟨hnow, hwaits⟩ := ih (hprocessed.waits hl (hw.of_eq rfl rfl rfl))
    exact ⟨hnow.trans hprocessed.now_eq, hwaits⟩

/-- When a timer has fired and all is done that it set going, the clock stands at its deadline, and
the next one is a delay ahead. -/
theorem waits_of_fired {timer : TimerId} {timers : Timers S} (hl : m.definition.DelaysFrom least)
    (hnow : run.now ≤ due)
    (hf : (run.moveClock due).timers.fire? (run.moveClock due).now = some (timer, timers))
    (h : m.DrainTrace (m.process (EventLike.ofTimer timer) ((run.moveClock due).withTimers timers))
      taken next) : next.now = due ∧ Waits least next := by
  have hprocessed :=
    m.processed (EventLike.ofTimer timer) ((run.moveClock due).withTimers timers)
  -- The timer that has fired is no deadline any more, whatever becomes of its transition.
  have hfired : Waits least ((run.moveClock due).withTimers timers) := by
    intro other hd
    obtain ⟨fired, -, -, -, -, rfl⟩ := Timers.fire?_eq_some_iff.1 hf
    obtain ⟨-, same, hsame, hunfired, -⟩ := Run.nextDeadline?_eq_some_iff.1 hd
    cases hsame
    cases hunfired
  obtain ⟨hclock, hwaits⟩ := h.waits hl (hprocessed.waits hl hfired)
  refine ⟨?_, hwaits⟩
  rw [hclock, hprocessed.now_eq]
  exact max_eq_right hnow

/-! ## How many timers fire -/

theorem DrainTrace.firings_eq_zero (h : m.DrainTrace run steps done) : firings steps = 0 := by
  obtain ⟨taken, rfl⟩ := h.exists_taken
  rw [firings, List.countP_eq_zero]
  intro entry hmem
  obtain ⟨other, -, rfl⟩ := List.mem_map.1 hmem
  exact Bool.false_ne_true

/-- In a run that waits, the timers that fire take up the time that passes. -/
theorem AdvanceTrace.firings_mul_le (hl : m.definition.DelaysFrom least) (ht : time < .longest)
    (h : m.AdvanceTrace time run steps done) (hw : Waits least run) :
    firings steps * least.total ≤ time.total - run.now.total := by
  induction h with
  | clear =>
    rw [firings_tick, Nat.zero_mul]
    exact Nat.zero_le _
  | @fired run next done due timer timers taken later hn hle hf hd _ ih =>
    have hpassed := hw.total_le hn (Nat.lt_of_le_of_lt hle ht)
    have hnow : run.now ≤ due := by
      rw [Duration.le_def]
      omega
    obtain ⟨hclock, hwaits⟩ := waits_of_fired hl hnow hf hd
    have hrest := ih hwaits
    rw [hclock] at hrest
    rw [Duration.le_def] at hle
    rw [firings_round, hd.firings_eq_zero, Nat.zero_add, Nat.add_mul, Nat.one_mul]
    omega

/-- In any run there may be one more at first, since nothing is known of the timer that is armed. -/
theorem AdvanceTrace.firings_le (hl : m.definition.DelaysFrom least) (hpos : .zero < least)
    (ht : time < .longest) (h : m.AdvanceTrace time run steps done) (hp : Punctual run) :
    firings steps ≤ 1 + (time.total - run.now.total) / least.total := by
  cases h with
  | clear =>
    rw [firings_tick]
    exact Nat.zero_le _
  | @fired _ next _ due timer timers taken later hn hle hf hd hrest =>
    have hnow := hp.ahead due hn
    obtain ⟨hclock, hwaits⟩ := waits_of_fired hl hnow hf hd
    have hlater := hrest.firings_mul_le hl ht hwaits
    rw [hclock] at hlater
    rw [Duration.le_def] at hnow
    rw [firings_round, hd.firings_eq_zero, Nat.zero_add]
    refine Nat.add_le_add_left ((Nat.le_div_iff_mul_le hpos).2 ?_) 1
    omega

/-! ## An advance comes to an end -/

/-- Up to the next deadline an advance comes to an end if its timer sets going nothing that lasts. -/
theorem Reachable.ends_next (hl : m.definition.DelaysFrom least) (hpos : .zero < least)
    (hs : m.Subsides O) (hr : m.Reachable run) (hn : run.nextDeadline? = some due)
    (hlt : due < .longest) :
    ∃ next, m.Ends (.advanceTo due) run next ∧ m.Reachable next ∧ next.now = due ∧
      Waits least next := by
  obtain ⟨fuel, next, hfire⟩ := hs run hr due hn
  obtain ⟨timer, timers, taken, hf, hd⟩ := drainTrace_of_fire hr.queue_eq_nil hn hfire
  obtain ⟨hclock, hwaits⟩ := waits_of_fired hl (hr.punctual.ahead due hn) hf hd
  have hclear : next.nextDeadline?.filter (· ≤ due) = none := by
    rw [Option.filter_eq_none_iff]
    intro later hnext hle
    have hle : later ≤ due := of_decide_eq_true hle
    have hahead := hwaits.total_le hnext (Nat.lt_of_le_of_lt hle hlt)
    rw [hclock] at hahead
    rw [Duration.le_def] at hle
    rw [Duration.lt_def, Duration.total_zero] at hpos
    omega
  have hend : m.Advanced due fuel next next := by
    have hclear : m.Advanced due fuel next (next.moveClock due) := .clear hclear
    rwa [moveClock_of_le (Nat.le_of_eq (congrArg Duration.total hclock.symm))] at hclear
  have hends : m.Ends (.advanceTo due) run next :=
    ends_advanceTo_iff.2 ⟨fuel + 1, advanced_iff.2 (.fired hn (Nat.le_refl _) hfire hend)⟩
  exact ⟨next, hends, hr.ends hends, hclock, hwaits⟩

/-- An advance comes to an end if it does so after the next deadline. -/
theorem Reachable.ends_of_next (hl : m.definition.DelaysFrom least) (hpos : .zero < least)
    (hs : m.Subsides O) (ht : time < .longest) (hr : m.Reachable run)
    (hnext : ∀ due, ∀ next : Run S E C W O, run.nextDeadline? = some due → due ≤ time →
      m.Reachable next → next.now = due → Waits least next →
      ∃ done, m.Ends (.advanceTo time) next done) :
    ∃ done, m.Ends (.advanceTo time) run done := by
  cases hd : run.nextDeadline?.filter (· ≤ time) with
  | none => exact ⟨run.moveClock time, ends_advanceTo_iff.2 ⟨0, advanced_iff.2 (.clear hd)⟩⟩
  | some due =>
    obtain ⟨hn, hle⟩ := Option.filter_eq_some_iff.1 hd
    have hle : due ≤ time := of_decide_eq_true hle
    obtain ⟨next, hends, hreach, hclock, hwaits⟩ :=
      hr.ends_next hl hpos hs hn (Nat.lt_of_le_of_lt hle ht)
    obtain ⟨done, hdone⟩ := hnext due next hn hle hreach hclock hwaits
    exact ⟨done, (ends_advanceTo_split_iff hle).2 ⟨next, hends, hdone⟩⟩

/-- In a run that waits, each deadline brings the clock nearer to the time to go to. -/
theorem Reachable.ends_of_waits (hl : m.definition.DelaysFrom least) (hpos : .zero < least)
    (hs : m.Subsides O) (ht : time < .longest) (hr : m.Reachable run) (hw : Waits least run) :
    ∃ done, m.Ends (.advanceTo time) run done := by
  induction hleft : time.total - run.now.total using Nat.strong_induction_on generalizing run with
  | _ left ih =>
    refine hr.ends_of_next hl hpos hs ht ?_
    intro due next hn hle hreach hclock hwaits
    have hpassed := hw.total_le hn (Nat.lt_of_le_of_lt hle ht)
    rw [Duration.lt_def, Duration.total_zero] at hpos
    rw [Duration.le_def] at hle
    refine ih _ ?_ hreach hwaits rfl
    rw [hclock]
    omega

/-! ## Machines that raise nothing -/

omit [DecidableEq S] [DecidableEq K] in
theorem Silent.raised_of_perform (h : m.Silent) {event : Option E} {entries : List (S × String)}
    {draft last : Draft E C W} {failure? : Option Failure}
    (hp : m.perform event entries draft = (last, failure?)) : last.raised = draft.raised := by
  induction entries generalizing draft with
  | nil =>
    cases hp
    rfl
  | cons entry entries ih =>
    obtain ⟨state, entry⟩ := entry
    simp only [perform] at hp
    cases ha : m.actions.find? entry with
    | none =>
      rw [ha] at hp
      cases hp
      rfl
    | some action =>
      simp only [ha, h entry action ha, List.append_nil] at hp
      split at hp
      · have hrest := ih hp
        exact hrest
      · cases hp
        rfl

theorem Silent.raised_eq_nil (h : m.Silent) (event : E) (run : Run S E C W O) :
    m.raised event run = [] := by
  unfold raised
  split
  · next draft ha =>
    obtain ⟨⟨target, actions, world⟩, -, hp⟩ := Option.map_eq_some_iff.1 ha
    exact h.raised_of_perform hp
  · rfl

/-- Where no events are raised, the report of a timer is the only one to be processed. -/
theorem Silent.subsides (h : m.Silent) (O : Type) : m.Subsides O := by
  intro run hr due hn
  obtain ⟨timer, timers, hf⟩ := Run.exists_fire?_of_nextDeadline? hn
  let fired := (run.moveClock due).withTimers timers
  have hrunning : run.status = .running := Run.running_of_nextDeadline? hn
  have hrest : (m.process (EventLike.ofTimer timer) fired).queue = [] := by
    rw [queue_process, h.raised_eq_nil, List.append_nil]
    exact hr.queue_eq_nil
  refine ⟨1, m.process (EventLike.ofTimer timer) fired, ?_⟩
  have hnext : (fired.enqueue [EventLike.ofTimer timer]).dequeue? =
      some (EventLike.ofTimer timer, fired) :=
    Run.dequeue?_enqueue fired hrunning hr.queue_eq_nil _
  simp only [fire, hf]
  show m.drain 1 (fired.enqueue [EventLike.ofTimer timer]) = _
  unfold drain
  rw [hnext]
  exact drain_of_queue_eq_nil hrest 0

/-! ## All advances -/

/-- Where every delay has a least length and what a timer sets going subsides, every advance to a time
short of the longest duration comes to an end, and no more timers fire than the least delay fits into
the time that passes, and one more; none fires on the way to the past. The clock is then where it was
asked to go, unless that lies in the past, and all that is still to fire is ahead of it. What a timer
sets going subsides if no action raises events. -/
theorem advances_end (hpos : .zero < least) (hl : m.definition.DelaysFrom least) :
    (m.Silent → m.Subsides O) ∧
    (m.Subsides O → ∀ run : Run S E C W O, m.Reachable run → ∀ time, time < .longest →
      ∃ fuel done steps, m.call fuel (.advanceTo time) run = some (done, .done) ∧
        m.CallTrace (.advanceTo time) run steps done .done ∧
        firings steps ≤ 1 + (time.total - run.now.total) / least.total ∧
        (time < run.now → firings steps = 0) ∧
        done.now = max run.now time ∧
        (run.now ≤ time → ∀ timer, done.timers.armed = some timer → timer.fired = false →
          done.now < timer.due)) := by
  refine ⟨fun h => h.subsides O, ?_⟩
  intro hs run hr time ht
  obtain ⟨done, hends⟩ := hr.ends_of_next hl hpos hs ht
    fun due next _ _ hreach _ hwaits => hreach.ends_of_waits hl hpos hs ht hwaits
  obtain ⟨fuel, ha⟩ := ends_advanceTo_iff.1 hends
  obtain ⟨steps, htrace⟩ := advanceTrace_of_advanceTo hr.queue_eq_nil ha
  have hnow := now_advanceTo ha
  have hcall : m.call fuel (.advanceTo time) run = some (done, .done) := by
    rw [call, ha]
    rfl
  refine ⟨fuel, done, steps, hcall, .advancedTo htrace, htrace.firings_le hl hpos ht hr.punctual, ?_,
    hnow, ?_⟩
  · intro hpast
    cases htrace with
    | clear => rfl
    | fired hn hle => exact absurd (le_trans (hr.punctual.ahead _ hn) hle) (not_le.2 hpast)
  · intro hle timer harmed hfired
    have hdone := (hr.ends hends).punctual
    have hrunning := hdone.running_of_armed harmed
    have hnext : done.nextDeadline? = some timer.due :=
      Run.nextDeadline?_eq_some_iff.2 ⟨hrunning, timer, harmed, hfired, rfl⟩
    rw [hnow, max_eq_right hle]
    exact htrace.lt_of_done hnext

section

open Script

/-- The light takes at least ten milliseconds for each switch and raises no events. From the twelfth
millisecond on it can be advanced to the thirty-fifth with three switches at most, and the next one
is still to come. -/
theorem advances_end_blinker : Duration.zero < .ofMillis 10 ∧
    blinker.definition.DelaysFrom (.ofMillis 10) ∧ blinker.Silent ∧
    ∃ run : Run String Signal Nat Unit Unit, blinker.Reachable run ∧ run.now = .ofMillis 12 ∧
      Duration.ofMillis 35 < .longest ∧
      ∃ fuel done steps, blinker.call fuel (.advanceTo (.ofMillis 35)) run = some (done, .done) ∧
        blinker.CallTrace (.advanceTo (.ofMillis 35)) run steps done .done ∧ firings steps ≤ 3 ∧
        done.now = .ofMillis 35 ∧
        ∀ timer, done.timers.armed = some timer → timer.fired = false →
          done.now < timer.due := by
  have hpos : Duration.zero < .ofMillis 10 := by decide
  have hl : blinker.definition.DelaysFrom (.ofMillis 10) := by
    unfold Definition.DelaysFrom
    decide
  have hsilent : blinker.Silent := by
    intro entry action ha event context world
    unfold blinker Registry.find? at ha
    split at ha
    · cases ha
      rfl
    · cases ha
  have ht : Duration.ofMillis 35 < .longest := by decide
  obtain ⟨run, done, hreach, hnow, -⟩ := exists_blinker_run
  obtain ⟨hsubsides, hends⟩ := advances_end (m := blinker) (O := Unit) hpos hl
  obtain ⟨fuel, done, steps, hcall, htrace, hfew, -, hclock, hahead⟩ :=
    hends (hsubsides hsilent) run hreach (.ofMillis 35) ht
  rw [hnow] at hfew hclock hahead
  exact ⟨hpos, hl, hsilent, run, hreach, hnow, ht, fuel, done, steps, hcall, htrace, hfew, hclock,
    hahead (by decide)⟩

end

end Machine

end Automat
