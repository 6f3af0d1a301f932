import Automat.Proofs.Machine.Timed
import Automat.Script.Signal

/-!
How often a delayed transition is attempted. The clock attempts it once in a visit. A timer that has
fired stays armed when its transition failed, or stayed in its state, and then every report of it
that comes in as an event attempts the transition again; no other report does anything at all.
-/

namespace Automat

/-- The id is that of a timer that has fired and is still armed. -/
def Timers.Spent {S : Type} (timers : Timers S) (id : TimerId) : Prop :=
  ∃ timer, timers.armed = some timer ∧ timer.fired ∧ timer.id = id

namespace Machine

variable {S K E C W O : Type} [DecidableEq S] [EventLike E K]

/-- The visit whose delayed transition is attempted when something happens in a run. -/
def attempt? (m : Machine S K E C W) : Run S E C W O × Happening K E → Option Nat
  | (run, .take event) => (m.delayed? event run).map fun _ => run.visit
  | (run, .elapse timer) => do
    let (_, timers) ← run.timers.fire? run.now
    let _ ← m.delayed? (EventLike.ofTimer timer) (run.withTimers timers)
    some run.visit
  | _ => none

/-- The attempts to take a delayed transition, one after the other, each with its visit. -/
def attempts (m : Machine S K E C W) (trace : List (Run S E C W O × Happening K E)) : List Nat :=
  trace.filterMap m.attempt?

/-- No event from the queue makes the machine attempt a delayed transition. -/
def OnlyClock (m : Machine S K E C W) (trace : List (Run S E C W O × Happening K E)) : Prop :=
  ∀ entry ∈ trace, ∀ event, entry.2 = .take event → m.delayed? event entry.1 = none

/-- Every attempt so far was one of an earlier visit, or of the current one, whose timer has fired
then; and where the timer has fired there was an attempt. -/
structure Counted (m : Machine S K E C W) (trace : List (Run S E C W O × Happening K E))
    (run : Run S E C W O) : Prop where
  past : ∀ visit ∈ m.attempts trace, visit < run.visit ∨
    visit = run.visit ∧ (run.status = .running → run.timers.hasFired = true)
  fired : run.timers.hasFired = true → run.visit ∈ m.attempts trace

variable {m : Machine S K E C W} {run next : Run S E C W O} {happening : Happening K E}

theorem attempts_snoc (trace : List (Run S E C W O × Happening K E)) :
    m.attempts (trace ++ [(run, happening)]) =
      m.attempts trace ++ (m.attempt? (run, happening)).toList := by
  unfold attempts
  rw [List.filterMap_append]
  cases h : m.attempt? (run, happening) <;> simp [h]

theorem visit_of_attempt? {visit : Nat} (h : m.attempt? (run, happening) = some visit) :
    visit = run.visit := by
  unfold attempt? at h
  split at h
  · next event he =>
    cases he
    obtain ⟨_, _, rfl⟩ := Option.map_eq_some_iff.1 h
    rfl
  · next timer he =>
    cases he
    simp only [Option.bind_eq_bind, Option.bind_eq_some_iff] at h
    obtain ⟨_, _, _, _, hv⟩ := h
    exact (Option.some.inj hv).symm
  · cases h

/-- What a step does to the visit and to its timer. -/
inductive Passed (m : Machine S K E C W) (run : Run S E C W O) (happening : Happening K E)
    (next : Run S E C W O) : Prop where
  | unchanged : next.visit = run.visit → next.timers = run.timers →
      (next.status = .running → run.status = .running) →
      (m.attempt? (run, happening) ≠ none → run.timers.hasFired = true) →
      Passed m run happening next
  | entered : run.visit < next.visit → next.timers.hasFired = false → Passed m run happening next
  | fired : next.visit = run.visit → next.timers.hasFired = true →
      m.attempt? (run, happening) ≠ none → Passed m run happening next
  | stopped : next.visit = run.visit → next.timers.hasFired = false → next.status ≠ .running →
      Passed m run happening next

variable {trace : List (Run S E C W O × Happening K E)}

theorem Passed.counted (h : m.Passed run happening next) (hc : m.Counted trace run) :
    m.Counted (trace ++ [(run, happening)]) next := by
  constructor
  · intro visit hmem
    rw [attempts_snoc] at hmem
    -- A new attempt is one of the current visit.
    have hold : visit < run.visit ∨ visit = run.visit ∧
        (run.status = .running → run.timers.hasFired = true ∨
          m.attempt? (run, happening) ≠ none) := by
      rcases List.mem_append.1 hmem with hmem | hmem
      · rcases hc.past visit hmem with hlt | ⟨heq, hf⟩
        · exact .inl hlt
        · exact .inr ⟨heq, fun hr => .inl (hf hr)⟩
      · have ha := Option.mem_toList.1 hmem
        exact .inr ⟨visit_of_attempt? ha, fun _ => .inr (by rw [ha]; exact Option.some_ne_none _)⟩
    cases h with
    | unchanged hv ht hr ha =>
      rw [hv, ht]
      rcases hold with hlt | ⟨heq, hf⟩
      · exact .inl hlt
      · exact .inr ⟨heq, fun hn => (hf (hr hn)).elim id ha⟩
    | entered hv _ => exact .inl (by omega)
    | fired hv hf _ =>
      rw [hv]
      exact hold.imp_right fun heq => ⟨heq.1, fun _ => hf⟩
    | stopped hv _ hr =>
      rw [hv]
      exact hold.imp_right fun heq => ⟨heq.1, fun hn => absurd hn hr⟩
  · intro hfired
    rw [attempts_snoc]
    cases h with
    | unchanged hv ht _ _ =>
      rw [hv]
      exact List.mem_append_left _ (hc.fired (ht ▸ hfired))
    | entered _ hf => rw [hf] at hfired; cases hfired
    | fired hv _ ha =>
      obtain ⟨visit, hsome⟩ := Option.ne_none_iff_exists'.1 ha
      rw [hv, hsome, visit_of_attempt? hsome]
      simp
    | stopped _ hf _ => rw [hf] at hfired; cases hfired

/-! ## What steps do to the timer -/

omit [EventLike E K] in
theorem hasFired_entryTimers (run : Run S E C W O) (ha : run.timers.armed = none) :
    (m.entryTimers run).hasFired = false := by
  unfold entryTimers
  split
  · rfl
  · rw [Timers.hasFired, ha]
    rfl

/-- The clock's report of a timer that fires makes the machine attempt the delayed transition. -/
theorem attempt?_elapse [LawfulEventLike E] (ht : m.Timed run) (hr : run.status = .running)
    {id : TimerId} {timers : Timers S} (hf : run.timers.fire? run.now = some (id, timers)) :
    m.attempt? (run, .elapse id) = some run.visit := by
  obtain ⟨after, ha⟩ := Option.isSome_iff_exists.1 (ht.isSome_delayed?_fire hr hf)
  simp [attempt?, hf, ha]

variable [DecidableEq K] [Named S] [Named K]

omit [DecidableEq K] [Named S] in
theorem hasFired_commit (target : S) (event : E) (draft : Draft E C W) (run : Run S E C W O) :
    (m.commit (some target) event draft run).timers.hasFired = false := by
  rw [commit_some]
  have ha : (m.moved event draft run target).timers.armed = none := rfl
  exact hasFired_entryTimers _ ha

/-- An event either leaves visit and timer alone or begins another visit. -/
theorem Processed.visit_cases {event : E} (h : m.Processed event run next) :
    next.visit = run.visit ∧ next.timers = run.timers ∨
      run.visit < next.visit ∧ next.timers.hasFired = false := by
  cases h with
  | dropped => exact .inl ⟨rfl, rfl⟩
  | kept => exact .inl ⟨rfl, rfl⟩
  | @committed target _ draft world =>
    cases target.filter (· ≠ run.state) with
    | none => exact .inl ⟨rfl, rfl⟩
    | some target =>
      refine .inr ⟨?_, hasFired_commit _ _ _ _⟩
      rw [commit_some]
      exact Nat.lt_succ_self _

theorem Step.passed [LawfulEventLike E] (hs : Step m run happening next) (ht : m.Timed run) :
    m.Passed run happening next := by
  cases hs with
  | @begin draft hr _ =>
    refine .entered ?_ ?_
    · rw [ht.unvisited hr, enterInitial, arm_eq]
      exact Nat.one_pos
    · have hd : run.timers.armed = none := ht.disarmed (by rw [hr]; decide)
      rw [enterInitial, arm_eq]
      exact hasFired_entryTimers ((run.adopt draft).begin m.definition.initial) hd
  | @take rest event hq =>
    obtain ⟨hr, queue, -, hrest⟩ := Run.dequeue?_eq_some_iff.1 hq
    have hv : rest.visit = run.visit := by rw [hrest]
    have htim : rest.timers = run.timers := by rw [hrest]
    rcases (m.processed event rest).visit_cases with ⟨hsame, hst⟩ | ⟨hlt, hf⟩
    · refine .unchanged (hsame.trans hv) (hst.trans htim) (fun _ => hr) ?_
      intro ha
      have hd : m.delayed? event run ≠ none := by
        intro hd
        simp [attempt?, hd] at ha
      exact hasFired_of_delayed? hd
    · exact .entered (hv ▸ hlt) hf
  | @elapse id timers hr hq hf =>
    have ha := attempt?_elapse ht hr hf
    obtain ⟨timer, -, -, -, -, rfl⟩ := Timers.fire?_eq_some_iff.1 hf
    rcases (m.processed (EventLike.ofTimer id) (run.withTimers _)).visit_cases with
      ⟨hsame, hst⟩ | ⟨hlt, hfired⟩
    · refine .fired hsame ?_ (by rw [ha]; exact Option.some_ne_none _)
      rw [hst]
      rfl
    · exact .entered hlt hfired
  | ask kind =>
    obtain ⟨world, hw⟩ := m.canTransition_eq kind run
    rw [hw]
    exact .unchanged rfl rfl id (absurd rfl)
  | stop =>
    unfold Run.stop
    split
    · exact .unchanged rfl rfl id (absurd rfl)
    · refine .stopped rfl rfl ?_
      show Status.stopped ≠ .running
      decide
  | refuse | accept | tick | listen => exact .unchanged rfl rfl id (absurd rfl)

/-! ## Counting -/

theorem Steps.counted [LawfulEventLike E] (hm : m.Accepted) {world : W} {observers : O}
    (hs : Steps m (m.newRun world observers) trace run) : m.Counted trace run := by
  induction hs with
  | refl =>
    constructor
    · intro visit hmem
      cases hmem
    · intro hfired
      cases hfired
  | snoc hs hstep ih =>
    exact (hstep.passed (hs.timed_of_newRun hm)).counted ih

/-- An attempt that the clock makes is the first of its visit; one that an event from the queue
makes never is. -/
theorem Counted.nodup_snoc_iff [LawfulEventLike E] (hc : m.Counted trace run)
    (ht : m.Timed run) (hs : Step m run happening next) :
    (m.attempts (trace ++ [(run, happening)])).Nodup ↔ (m.attempts trace).Nodup ∧
      ∀ event, happening = .take event → m.delayed? event run = none := by
  rw [attempts_snoc]
  cases hs with
  | @take rest event hq =>
    cases hd : m.delayed? event run with
    | none => simp [attempt?, hd]
    | some after =>
      have hne : m.delayed? event run ≠ none := by
        rw [hd]
        exact Option.some_ne_none _
      have hmem := hc.fired (hasFired_of_delayed? hne)
      have ha : m.attempt? (run, .take event) = some run.visit := by simp [attempt?, hd]
      simp [ha, List.nodup_append, hmem, hd]
  | @elapse id timers hr hq hf =>
    have hnot : run.visit ∉ m.attempts trace := by
      intro hmem
      obtain ⟨timer, harm, hunfired, -⟩ := Timers.fire?_eq_some_iff.1 hf
      rcases hc.past _ hmem with hlt | ⟨-, hfired⟩
      · exact Nat.lt_irrefl _ hlt
      · have := hfired hr
        simp [Timers.hasFired, harm, hunfired] at this
    have hne : ∀ visit ∈ m.attempts trace, visit ≠ run.visit := by
      rintro visit hmem rfl
      exact hnot hmem
    simpa [attempt?_elapse ht hr hf, List.nodup_append] using fun _ => hne
  | begin | refuse | accept | tick | ask | stop | listen => simp [attempt?]

theorem Steps.nodup_attempts_iff [LawfulEventLike E] (hm : m.Accepted) {world : W}
    {observers : O} (hs : Steps m (m.newRun world observers) trace run) :
    (m.attempts trace).Nodup ↔ m.OnlyClock trace := by
  induction hs with
  | refl =>
    refine iff_of_true List.nodup_nil ?_
    intro entry hmem
    cases hmem
  | @snoc trace run next happening hs hstep ih =>
    have ht := hs.timed_of_newRun hm
    rw [(hs.counted hm).nodup_snoc_iff ht hstep, ih]
    constructor
    · rintro ⟨hold, hnew⟩ entry hmem event he
      rcases List.mem_append.1 hmem with hmem | hmem
      · exact hold entry hmem event he
      · rw [List.mem_singleton.1 hmem] at he ⊢
        exact hnew event he
    · intro h
      constructor
      · exact fun entry hmem => h entry (List.mem_append_left _ hmem)
      · exact fun event he => h (run, happening) (by simp) event he

/-! ## Reports from clients -/

/-- The report of a timer that is not spent does nothing, whatever code the names stand for. -/
theorem send_of_not_spent (ht : m.Timed run) (hr : run.status = .running) (hq : run.queue = [])
    {event : E} {id : TimerId} (hw : EventLike.isWellFormed event = true)
    (he : EventLike.elapsedTimer? event = some id) (hn : ¬ run.timers.Spent id) (fuel : Nat) :
    m.send (fuel + 1) event run = some run := by
  obtain ⟨node, hnode⟩ := Option.isSome_iff_exists.1 ht.declared
  have hd : m.delayed? event run = none := by
    rw [← Option.not_isSome_iff_eq_none, ht.delayed?_isSome_iff hr hw he]
    exact hn
  rw [send_succ hr hq, process_of_delayed?_none hnode hw he hd,
    drain_of_queue_eq_nil hq]

/-- The report of a spent timer makes the machine attempt the delayed transition again. -/
theorem send_of_spent (ht : m.Timed run) (hr : run.status = .running) (hq : run.queue = [])
    {event : E} {id : TimerId} (hw : EventLike.isWellFormed event = true)
    (he : EventLike.elapsedTimer? event = some id) (hs : run.timers.Spent id) :
    ∃ after, m.definition.after? run.state = some after ∧ ∀ fuel, m.send (fuel + 1) event run =
      m.drain fuel (m.apply (some after.target) after.actions event run) := by
  obtain ⟨after, hd⟩ := Option.isSome_iff_exists.1 ((ht.delayed?_isSome_iff hr hw he).2 hs)
  refine ⟨after, after?_of_delayed? hd, ?_⟩
  intro fuel
  rw [send_succ hr hq, process_eq_apply hd]

/-- An attempt is seen in the journal. -/
theorem send_ne_of_spent (ht : m.Timed run) (hr : run.status = .running) (hq : run.queue = [])
    {event : E} {id : TimerId} (hw : EventLike.isWellFormed event = true)
    (he : EventLike.elapsedTimer? event = some id) (hs : run.timers.Spent id) (fuel : Nat) :
    m.send (fuel + 1) event run ≠ some run := by
  intro hsend
  obtain ⟨after, hd⟩ := Option.isSome_iff_exists.1 ((ht.delayed?_isSome_iff hr hw he).2 hs)
  rw [send_succ hr hq] at hsend
  have hp : (m.process event run).status = .running := (m.processed event run).status_eq.trans hr
  have hsettles : m.Settles (fun _ _ => True) (m.process event run) run :=
    (settles_of_drain hsend hp).1
  obtain ⟨-, trace, hsteps, -⟩ := hsettles
  have hle := hsteps.journal_suffix.length_le
  obtain ⟨snapshot, hj⟩ := m.journal_apply event run (some after.target) after.actions
  rw [process_eq_apply hd, hj, List.length_cons] at hle
  omega

/-- In every reachable run a report does nothing, and runs no guard and no action, unless its timer
is spent; then it makes the machine attempt the delayed transition of the current state again. Over
any run no delayed transition is attempted twice in a visit, and so all attempts are the clock's,
exactly if no event from the queue reports a spent timer. -/
theorem attempts_once_iff [LawfulEventLike E] (hm : m.Accepted) :
    (∀ (run : Run S E C W O) (event : E) (id : TimerId) (fuel : Nat), m.Reachable run →
      run.status = .running → EventLike.isWellFormed event = true →
      EventLike.elapsedTimer? event = some id →
      ((∀ actions guards,
          ({ m with actions := actions, guards := guards } : Machine S K E C W).send (fuel + 1)
            event run = some run) ↔ ¬ run.timers.Spent id) ∧
      (run.timers.Spent id → ∃ after, m.definition.after? run.state = some after ∧
        m.send (fuel + 1) event run =
          m.drain fuel (m.apply (some after.target) after.actions event run))) ∧
    ∀ (world : W) (observers : O) (trace : List (Run S E C W O × Happening K E))
      (run : Run S E C W O), Steps m (m.newRun world observers) trace run →
      ((m.attempts trace).Nodup ↔ m.OnlyClock trace) := by
  refine ⟨?_, fun world observers trace run hs => hs.nodup_attempts_iff hm⟩
  intro run event id fuel hreach hr hw he
  have ht := hreach.timed hm
  have hq := hreach.queue_eq_nil
  refine ⟨⟨?_, ?_⟩, ?_⟩
  · intro hsend hs
    exact send_ne_of_spent ht hr hq hw he hs fuel (hsend m.actions m.guards)
  · intro hn actions guards
    have htimed : ({ m with actions := actions, guards := guards } : Machine S K E C W).Timed run :=
      ⟨ht.unvisited, ht.declared, ht.disarmed, ht.armed, ht.owned⟩
    exact send_of_not_spent htimed hr hq hw he hn fuel
  · intro hs
    obtain ⟨after, ha, hsend⟩ := send_of_spent ht hr hq hw he hs
    exact ⟨after, ha, hsend fuel⟩

/-! ## A machine that counts its attempts -/

section

open Script

/-- Its delayed transition leads back to its only state, so the timer that has fired stays. -/
def pulseBuilder : Builder String String Signal Unit Nat where
  definition :=
    { id := "pulse"
      initial := "on"
      nodes :=
        [{ state := "on"
           after := some { delay := .ofMillis 10, target := "on", actions := ["count"] } }] }
  actions := [("count", .effect fun _ _ attempts => (attempts + 1, none))]
  context := some ()
  clock _ := .epoch

def pulse : Machine String String Signal Unit Nat where
  definition := pulseBuilder.definition
  actions := pulseBuilder.actions
  guards := []
  context := ()
  historyLimit := History.defaultLimit
  clock _ := .epoch

theorem pulse_accepted : pulse.Accepted := ⟨pulseBuilder, rfl⟩

def pulseReport (generation : UInt64) : Signal := EventLike.ofTimer ⟨generation⟩

/-- Ten milliseconds after its start the machine has made its attempt, and its timer is spent. -/
theorem exists_pulse_spent : ∃ run : Run String Signal Unit Nat Unit, pulse.Reachable run ∧
    run.status = .running ∧ run.timers.Spent ⟨1⟩ ∧ ¬ run.timers.Spent ⟨2⟩ ∧ run.world = 1 ∧
    (pulse.send 1 (pulseReport 1) run).map (·.world) = some 2 := by
  have hsome : (pulse.calls 2 [.start, .advance (.ofMillis 10)] (pulse.newRun 0 ())).isSome := rfl
  refine ⟨_, ⟨0, (), reached_get_calls hsome (fun _ _ _ => trivial)⟩, rfl, ⟨_, rfl, rfl, rfl⟩, ?_,
    rfl, rfl⟩
  rintro ⟨timer, ha, -, hid⟩
  cases ha
  cases hid

/-- A report of the spent timer counts once more: it does not leave the machine as it was. -/
theorem pulse_report_counts : ¬ ∀ run : Run String Signal Unit Nat Unit, pulse.Reachable run →
    run.status = .running → ∀ event id, EventLike.isWellFormed event = true →
    EventLike.elapsedTimer? event = some id → pulse.send 1 event run = some run := by
  intro h
  obtain ⟨run, hreach, hr, -, -, hw, hsend⟩ := exists_pulse_spent
  rw [h run hreach hr (pulseReport 1) ⟨1⟩ rfl rfl, Option.map_some, hw] at hsend
  cases hsend

theorem pulse_attempts_once_iff : pulse.Accepted ∧
    (∃ run : Run String Signal Unit Nat Unit, pulse.Reachable run ∧ run.status = .running ∧
      pulse.send 1 (pulseReport 2) run = some run ∧
      ∃ after, pulse.definition.after? run.state = some after ∧
        pulse.send 1 (pulseReport 1) run =
          pulse.drain 0 (pulse.apply (some after.target) after.actions (pulseReport 1) run)) := by
  obtain ⟨run, hreach, hr, hspent, hnot, -⟩ := exists_pulse_spent
  obtain ⟨hreports, -⟩ := attempts_once_iff (S := String) (O := Unit) pulse_accepted
  refine ⟨pulse_accepted, run, hreach, hr, ?_, ?_⟩
  · exact (hreports run (pulseReport 2) ⟨2⟩ 0 hreach hr rfl rfl).1.2 hnot pulse.actions
      pulse.guards
  · exact (hreports run (pulseReport 1) ⟨1⟩ 0 hreach hr rfl rfl).2 hspent

end

end Machine

end Automat
