import Automat.Proofs.Machine.Reachable

/-!
The timer of a machine that a builder accepted. In every state with a delayed transition, and in no
other, a timer of the current visit is armed while the machine runs (`Reachable.timed`), so exactly
the reports of this timer count, and only once it has fired (`Timed.delayed?_isSome_iff`).
-/

namespace Automat

namespace Timers

variable {S : Type}

def hasFired (timers : Timers S) : Bool := timers.armed.any (·.fired)

end Timers

namespace Machine

section

variable {S K E C W O : Type} [DecidableEq S]

/-- The armed timer is that of the current visit, and there is one exactly while the machine runs in
a state with a delayed transition. Visits count from the start. -/
structure Timed (m : Machine S K E C W) (run : Run S E C W O) : Prop where
  unvisited : run.status = .notStarted → run.visit = 0
  declared : (m.definition.node? run.state).isSome
  disarmed : run.status ≠ .running → run.timers.armed = none
  armed : run.status = .running →
    run.timers.armed.isSome = (m.definition.after? run.state).isSome
  owned : ∀ timer, run.timers.armed = some timer →
    timer.owner = run.state ∧ timer.visit = run.visit

variable {m : Machine S K E C W} {run next : Run S E C W O}

/-! ## What keeps the timer in order -/

theorem Timed.of_eq (h : m.Timed run) (hr : next.status = run.status)
    (hs : next.state = run.state) (hv : next.visit = run.visit) (ht : next.timers = run.timers) :
    m.Timed next := by
  obtain ⟨hunv, hdecl, hdis, harm, hown⟩ := h
  constructor
  · rwa [hr, hv]
  · rwa [hs]
  · rwa [hr, ht]
  · rwa [hr, ht, hs]
  · rwa [ht, hs, hv]

/-- The timer is in order right after a state was entered. -/
theorem timed_entry (run : Run S E C W O) (hr : run.status = .running)
    (hn : (m.definition.node? run.state).isSome) (ha : run.timers.armed = none) :
    m.Timed (run.withTimers (m.entryTimers run)) where
  unvisited h := by cases hr.symm.trans h
  declared := hn
  disarmed h := absurd hr h
  armed _ := by
    unfold entryTimers
    split
    · next after hd =>
      show true = (m.definition.after? run.state).isSome
      rw [hd]
      rfl
    · next hd =>
      show run.timers.armed.isSome = (m.definition.after? run.state).isSome
      rw [ha, hd]
      rfl
  owned timer ht := by
    unfold entryTimers at ht
    split at ht
    · cases ht
      exact ⟨rfl, rfl⟩
    · cases ha.symm.trans ht

/-- Firing leaves the timer in order. -/
theorem Timed.fire {id : TimerId} {timers : Timers S} (ht : m.Timed run)
    (hf : run.timers.fire? run.now = some (id, timers)) : m.Timed (run.withTimers timers) := by
  obtain ⟨timer, ha, -, -, -, rfl⟩ := Timers.fire?_eq_some_iff.1 hf
  constructor
  · exact ht.unvisited
  · exact ht.declared
  · intro hr
    cases (ht.disarmed hr).symm.trans ha
  · intro hr
    show true = (m.definition.after? run.state).isSome
    rw [← ht.armed hr, ha]
    rfl
  · intro fired hfired
    cases hfired
    exact ht.owned timer ha

/-! ## Reports that count -/

theorem Timed.isLive_iff (ht : m.Timed run) {id : TimerId} :
    run.timers.isLive id run.visit ↔
      ∃ timer, run.timers.armed = some timer ∧ timer.fired ∧ timer.id = id := by
  unfold Timers.isLive
  cases ha : run.timers.armed with
  | none => simp
  | some timer => simp [(ht.owned timer ha).2]

/-- A report makes the machine attempt the delayed transition exactly if it names the armed timer
and this has fired. -/
theorem Timed.delayed?_isSome_iff [EventLike E K] (ht : m.Timed run)
    (hr : run.status = .running) {event : E} {id : TimerId}
    (hw : EventLike.isWellFormed event = true) (he : EventLike.elapsedTimer? event = some id) :
    (m.delayed? event run).isSome ↔
      ∃ timer, run.timers.armed = some timer ∧ timer.fired ∧ timer.id = id := by
  rw [← ht.isLive_iff]
  simp only [delayed?, hw, he]
  split
  · next hl =>
    obtain ⟨timer, ha, -⟩ := ht.isLive_iff.1 hl
    simp [← ht.armed hr, ha, hl]
  · next hl => simp [hl]

theorem Timed.isSome_delayed?_fire [EventLike E K] [LawfulEventLike E] (ht : m.Timed run)
    (hr : run.status = .running) {id : TimerId} {timers : Timers S}
    (hf : run.timers.fire? run.now = some (id, timers)) :
    (m.delayed? (EventLike.ofTimer id) (run.withTimers timers)).isSome := by
  have hfired : m.Timed (run.withTimers timers) := ht.fire hf
  rw [hfired.delayed?_isSome_iff hr (LawfulEventLike.isWellFormed_ofTimer id)
    (LawfulEventLike.elapsedTimer?_ofTimer id)]
  obtain ⟨timer, -, -, -, rfl, rfl⟩ := Timers.fire?_eq_some_iff.1 hf
  exact ⟨_, rfl, rfl, rfl⟩

/-- Only the report of a fired timer counts. -/
theorem hasFired_of_delayed? [EventLike E K] {event : E} (h : m.delayed? event run ≠ none) :
    run.timers.hasFired = true := by
  unfold delayed? at h
  split at h
  · split at h
    · next hl =>
      unfold Timers.isLive at hl
      unfold Timers.hasFired
      split at hl
      · next timer ha => simp_all
      · cases hl
    · exact absurd rfl h
  · exact absurd rfl h

end

variable {S K E C W O : Type} [DecidableEq S] [DecidableEq K] [Named S] [Named K]

theorem timed_newRun {m : Machine S K E C W} (hm : m.Accepted) (world : W) (observers : O) :
    m.Timed (m.newRun world observers) where
  unvisited _ := rfl
  declared := hm.complete.initial
  disarmed _ := rfl
  armed hr := by cases hr
  owned _ ha := by cases ha

variable [EventLike E K] {m : Machine S K E C W} {run next : Run S E C W O}

theorem Processed.timed {event : E} (h : m.Processed event run next) (hm : m.Accepted)
    (ht : m.Timed run) (hr : run.status = .running) : m.Timed next := by
  cases h with
  | dropped => exact ht
  | kept => exact ht.of_eq rfl rfl rfl rfl
  | @committed target actions draft world hp _ =>
    cases hf : target.filter (· ≠ run.state) with
    | none => exact ht.of_eq rfl rfl rfl rfl
    | some target =>
      obtain ⟨rfl, -⟩ := Option.filter_eq_some_iff.1 hf
      rw [commit_some]
      have he : m.Timed ((m.moved event draft (run.withWorld world) target).withTimers
          (m.entryTimers (m.moved event draft (run.withWorld world) target))) :=
        timed_entry _ hr (hm.isSome_node?_of_prompts hp) rfl
      exact he.of_eq rfl rfl rfl rfl

theorem Step.timed (hm : m.Accepted) {happening : Happening K E}
    (hs : Step m run happening next) (ht : m.Timed run) : m.Timed next := by
  cases hs with
  | @begin draft hr _ =>
    have hd : run.timers.armed = none := ht.disarmed (by rw [hr]; decide)
    have he := timed_entry ((run.adopt draft).begin m.definition.initial) rfl
      hm.complete.initial hd
    rw [enterInitial, arm_eq]
    exact he.of_eq rfl rfl rfl rfl
  | refuse => exact ht.of_eq rfl rfl rfl rfl
  | accept => exact ht.of_eq rfl rfl rfl rfl
  | @take rest event hq =>
    obtain ⟨hr, queue, -, rfl⟩ := Run.dequeue?_eq_some_iff.1 hq
    exact (m.processed event _).timed hm (ht.of_eq rfl rfl rfl rfl) hr
  | @elapse timer timers hr _ hf =>
    have hfired : m.Timed (run.withTimers timers) := ht.fire hf
    exact (m.processed _ _).timed hm hfired hr
  | tick => exact ht.of_eq rfl rfl rfl rfl
  | ask kind =>
    obtain ⟨world, hw⟩ := m.canTransition_eq kind run
    rw [hw]
    exact ht.of_eq rfl rfl rfl rfl
  | stop =>
    unfold Run.stop
    split
    · exact ht
    · refine ⟨?_, ht.declared, fun _ => rfl, ?_, ?_⟩
      · intro hs
        cases hs
      · intro hs
        cases hs
      · intro timer ha
        cases ha
  | listen => exact ht.of_eq rfl rfl rfl rfl

theorem Steps.timed (hm : m.Accepted) {first : Run S E C W O}
    {trace : List (Run S E C W O × Happening K E)} (hs : Steps m first trace run)
    (ht : m.Timed first) : m.Timed run :=
  hs.keeps (fun _ _ _ _ hs ht => hs.timed hm ht) ht

theorem Steps.timed_of_newRun (hm : m.Accepted) {world : W} {observers : O}
    {trace : List (Run S E C W O × Happening K E)}
    (hs : Steps m (m.newRun world observers) trace run) : m.Timed run :=
  hs.timed hm (timed_newRun hm world observers)

theorem Reachable.timed (hm : m.Accepted) (h : m.Reachable run) : m.Timed run := by
  obtain ⟨world, observers, hr⟩ := h
  exact hr.keeps rfl (timed_newRun hm world observers) fun _ _ _ hs _ ht => hs.timed hm ht

end Machine

end Automat
