import Automat.Proofs.Machine.Attempts
import Automat.Proofs.Machine.Clock
import Automat.Proofs.Machine.Visit

/-!
The armed timer over a whole run: when it is due (`Dated`), how timers are numbered (`Numbered`),
and from both, with what is known of the timer, the clock and attempts, all that holds of it after
every step (`timers_in_order`).
-/

namespace Automat

namespace Machine

section

variable {S K E C W O : Type} [DecidableEq S] {m : Machine S K E C W} {run next : Run S E C W O}

theorem armed_entryTimers (run : Run S E C W O) (timers : Timers S) :
    (m.entryTimers (run.withTimers timers.cancel)).armed =
      (m.definition.after? run.state).map fun after =>
        ⟨timers.nextId, run.state, run.visit, run.now + after.delay, false⟩ := by
  have hstate : (run.withTimers timers.cancel).state = run.state := rfl
  unfold entryTimers
  rw [hstate]
  cases m.definition.after? run.state with
  | none => rfl
  | some after => rfl

theorem issued_entryTimers (run : Run S E C W O) (timers : Timers S) :
    (m.entryTimers (run.withTimers timers.cancel)).issued =
      timers.issued + (m.definition.after? run.state).toList.length := by
  have hstate : (run.withTimers timers.cancel).state = run.state := rfl
  unfold entryTimers
  rw [hstate]
  cases m.definition.after? run.state with
  | none => rfl
  | some after => rfl

end

variable {S K E C W O : Type} [DecidableEq S] [DecidableEq K] [Named S] [Named K] [EventLike E K]
variable {m : Machine S K E C W} {run next : Run S E C W O} {happening : Happening K E}

/-! ## Deadlines -/

section

omit [DecidableEq K] [Named S] [Named K]

/-- The delayed transition was attempted at the deadline of the timer, in the current visit, and did
not leave the state: it failed, or the state is its own target. -/
def Tried (run : Run S E C W O) (after : Delayed S) (timer : Timer S) : Prop :=
  ∃ report ∈ run.journal, report.visit = run.visit ∧ report.time = timer.due ∧
    report.event = some (EventLike.ofTimer timer.id) ∧
    ((∃ failure, report.outcome = .failed failure) ∨
      report.outcome = .handled ∧ after.target = run.state)

/-- The armed timer is measured from the entry into the current state, and when it has fired there
was an attempt. -/
structure Dated (m : Machine S K E C W) (run : Run S E C W O) : Prop where
  due : ∀ timer after, run.timers.armed = some timer → m.definition.after? run.state = some after →
    ∃ entry, run.entry? = some entry ∧ entry.visit = run.visit ∧
      timer.due = entry.time + after.delay
  passed : ∀ timer after, run.timers.armed = some timer →
    m.definition.after? run.state = some after → timer.fired = true →
    timer.due ≤ run.now ∧ Tried run after timer

theorem dated_of_disarmed (ha : run.timers.armed = none) : m.Dated run where
  due timer after harmed := by cases ha.symm.trans harmed
  passed timer after harmed := by cases ha.symm.trans harmed

theorem Turn.dated (h : Turn m run next) (hj : run.journal <:+ next.journal)
    (hp : Punctual run)
    (hd : m.Dated run) : m.Dated next := by
  cases h with
  | stayed hs hv htim he hn =>
    constructor
    · rw [hs, hv, htim, he]
      exact hd.due
    · rw [hs, htim]
      intro timer after ha hafter hf
      obtain ⟨hdue, report, hmem, hvisit, hrest⟩ := hd.passed timer after ha hafter hf
      refine ⟨le_trans hdue hn, report, hj.subset hmem, hvisit.trans hv.symm, ?_⟩
      rwa [hs]
  | @entered entry he hv hn hlt htim =>
    have harmed : ∀ timer after, next.timers.armed = some timer →
        m.definition.after? next.state = some after →
        timer.fired = false ∧ timer.due = next.now + after.delay := by
      intro timer after ha hafter
      rw [htim, armed_entryTimers, hafter] at ha
      cases ha
      exact ⟨rfl, rfl⟩
    constructor
    · intro timer after ha hafter
      refine ⟨entry, he, hv, ?_⟩
      rw [hn]
      exact (harmed timer after ha hafter).2
    · intro timer after ha hafter hf
      cases hf.symm.trans (harmed timer after ha hafter).1
  | @fired timer after report ha hf hdue hafter hs hv hn htim he hmem hrv hrn hre ho =>
    have hnow : run.now = timer.due :=
      le_antisymm (hp.now_le_due ha hf) hdue
    constructor
    · intro other after' ha' hafter'
      rw [htim] at ha'
      cases ha'
      rw [hs] at hafter'
      rw [he, hv]
      exact hd.due timer after' ha hafter'
    · intro other after' ha' hafter' _
      rw [htim] at ha'
      cases ha'
      rw [hs] at hafter'
      cases hafter.symm.trans hafter'
      rw [hn]
      refine ⟨hdue, report, hmem, hrv.trans hv.symm, hrn.trans hnow, hre, ?_⟩
      rwa [hs]
  | stopped hv htim => exact dated_of_disarmed (by rw [htim]; rfl)

end

theorem Steps.dated [LawfulEventLike E] (hm : m.Accepted) {world : W} {observers : O}
    {trace : List (Run S E C W O × Happening K E)}
    (hs : Steps m (m.newRun world observers) trace run) : m.Dated run := by
  induction hs with
  | refl => exact dated_of_disarmed rfl
  | snoc hs hstep ih =>
    exact (hstep.turn (hs.timed_of_newRun hm)).dated hstep.journal_suffix hs.punctual ih

/-! ## Numbers -/

section

omit [DecidableEq S] [DecidableEq K] [Named S] [Named K] [EventLike E K]

/-- The timer armed between two runs: that of the visit which has begun, if one has. -/
def armedBetween (before after : Run S E C W O) : Option (Timer S) :=
  if before.visit < after.visit then after.timers.armed else none

/-- All timers armed on the way to a run, in order. -/
def armings : List (Run S E C W O × Happening K E) → Run S E C W O → List (Timer S)
  | [], _ => []
  | [(run, _)], last => (armedBetween run last).toList
  | (run, _) :: (next, happening) :: rest, last =>
    (armedBetween run next).toList ++ armings ((next, happening) :: rest) last

theorem armings_snoc (trace : List (Run S E C W O × Happening K E)) (run last : Run S E C W O)
    (happening : Happening K E) :
    armings (trace ++ [(run, happening)]) last =
      armings trace run ++ (armedBetween run last).toList := by
  induction trace with
  | nil => simp [armings]
  | cons first trace ih =>
    cases trace with
    | nil => rfl
    | cons second trace =>
      simp only [List.cons_append, armings, List.append_assoc] at ih ⊢
      rw [ih]

/-- Timers are numbered in the order in which they were armed, and the armed one is the last. -/
structure Numbered (trace : List (Run S E C W O × Happening K E)) (run : Run S E C W O) :
    Prop where
  ids : (armings trace run).map (·.id) =
    (List.range run.timers.issued).map fun n => ⟨UInt64.ofNat (n + 1)⟩
  latest : ∀ timer, run.timers.armed = some timer →
    ∃ earlier, armings trace run = earlier ++ [{ timer with fired := false }]

variable {trace : List (Run S E C W O × Happening K E)}

theorem Numbered.length_eq (hn : Numbered trace run) :
    (armings trace run).length = run.timers.issued := by
  have h := congrArg List.length hn.ids
  simpa using h

/-- While there are numbers left, they count up from one. -/
theorem Numbered.ids_eq_range' (hn : Numbered trace run)
    (h : (armings trace run).length < UInt64.size) :
    (armings trace run).map (·.id.generation.toNat) =
      List.range' 1 (armings trace run).length := by
  have hids := congrArg (List.map fun id : TimerId => id.generation.toNat) hn.ids
  rw [List.map_map, List.map_map] at hids
  rw [hn.length_eq] at h ⊢
  rw [← Function.comp_def (fun id : TimerId => id.generation.toNat), hids, List.range'_eq_map_range]
  refine List.map_congr_left ?_
  intro n hmem
  have hlt := List.mem_range.1 hmem
  simp only [Function.comp_def, UInt64.toNat_ofNat']
  rw [Nat.mod_eq_of_lt (by simp only [UInt64.size] at h; omega), Nat.add_comm]

/-- No two timers have the same number. -/
theorem Numbered.id_ne (hn : Numbered trace run) (h : (armings trace run).length < UInt64.size)
    {earlier : List (Timer S)} {last : Timer S} (hl : armings trace run = earlier ++ [last]) :
    ∀ other ∈ earlier, other.id ≠ last.id := by
  intro other hmem hid
  have hnodup : ((armings trace run).map (·.id.generation.toNat)).Nodup := by
    rw [hn.ids_eq_range' h]
    exact List.nodup_range'
  rw [hl, List.map_append, List.nodup_append] at hnodup
  exact hnodup.2.2 _ (List.mem_map_of_mem hmem) _ (List.mem_singleton.2 rfl) (by rw [hid])

end

variable {trace : List (Run S E C W O × Happening K E)}

omit [DecidableEq K] [Named S] [Named K] in
theorem Turn.numbered (h : Turn m run next)
    (hn : Numbered trace run) : Numbered (trace ++ [(run, happening)]) next := by
  cases h with
  | stayed _ hv htim =>
    have hsame : armings (trace ++ [(run, happening)]) next = armings trace run := by
      simp [armings_snoc, armedBetween, hv]
    constructor
    · rw [hsame, htim]
      exact hn.ids
    · rw [hsame, htim]
      exact hn.latest
  | entered _ _ _ hlt htim =>
    have hnew : armings (trace ++ [(run, happening)]) next =
        armings trace run ++ next.timers.armed.toList := by
      rw [armings_snoc, armedBetween, if_pos hlt]
    have harmed := congrArg Timers.armed htim
    have hissued := congrArg Timers.issued htim
    rw [armed_entryTimers] at harmed
    rw [issued_entryTimers] at hissued
    constructor
    · rw [hnew, harmed, hissued, List.map_append, hn.ids]
      cases m.definition.after? next.state with
      | none => simp
      | some after => simp [List.range_succ, Timers.nextId]
    · intro timer ha
      have hfresh : { timer with fired := false } = timer := by
        rw [harmed, Option.map_eq_some_iff] at ha
        obtain ⟨after, -, rfl⟩ := ha
        rfl
      rw [hnew, ha, hfresh]
      exact ⟨_, rfl⟩
  | @fired timer _ _ ha hf _ _ _ hv _ htim =>
    have hsame : armings (trace ++ [(run, happening)]) next = armings trace run := by
      simp [armings_snoc, armedBetween, hv]
    constructor
    · rw [hsame, htim]
      exact hn.ids
    · intro other hother
      rw [htim] at hother
      cases hother
      rw [hsame]
      exact hn.latest timer ha
  | stopped hv htim =>
    have hsame : armings (trace ++ [(run, happening)]) next = armings trace run := by
      simp [armings_snoc, armedBetween, hv]
    constructor
    · rw [hsame, htim]
      exact hn.ids
    · intro timer ha
      rw [htim] at ha
      cases ha

theorem Steps.numbered [LawfulEventLike E] (hm : m.Accepted) {world : W} {observers : O}
    (hs : Steps m (m.newRun world observers) trace run) : Numbered trace run := by
  induction hs with
  | refl =>
    constructor
    · rfl
    · intro timer ha
      cases ha
  | snoc hs hstep ih =>
    exact (hstep.turn (hs.timed_of_newRun hm)).numbered ih

/-! ## All that holds of the timer -/

section

omit [DecidableEq K] [Named S] [Named K]

/-- The armed timer is that of the current visit, the last one armed so far, and unlike all others
as long as their numbers do not run out. It is due when the state has been current for the delay,
cut off at the longest duration; until then it is the next deadline, and after that its delayed
transition has been attempted in vain. -/
structure Current (m : Machine S K E C W) (trace : List (Run S E C W O × Happening K E))
    (run : Run S E C W O) (after : Delayed S) (timer : Timer S) : Prop where
  owner : timer.owner = run.state
  visit : timer.visit = run.visit
  latest : ∃ earlier, armings trace run = earlier ++ [{ timer with fired := false }] ∧
    ((armings trace run).length < UInt64.size → ∀ other ∈ earlier, other.id ≠ timer.id)
  due : ∃ entry, run.entry? = some entry ∧ entry.visit = run.visit ∧
    timer.due.total = min (entry.time.total + after.delay.total) Duration.maxTotal
  waiting : timer.fired = false → run.now ≤ timer.due ∧ run.nextDeadline? = some timer.due
  passed : timer.fired = true → timer.due ≤ run.now ∧ run.nextDeadline? = none ∧
    run.visit ∈ m.attempts trace ∧ Tried run after timer

/-- A timer is armed exactly while the machine runs in a state with a delayed transition, and timers
are numbered from one on in the order in which they are armed. -/
structure InOrder (m : Machine S K E C W) (trace : List (Run S E C W O × Happening K E))
    (run : Run S E C W O) : Prop where
  disarmed : run.status ≠ .running → run.timers.armed = none
  armed : run.status = .running →
    (run.timers.armed.isSome ↔ (m.definition.after? run.state).isSome)
  ids : (armings trace run).length < UInt64.size →
    (armings trace run).map (·.id.generation.toNat) = List.range' 1 (armings trace run).length
  current : ∀ timer, run.timers.armed = some timer →
    ∃ after, m.definition.after? run.state = some after ∧ m.Current trace run after timer

theorem current_of (ht : m.Timed run) (hp : Punctual run) (hd : m.Dated run)
    (hn : Numbered trace run) (hc : m.Counted trace run) {timer : Timer S} {after : Delayed S}
    (ha : run.timers.armed = some timer) (hafter : m.definition.after? run.state = some after) :
    m.Current trace run after timer := by
  obtain ⟨howner, hvisit⟩ := ht.owned timer ha
  have hr := hp.running_of_armed ha
  refine ⟨howner, hvisit, ?_, ?_, ?_, ?_⟩
  · obtain ⟨earlier, hl⟩ := hn.latest timer ha
    refine ⟨earlier, hl, ?_⟩
    intro h other hmem
    have hne := hn.id_ne h hl other hmem
    exact hne
  · obtain ⟨entry, he, hv, hdue⟩ := hd.due timer after ha hafter
    refine ⟨entry, he, hv, ?_⟩
    rw [hdue, Duration.total_add]
  · intro hf
    exact ⟨hp.now_le_due ha hf, Run.nextDeadline?_eq_some_iff.2 ⟨hr, timer, ha, hf, rfl⟩⟩
  · intro hf
    obtain ⟨hdue, htried⟩ := hd.passed timer after ha hafter hf
    refine ⟨hdue, ?_, hc.fired ?_, htried⟩
    · rw [Option.eq_none_iff_forall_ne_some]
      intro due hdeadline
      obtain ⟨-, other, hother, hunfired, -⟩ := Run.nextDeadline?_eq_some_iff.1 hdeadline
      cases ha.symm.trans hother
      cases hf.symm.trans hunfired
    · rw [Timers.hasFired, ha]
      exact hf

end

/-- Every reachable run comes about in steps, and after any steps from the beginning the timers are
in order. -/
theorem timers_in_order [LawfulEventLike E] (hm : m.Accepted) :
    (∀ run : Run S E C W O, m.Reachable run →
      ∃ world observers trace, Steps m (m.newRun world observers) trace run) ∧
    ∀ (world : W) (observers : O) (trace : List (Run S E C W O × Happening K E))
      (run : Run S E C W O), Steps m (m.newRun world observers) trace run →
      m.InOrder trace run := by
  constructor
  · rintro run ⟨world, observers, hr⟩
    obtain ⟨-, trace, hs, -⟩ := hr.settles rfl
    exact ⟨world, observers, trace, hs⟩
  · intro world observers trace run hs
    have ht := hs.timed hm (timed_newRun hm world observers)
    have hp := hs.punctual
    have hn := hs.numbered hm
    refine ⟨ht.disarmed, ?_, hn.ids_eq_range', ?_⟩
    · intro hr
      rw [ht.armed hr]
    · intro timer ha
      have hr := hp.running_of_armed ha
      have hsome : (m.definition.after? run.state).isSome := by
        rw [← ht.armed hr, ha]
        rfl
      obtain ⟨after, hafter⟩ := Option.isSome_iff_exists.1 hsome
      exact ⟨after, hafter, current_of ht hp (hs.dated hm) hn (hs.counted hm) ha hafter⟩

/-! ## A lamp that jams -/

section

open Script

/-- It is on for ten milliseconds and off for twenty, but it cannot be switched on again. -/
def lampBuilder : Builder String String Signal Unit Unit where
  definition :=
    { id := "lamp"
      initial := "on"
      nodes :=
        [{ state := "on", after := some { delay := .ofMillis 10, target := "off" } },
         { state := "off"
           after := some { delay := .ofMillis 20, target := "on", actions := ["switch"] } }] }
  actions := [("switch", .effect fun _ _ world => (world, some (.panic "jammed")))]
  context := some ()
  clock _ := .epoch

def lamp : Machine String String Signal Unit Unit where
  definition := lampBuilder.definition
  actions := lampBuilder.actions
  guards := []
  context := ()
  historyLimit := History.defaultLimit
  clock _ := .epoch

theorem lamp_accepted : lamp.Accepted := ⟨lampBuilder, rfl⟩

/-- Half a minute later its second timer has fired and is still armed. -/
theorem timers_in_order_lamp : ∃ world observers trace,
    ∃ run : Run String Signal Unit Unit Unit,
      Steps lamp (lamp.newRun world observers) trace run ∧
      run.timers.armed = some ⟨⟨2⟩, "off", 2, .ofMillis 30, true⟩ ∧
      run.now = .ofMillis 30000 ∧ lamp.InOrder trace run := by
  have hsome : (lamp.calls 3 [.start, .advance (.ofMillis 30000)] (lamp.newRun () ())).isSome :=
    rfl
  have hreach : lamp.Reachable ((lamp.calls 3 [.start, .advance (.ofMillis 30000)]
      (lamp.newRun () ())).get hsome).1 := ⟨(), (), reached_get_calls hsome fun _ _ _ => trivial⟩
  obtain ⟨hsteps, horder⟩ := timers_in_order (S := String) (O := Unit) lamp_accepted
  obtain ⟨world, observers, trace, hs⟩ := hsteps _ hreach
  exact ⟨world, observers, trace, _, hs, rfl, rfl, horder world observers trace _ hs⟩

end

end Machine

end Automat
