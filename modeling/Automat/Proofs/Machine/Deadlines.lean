import Automat.Proofs.Machine.Journal
import Automat.Proofs.Machine.Queue

/-!
Deadlines of delayed transitions. What the clock is asked to pass it does not pass without an attempt
at the very deadline, as long as the machine runs in the same visit; before that no event makes the
machine attempt the transition, and a visit that has ended is never attempted again
(`timers_punctual`).
-/

namespace Automat

/-- The time that a call asks the clock to go to. -/
def Call.reach? {K E : Type} (call : Call K E) (now : Duration) : Option Duration :=
  match call with
  | .advance elapsed => some (now + elapsed)
  | .advanceTo time => some time
  | _ => none

/-- The call has asked the clock to go to a time or beyond it, and not back. -/
def Made.Covers {S K E C W O : Type} (made : Made S K E C W O) (due : Duration) : Prop :=
  ∃ time, made.call.reach? made.run.now = some time ∧ made.run.now ≤ time ∧ due ≤ time

namespace Machine

/-! ## What is due -/

section

variable {S K E C W O : Type} [DecidableEq S] {m : Machine S K E C W} {run next : Run S E C W O}

/-- The delayed transition of the current visit is due at this time: its delay after the entry, or at
the longest duration. -/
def Due (m : Machine S K E C W) (run : Run S E C W O) (due : Duration) : Prop :=
  ∃ entry after, run.entry? = some entry ∧ entry.visit = run.visit ∧
    m.definition.after? run.state = some after ∧ due = entry.time + after.delay

theorem Due.unique {due other : Duration} (h : m.Due run due) (ho : m.Due run other) :
    due = other := by
  obtain ⟨entry, after, he, -, ha, rfl⟩ := h
  obtain ⟨entry', after', he', -, ha', rfl⟩ := ho
  cases he.symm.trans he'
  cases ha.symm.trans ha'
  rfl

theorem Due.of_same {due : Duration} (h : m.Due run due) (hv : next.visit = run.visit)
    (hs : next.state = run.state) (he : next.entry? = run.entry?) : m.Due next due := by
  obtain ⟨entry, after, hentry, hvisit, hafter, rfl⟩ := h
  exact ⟨entry, after, he.trans hentry, hvisit.trans hv.symm, by rw [hs, hafter], rfl⟩

end

section

variable {S K E C W O : Type} [DecidableEq S] [EventLike E K]

/-- The machine runs in a visit whose delayed transition is due at this time and has not been
attempted so far. -/
structure Awaits (m : Machine S K E C W) (past : List (Run S E C W O × Happening K E))
    (run : Run S E C W O) (due : Duration) : Prop where
  running : run.status = .running
  due : m.Due run due
  untried : run.visit ∉ m.attempts past

/-- Where a visit is attempted, there is a first attempt. -/
theorem exists_first_attempt {m : Machine S K E C W}
    {steps : List (Run S E C W O × Happening K E)} {visit : Nat} (h : visit ∈ m.attempts steps) :
    ∃ before entry after, steps = before ++ entry :: after ∧ m.attempt? entry = some visit ∧
      visit ∉ m.attempts before := by
  induction steps with
  | nil => cases h
  | cons entry rest ih =>
    by_cases ha : m.attempt? entry = some visit
    · exact ⟨[], entry, rest, rfl, ha, List.not_mem_nil⟩
    · have hskip : ∀ later, visit ∈ m.attempts (entry :: later) → visit ∈ m.attempts later := by
        intro later hmem
        obtain ⟨other, hother, hvisit⟩ := List.mem_filterMap.1 hmem
        rcases List.mem_cons.1 hother with rfl | hother
        · exact absurd hvisit ha
        · exact List.mem_filterMap.2 ⟨other, hother, hvisit⟩
      obtain ⟨before, first, after, rfl, hfirst, hnot⟩ := ih (hskip rest h)
      exact ⟨entry :: before, first, after, rfl, hfirst, fun hmem => hnot (hskip before hmem)⟩

end

variable {S K E C W O : Type} [DecidableEq S] [DecidableEq K] [Named S] [Named K] [EventLike E K]
variable {m : Machine S K E C W} {run next mid done : Run S E C W O} {happening : Happening K E}
variable {past trace steps : List (Run S E C W O × Happening K E)} {due time : Duration}

/-- An advance is a call to go to the time that it reaches. -/
theorem ends_iff_of_reach? {call : Call K E} (h : call.reach? run.now = some time) :
    m.Ends call run done ↔ m.Ends (.advanceTo time) run done := by
  cases call with
  | advance | advanceTo =>
    cases h
    rfl
  | start | send | stop | can => cases h

/-! ## Visits -/

omit [DecidableEq S] [DecidableEq K] [Named S] in
/-- A step either begins another visit or stays in it, with the same state and entry. -/
theorem Published.visit_cases (hp : Published m run next)
    (hu : run.status = .notStarted → run.visit = 0) : run.visit < next.visit ∨
      next.visit = run.visit ∧ next.state = run.state ∧ next.entry? = run.entry? := by
  cases hp with
  | silent hj hs =>
    refine .inr ⟨hs.visit, hs.state, ?_⟩
    rw [Run.entry?, hj]
    rfl
  | begun hr _ _ _ _ hv => exact .inl (by rw [hu hr, hv]; exact Nat.one_pos)
  | reported _ _ hj ho hs =>
    refine .inr ⟨hs.visit, hs.state, Run.entry?_of_cons hj ?_⟩
    rcases ho with rfl | ⟨hk, -⟩
    · rfl
    · exact hk.enters_eq_false
  | moved _ _ _ _ _ _ hv => exact .inl (by rw [hv]; exact Nat.lt_succ_self _)

theorem Steps.visit_cases (hm : m.Accepted) (hs : Steps m run trace next) (ht : m.Timed run) :
    run.visit < next.visit ∨
      next.visit = run.visit ∧ next.state = run.state ∧ next.entry? = run.entry? := by
  induction hs with
  | refl => exact .inr ⟨rfl, rfl, rfl⟩
  | snoc hs hstep ih =>
    rcases hstep.published.visit_cases (hs.timed hm ht).unvisited with hlt | ⟨hv, hst, he⟩
    · refine .inl (Nat.lt_of_le_of_lt ?_ hlt)
      rcases ih with ih | ih
      · exact Nat.le_of_lt ih
      · exact Nat.le_of_eq ih.1.symm
    · rw [hv, hst, he]
      exact ih

theorem Steps.visit_le (hm : m.Accepted) (hs : Steps m run trace next) (ht : m.Timed run) :
    run.visit ≤ next.visit := by
  rcases hs.visit_cases hm ht with hlt | ⟨hv, -⟩
  · exact Nat.le_of_lt hlt
  · exact Nat.le_of_eq hv.symm

theorem Steps.due_of_visit_eq (hm : m.Accepted) (hs : Steps m run trace next) (ht : m.Timed run)
    (hv : next.visit = run.visit) (hd : m.Due next due) : m.Due run due := by
  rcases hs.visit_cases hm ht with hlt | ⟨-, hst, he⟩
  · omega
  · exact hd.of_same hv.symm hst.symm he.symm

/-- Nothing is attempted any more that belongs to a visit before. -/
theorem Steps.le_of_mem_attempts (hm : m.Accepted) (hs : Steps m run trace next) (ht : m.Timed run) :
    ∀ visit ∈ m.attempts trace, run.visit ≤ visit := by
  induction hs with
  | refl =>
    intro visit hmem
    cases hmem
  | snoc hs hstep ih =>
    intro visit hmem
    rw [attempts_snoc] at hmem
    rcases List.mem_append.1 hmem with hmem | hmem
    · exact ih visit hmem
    · rw [visit_of_attempt? (Option.mem_toList.1 hmem)]
      exact hs.visit_le hm ht

/-- A machine that has stopped attempts nothing. -/
theorem Steps.attempts_of_stopped (hs : Steps m run trace next) (hr : run.status = .stopped) :
    m.attempts trace = [] ∧ next.status = .stopped := by
  induction hs with
  | refl => exact ⟨rfl, hr⟩
  | @snoc trace mid next happening _ hstep ih =>
    obtain ⟨hnone, hmid⟩ := ih
    have hnext := hstep.stopped hmid
    refine ⟨?_, hnext⟩
    rw [attempts_snoc, hnone]
    cases hstep with
    | take hq => cases hmid.symm.trans (Run.dequeue?_eq_some_iff.1 hq).1
    | elapse hrun => cases hmid.symm.trans hrun
    | begin | refuse | accept | tick | ask | stop | listen => rfl

/-! ## Attempts -/

/-- The clock makes the machine attempt the delayed transition of the current visit at its deadline.
The attempt is reported once, then and there, as carried out or as failed. -/
structure Fired (m : Machine S K E C W) (run : Run S E C W O) (due : Duration) (id : TimerId)
    (next : Run S E C W O) : Prop where
  now : run.now = due
  attempted : ∃ after timers, m.definition.after? run.state = some after ∧
    run.timers.fire? run.now = some (id, timers) ∧
    next = m.apply (some after.target) after.actions (EventLike.ofTimer id) (run.withTimers timers)
  reported : ∃ snapshot, next.journal = snapshot :: run.journal ∧
    snapshot.event = some (EventLike.ofTimer id) ∧ snapshot.time = due ∧
    (snapshot.outcome.commits = true ∨ ∃ failure, snapshot.outcome = .failed failure)

omit [DecidableEq K] in
/-- Whether all actions succeed or not, what is applied is reported at once. -/
theorem reported_apply (m : Machine S K E C W) (target : Option S) (actions : List String)
    (event : E) (run : Run S E C W O) :
    ∃ snapshot, (m.apply target actions event run).journal = snapshot :: run.journal ∧
      snapshot.event = some event ∧ snapshot.time = run.now ∧
      (snapshot.outcome.commits = true ∨ ∃ failure, snapshot.outcome = .failed failure) := by
  simp only [apply]
  split
  · next draft hp =>
    cases target.filter (· ≠ run.state) with
    | none => exact ⟨_, rfl, rfl, rfl, .inl rfl⟩
    | some target =>
      rw [journal_commit_some]
      exact ⟨_, rfl, rfl, rfl, .inl rfl⟩
  · next draft failure hp => exact ⟨_, rfl, rfl, rfl, .inr ⟨failure, rfl⟩⟩

theorem fired_of_elapse [LawfulEventLike E] {id : TimerId} (hs : Step m run (.elapse id) next)
    (ht : m.Timed run) (hn : run.now = due) : m.Fired run due id next := by
  cases hs with
  | elapse hr hq hf =>
    obtain ⟨after, hd⟩ := Option.isSome_iff_exists.1 (ht.isSome_delayed?_fire hr hf)
    have hafter := after?_of_delayed? hd
    refine ⟨hn, ⟨after, _, hafter, hf, process_eq_apply hd⟩, ?_⟩
    rw [process_eq_apply hd, ← hn]
    exact reported_apply m _ _ _ _

/-! ## On the way of the clock -/

theorem DrainTrace.take_of_mem (h : m.DrainTrace run steps done)
    {entry : Run S E C W O × Happening K E} (hmem : entry ∈ steps) :
    ∃ event, entry.2 = .take event := by
  obtain ⟨taken, rfl⟩ := h.exists_taken
  obtain ⟨other, -, rfl⟩ := List.mem_map.1 hmem
  exact ⟨_, rfl⟩

theorem DrainTrace.elapse_not_mem (h : m.DrainTrace run steps done) (id : TimerId) :
    (mid, .elapse id) ∉ steps := by
  intro hmem
  obtain ⟨event, he⟩ := h.take_of_mem hmem
  cases he

theorem AdvanceTrace.exists_tick (h : m.AdvanceTrace time run steps done) :
    ∃ next after, steps = (run, .tick next) :: after := by
  cases h with
  | clear => exact ⟨_, _, rfl⟩
  | fired => exact ⟨_, _, rfl⟩

/-- On its way to a time the clock moves to the next deadline, and then the timer fires. -/
theorem AdvanceTrace.elapses (h : m.AdvanceTrace time run steps done)
    {before after : List (Run S E C W O × Happening K E)} {next : Duration}
    (hsteps : steps = before ++ (mid, .tick next) :: after)
    (hn : mid.nextDeadline? = some due) (hle : due ≤ time) :
    next = due ∧ ∃ id rest, after = (mid.moveClock due, .elapse id) :: rest := by
  induction h generalizing before with
  | @clear run hclear =>
    cases before with
    | nil =>
      cases hsteps
      exact absurd hle (not_le.2 (Run.lt_of_nextDeadline? hclear hn))
    | cons => simp at hsteps
  | @fired run middle done first timer timers taken later hfirst _ _ hd _ ih =>
    cases before with
    | nil =>
      cases hsteps
      cases hfirst.symm.trans hn
      exact ⟨rfl, timer, _, rfl⟩
    | cons entry before =>
      cases before with
      | nil => cases hsteps
      | cons other before =>
        -- What is taken from the queue is no move of the clock, so it moves in a later round.
        have hrest : taken ++ later = before ++ (mid, .tick next) :: after :=
          (List.cons.inj (List.cons.inj hsteps).2).2
        rcases List.append_eq_append_iff.1 hrest with ⟨more, -, hlater⟩ | ⟨more, htaken, hlater⟩
        · exact ih hlater
        · cases more with
          | nil =>
            have hround : later = [] ++ (mid, .tick next) :: after := hlater.symm
            exact ih hround
          | cons entry more =>
            obtain ⟨rfl, -⟩ := List.cons.inj hlater
            have hmem : (mid, .tick next) ∈ taken := by
              rw [htaken]
              exact List.mem_append_right _ List.mem_cons_self
            obtain ⟨event, he⟩ := hd.take_of_mem hmem
            cases he

/-- What fires on the way to a time is due by then. -/
theorem AdvanceTrace.due_of_elapse (h : m.AdvanceTrace time run steps done) {id : TimerId}
    (hmem : (mid, .elapse id) ∈ steps) : ∃ due, mid.nextDeadline? = some due ∧ due ≤ time := by
  induction h with
  | clear => simp at hmem
  | @fired run next done due timer timers taken later hn hle _ hd _ ih =>
    rcases List.mem_cons.1 hmem with heq | hmem
    · cases heq
    · rcases List.mem_cons.1 hmem with heq | hmem
      · cases heq
        exact ⟨due, hn, hle⟩
      · exact ih ((List.mem_append.1 hmem).resolve_left (hd.elapse_not_mem id))

theorem AdvanceTrace.now_le (h : m.AdvanceTrace time run steps done) (hp : Punctual run)
    {id : TimerId} (hmem : (mid, .elapse id) ∈ steps) : run.now ≤ time := by
  cases h with
  | clear => simp at hmem
  | fired hn hle => exact le_trans (hp.ahead _ hn) hle

theorem AdvanceTrace.lt_of_done (h : m.AdvanceTrace time run steps done)
    (hn : done.nextDeadline? = some due) : time < due := by
  induction h with
  | clear hd => exact Run.lt_of_nextDeadline? hd hn
  | fired _ _ _ _ _ ih => exact ih hn

/-- A timer fires only in a call that asks the clock to pass its deadline. -/
theorem CallTrace.reach_of_elapse {call : Call K E} {answer : Answer}
    (h : m.CallTrace call run steps done answer) (hp : Punctual run) {id : TimerId}
    (hmem : (mid, .elapse id) ∈ steps) : ∃ time, call.reach? run.now = some time ∧
      run.now ≤ time ∧ ∃ due, mid.nextDeadline? = some due ∧ due ≤ time := by
  cases h with
  | begun _ _ hd | sent _ hd => simp [hd.elapse_not_mem id] at hmem
  | advanced h => exact ⟨_, rfl, h.now_le hp hmem, h.due_of_elapse hmem⟩
  | advancedTo h => exact ⟨_, rfl, h.now_le hp hmem, h.due_of_elapse hmem⟩
  | late | dropped => cases hmem
  | refused | stopped | asked => simp at hmem

theorem CallTrace.advanceTrace {call : Call K E} {answer : Answer}
    (h : m.CallTrace call run steps done answer) (hr : call.reach? run.now = some time) :
    m.AdvanceTrace time run steps done := by
  cases h with
  | advanced h | advancedTo h =>
    cases hr
    exact h
  | begun | refused | late | sent | dropped | stopped | asked => cases hr

/-! ## Chronicles -/

variable {world : W} {observers : O} {calls : List (Made S K E C W O)}

/-- The first attempt of a visit is made by the clock, at the time at which it is due. -/
theorem Steps.due_of_first [LawfulEventLike E] {visit : Nat} (hm : m.Accepted)
    (hs : Steps m (m.newRun world observers) past run) (hstep : Step m run happening next)
    (ha : m.attempt? (run, happening) = some visit) (hfirst : visit ∉ m.attempts past) :
    ∃ id, happening = .elapse id ∧ visit = run.visit ∧ m.Due run run.now := by
  have hvisit := visit_of_attempt? ha
  cases hstep with
  | @take rest event hq =>
    -- An event from the queue makes it attempt what the clock has made it attempt before.
    have hdelayed : m.delayed? event run ≠ none := by
      intro hnone
      simp [attempt?, hnone] at ha
    rw [hvisit] at hfirst
    exact absurd ((hs.counted hm).fired (hasFired_of_delayed? hdelayed)) hfirst
  | @elapse id timers hr hq hf =>
    refine ⟨id, rfl, hvisit, ?_⟩
    obtain ⟨timer, harmed, hunfired, hdue, -⟩ := Timers.fire?_eq_some_iff.1 hf
    have hnow : run.now = timer.due :=
      le_antisymm (hs.punctual.now_le_due harmed hunfired) hdue
    have hsome : (m.definition.after? run.state).isSome := by
      rw [← (hs.timed_of_newRun hm).armed hr, harmed]
      rfl
    obtain ⟨after, hafter⟩ := Option.isSome_iff_exists.1 hsome
    obtain ⟨entry, he, hv, hentry⟩ := (hs.dated hm).due timer after harmed hafter
    exact ⟨entry, after, he, hv, hafter, hnow.trans hentry⟩
  | begin | refuse | accept | tick | ask | stop | listen => cases ha

omit [DecidableEq K] [Named S] [Named K] in
theorem attempts_append (before after : List (Run S E C W O × Happening K E)) :
    m.attempts (before ++ after) = m.attempts before ++ m.attempts after := List.filterMap_append

/-- A timer fires only during a call that covers the time at which it fires. -/
theorem Chronicle.made_of_elapse (hm : m.Accepted)
    (h : m.Chronicle (m.newRun world observers) calls trace run) {id : TimerId}
    (hmem : (mid, .elapse id) ∈ trace) :
    ∃ made ∈ calls, made.Covers mid.now ∧ made.run.visit ≤ mid.visit ∧
      mid.visit ≤ made.next.visit ∧ made.next.visit ≤ run.visit := by
  induction h with
  | first => cases hmem
  | subscribe callback _ ih | unsubscribe id _ ih => exact ih (by simpa using hmem)
  | @call calls trace steps run next fuel call answer h hc ht ih =>
    have hl := h.leads rfl
    have htimed : m.Timed run := hl.steps.timed_of_newRun hm
    have hs : Steps m run steps next := (ht.arrives hl.rest).steps
    rcases List.mem_append.1 hmem with hmem | hmem
    · obtain ⟨made, hmade, hcovers, hfrom, hto, hle⟩ := ih hmem
      exact ⟨made, List.mem_append_left _ hmade, hcovers, hfrom, hto,
        Nat.le_trans hle (hs.visit_le hm htimed)⟩
    · obtain ⟨time, hreach, hnow, due, hn, hle⟩ := ht.reach_of_elapse hl.steps.punctual hmem
      obtain ⟨before, after, rfl⟩ := List.append_of_mem hmem
      obtain ⟨hbefore, later, hstep, hafter⟩ := hs.split
      have hmid : Steps m mid ((mid, .elapse id) :: after) next := hstep.steps.trans hafter
      have hpast := hl.steps.trans hbefore
      refine ⟨⟨run, call, answer, next⟩, List.mem_append_right _ List.mem_cons_self, ?_,
        hbefore.visit_le hm htimed, ?_, Nat.le_refl _⟩
      · exact ⟨time, hreach, hnow, le_trans (hpast.punctual.ahead due hn) hle⟩
      · exact hmid.visit_le hm (hpast.timed_of_newRun hm)

/-- Only a call that covers the deadline makes the machine attempt what is due in the current
visit. -/
theorem Chronicle.exists_covers [LawfulEventLike E] (hm : m.Accepted)
    (h : m.Chronicle (m.newRun world observers) calls trace run)
    (htried : run.visit ∈ m.attempts trace) :
    ∃ made ∈ calls, made.next.visit = run.visit ∧ ∀ due, m.Due run due → made.Covers due := by
  obtain ⟨before, ⟨mid, happening⟩, after, rfl, ha, hfirst⟩ := exists_first_attempt htried
  obtain ⟨hbefore, next, hstep, hafter⟩ := (h.leads rfl).steps.split
  obtain ⟨id, rfl, hv, hdue⟩ := hbefore.due_of_first hm hstep ha hfirst
  obtain ⟨made, hmade, hcovers, -, hto, hle⟩ :=
    h.made_of_elapse hm (List.mem_append_right _ List.mem_cons_self)
  refine ⟨made, hmade, Nat.le_antisymm hle (hv ▸ hto), ?_⟩
  intro due hd
  have hmid : m.Due mid due := (hstep.steps.trans hafter).due_of_visit_eq hm
    (hbefore.timed_of_newRun hm) hv hd
  rw [hmid.unique hdue]
  exact hcovers

/-! ## Nothing is missed -/

/-- The steps of an advance to a time, after what has happened before: whenever the clock moves while
something is awaited by then, it moves to the deadline, and the next thing that happens is that the
timer fires. What is awaited when the clock has arrived lies behind it. -/
structure Meets (m : Machine S K E C W) (past steps : List (Run S E C W O × Happening K E))
    (time : Duration) (done : Run S E C W O) : Prop where
  fires : ∀ before mid next after due, steps = before ++ (mid, .tick next) :: after →
    m.Awaits (past ++ before) mid due → due ≤ time →
    next = due ∧ ∃ id rest, after = (mid.moveClock due, .elapse id) :: rest ∧
      m.Fired (mid.moveClock due) due id (nextRun rest done)
  arrived : ∀ due, m.Awaits (past ++ steps) done due → time < due

/-- What a machine awaits is its next deadline. -/
theorem Awaits.nextDeadline?_eq [LawfulEventLike E] (h : m.Awaits past run due) (hm : m.Accepted)
    (hs : Steps m (m.newRun world observers) past run) : run.nextDeadline? = some due := by
  obtain ⟨entry, after, he, -, ha, rfl⟩ := h.due
  have harmed : run.timers.armed.isSome := by
    rw [(hs.timed_of_newRun hm).armed h.running, ha]
    rfl
  obtain ⟨timer, htimer⟩ := Option.isSome_iff_exists.1 harmed
  obtain ⟨other, hother, -, hdue⟩ := (hs.dated hm).due timer after htimer ha
  cases he.symm.trans hother
  refine Run.nextDeadline?_eq_some_iff.2 ⟨h.running, timer, htimer, ?_, hdue⟩
  rw [Bool.eq_false_iff]
  intro hf
  refine h.untried ((hs.counted hm).fired ?_)
  rw [Timers.hasFired, htimer]
  exact hf

theorem AdvanceTrace.meets [LawfulEventLike E] (hm : m.Accepted)
    (hpast : Steps m (m.newRun world observers) past run) (hq : run.queue = [])
    (h : m.AdvanceTrace time run steps done) : m.Meets past steps time done := by
  have hs : Steps m run steps done := (h.leads (fun _ _ => True) hq).steps
  constructor
  · rintro before mid next after due rfl hawaits hle
    obtain ⟨hbefore, moved, hmove, hafter⟩ := hs.split
    have hmid := hpast.trans hbefore
    have hn := hawaits.nextDeadline?_eq hm hmid
    obtain ⟨rfl, id, rest, rfl⟩ := h.elapses rfl hn hle
    refine ⟨rfl, id, rest, rfl, ?_⟩
    have hround : Steps m moved ([] ++ (mid.moveClock next, .elapse id) :: rest) done := hafter
    obtain ⟨hstart, fired, hstep, hrest⟩ := hround.split
    rw [← hrest.eq_nextRun]
    have hstopped : Steps m (m.newRun world observers) (past ++ before ++ [(mid, .tick next)])
        (mid.moveClock next) := hmid.snoc (hstart.eq_of_nil ▸ hmove)
    exact fired_of_elapse hstep (hstopped.timed_of_newRun hm)
      (max_eq_right (hmid.punctual.ahead next hn))
  · intro due hawaits
    exact h.lt_of_done (hawaits.nextDeadline?_eq hm (hpast.trans hs))

/-- A delayed transition that is due in the current visit, where no call has covered the deadline so
far, has not been attempted, and the next call that covers it begins with the clock at the deadline
and the timer firing. The first attempt of any visit is made by the clock, at the deadline, during a
call that covers it, and a visit that has ended before that is never attempted. During a call, too,
whenever the clock is to pass what is due, it stops there, and the timer fires. -/
theorem timers_punctual [LawfulEventLike E] (hm : m.Accepted)
    (h : m.Chronicle (m.newRun world observers) calls trace run) :
    (∀ due, run.status = .running → m.Due run due →
      (∀ made ∈ calls, made.Covers due → made.next.visit ≠ run.visit) →
      run.visit ∉ m.attempts trace ∧
      ∀ fuel call done answer time, m.call fuel call run = some (done, answer) →
        call.reach? run.now = some time → due ≤ time →
        ∃ id rest, m.CallTrace call run
            ((run, .tick due) :: (run.moveClock due, .elapse id) :: rest) done answer ∧
          m.Fired (run.moveClock due) due id (nextRun rest done)) ∧
    (∀ before mid happening after visit, trace = before ++ (mid, happening) :: after →
      m.attempt? (mid, happening) = some visit → visit ∉ m.attempts before →
      (∃ id, happening = .elapse id) ∧ visit = mid.visit ∧ m.Due mid mid.now ∧
      ∃ made ∈ calls, made.Covers mid.now ∧ made.run.visit ≤ visit ∧ visit ≤ made.next.visit) ∧
    (∀ before mid happening after visit, trace = before ++ (mid, happening) :: after →
      visit < mid.visit ∨ mid.status = .stopped → visit ∉ m.attempts before →
      visit ∉ m.attempts trace) ∧
    ∀ fuel call done answer time, m.call fuel call run = some (done, answer) →
      call.reach? run.now = some time →
      ∃ steps, m.CallTrace call run steps done answer ∧ m.Meets trace steps time done := by
  have hl := h.leads rfl
  have hmeets : ∀ fuel call done answer time, m.call fuel call run = some (done, answer) →
      call.reach? run.now = some time →
      ∃ steps, m.CallTrace call run steps done answer ∧ m.Meets trace steps time done := by
    intro fuel call done answer time hc hreach
    obtain ⟨steps, ht⟩ := callTrace_of_call hl.rest hc
    exact ⟨steps, ht, (ht.advanceTrace hreach).meets hm hl.steps hl.rest⟩
  refine ⟨?_, ?_, ?_, hmeets⟩
  · intro due hr hd hnone
    have huntried : run.visit ∉ m.attempts trace := by
      intro htried
      obtain ⟨made, hmem, hv, hcovers⟩ := h.exists_covers hm htried
      exact hnone made hmem (hcovers due hd) hv
    refine ⟨huntried, ?_⟩
    intro fuel call done answer time hc hreach hle
    obtain ⟨steps, ht, hmeet⟩ := hmeets fuel call done answer time hc hreach
    obtain ⟨next, after, rfl⟩ := (ht.advanceTrace hreach).exists_tick
    have hawaits : m.Awaits (trace ++ []) run due := by
      rw [List.append_nil]
      exact ⟨hr, hd, huntried⟩
    obtain ⟨rfl, id, rest, rfl, hfired⟩ := hmeet.fires [] run next after due rfl hawaits hle
    exact ⟨id, rest, ht, hfired⟩
  · rintro before mid happening after visit rfl ha hfirst
    obtain ⟨hbefore, next, hstep, -⟩ := hl.steps.split
    obtain ⟨id, rfl, rfl, hdue⟩ := hbefore.due_of_first hm hstep ha hfirst
    obtain ⟨made, hmade, hcovers, hfrom, hto, -⟩ :=
      h.made_of_elapse hm (List.mem_append_right _ List.mem_cons_self)
    exact ⟨⟨id, rfl⟩, rfl, hdue, made, hmade, hcovers, hfrom, hto⟩
  · rintro before mid happening after visit rfl hended hnot hmem
    obtain ⟨hbefore, next, hstep, hafter⟩ := hl.steps.split
    have hlater : Steps m mid ((mid, happening) :: after) run := hstep.steps.trans hafter
    rw [attempts_append, List.mem_append] at hmem
    rcases hended with hlt | hstopped
    · have hle := hlater.le_of_mem_attempts hm
        (hbefore.timed_of_newRun hm) visit (hmem.resolve_left hnot)
      omega
    · rw [(hlater.attempts_of_stopped hstopped).1] at hmem
      exact List.not_mem_nil (hmem.resolve_left hnot)

section

open Script

/-- Ten milliseconds after it was switched on the lamp is due to go off. -/
theorem exists_lamp_on : ∃ run done : Run String Signal Unit Unit Unit,
    lamp.calls 0 [.start] (lamp.newRun () ()) = some (run, [.done]) ∧ run.status = .running ∧
    lamp.Due run (.ofMillis 10) ∧ run.now = .zero ∧
    lamp.call 2 (.advance (.ofMillis 15)) run = some (done, .done) := by
  have hstart : (lamp.calls 0 [.start] (lamp.newRun () ())).map (fun result => (result.2,
      result.1.status, result.1.state, result.1.now,
      Option.map (fun entry => (entry.visit, entry.time, result.1.visit)) <| Run.entry? result.1)) =
      some ([.done], .running, "on", .zero, some (1, .zero, 1)) := rfl
  have hadvance : ((lamp.calls 0 [.start] (lamp.newRun () ())).bind fun result =>
      lamp.call 2 (.advance (.ofMillis 15)) result.1).map (·.2) = some .done := rfl
  obtain ⟨⟨run, answers⟩, hcalls, hrun⟩ := Option.map_eq_some_iff.1 hstart
  simp only [Prod.mk.injEq] at hrun
  obtain ⟨rfl, hstatus, hstate, hnow, hentry⟩ := hrun
  obtain ⟨entry, he, hvisits⟩ := Option.map_eq_some_iff.1 hentry
  simp only [Prod.mk.injEq] at hvisits
  obtain ⟨hv, htime, hvisit⟩ := hvisits
  rw [hcalls, Option.bind_some, Option.map_eq_some_iff] at hadvance
  obtain ⟨⟨done, answer⟩, hcall, rfl⟩ := hadvance
  refine ⟨run, done, hcalls, hstatus, ?_, hnow, hcall⟩
  refine ⟨entry, { delay := .ofMillis 10, target := "off" }, he, hv.trans hvisit.symm, ?_, ?_⟩
  · rw [hstate]
    rfl
  · rw [htime]
    decide

/-- Advanced for the first time after its start, and beyond its deadline, the lamp goes off at the
deadline. -/
theorem timers_punctual_lamp :
    ∃ (calls : List (Made String String Signal Unit Unit Unit))
      (trace : List (Run String Signal Unit Unit Unit × Happening String Signal))
      (run done : Run String Signal Unit Unit Unit),
      lamp.Chronicle (lamp.newRun () ()) calls trace run ∧
      calls.map Made.exchange = [(.start, .done)] ∧ run.visit ∉ lamp.attempts trace ∧
      lamp.call 2 (.advance (.ofMillis 15)) run = some (done, .done) ∧
      ∃ id rest, lamp.CallTrace (.advance (.ofMillis 15)) run
          ((run, .tick (.ofMillis 10)) :: (run.moveClock (.ofMillis 10), .elapse id) :: rest)
          done .done ∧
        lamp.Fired (run.moveClock (.ofMillis 10)) (.ofMillis 10) id (nextRun rest done) := by
  obtain ⟨run, done, hcalls, hr, hdue, hnow, hcall⟩ := exists_lamp_on
  obtain ⟨calls, trace, hmade, h⟩ := exists_chronicle_of_calls rfl hcalls
  have hnone : ∀ made ∈ calls, made.Covers (.ofMillis 10) → made.next.visit ≠ run.visit := by
    rintro made hmem ⟨time, hreach, -⟩
    have hexchange : made.exchange ∈ calls.map Made.exchange := List.mem_map_of_mem hmem
    rw [hmade] at hexchange
    have hstart : made.call = .start := congrArg Prod.fst (List.mem_singleton.1 hexchange)
    rw [hstart] at hreach
    cases hreach
  have hcovered : Duration.ofMillis 10 ≤ run.now + .ofMillis 15 := by
    rw [hnow]
    decide
  obtain ⟨hwaiting, -⟩ := timers_punctual lamp_accepted h
  obtain ⟨huntried, hnext⟩ := hwaiting _ hr hdue hnone
  exact ⟨calls, trace, run, done, h, hmade, huntried, hcall, hnext 2 _ done .done _ hcall rfl hcovered⟩

end

end Machine

end Automat
