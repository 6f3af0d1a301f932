import Automat.Proofs.Machine.Advance
import Automat.Proofs.Machine.Frame

/-!
What happens in a run, one thing at a time. A property that each step keeps holds after all of them
(`Steps.keeps`).
-/

namespace Automat

/-- One thing that happens in a run. -/
inductive Happening (K E : Type) where
  /-- The initial state is entered. -/
  | begin
  /-- An entry action of the initial state fails. -/
  | refuse
  /-- A client's event is put into the empty queue. -/
  | accept (event : E)
  /-- The first event of the queue is processed. -/
  | take (event : E)
  /-- The timer that is due fires, and its report is processed at once. -/
  | elapse (timer : TimerId)
  | tick (time : Duration)
  | ask (kind : K)
  | stop
  /-- Subscribers come or go. -/
  | listen

/-- The client's event that comes into the queue. -/
def Happening.accepted? {K E : Type} : Happening K E → Option E
  | .accept event => some event
  | _ => none

/-- The run in which the next thing happens. -/
def nextRun {S K E C W O : Type} (later : List (Run S E C W O × Happening K E))
    (done : Run S E C W O) : Run S E C W O :=
  match later with
  | [] => done
  | entry :: _ => entry.1

namespace Machine

variable {S K E C W O : Type} [DecidableEq S] [DecidableEq K] [Named S] [Named K] [EventLike E K]

/-- The steps of a run. A timer fires only when the queue is empty, so the report of it is the next
event; the clock moves no further than the next deadline. -/
inductive Step (m : Machine S K E C W) :
    Run S E C W O → Happening K E → Run S E C W O → Prop where
  | begin {run : Run S E C W O} {draft : Draft E C W} :
      run.status = .notStarted →
      m.perform none (m.entrySteps m.definition.initial) ⟨m.context, [], run.world⟩ =
        (draft, none) →
      Step m run .begin (m.enterInitial draft run)
  | refuse {run : Run S E C W O} {draft : Draft E C W} {failure : Failure} :
      run.status = .notStarted →
      m.perform none (m.entrySteps m.definition.initial) ⟨m.context, [], run.world⟩ =
        (draft, some failure) →
      Step m run .refuse (run.withWorld draft.world)
  | accept {run : Run S E C W O} (event : E) :
      run.status = .running → run.queue = [] → Step m run (.accept event) (run.enqueue [event])
  | take {run rest : Run S E C W O} {event : E} :
      run.dequeue? = some (event, rest) → Step m run (.take event) (m.process event rest)
  | elapse {run : Run S E C W O} {timer : TimerId} {timers : Timers S} :
      run.status = .running → run.queue = [] → run.timers.fire? run.now = some (timer, timers) →
      Step m run (.elapse timer) (m.process (EventLike.ofTimer timer) (run.withTimers timers))
  | tick {run : Run S E C W O} (time : Duration) :
      run.queue = [] → (∀ due, run.nextDeadline? = some due → time ≤ due) →
      Step m run (.tick time) (run.moveClock time)
  | ask {run : Run S E C W O} (kind : K) : Step m run (.ask kind) (m.canTransition kind run).1
  | stop {run : Run S E C W O} : Step m run .stop run.stop
  | listen {run : Run S E C W O} (audience : Audience (Snapshot S C E) O) :
      Step m run .listen { run with audience := audience }

/-- Steps in order. The trace holds each thing that happened with the run in which it happened. -/
inductive Steps (m : Machine S K E C W) (first : Run S E C W O) :
    List (Run S E C W O × Happening K E) → Run S E C W O → Prop where
  | refl : Steps m first [] first
  | snoc {trace : List (Run S E C W O × Happening K E)} {run last : Run S E C W O}
      {happening : Happening K E} :
      Steps m first trace run → Step m run happening last →
      Steps m first (trace ++ [(run, happening)]) last

variable {m : Machine S K E C W}

theorem Step.steps {run last : Run S E C W O} {happening : Happening K E}
    (h : Step m run happening last) : Steps m run [(run, happening)] last :=
  .snoc .refl h

theorem Steps.trans {first run last : Run S E C W O}
    {before after : List (Run S E C W O × Happening K E)} (h : Steps m first before run)
    (hr : Steps m run after last) : Steps m first (before ++ after) last := by
  induction hr with
  | refl => simpa using h
  | snoc _ hs ih => simpa only [List.append_assoc] using Steps.snoc ih hs

theorem Steps.eq_of_nil {first last : Run S E C W O} (h : Steps m first [] last) : first = last := by
  generalize htrace : ([] : List (Run S E C W O × Happening K E)) = trace at h
  cases h with
  | refl => rfl
  | snoc => simp at htrace

/-- Steps can be parted wherever something happens. -/
theorem Steps.split {first run last : Run S E C W O}
    {before after : List (Run S E C W O × Happening K E)} {happening : Happening K E}
    (h : Steps m first (before ++ (run, happening) :: after) last) :
    Steps m first before run ∧ ∃ next, Step m run happening next ∧ Steps m next after last := by
  generalize htrace : before ++ (run, happening) :: after = trace at h
  induction h generalizing after with
  | refl => simp at htrace
  | @snoc trace middle last other hsteps hstep ih =>
    rcases List.eq_nil_or_concat after with rfl | ⟨init, entry, rfl⟩
    · obtain ⟨rfl, heq⟩ := List.append_inj' htrace rfl
      cases heq
      exact ⟨hsteps, last, hstep, .refl⟩
    · rw [List.concat_eq_append, ← List.cons_append, ← List.append_assoc] at htrace
      obtain ⟨hinit, heq⟩ := List.append_inj' htrace rfl
      obtain ⟨hb, next, hn, ha⟩ := ih hinit
      cases heq
      refine ⟨hb, next, hn, ?_⟩
      rw [List.concat_eq_append]
      exact ha.snoc hstep

theorem Steps.eq_nextRun {first last : Run S E C W O}
    {trace : List (Run S E C W O × Happening K E)} (h : Steps m first trace last) :
    first = nextRun trace last := by
  cases trace with
  | nil => exact h.eq_of_nil
  | cons entry later =>
    have hsplit : Steps m first [] entry.1 ∧
        ∃ next, Step m entry.1 entry.2 next ∧ Steps m next later last := Steps.split h
    exact hsplit.1.eq_of_nil

/-- What every step keeps, all of them keep. -/
theorem Steps.keeps {first last : Run S E C W O} {trace : List (Run S E C W O × Happening K E)}
    {P : Run S E C W O → Prop} (h : Steps m first trace last)
    (hstep : ∀ run happening next, (run, happening) ∈ trace → Step m run happening next →
      P run → P next) (hp : P first) : P last := by
  induction h with
  | refl => exact hp
  | @snoc trace run last happening _ hs ih =>
    refine hstep run happening last (by simp) hs (ih ?_)
    intro run happening next hmem
    exact hstep run happening next (List.mem_append_left _ hmem)

/-- No step takes anything out of the journal. -/
theorem Step.journal_suffix {run next : Run S E C W O} {happening : Happening K E}
    (h : Step m run happening next) : run.journal <:+ next.journal := by
  cases h with
  | @begin draft =>
    rw [enterInitial, arm_eq]
    exact List.suffix_cons _ _
  | @take rest event hq =>
    obtain ⟨-, queue, -, hrest⟩ := Run.dequeue?_eq_some_iff.1 hq
    have hj : rest.journal = run.journal := by rw [hrest]
    rw [← hj]
    exact (m.processed event rest).journal_suffix
  | @elapse timer timers => exact (m.processed _ (run.withTimers timers)).journal_suffix
  | ask kind =>
    obtain ⟨world, hw⟩ := m.canTransition_eq kind run
    rw [hw]
    exact List.suffix_refl _
  | stop =>
    unfold Run.stop
    split <;> exact List.suffix_refl _
  | refuse | accept | tick | listen => exact List.suffix_refl _

theorem Steps.journal_suffix {first run : Run S E C W O}
    {trace : List (Run S E C W O × Happening K E)} (h : Steps m first trace run) :
    first.journal <:+ run.journal := by
  induction h with
  | refl => exact List.suffix_refl _
  | snoc _ hs ih => exact ih.trans hs.journal_suffix

/-! ## Steps to a run at rest -/

/-- Every event that comes into the queue is one that is allowed in that run. -/
def Accepts (allowed : Run S E C W O → E → Prop) (trace : List (Run S E C W O × Happening K E)) :
    Prop :=
  ∀ entry ∈ trace, ∀ event, entry.2.accepted? = some event → allowed entry.1 event

section

variable {allowed : Run S E C W O → E → Prop}
variable {before after trace : List (Run S E C W O × Happening K E)}

omit [DecidableEq S] [DecidableEq K] [Named S] [Named K] [EventLike E K] in
theorem Accepts.append (hb : Accepts allowed before) (ha : Accepts allowed after) :
    Accepts allowed (before ++ after) := by
  intro entry hmem
  exact (List.mem_append.1 hmem).elim (hb entry) (ha entry)

omit [DecidableEq S] [DecidableEq K] [Named S] [Named K] [EventLike E K] in
theorem accepts_nil : Accepts allowed ([] : List (Run S E C W O × Happening K E)) := by
  intro entry hmem
  cases hmem

omit [DecidableEq S] [DecidableEq K] [Named S] [Named K] [EventLike E K] in
theorem accepts_single {run : Run S E C W O} {happening : Happening K E}
    (h : ∀ event, happening.accepted? = some event → allowed run event) :
    Accepts allowed [(run, happening)] := by
  intro entry hmem
  rw [List.mem_singleton.1 hmem]
  exact h

end

/-- The last run is at rest, and came about in steps that accept allowed events only. -/
def Settles (m : Machine S K E C W) (allowed : Run S E C W O → E → Prop)
    (run done : Run S E C W O) : Prop :=
  done.queue = [] ∧ ∃ trace, Steps m run trace done ∧ Accepts allowed trace

/-- These steps lead to a run at rest, and accept allowed events only. -/
structure Leads (m : Machine S K E C W) (allowed : Run S E C W O → E → Prop)
    (run : Run S E C W O) (trace : List (Run S E C W O × Happening K E))
    (done : Run S E C W O) : Prop where
  rest : done.queue = []
  steps : Steps m run trace done
  accepts : Accepts allowed trace

variable {allowed : Run S E C W O → E → Prop} {run next done : Run S E C W O}
variable {before after trace : List (Run S E C W O × Happening K E)}

theorem Leads.settles (h : m.Leads allowed run trace done) : m.Settles allowed run done :=
  ⟨h.rest, trace, h.steps, h.accepts⟩

theorem Leads.refl (run : Run S E C W O) (h : run.queue = []) : m.Leads allowed run [] run :=
  ⟨h, .refl, accepts_nil⟩

theorem Leads.cons {happening : Happening K E} (hs : Step m run happening next)
    (ha : ∀ event, happening.accepted? = some event → allowed run event)
    (h : m.Leads allowed next trace done) :
    m.Leads allowed run ((run, happening) :: trace) done :=
  ⟨h.rest, hs.steps.trans h.steps, (accepts_single ha).append h.accepts⟩

theorem Leads.cons_quiet {happening : Happening K E} (h : m.Leads allowed next trace done)
    (hs : Step m run happening next) (hn : happening.accepted? = none) :
    m.Leads allowed run ((run, happening) :: trace) done := by
  refine h.cons hs ?_
  intro event he
  cases hn.symm.trans he

theorem Leads.trans (h : m.Leads allowed run before next) (hr : m.Leads allowed next after done) :
    m.Leads allowed run (before ++ after) done :=
  ⟨hr.rest, h.steps.trans hr.steps, h.accepts.append hr.accepts⟩

/-! ## Runs at rest -/

theorem drain_of_queue_eq_nil (hq : run.queue = []) (fuel : Nat) :
    m.drain fuel run = some run := by
  unfold drain
  rw [Run.dequeue?_eq_none hq]

/-- What is sent to a run at rest is processed first. -/
theorem send_succ (hr : run.status = .running) (hq : run.queue = []) (event : E) (fuel : Nat) :
    m.send (fuel + 1) event run = m.drain fuel (m.process event run) := by
  unfold send
  rw [if_pos hr, drain.eq_def m (fuel + 1), run.dequeue?_enqueue hr hq]

end Machine

end Automat
