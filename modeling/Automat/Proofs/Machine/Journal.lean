import Automat.Proofs.Machine.Armed
import Mathlib.Data.List.Chain

/-!
The snapshots of a run. A step publishes nothing and stays in its visit, enters the initial state,
reports an event in the same visit, or moves to another state (`Step.published`). So each snapshot
goes on from the one before, and the last one shows the run between calls (`snapshots_consistent`).
-/

namespace Automat

def Run.published {S E C W O : Type} (run : Run S E C W O) : List (Snapshot S C E) :=
  run.journal.reverse

/-- State, previous state and visit are the same, and nothing is recorded. -/
structure Stays {S E C W O : Type} (run next : Run S E C W O) : Prop where
  state : next.state = run.state
  previous : next.previous = run.previous
  visit : next.visit = run.visit
  history : next.history = run.history

/-- A snapshot goes on from the one published before it. -/
structure Follows {S C E : Type} (earlier later : Snapshot S C E) : Prop where
  time : earlier.time ≤ later.time
  event : later.event ≠ none
  outcome : later.outcome ≠ .started
  moved : ∀ source target, later.outcome = .transitioned source target →
    source = earlier.state ∧ target = later.state ∧ source ≠ target ∧
      later.previous = some source ∧ later.visit = earlier.visit + 1
  stayed : later.changed = false →
    later.state = earlier.state ∧ later.previous = earlier.previous ∧ later.visit = earlier.visit
  kept : later.outcome.Keeps → later.context = earlier.context

/-- A snapshot shows a run as it still is, at a time that has not passed the clock. -/
structure Shows {S E C W O : Type} (snapshot : Snapshot S C E) (run : Run S E C W O) : Prop where
  state : snapshot.state = run.state
  previous : snapshot.previous = run.previous
  context : snapshot.context = run.context
  visit : snapshot.visit = run.visit
  time : snapshot.time ≤ run.now

/-- A snapshot of the entry into the current state: of the same visit, and not from later than now. -/
structure Enters {S E C W O : Type} (snapshot : Snapshot S C E) (run : Run S E C W O) : Prop where
  state : snapshot.state = run.state
  visit : snapshot.visit = run.visit
  time : snapshot.time ≤ run.now

section

variable {S E C W O : Type} {run next : Run S E C W O}

theorem enters_of_shown {event : Option E} {outcome : Outcome S} {entry : Snapshot S C E}
    (hj : next.journal = next.shown event outcome :: run.journal) (ho : outcome.enters = true)
    (he : next.entry? = some entry) : Enters entry next := by
  have hshown : next.entry? = some (next.shown event outcome) := Run.entry?_of_enters hj ho
  cases he.symm.trans hshown
  exact ⟨rfl, rfl, Nat.le_refl _⟩

theorem shows_shown (event : Option E) (outcome : Outcome S) (run : Run S E C W O) :
    Shows (run.shown event outcome) run :=
  ⟨rfl, rfl, rfl, rfl, Nat.le_refl _⟩

/-- What is reported in the same visit goes on from the snapshot before. -/
theorem Shows.follows_of_stays {last : Snapshot S C E} {event : E} {outcome : Outcome S}
    (h : Shows last run) (ho : outcome = .handled ∨ outcome.Keeps ∧ next.context = run.context)
    (hs : Stays run next) (hnow : next.now = run.now) :
    Follows last (next.shown (some event) outcome) where
  time := by
    show last.time ≤ next.now
    rw [hnow]
    exact h.time
  event := Option.some_ne_none _
  outcome := by
    rintro rfl
    rcases ho with ho | ⟨ho, -⟩ <;> cases ho
  moved source target hmoved := by
    change outcome = _ at hmoved
    subst hmoved
    rcases ho with ho | ⟨ho, -⟩ <;> cases ho
  stayed _ := ⟨hs.state.trans h.state.symm, hs.previous.trans h.previous.symm,
    hs.visit.trans h.visit.symm⟩
  kept hk := by
    rcases ho with rfl | ⟨-, hc⟩
    · cases hk
    · exact hc.trans h.context.symm

theorem Shows.follows_of_moved {last : Snapshot S C E} {event : E} {target : S}
    (h : Shows last run) (ht : target ≠ run.state) (hs : next.state = target)
    (hp : next.previous = some run.state) (hv : next.visit = run.visit + 1)
    (hnow : next.now = run.now) :
    Follows last (next.shown (some event) (.transitioned run.state target)) where
  time := by
    show last.time ≤ next.now
    rw [hnow]
    exact h.time
  event := Option.some_ne_none _
  outcome hstarted := by cases hstarted
  moved source other hmoved := by
    cases hmoved
    exact ⟨h.state.symm, hs.symm, ht.symm, hp, by rw [h.visit]; exact hv⟩
  stayed hstayed := by cases hstayed
  kept hk := by cases hk

end

namespace Machine

/-! ## What a step publishes -/

section

variable {S K E C W O : Type} [Named K] [EventLike E K]

/-- What a step does to the journal and to what the journal shows. -/
inductive Published (m : Machine S K E C W) (run next : Run S E C W O) : Prop where
  | silent : next.journal = run.journal → Stays run next → next.context = run.context →
      run.now ≤ next.now → next.status = run.status ∨ next.status = .stopped →
      Published m run next
  | begun : run.status = .notStarted → next.status = .running →
      next.journal = next.shown none .started :: run.journal → next.state = m.definition.initial →
      next.previous = none → next.visit = 1 → next.history = run.history → Published m run next
  | reported {event : E} {outcome : Outcome S} : run.status = .running →
      next.status = .running → next.journal = next.shown (some event) outcome :: run.journal →
      outcome = .handled ∨ outcome.Keeps ∧ next.context = run.context →
      Stays run next → next.now = run.now → Published m run next
  | moved {event : E} {target : S} {timestamp : Timestamp} : run.status = .running →
      next.status = .running → target ≠ run.state →
      next.journal = next.shown (some event) (.transitioned run.state target) :: run.journal →
      next.state = target → next.previous = some run.state → next.visit = run.visit + 1 →
      next.now = run.now →
      next.history = run.history.record
        ⟨run.state, target, name (EventLike.kind event), timestamp, run.now⟩ →
      Published m run next

variable {m : Machine S K E C W} {run next : Run S E C W O}

theorem Published.of_ready (queue : List E) (timers : Timers S)
    (h : Published m { run with queue := queue, timers := timers } next) :
    Published m run next := by
  cases h with
  | silent hj hs hc hn hr => exact .silent hj ⟨hs.state, hs.previous, hs.visit, hs.history⟩ hc hn hr
  | begun hr hn hj hs hp hv hh => exact .begun hr hn hj hs hp hv hh
  | reported hr hn hj ho hs hnow =>
    exact .reported hr hn hj ho ⟨hs.state, hs.previous, hs.visit, hs.history⟩ hnow
  | moved hr hn ht hj hs hp hv hnow hh => exact .moved hr hn ht hj hs hp hv hnow hh

end

variable {S K E C W O : Type} [DecidableEq S] [DecidableEq K] [Named S] [Named K] [EventLike E K]
variable {m : Machine S K E C W} {run next : Run S E C W O} {happening : Happening K E}

theorem Processed.published {event : E} (h : m.Processed event run next)
    (hr : run.status = .running) : Published m run next := by
  cases h with
  | dropped => exact .silent rfl ⟨rfl, rfl, rfl, rfl⟩ rfl (Nat.le_refl _) (.inl rfl)
  | kept world outcome hk =>
    exact .reported hr hr rfl (.inr ⟨hk, rfl⟩) ⟨rfl, rfl, rfl, rfl⟩ rfl
  | @committed target actions draft world hp _ =>
    cases hf : target.filter (· ≠ run.state) with
    | none => exact .reported hr hr rfl (.inl rfl) ⟨rfl, rfl, rfl, rfl⟩ rfl
    | some target =>
      have ht : target ≠ run.state := by simpa using (Option.filter_eq_some_iff.1 hf).2
      rw [commit_some]
      exact .moved hr hr ht rfl rfl rfl rfl rfl rfl

theorem Step.published (hs : Step m run happening next) : Published m run next := by
  cases hs with
  | @begin draft hr _ =>
    rw [enterInitial, arm_eq]
    exact .begun hr rfl rfl rfl rfl rfl rfl
  | @take rest event hq =>
    obtain ⟨hr, queue, -, rfl⟩ := Run.dequeue?_eq_some_iff.1 hq
    exact .of_ready queue run.timers ((m.processed event _).published hr)
  | @elapse timer timers hr _ _ =>
    exact .of_ready run.queue timers ((m.processed _ (run.withTimers timers)).published hr)
  | tick time => exact .silent rfl ⟨rfl, rfl, rfl, rfl⟩ rfl (le_max_left _ _) (.inl rfl)
  | ask kind =>
    obtain ⟨world, hw⟩ := m.canTransition_eq kind run
    rw [hw]
    exact .silent rfl ⟨rfl, rfl, rfl, rfl⟩ rfl (Nat.le_refl _) (.inl rfl)
  | stop =>
    unfold Run.stop
    split
    · exact .silent rfl ⟨rfl, rfl, rfl, rfl⟩ rfl (Nat.le_refl _) (.inl rfl)
    · exact .silent rfl ⟨rfl, rfl, rfl, rfl⟩ rfl (Nat.le_refl _) (.inr rfl)
  | refuse | accept | listen =>
    exact .silent rfl ⟨rfl, rfl, rfl, rfl⟩ rfl (Nat.le_refl _) (.inl rfl)

/-! ## The snapshots of a run -/

section

omit [DecidableEq S] [DecidableEq K] [Named S] [Named K] [EventLike E K]

/-- The snapshot of a start. -/
structure Opens (m : Machine S K E C W) (snapshot : Snapshot S C E) : Prop where
  outcome : snapshot.outcome = .started
  event : snapshot.event = none
  state : snapshot.state = m.definition.initial
  previous : snapshot.previous = none
  visit : snapshot.visit = 1

/-- The snapshots so far begin with that of the start, each goes on from the one before, and the last
shows the run. There are none before the start, and some while the machine runs. -/
structure Consistent (m : Machine S K E C W) (run : Run S E C W O) : Prop where
  unstarted : run.status = .notStarted → run.journal = []
  running : run.status = .running → run.journal ≠ []
  opened : ∀ first, run.journal.getLast? = some first → m.Opens first
  linked : run.journal.IsChain fun later earlier => Follows earlier later
  shown : ∀ last, run.snapshot? = some last → Shows last run

theorem consistent_newRun (m : Machine S K E C W) (world : W) (observers : O) :
    m.Consistent (m.newRun world observers) where
  unstarted _ := rfl
  running h := by cases h
  opened _ h := by cases h
  linked := .nil
  shown _ h := by cases h

/-- No snapshot is later than the clock. -/
theorem Consistent.time_le (h : m.Consistent run) :
    ∀ snapshot ∈ run.journal, snapshot.time ≤ run.now := by
  let before (later earlier : Snapshot S C E) : Prop := earlier.time ≤ later.time
  have : Trans before before before := ⟨fun h hle => le_trans hle h⟩
  have hsorted : run.journal.Pairwise before := (h.linked.imp fun _ _ hf => hf.time).pairwise
  cases hj : run.journal with
  | nil => exact List.forall_mem_nil _
  | cons last earlier =>
    rw [hj, List.pairwise_cons] at hsorted
    have hlast : last.time ≤ run.now := (h.shown last (by rw [Run.snapshot?, hj]; rfl)).time
    refine List.forall_mem_cons.2 ⟨hlast, ?_⟩
    intro snapshot hmem
    exact Nat.le_trans (hsorted.1 snapshot hmem) hlast

/-- One more snapshot while the machine runs. -/
theorem Consistent.publish (h : m.Consistent run) (hr : run.status = .running)
    (hn : next.status = .running) {event : Option E} {outcome : Outcome S}
    (hj : next.journal = next.shown event outcome :: run.journal)
    (hf : ∀ last, Shows last run → Follows last (next.shown event outcome)) :
    m.Consistent next := by
  obtain ⟨last, rest, hcons⟩ := List.exists_cons_of_ne_nil (h.running hr)
  have hlast : Shows last run := h.shown last (by rw [Run.snapshot?, hcons]; rfl)
  constructor
  · intro hs
    cases hn.symm.trans hs
  · intro _
    rw [hj]
    exact List.cons_ne_nil _ _
  · intro first hfirst
    refine h.opened first ?_
    rwa [hj, hcons, List.getLast?_cons_cons, ← hcons] at hfirst
  · rw [hj, hcons]
    refine .cons_cons (hf last hlast) ?_
    rw [← hcons]
    exact h.linked
  · intro latest hlatest
    rw [Run.snapshot?, hj] at hlatest
    cases hlatest
    exact shows_shown _ _ _

end

omit [DecidableEq S] [DecidableEq K] [Named S] in
theorem Published.consistent (hp : Published m run next) (h : m.Consistent run) :
    m.Consistent next := by
  cases hp with
  | silent hj hs hc hn hr =>
    have hstatus : next.status ≠ .stopped → run.status = next.status := by
      intro hstopped
      exact (hr.resolve_right hstopped).symm
    constructor
    · intro hnot
      rw [hj]
      exact h.unstarted ((hstatus (by rw [hnot]; decide)).trans hnot)
    · intro hrun
      rw [hj]
      exact h.running ((hstatus (by rw [hrun]; decide)).trans hrun)
    · rw [hj]
      exact h.opened
    · rw [hj]
      exact h.linked
    · intro last hlast
      rw [Run.snapshot?, hj] at hlast
      have hshows := h.shown last hlast
      exact ⟨hshows.state.trans hs.state.symm, hshows.previous.trans hs.previous.symm,
        hshows.context.trans hc.symm, hshows.visit.trans hs.visit.symm,
        le_trans hshows.time hn⟩
  | begun hr hn hj hs hprev hv hh =>
    rw [h.unstarted hr] at hj
    constructor
    · intro hnot
      cases hn.symm.trans hnot
    · intro _
      rw [hj]
      exact List.cons_ne_nil _ _
    · intro first hfirst
      rw [hj] at hfirst
      cases hfirst
      exact ⟨rfl, rfl, hs, hprev, hv⟩
    · rw [hj]
      exact .singleton _
    · intro last hlast
      rw [Run.snapshot?, hj] at hlast
      cases hlast
      exact shows_shown _ _ _
  | reported hr hn hj ho hs hnow =>
    exact h.publish hr hn hj fun last hlast => hlast.follows_of_stays ho hs hnow
  | moved hr hn ht hj hs hprev hv hnow hh =>
    exact h.publish hr hn hj fun last hlast => hlast.follows_of_moved ht hs hprev hv hnow

theorem Steps.consistent {world : W} {observers : O}
    {trace : List (Run S E C W O × Happening K E)}
    (hs : Steps m (m.newRun world observers) trace run) : m.Consistent run :=
  hs.keeps (fun _ _ _ _ hs h => hs.published.consistent h) (consistent_newRun m world observers)

omit [DecidableEq S] [DecidableEq K] [Named S] in
theorem Published.unstarted (hp : Published m run next)
    (h : run.status = .notStarted → run.state = m.definition.initial)
    (hn : next.status = .notStarted) : next.state = m.definition.initial := by
  cases hp with
  | silent _ hs _ _ hr =>
    rcases hr with hsame | hstopped
    · rw [hs.state]
      exact h (hsame.symm.trans hn)
    · cases hstopped.symm.trans hn
  | begun _ hr | reported _ hr | moved _ hr => cases hr.symm.trans hn

omit [DecidableEq S] [DecidableEq K] [Named S] in
/-- The last snapshot of an entry is always that of the entry into the current state. -/
theorem Published.enters (hp : Published m run next)
    (h : ∀ entry, run.entry? = some entry → Enters entry run) :
    ∀ entry, next.entry? = some entry → Enters entry next := by
  intro entry he
  cases hp with
  | silent hj hs _ hn _ =>
    have hsame : next.entry? = run.entry? := by
      rw [Run.entry?, hj]
      rfl
    obtain ⟨hstate, hvisit, htime⟩ := h entry (hsame.symm.trans he)
    exact ⟨hstate.trans hs.state.symm, hvisit.trans hs.visit.symm, le_trans htime hn⟩
  | begun _ _ hj => exact enters_of_shown hj rfl he
  | @reported event outcome _ _ hj ho hs hnow =>
    have hkeeps : outcome.enters = false := by
      rcases ho with rfl | ⟨hk, -⟩
      · rfl
      · exact hk.enters_eq_false
    obtain ⟨hstate, hvisit, htime⟩ := h entry ((Run.entry?_of_cons hj hkeeps).symm.trans he)
    refine ⟨hstate.trans hs.state.symm, hvisit.trans hs.visit.symm, ?_⟩
    rw [hnow]
    exact htime
  | moved _ _ _ hj => exact enters_of_shown hj rfl he

/-! ## Whether there is a snapshot -/

theorem AdvanceTrace.eq_moveClock {time : Duration} {done : Run S E C W O}
    {steps : List (Run S E C W O × Happening K E)} (h : m.AdvanceTrace time run steps done)
    (hr : run.status ≠ .running) : done = run.moveClock time := by
  cases h with
  | clear => rfl
  | fired hn => exact absurd (Run.running_of_nextDeadline? hn) hr

omit [DecidableEq K] [Named S] [Named K] [EventLike E K] in
theorem journal_enterInitial_ne_nil (draft : Draft E C W) (run : Run S E C W O) :
    (m.enterInitial draft run).journal ≠ [] := by
  rw [enterInitial, arm_eq]
  exact List.cons_ne_nil _ _

/-- There are snapshots after a call if there were some before it, or if it is a start that
succeeds. -/
theorem CallTrace.journal_eq_nil_iff {call : Call K E} {answer : Answer} {done : Run S E C W O}
    {steps : List (Run S E C W O × Happening K E)} (h : m.CallTrace call run steps done answer)
    (hq : run.queue = []) (hc : m.Consistent run) :
    done.journal = [] ↔ run.journal = [] ∧ (call, answer) ≠ (.start, .done) := by
  have hgrows : run.journal <:+ done.journal := (h.arrives hq).steps.journal_suffix
  constructor
  · intro hd
    refine ⟨List.suffix_nil.1 (hd ▸ hgrows), ?_⟩
    intro heq
    cases h with
    | @begun _ _ draft steps hr hp hdrain =>
      have hstarted : (m.enterInitial draft run).journal <:+ done.journal :=
        (hdrain.leads (fun _ _ => True) (m.status_enterInitial run draft)).1.steps.journal_suffix
      rw [hd, List.suffix_nil] at hstarted
      exact journal_enterInitial_ne_nil draft run hstarted
    | refused | late | sent | dropped | advanced | advancedTo | stopped | asked => cases heq
  · rintro ⟨hj, hne⟩
    have hr : run.status ≠ .running := fun hr => hc.running hr hj
    cases h with
    | begun => exact absurd rfl hne
    | sent hrunning => exact absurd hrunning hr
    | advanced h | advancedTo h =>
      rw [h.eq_moveClock hr]
      exact hj
    | stopped =>
      unfold Run.stop
      split <;> exact hj
    | asked kind =>
      obtain ⟨world, hw⟩ := m.canTransition_eq kind run
      rw [hw]
      exact hj
    | refused | late | dropped => exact hj

/-! ## Between calls -/

variable {world : W} {observers : O} {calls : List (Made S K E C W O)}
variable {trace : List (Run S E C W O × Happening K E)}

/-- Nothing has been published exactly as long as no start has succeeded. -/
theorem Chronicle.journal_eq_nil_iff
    (h : m.Chronicle (m.newRun world observers) calls trace run) :
    run.journal = [] ↔ (Call.start, Answer.done) ∉ calls.map Made.exchange := by
  induction h with
  | first => exact iff_of_true rfl List.not_mem_nil
  | call h _ ht ih =>
    have hl := h.leads rfl
    rw [ht.journal_eq_nil_iff hl.rest hl.steps.consistent, ih, List.map_append, List.mem_append,
      not_or, List.map_singleton, List.mem_singleton, ne_comm]
    rfl
  | subscribe callback _ ih | unsubscribe id _ ih => exact ih

/-- After any calls the snapshots published so far begin with that of the start, which is the only
one of its kind, and each goes on from the one before. The last one shows the run as it is, and there
is one exactly if a start has succeeded. -/
theorem snapshots_consistent (h : m.Chronicle (m.newRun world observers) calls trace run) :
    (∀ first, run.published.head? = some first → m.Opens first) ∧
    run.published.IsChain Follows ∧
    run.snapshot? = run.published.getLast? ∧
    (∀ last, run.snapshot? = some last → Shows last run) ∧
    (run.snapshot? = none ↔ (Call.start, Answer.done) ∉ calls.map Made.exchange) := by
  have hc : m.Consistent run := (h.leads rfl).steps.consistent
  refine ⟨?_, List.isChain_reverse.2 hc.linked, ?_, hc.shown, ?_⟩
  · rw [Run.published, List.head?_reverse]
    exact hc.opened
  · rw [Run.published, List.getLast?_reverse]
    rfl
  · rw [← h.journal_eq_nil_iff, Run.snapshot?, List.head?_eq_none_iff]

section

open Script

/-- A light that has been switched once has told of its start and of the switch. -/
theorem snapshots_consistent_blinker :
    ∃ (calls : List (Made String String Signal Nat Unit Unit))
      (trace : List (Run String Signal Nat Unit Unit × Happening String Signal))
      (run : Run String Signal Nat Unit Unit),
      blinker.Chronicle (blinker.newRun () ()) calls trace run ∧
      calls.map Made.exchange = [(.start, .done), (.advance (.ofMillis 12), .done)] ∧
      run.published.map (·.outcome) = [.started, .transitioned "on" "off"] ∧
      run.published.IsChain Follows ∧ run.snapshot? ≠ none ∧
      ∀ last, run.snapshot? = some last → Shows last run := by
  have hsome : (blinker.calls 2 [.start, .advance (.ofMillis 12)] (blinker.newRun () ())).map
      (fun result => (result.1.published.map (·.outcome), result.2)) =
        some ([.started, .transitioned "on" "off"], [.done, .done]) := rfl
  obtain ⟨⟨run, answers⟩, hcalls, hrun⟩ := Option.map_eq_some_iff.1 hsome
  rw [Prod.mk.injEq] at hrun
  obtain ⟨houtcomes, rfl⟩ := hrun
  obtain ⟨calls, trace, hmade, h⟩ := exists_chronicle_of_calls rfl hcalls
  obtain ⟨-, hchain, -, hshows, hnone⟩ := snapshots_consistent h
  refine ⟨calls, trace, run, h, hmade, houtcomes, hchain, ?_, hshows⟩
  intro hs
  refine hnone.1 hs ?_
  rw [hmade]
  exact List.mem_cons_self

end

end Machine

end Automat
