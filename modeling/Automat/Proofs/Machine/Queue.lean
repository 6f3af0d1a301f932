import Automat.Proofs.Machine.Rollback

/-!
The queue over a call. A call is a sequence of drains: something opens a drain on an empty queue, and
then events are taken until the queue is empty again. What is processed in a drain is what opened it
and after that all that was raised, in the order in which it was raised, and each event is dealt with
before the next one is taken (`run_to_completion`).
-/

namespace Automat

/-- One drain of the queue: what opens it, and the events taken after that, each with the run in which
it was taken. -/
structure Drain (S K E C W O : Type) where
  opening : Run S E C W O × Happening K E
  taken : List (Run S E C W O × E)

def Drain.steps {S K E C W O : Type} (drain : Drain S K E C W O) :
    List (Run S E C W O × Happening K E) :=
  drain.opening :: drain.taken.map fun entry => (entry.1, .take entry.2)

namespace Machine

/-! ## What actions raise -/

section

variable {S K E C W : Type} [Named S] [Named K] [EventLike E K]

/-- What each action raises when they are run one after the other. -/
def outputs (m : Machine S K E C W) (event : Option E) : List (S × String) → C → W → List (List E)
  | [], _, _ => []
  | (_, action) :: steps, context, world =>
    match m.actions.find? action with
    | none => []
    | some act =>
      let result := act event context world
      result.raised :: m.outputs event steps result.context result.world

/-- Actions that succeed have raised all their events, in order. -/
theorem raised_of_performed {m : Machine S K E C W} {event : Option E} {steps : List (S × String)}
    {draft last : Draft E C W} (h : m.perform event steps draft = (last, none)) :
    last.raised = draft.raised ++ (m.outputs event steps draft.context draft.world).flatten := by
  induction steps generalizing draft with
  | nil =>
    cases h
    exact (List.append_nil _).symm
  | cons step steps ih =>
    obtain ⟨state, action⟩ := step
    simp only [perform, outputs] at h ⊢
    cases hf : m.actions.find? action with
    | none => simp [hf] at h
    | some act =>
      simp only [hf] at h ⊢
      cases hd : (act event draft.context draft.world).fault with
      | none =>
        simp only [hd] at h
        rw [ih h, List.flatten_cons, List.append_assoc]
      | some fault => simp [hd] at h

end

variable {S K E C W O : Type} [DecidableEq S] [DecidableEq K] [Named S] [Named K] [EventLike E K]

/-- What an event raises that is carried out: the events of the actions of its rule or delayed
transition, and after them those of the entry actions of the target. -/
theorem raised_of_commits {m : Machine S K E C W} {event : E} {run : Run S E C W O}
    (h : m.Commits event run) :
    ∃ target actions world, m.admitted? event run = some (target, actions, world) ∧
      m.raised event run = (m.outputs (some event)
        (m.ruleSteps run.state actions (target.filter (· ≠ run.state))) run.context world).flatten := by
  obtain ⟨draft, ha⟩ := commits_iff.1 h
  obtain ⟨⟨target, actions, world⟩, hadmitted, hp⟩ := Option.map_eq_some_iff.1 ha
  refine ⟨target, actions, world, hadmitted, ?_⟩
  rw [raised, ha]
  exact raised_of_performed hp

/-! ## What opens a drain -/

section

variable (m : Machine S K E C W)

/-- The events that something brings into the queue by itself. -/
def seed : Run S E C W O × Happening K E → List E
  | (run, .begin) =>
    (m.outputs none (m.entrySteps m.definition.initial) m.context run.world).flatten
  | (_, .accept event) => [event]
  | (_, .elapse timer) => [EventLike.ofTimer timer]
  | _ => []

/-- The events raised while the event of a step is processed. -/
def raisedBy : Run S E C W O × Happening K E → List E
  | (run, .take event) => m.raised event run
  | (run, .elapse timer) =>
    match run.timers.fire? run.now with
    | some (_, timers) => m.raised (EventLike.ofTimer timer) (run.withTimers timers)
    | none => []
  | _ => []

end

variable {m : Machine S K E C W} {run next done : Run S E C W O} {happening : Happening K E}
variable {trace steps : List (Run S E C W O × Happening K E)} {drain : Drain S K E C W O}

theorem Step.supply_eq (hs : Step m run happening next) :
    m.supply (run, happening) = m.seed (run, happening) ++ m.raisedBy (run, happening) := by
  cases hs with
  | begin _ hp =>
    simp only [supply, seed, raisedBy, List.append_nil, hp]
    exact raised_of_performed hp
  | elapse _ _ hf =>
    simp only [supply, seed, raisedBy, hf]
    rfl
  | take | accept | refuse | tick | ask | stop | listen => rfl

theorem supplied_taken (taken : List (Run S E C W O × E)) :
    m.supplied (taken.map fun entry => (entry.1, .take entry.2)) =
      (taken.map fun entry => (entry.1, Happening.take entry.2)).flatMap m.raisedBy := by
  induction taken with
  | nil => rfl
  | cons entry taken ih =>
    rw [supplied] at ih ⊢
    rw [List.map_cons, List.flatMap_cons, List.flatMap_cons, ih]
    rfl

/-! ## Drains -/

/-- A drain begins with an empty queue, and what is processed in it is its seed and after that all
that is raised in it, in order. -/
structure Exhausts (m : Machine S K E C W) (drain : Drain S K E C W O) : Prop where
  empty : drain.opening.1.queue = []
  events : eventsProcessed drain.steps = m.seed drain.opening ++ drain.steps.flatMap m.raisedBy

theorem DrainTrace.exists_taken (h : m.DrainTrace run steps done) :
    ∃ taken : List (Run S E C W O × E), steps = taken.map fun entry => (entry.1, .take entry.2) := by
  induction h with
  | rested => exact ⟨[], rfl⟩
  | @took run rest done event later _ _ ih =>
    obtain ⟨taken, rfl⟩ := ih
    exact ⟨(run, event) :: taken, rfl⟩

/-- What opens a drain of a running machine, and what is taken until the queue is empty. -/
theorem DrainTrace.exhausts (h : m.DrainTrace next steps done) (hs : Step m run happening next)
    (hq : run.queue = []) (hr : next.status = .running) :
    ∃ drain : Drain S K E C W O, drain.steps = (run, happening) :: steps ∧ m.Exhausts drain := by
  obtain ⟨hleads, hrunning⟩ := h.leads (fun _ _ => True) hr
  obtain ⟨taken, rfl⟩ := h.exists_taken
  have hall := (hs.steps.trans hleads.steps).inTurn.complete (by rw [hrunning]; decide)
  rw [hleads.rest, hq, List.append_nil, List.nil_append, List.singleton_append] at hall
  refine ⟨⟨(run, happening), taken⟩, rfl, hq, ?_⟩
  calc eventsProcessed ((run, happening) :: taken.map fun entry => (entry.1, .take entry.2))
      = m.supply (run, happening) ++
          m.supplied (taken.map fun entry => (entry.1, .take entry.2)) := hall
    _ = m.seed (run, happening) ++ (m.raisedBy (run, happening) ++
          (taken.map fun entry => (entry.1, Happening.take entry.2)).flatMap m.raisedBy) := by
        rw [hs.supply_eq, supplied_taken, List.append_assoc]

theorem exhausts_quiet (hq : run.queue = []) (hp : happening.processed? = none)
    (hn : m.seed (run, happening) = []) :
    m.Exhausts ⟨(run, happening), []⟩ where
  empty := hq
  events := by
    rw [hn]
    cases happening with
    | take | elapse => cases hp
    | begin | refuse | accept | tick | ask | stop | listen => rfl

/-- The clock is advanced in drains, one for each timer that fires, with nothing but ticks between
them. -/
theorem AdvanceTrace.exhausts {time : Duration} (h : m.AdvanceTrace time run steps done)
    (hq : run.queue = []) : ∃ drains : List (Drain S K E C W O),
      drains.flatMap Drain.steps = steps ∧ ∀ drain ∈ drains, m.Exhausts drain := by
  induction h with
  | @clear run hd =>
    refine ⟨[⟨(run, .tick time), []⟩], rfl, ?_⟩
    intro drain hmem
    rw [List.mem_singleton.1 hmem]
    exact exhausts_quiet hq rfl rfl
  | @fired run next done due timer timers taken later hn hle hf hd _ ih =>
    have hr : run.status = .running := Run.running_of_nextDeadline? hn
    have hrest : next.queue = [] :=
      (hd.leads (fun _ _ => True) (running_process _ hr)).1.rest
    obtain ⟨first, hfirst, hex⟩ := hd.exhausts (.elapse hr hq hf) hq (running_process _ hr)
    obtain ⟨drains, hdrains, hall⟩ := ih hrest
    refine ⟨⟨(run, .tick due), []⟩ :: first :: drains, ?_, ?_⟩
    · rw [List.flatMap_cons, List.flatMap_cons, hfirst, hdrains]
      rfl
    · intro drain hmem
      rcases List.mem_cons.1 hmem with rfl | hmem
      · exact exhausts_quiet hq rfl rfl
      · rcases List.mem_cons.1 hmem with rfl | hmem
        · exact hex
        · exact hall drain hmem

/-- Every call is a sequence of drains. -/
theorem CallTrace.exhausts {call : Call K E} {answer : Answer}
    (h : m.CallTrace call run steps done answer) (hq : run.queue = []) :
    ∃ drains : List (Drain S K E C W O),
      drains.flatMap Drain.steps = steps ∧ ∀ drain ∈ drains, m.Exhausts drain := by
  have hone : ∀ drain : Drain S K E C W O, m.Exhausts drain →
      ∃ drains : List (Drain S K E C W O),
        drains.flatMap Drain.steps = drain.steps ∧ ∀ other ∈ drains, m.Exhausts other := by
    intro drain hex
    refine ⟨[drain], List.flatMap_singleton _ _, ?_⟩
    intro other hmem
    rwa [List.mem_singleton.1 hmem]
  cases h with
  | @begun _ _ draft steps hr hp hd =>
    obtain ⟨drain, hsteps, hex⟩ := hd.exhausts (.begin hr hp) hq (m.status_enterInitial run draft)
    rw [← hsteps]
    exact hone drain hex
  | @sent _ _ event steps hr hd =>
    obtain ⟨drain, hsteps, hex⟩ := hd.exhausts (.accept event hr hq) hq hr
    rw [← hsteps]
    exact hone drain hex
  | advanced h | advancedTo h => exact h.exhausts hq
  | late | dropped => exact ⟨[], rfl, fun drain hmem => absurd hmem List.not_mem_nil⟩
  | refused | stopped | asked => exact hone _ (exhausts_quiet hq rfl rfl)

/-! ## One event after the other -/

/-- Where the event comes from that is processed in a step, and the run in which it is examined. -/
inductive Examined : Run S E C W O → Happening K E → E → Run S E C W O → Prop where
  | taken {run rest : Run S E C W O} {event : E} :
      run.dequeue? = some (event, rest) → Examined run (.take event) event rest
  | fired {run : Run S E C W O} {timer : TimerId} {timers : Timers S} :
      run.timers.fire? run.now = some (timer, timers) →
      Examined run (.elapse timer) (EventLike.ofTimer timer) (run.withTimers timers)

/-- An event has been processed to its end: what it has raised is in the queue, and it has been
reported to all subscribers, unless the timer is stale that it reports. It has raised nothing unless
it was carried out. -/
structure Completed (m : Machine S K E C W) (event : E) (run next : Run S E C W O) : Prop where
  processed : next = m.process event run
  queue : next.queue = run.queue ++ m.raised event run
  told : (∃ snapshot, snapshot.event = some event ∧ next.journal = snapshot :: run.journal ∧
      next.audience = run.audience.notify snapshot) ∨
    m.Refused event run none ∧ next.journal = run.journal ∧ next.audience = run.audience
  raised : m.Commits event run → ∃ target actions world,
    m.admitted? event run = some (target, actions, world) ∧
    m.raised event run = (m.outputs (some event)
      (m.ruleSteps run.state actions (target.filter (· ≠ run.state))) run.context world).flatten
  silent : ¬ m.Commits event run → m.raised event run = []

omit [DecidableEq K] [Named S] in
theorem told_commit (target : Option S) (event : E) (draft : Draft E C W) (run : Run S E C W O) :
    ∃ snapshot, snapshot.event = some event ∧
      (m.commit target event draft run).journal = snapshot :: run.journal ∧
      (m.commit target event draft run).audience = run.audience.notify snapshot := by
  cases target with
  | none => exact ⟨_, rfl, rfl, rfl⟩
  | some target =>
    rw [commit_some]
    exact ⟨_, rfl, rfl, rfl⟩

theorem completed_process (m : Machine S K E C W) (event : E) (run : Run S E C W O) :
    m.Completed event run (m.process event run) where
  processed := rfl
  queue := queue_process m event run
  told := by
    rcases m.attempted_or_refused event run with ⟨draft, ha⟩ | ⟨outcome, hr⟩
    · obtain ⟨target, world, hp⟩ := process_of_attempted? ha
      rw [hp]
      exact .inl (told_commit target event draft (run.withWorld world))
    · obtain ⟨world, hp⟩ := hr.process_eq
      rw [hp]
      cases outcome with
      | none => exact .inr ⟨hr, rfl, rfl⟩
      | some outcome => exact .inl ⟨_, rfl, rfl, rfl⟩
  raised := raised_of_commits
  silent := raised_eq_nil

/-- An event is processed to its end in one step. -/
theorem Step.completed {event : E} (hs : Step m run happening next)
    (he : happening.processed? = some event) :
    ∃ rest, Examined run happening event rest ∧ m.Completed event rest next := by
  cases hs with
  | @take rest event hq =>
    cases he
    exact ⟨rest, .taken hq, m.completed_process event rest⟩
  | @elapse timer timers _ _ hf =>
    cases he
    exact ⟨_, .fired hf, m.completed_process _ _⟩
  | begin | refuse | accept | tick | ask | stop | listen => cases he

/-- Between calls the queue is empty, so there is nothing in it that a stop could drop. A call that
returns is a sequence of drains. What is processed in a drain is what opens it, and then all that is
raised in it, in order. Each event is processed to its end before anything else happens. -/
theorem run_to_completion {fuel : Nat} {call : Call K E} {answer : Answer} (hr : m.Reachable run)
    (hc : m.call fuel call run = some (done, answer)) :
    run.queue = [] ∧ done.queue = [] ∧ ∃ drains : List (Drain S K E C W O),
      m.CallTrace call run (drains.flatMap Drain.steps) done answer ∧
      (∀ drain ∈ drains, m.Exhausts drain) ∧
      ∀ before entry after event, drains.flatMap Drain.steps = before ++ entry :: after →
        entry.2.processed? = some event →
        ∃ rest, Examined entry.1 entry.2 event rest ∧
          m.Completed event rest (nextRun after done) := by
  have hq := hr.queue_eq_nil
  obtain ⟨steps, ht⟩ := callTrace_of_call hq hc
  have hleads := ht.arrives hq
  obtain ⟨drains, rfl, hex⟩ := ht.exhausts hq
  refine ⟨hq, hleads.rest, drains, ht, hex, ?_⟩
  intro before entry after event hsteps he
  obtain ⟨run, happening⟩ := entry
  have hs := hleads.steps
  rw [hsteps] at hs
  obtain ⟨-, next, hstep, hafter⟩ := hs.split
  rw [← hafter.eq_nextRun]
  exact hstep.completed he

/-! ## Dominoes -/

section

open Script

/-- Once it stands it is pushed, and someone claps. The push makes it click, and where it falls there
is a thud; the click has an echo. -/
def dominoes : Machine String String Signal Unit Unit where
  definition :=
    { id := "dominoes"
      initial := "upright"
      nodes :=
        [{ state := "upright"
           entry := ["stand"]
           rules := [("push", { target := some "fallen", actions := ["tip"] })] },
         { state := "fallen"
           entry := ["land"]
           rules := [("click", { target := none, actions := ["resound"] })] }] }
  actions :=
    [("stand", fun _ _ _ => ⟨(), [signal "push", signal "clap"], (), none⟩),
     ("tip", fun _ _ _ => ⟨(), [signal "click"], (), none⟩),
     ("land", fun _ _ _ => ⟨(), [signal "thud"], (), none⟩),
     ("resound", fun _ _ _ => ⟨(), [signal "echo"], (), none⟩)]
  guards := []
  context := ()
  historyLimit := History.defaultLimit
  clock _ := .epoch

/-- The clap comes before what the push raises, and the echo comes last. -/
theorem run_to_completion_dominoes : ∃ done : Run String Signal Unit Unit Unit,
    dominoes.call 5 .start (dominoes.newRun () ()) = some (done, .done) ∧
    done.journal.reverse.map (fun snapshot => snapshot.event.map (·.kind)) =
      [none, some "push", some "clap", some "click", some "thud", some "echo"] ∧
    done.queue = [] ∧ ∃ drains : List (Drain String String Signal Unit Unit Unit),
      dominoes.CallTrace .start (dominoes.newRun () ()) (drains.flatMap Drain.steps) done .done ∧
      ∀ drain ∈ drains, dominoes.Exhausts drain := by
  have hsome : (dominoes.call 5 .start (dominoes.newRun () ())).map (fun result => (result.2,
      result.1.journal.reverse.map fun snapshot => snapshot.event.map (·.kind))) =
      some (.done, [none, some "push", some "clap", some "click", some "thud", some "echo"]) := rfl
  obtain ⟨⟨done, answer⟩, hcall, hdone⟩ := Option.map_eq_some_iff.1 hsome
  rw [Prod.mk.injEq] at hdone
  obtain ⟨rfl, hjournal⟩ := hdone
  have hreach : dominoes.Reachable (dominoes.newRun () ()) := ⟨(), (), .first⟩
  obtain ⟨-, hrest, drains, htrace, hex, -⟩ := run_to_completion hreach hcall
  exact ⟨done, hcall, hjournal, hrest, drains, htrace, hex⟩

end

end Machine

end Automat
