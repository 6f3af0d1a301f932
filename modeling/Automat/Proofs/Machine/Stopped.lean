import Automat.Proofs.Machine.Deadlines
import Automat.Proofs.Machine.Delivery

/-!
A machine that has stopped. Whatever clients do with it, there is little left that they can do: the
clock goes on, and they come and go as subscribers (`Run.idle`). Main statement: a stop is for good,
and nothing else changes after it (`stopped_for_good`).
-/

namespace Automat

/-! ## What is left to do -/

section

variable {S K E C W O : Type}

/-- What a call on a stopped machine is answered with. -/
def Call.refusal (id : String) : Call K E → Answer
  | .start => .refused (.alreadyStarted id)
  | .can _ => .can false
  | .send _ | .advance _ | .advanceTo _ | .stop => .done

/-- The clock after an interaction that only moves the clock: it goes where it is asked to go, unless
that lies behind it. -/
def Interaction.clock (now : Duration) (interaction : Interaction S K E C O) : Duration :=
  ((interaction.call?.bind (·.reach? now)).map (max now ·)).getD now

/-- The run after an interaction that moves the clock, or brings or removes a subscriber, and does
nothing else. -/
def Run.idle (run : Run S E C W O) (interaction : Interaction S K E C O) : Run S E C W O :=
  { run with
    now := interaction.clock run.now
    audience := interaction.visit?.elim run.audience run.audience.undergo }

/-- What a session with a stopped machine comes to. -/
def Run.idling (id : String) :
    List (Interaction S K E C O) → Run S E C W O → List (Option Answer × Run S E C W O)
  | [], _ => []
  | first :: rest, run =>
    (first.call?.map (·.refusal id), run.idle first) :: idling id rest (run.idle first)

theorem Run.lastRun_idling (id : String) (interactions : List (Interaction S K E C O))
    (run : Run S E C W O) :
    Machine.lastRun run (run.idling id interactions) = interactions.foldl Run.idle run := by
  induction interactions generalizing run with
  | nil => rfl
  | cons first rest ih => exact ih (run.idle first)

theorem Run.answers_idling (id : String) (interactions : List (Interaction S K E C O))
    (run : Run S E C W O) :
    (run.idling id interactions).map (·.1) =
      interactions.map fun interaction => interaction.call?.map (·.refusal id) := by
  induction interactions generalizing run with
  | nil => rfl
  | cons first rest ih => exact congrArg (_ :: ·) (ih (run.idle first))

theorem Run.now_foldl_idle (interactions : List (Interaction S K E C O)) (run : Run S E C W O) :
    (interactions.foldl Run.idle run).now = interactions.foldl Interaction.clock run.now := by
  induction interactions generalizing run with
  | nil => rfl
  | cons first rest ih => exact ih (run.idle first)

theorem Run.audience_foldl_idle (interactions : List (Interaction S K E C O))
    (run : Run S E C W O) :
    (interactions.foldl Run.idle run).audience =
      (interactions.filterMap Interaction.visit?).foldl Audience.undergo run.audience := by
  induction interactions generalizing run with
  | nil => rfl
  | cons first rest ih =>
    rw [List.foldl_cons, ih, List.filterMap_cons]
    cases first <;> rfl

theorem Interaction.isVisit_of_visit? {interaction : Interaction S K E C O}
    {affair : Affair (Snapshot S C E) O} (h : interaction.visit? = some affair) :
    affair.isVisit = true := by
  cases interaction with
  | call => cases h
  | subscribe | unsubscribe =>
    cases h
    rfl

end

/-- Nobody is called while clients come and go. -/
theorem Audience.called_log_append {M O : Type} (observers : O) (affairs : List (Affair M O))
    {visits : List (Affair M O)} (h : ∀ affair ∈ visits, affair.isVisit = true) :
    (log observers (affairs ++ visits)).filterMap (·.called?) =
      (log observers affairs).filterMap (·.called?) := by
  unfold log noted
  rw [List.foldl_append]
  generalize affairs.foldl undergoNoted (.empty (observers, [])) = audience
  induction visits generalizing audience with
  | nil => rfl
  | cons affair visits ih =>
    rw [List.foldl_cons, ih fun other ho => h other (List.mem_cons_of_mem _ ho)]
    have hvisit := h affair List.mem_cons_self
    cases affair with
    | join callback =>
      show (audience.world.2 ++ [Occurrence.joined audience.nextId]).filterMap
        Occurrence.called? = _
      rw [List.filterMap_append]
      exact List.append_nil _
    | leave id =>
      show (audience.world.2 ++ [Occurrence.dropped id]).filterMap Occurrence.called? = _
      rw [List.filterMap_append]
      exact List.append_nil _
    | tell | close => cases hvisit

namespace Machine

section

variable {S K E C W O : Type} [DecidableEq S] [DecidableEq K] [Named S] [Named K] [EventLike E K]

/-- The second run is what a stop has left of the first one, but for the clock and the audience:
nothing has changed since, and nothing can be done with it. -/
structure Frozen (m : Machine S K E C W) (run next : Run S E C W O) : Prop where
  status : next.status = .stopped
  state : next.state = run.state
  previous : next.previous = run.previous
  context : next.context = run.context
  visit : next.visit = run.visit
  history : next.history = run.history
  journal : next.journal = run.journal
  world : next.world = run.world
  observers : next.audience.world = run.audience.world
  queue : next.queue = []
  timers : next.timers = run.timers.cancel
  deadline : next.nextDeadline? = none
  starts : ∀ fuel, m.start fuel next = some (next, .error (.alreadyStarted m.definition.id))
  drops : ∀ fuel event, m.send fuel event next = some next
  declines : ∀ kind, m.canTransition kind next = (next, false)

variable {m : Machine S K E C W} {run next : Run S E C W O}

/-! ## One interaction -/

theorem advanceTo_of_not_running (m : Machine S K E C W) (hr : run.status ≠ .running) (fuel : Nat)
    (time : Duration) : m.advanceTo fuel time run = some (run.moveClock time) := by
  have hd : run.nextDeadline?.filter (· ≤ time) = none := by
    rw [Run.nextDeadline?, if_neg hr]
    rfl
  unfold advanceTo
  rw [hd]

/-- A call on a stopped machine moves the clock or does nothing. -/
theorem call_of_stopped (m : Machine S K E C W) (hs : run.status = .stopped) (fuel : Nat)
    (call : Call K E) :
    m.call fuel call run =
      some (((call.reach? run.now).map run.moveClock).getD run, call.refusal m.definition.id) := by
  have hrunning : run.status ≠ .running := by
    rw [hs]
    decide
  have hfresh : run.status ≠ .notStarted := by
    rw [hs]
    decide
  cases call with
  | start =>
    simp only [Machine.call, start]
    rw [if_neg hfresh]
    rfl
  | send event =>
    simp only [Machine.call, send]
    rw [if_neg hrunning]
    rfl
  | advance elapsed =>
    simp only [Machine.call, advance, advanceTo_of_not_running m hrunning]
    rfl
  | advanceTo time =>
    simp only [Machine.call, advanceTo_of_not_running m hrunning]
    rfl
  | stop =>
    simp only [Machine.call, Run.stop]
    rw [if_pos hs]
    rfl
  | can kind =>
    simp only [Machine.call, canTransition]
    rw [if_neg hrunning]
    rfl

theorem interact_of_stopped (m : Machine S K E C W) (hs : run.status = .stopped) (fuel : Nat)
    (interaction : Interaction S K E C O) :
    m.interact fuel interaction run =
      some (interaction.call?.map (·.refusal m.definition.id), run.idle interaction) := by
  cases interaction with
  | call call =>
    simp only [interact, call_of_stopped m hs]
    cases call <;> rfl
  | subscribe | unsubscribe => rfl

/-- Interactions that leave a run idle, one by one, leave it idle in a row. -/
theorem session_eq_idling {status : Status} {fuel : Nat} {interactions : List (Interaction S K E C O)}
    (h : ∀ interaction ∈ interactions, ∀ run : Run S E C W O, run.status = status →
      m.interact fuel interaction run =
        some (interaction.call?.map (·.refusal m.definition.id), run.idle interaction))
    (hs : run.status = status) :
    m.session fuel interactions run = some (run.idling m.definition.id interactions) := by
  induction interactions generalizing run with
  | nil => rfl
  | cons first rest ih =>
    obtain ⟨hfirst, hrest⟩ := List.forall_mem_cons.1 h
    have hidle : (run.idle first).status = status := hs
    simp only [session, hfirst run hs, ih hrest hidle, Option.bind_eq_bind, Option.bind_some]
    rfl

theorem session_of_stopped (m : Machine S K E C W) (hs : run.status = .stopped) (fuel : Nat)
    (interactions : List (Interaction S K E C O)) :
    m.session fuel interactions run = some (run.idling m.definition.id interactions) :=
  session_eq_idling (fun interaction _ _ hs => interact_of_stopped m hs fuel interaction) hs

/-! ## Nothing else changes -/

theorem frozen_of_stopped (hs : next.status = .stopped) (hstate : next.state = run.state)
    (hprevious : next.previous = run.previous) (hcontext : next.context = run.context)
    (hvisit : next.visit = run.visit) (hhistory : next.history = run.history)
    (hjournal : next.journal = run.journal) (hworld : next.world = run.world)
    (hobservers : next.audience.world = run.audience.world)
    (hqueue : next.queue = []) (htimers : next.timers = run.timers.cancel) :
    Frozen m run next := by
  have hrunning : next.status ≠ .running := by
    rw [hs]
    decide
  have hfresh : next.status ≠ .notStarted := by
    rw [hs]
    decide
  refine ⟨hs, hstate, hprevious, hcontext, hvisit, hhistory, hjournal, hworld, hobservers, hqueue,
    htimers, ?_, ?_, ?_, ?_⟩
  · rw [Run.nextDeadline?, if_neg hrunning]
  · intro fuel
    rw [start, if_neg hfresh]
  · intro fuel event
    rw [send, if_neg hrunning]
  · intro kind
    rw [canTransition, if_neg hrunning]

/-- A stop leaves everything as it is but for the timer, the queue and the subscribers. -/
theorem Reachable.frozen_stop (h : m.Reachable run) : Frozen m run run.stop := by
  by_cases hs : run.status = .stopped
  · have harmed : run.timers.armed = none := h.punctual.disarmed (by rw [hs]; decide)
    have htimers : run.timers = run.timers.cancel := by
      rw [Timers.cancel, ← harmed]
    rw [Run.stop, if_pos hs]
    exact frozen_of_stopped hs rfl rfl rfl rfl rfl rfl rfl rfl h.queue_eq_nil htimers
  · rw [Run.stop, if_neg hs]
    exact frozen_of_stopped rfl rfl rfl rfl rfl rfl rfl rfl rfl rfl rfl

theorem Frozen.idle (h : Frozen m run next) (interaction : Interaction S K E C O) :
    Frozen m run (next.idle interaction) := by
  have hobservers : (next.idle interaction).audience.world = next.audience.world := by
    cases interaction <;> rfl
  exact frozen_of_stopped h.status h.state h.previous h.context h.visit h.history h.journal h.world
    (hobservers.trans h.observers) h.queue h.timers

theorem Frozen.idling (h : Frozen m run next) (id : String)
    (interactions : List (Interaction S K E C O)) :
    ∀ stage ∈ next.idling id interactions, Frozen m run stage.2 := by
  induction interactions generalizing next with
  | nil => intro stage hmem; cases hmem
  | cons first rest ih =>
    intro stage hmem
    rcases List.mem_cons.1 hmem with rfl | hmem
    · exact h.idle first
    · exact ih (h.idle first) stage hmem

/-! ## The audience -/

theorem Attended.idle {first : Run S E C W O} {affairs : List (Affair (Snapshot S C E) O)}
    (h : m.Attended first affairs run) (hs : run.status = .stopped) (hq : run.queue = [])
    (interaction : Interaction S K E C O) :
    m.Attended first (affairs ++ interaction.visit?.toList) (run.idle interaction) := by
  -- A stopped machine lets the clock pass, and that is no news.
  have htick (time : Duration) : m.Attended first (affairs ++ []) (run.moveClock time) := by
    have hstep : Step m run (.tick time) (run.moveClock time) := by
      refine .tick time hq ?_
      intro due hd
      cases hs.symm.trans (Run.running_of_nextDeadline? hd)
    have hnews : run.news (run.moveClock time) = [] := by
      have hpublished : (run.moveClock time).published = run.published := rfl
      have hstopped : ¬(run.status ≠ .stopped ∧ (run.moveClock time).status = .stopped) :=
        fun h => h.1 hs
      rw [Run.news, hpublished, List.drop_length, if_neg hstopped]
      rfl
    have hnext := h.step hstep (by simp)
    rwa [hnews] at hnext
  have hsame : m.Attended first (affairs ++ []) run := by rwa [List.append_nil]
  cases interaction with
  | call call =>
    cases call with
    | advance | advanceTo => exact htick _
    | start | send | stop | can => exact hsame
  | subscribe callback => exact h.subscribe callback
  | unsubscribe id => exact h.unsubscribe id

theorem Attended.foldl_idle {first : Run S E C W O} {affairs : List (Affair (Snapshot S C E) O)}
    (h : m.Attended first affairs run) (hs : run.status = .stopped) (hq : run.queue = [])
    (interactions : List (Interaction S K E C O)) :
    m.Attended first (affairs ++ interactions.filterMap Interaction.visit?)
      (interactions.foldl Run.idle run) := by
  induction interactions generalizing affairs run with
  | nil => rwa [List.filterMap_nil, List.append_nil]
  | cons interaction rest ih =>
    have hnext := ih (h.idle hs hq interaction) hs hq
    rw [List.append_assoc] at hnext
    rw [List.filterMap_cons]
    cases hv : interaction.visit? with
    | none => rwa [hv] at hnext
    | some affair => rwa [hv] at hnext

/-- After a stop, whatever clients do, every call comes to an end, and the answer is always the same
for the same call. Nothing changes any more in the machine, and no action and no guard has a part in
it: that holds with any others in their place. Only the clock goes on, to the latest of the times
that it is asked to go to, and clients come and go: the subscribers from before the stop are gone,
and neither they nor those who come later are ever called. -/
theorem stopped_for_good (hr : m.Reachable run) (fuel : Nat)
    (interactions : List (Interaction S K E C O)) :
    ∃ stages, stages.map (·.1) = interactions.map (·.call?.map (·.refusal m.definition.id)) ∧
      (∀ actions guards,
        ({ m with actions := actions, guards := guards } : Machine S K E C W).session fuel
          (.call .stop :: interactions) run = some ((some .done, run.stop) :: stages)) ∧
      (∀ stage ∈ (some .done, run.stop) :: stages, Frozen m run stage.2) ∧
      (lastRun run.stop stages).now = interactions.foldl Interaction.clock run.now ∧
      (lastRun run.stop stages).audience =
        (interactions.filterMap Interaction.visit?).foldl Audience.undergo
          (if run.status = .stopped then run.audience else run.audience.clear) ∧
      ∀ world observers affairs, m.Attended (m.newRun world observers) affairs run.stop →
        ∃ visits, (∀ affair ∈ visits, affair.isVisit = true) ∧
          m.Attended (m.newRun world observers) (affairs ++ visits) (lastRun run.stop stages) ∧
          (Audience.log observers (affairs ++ visits)).filterMap (·.called?) =
            (Audience.log observers affairs).filterMap (·.called?) := by
  have hfrozen := hr.frozen_stop
  have hstop : run.stop.status = .stopped := run.status_stop
  refine ⟨run.stop.idling m.definition.id interactions, Run.answers_idling _ _ _, ?_, ?_, ?_, ?_, ?_⟩
  · intro actions guards
    simp only [session, interact, Machine.call, Option.map_some, Option.bind_eq_bind,
      Option.bind_some, session_of_stopped _ hstop]
  · intro stage hmem
    rcases List.mem_cons.1 hmem with rfl | hmem
    · exact hfrozen
    · exact hfrozen.idling _ interactions stage hmem
  · have hnow : run.stop.now = run.now := by
      unfold Run.stop
      split <;> rfl
    rw [Run.lastRun_idling, Run.now_foldl_idle, hnow]
  · have haudience : run.stop.audience =
        if run.status = .stopped then run.audience else run.audience.clear := by
      unfold Run.stop
      split <;> rfl
    rw [Run.lastRun_idling, Run.audience_foldl_idle, haudience]
  · intro world observers affairs h
    have hvisits : ∀ affair ∈ interactions.filterMap Interaction.visit?,
        affair.isVisit = true := by
      intro affair hmem
      obtain ⟨interaction, -, hv⟩ := List.mem_filterMap.1 hmem
      exact Interaction.isVisit_of_visit? hv
    refine ⟨_, hvisits, ?_, Audience.called_log_append observers affairs hvisits⟩
    rw [Run.lastRun_idling]
    exact h.foldl_idle hstop hfrozen.queue interactions

end

section

open Script

/-- What clients may try after a stop, with one who comes and stays and one who goes again. -/
def lingering : List (Interaction String String Signal Nat Nat) :=
  [.subscribe modest, .call (.advance (.ofMillis 40)), .call .start, .subscribe rude,
    .call (.send { kind := "switch" }), .call (.can "switch"), .unsubscribe 2, .call .stop,
    .call (.advanceTo (.ofMillis 15))]

/-- The light is stopped with a deadline ahead and somebody watching. Nobody hears of the deadline,
and the first who comes after the stop is still registered in the end. -/
theorem stopped_for_good_blinker : ∃ run stages, blinker.Reachable run ∧
    run.nextDeadline? = some (.ofMillis 10) ∧ run.audience.isActive 0 = true ∧
    blinker.session 0 (.call .stop :: lingering) run = some ((some .done, run.stop) :: stages) ∧
    stages.map (·.1) =
      [none, some .done, some (.refused (.alreadyStarted "blinker")), none, some .done,
        some (.can false), none, some .done, some .done] ∧
    (∀ stage ∈ stages, stage.2.state = "on" ∧ stage.2.context = 0 ∧ stage.2.audience.world = 1) ∧
    (lastRun run.stop stages).now = .ofMillis 40 ∧
    (lastRun run.stop stages).audience.subscribers.map (·.id) = [1] := by
  have hstart : blinker.call 1 .start ((blinker.newRun () 0).subscribe modest) = some (_, _) := rfl
  have hr : blinker.Reachable _ := ⟨(), 0, (Reached.first.subscribe modest).call trivial hstart⟩
  obtain ⟨stages, hanswers, hsession, hfrozen, hnow, haudience, -⟩ :=
    stopped_for_good hr 0 lingering
  refine ⟨_, stages, hr, rfl, rfl, hsession blinker.actions blinker.guards, hanswers, ?_, hnow, ?_⟩
  · intro stage hmem
    have h := hfrozen stage (List.mem_cons_of_mem _ hmem)
    exact ⟨h.state, h.context, h.observers⟩
  · rw [haudience]
    rfl

end

end Machine

end Automat
