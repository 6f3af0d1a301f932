import Automat.Proofs.Machine.Processing
import Automat.Proofs.Machine.Reachable
import Automat.Script.Signal

/-!
All or nothing: an event that is not carried out leaves the run as it was, but for the world, and
what was raised on the way to a failure is never processed (`all_or_nothing`). The latter is seen
from where the events come from that are processed in a run (`Steps.inTurn`).
-/

namespace Automat

def Happening.processed? {K E : Type} [EventLike E K] : Happening K E → Option E
  | .take event => some event
  | .elapse timer => some (EventLike.ofTimer timer)
  | _ => none

namespace Machine

/-! ## Where events come from -/

section

variable {S K E C W O : Type} [DecidableEq S] [DecidableEq K] [Named S] [Named K] [EventLike E K]

def eventsProcessed (trace : List (Run S E C W O × Happening K E)) : List E :=
  trace.filterMap (·.2.processed?)

/-- The events that come into the queue when something happens: from clients, from the clock, and
from the actions that are carried out. -/
def supply (m : Machine S K E C W) : Run S E C W O × Happening K E → List E
  | (run, .begin) =>
    (m.perform none (m.entrySteps m.definition.initial) ⟨m.context, [], run.world⟩).1.raised
  | (_, .accept event) => [event]
  | (run, .take event) => m.raised event run
  | (run, .elapse timer) =>
    match run.timers.fire? run.now with
    | some (_, timers) =>
      EventLike.ofTimer timer :: m.raised (EventLike.ofTimer timer) (run.withTimers timers)
    | none => []
  | _ => []

def supplied (m : Machine S K E C W) (trace : List (Run S E C W O × Happening K E)) : List E :=
  trace.flatMap m.supply

variable {m : Machine S K E C W} {first run next : Run S E C W O} {happening : Happening K E}
variable {trace : List (Run S E C W O × Happening K E)}

/-- What is processed comes from the front of the queue, and what is supplied goes to its end. -/
theorem Step.queue_eq (hs : Step m run happening next) (hn : next.status ≠ .stopped) :
    happening.processed?.toList ++ next.queue = run.queue ++ m.supply (run, happening) := by
  cases hs with
  | @begin draft hr hp =>
    rw [enterInitial, arm_eq]
    simp only [supply, hp]
    rfl
  | @take rest event hq =>
    obtain ⟨-, queue, hqueue, rfl⟩ := Run.dequeue?_eq_some_iff.1 hq
    rw [queue_process, hqueue]
    rfl
  | @elapse timer timers hr hq hf =>
    have hqueue : (run.withTimers timers).queue = [] := hq
    rw [queue_process, hqueue, hq]
    simp only [supply, hf]
    rfl
  | ask kind =>
    obtain ⟨world, hw⟩ := m.canTransition_eq kind run
    rw [hw]
    exact (List.append_nil _).symm
  | stop => exact absurd (Run.status_stop run) hn
  | accept => rfl
  | refuse | tick | listen => exact (List.append_nil _).symm

/-- A machine that has stopped processes nothing, and does not start again. -/
theorem Step.of_stopped (hs : Step m run happening next) (hn : next.status = .stopped) :
    happening.processed? = none := by
  cases hs with
  | @take rest event hq =>
    obtain ⟨hr, queue, -, rfl⟩ := Run.dequeue?_eq_some_iff.1 hq
    rw [(m.processed event _).status_eq] at hn
    cases hr.symm.trans hn
  | @elapse timer timers hr =>
    rw [(m.processed _ _).status_eq] at hn
    cases hr.symm.trans hn
  | begin | refuse | accept | tick | ask | stop | listen => rfl

theorem Step.stopped (hs : Step m run happening next) (hr : run.status = .stopped) :
    next.status = .stopped := by
  cases hs with
  | begin hb => cases hr.symm.trans hb
  | refuse hb => cases hr.symm.trans hb
  | accept event hb => cases hr.symm.trans hb
  | take hq => cases hr.symm.trans (Run.dequeue?_eq_some_iff.1 hq).1
  | elapse hb => cases hr.symm.trans hb
  | ask kind =>
    obtain ⟨world, hw⟩ := m.canTransition_eq kind run
    rwa [hw]
  | stop => exact Run.status_stop run
  | tick | listen => exact hr

/-- Events are processed in the order in which they came into the queue, and as long as the machine
has not stopped none of them is lost. -/
structure InTurn (m : Machine S K E C W) (first : Run S E C W O)
    (trace : List (Run S E C W O × Happening K E)) (run : Run S E C W O) : Prop where
  order : eventsProcessed trace <+: first.queue ++ m.supplied trace
  complete : run.status ≠ .stopped →
    eventsProcessed trace ++ run.queue = first.queue ++ m.supplied trace

omit [DecidableEq S] [DecidableEq K] [Named S] [Named K] in
theorem eventsProcessed_snoc (trace : List (Run S E C W O × Happening K E)) :
    eventsProcessed (trace ++ [(run, happening)]) =
      eventsProcessed trace ++ happening.processed?.toList := by
  unfold eventsProcessed
  rw [List.filterMap_append]
  cases happening <;> rfl

theorem supplied_snoc (trace : List (Run S E C W O × Happening K E)) :
    m.supplied (trace ++ [(run, happening)]) = m.supplied trace ++ m.supply (run, happening) := by
  simp [supplied]

theorem Step.inTurn (hs : Step m run happening next) (ht : m.InTurn first trace run) :
    m.InTurn first (trace ++ [(run, happening)]) next := by
  -- A stop drops the queue, so from then on only the order is left to keep.
  by_cases hn : next.status = .stopped
  · constructor
    · rw [eventsProcessed_snoc, hs.of_stopped hn, supplied_snoc, ← List.append_assoc]
      simpa using ht.order.trans (List.prefix_append _ _)
    · exact absurd hn
  · have hr : run.status ≠ .stopped := fun hr => hn (hs.stopped hr)
    have hall : eventsProcessed (trace ++ [(run, happening)]) ++ next.queue =
        first.queue ++ m.supplied (trace ++ [(run, happening)]) := by
      rw [eventsProcessed_snoc, supplied_snoc, List.append_assoc, hs.queue_eq hn,
        ← List.append_assoc, ht.complete hr, List.append_assoc]
    constructor
    · exact ⟨next.queue, hall⟩
    · exact fun _ => hall

theorem Steps.inTurn (hs : Steps m first trace run) : m.InTurn first trace run := by
  induction hs with
  | refl => exact ⟨List.nil_prefix, fun _ => (List.append_nil _).symm⟩
  | snoc _ hstep ih => exact hstep.inTurn ih

end

/-! ## Nothing but the world -/

/-- All but the journal, the world and the audience is the same. -/
structure Untouched {S E C W O : Type} (run next : Run S E C W O) : Prop where
  status : next.status = run.status
  state : next.state = run.state
  previous : next.previous = run.previous
  context : next.context = run.context
  visit : next.visit = run.visit
  now : next.now = run.now
  queue : next.queue = run.queue
  timers : next.timers = run.timers
  history : next.history = run.history

theorem untouched_report {S E C W O : Type} (event : E) (world : W)
    (outcome : Option (Outcome S)) (run : Run S E C W O) :
    Untouched run ((run.withWorld world).report event outcome) := by
  cases outcome with
  | none => constructor <;> rfl
  | some outcome => constructor <;> rfl

variable {S K E C W O : Type} [DecidableEq S] [DecidableEq K] [Named S] [Named K] [EventLike E K]

/-- An event that is not carried out has been refused for one of the reasons there are. Then it is
reported at most once, everything is as it was before it was processed, and whatever happens after
that, only events are processed that were in the queue before or come into it later on. -/
theorem all_or_nothing (m : Machine S K E C W) (event : E) (run : Run S E C W O) :
    (¬ m.Commits event run ↔ ∃ outcome, m.Refused event run outcome) ∧
    ∀ outcome, m.Refused event run outcome →
      Untouched run (m.process event run) ∧
      (m.process event run).journal =
        (outcome.map fun outcome => run.shown (some event) outcome).toList ++ run.journal ∧
      ∀ later last, Steps m (m.process event run) later last →
        eventsProcessed later <+: run.queue ++ m.supplied later := by
  refine ⟨not_commits_iff, ?_⟩
  intro outcome hr
  have huntouched : Untouched run (m.process event run) := by
    obtain ⟨world, hp⟩ := hr.process_eq
    rw [hp]
    exact untouched_report event world outcome run
  refine ⟨huntouched, hr.journal_eq, ?_⟩
  intro later last hs
  rw [← huntouched.queue]
  exact hs.inTurn.order

/-! ## A vase that breaks -/

section

open Script

def signal (kind : String) : Signal := { kind := kind }

/-- It is dropped as soon as it stands, and someone claps. On its way to the floor it cracks and
makes a noise, and there it makes another one and breaks. -/
def vase : Machine String String Signal Nat Unit where
  definition :=
    { id := "vase"
      initial := "whole"
      nodes :=
        [{ state := "whole"
           entry := ["stand"]
           rules := [("drop", { target := some "broken", actions := ["crack"] })] },
         { state := "broken", entry := ["break"] }] }
  actions :=
    [("stand", fun _ cracks world => ⟨cracks, [signal "drop", signal "clap"], world, none⟩),
     ("crack", fun _ cracks world => ⟨cracks + 1, [signal "noise"], world, none⟩),
     ("break", fun _ cracks world => ⟨cracks + 9, [signal "noise"], world, some (.panic "no")⟩)]
  guards := []
  context := 0
  historyLimit := History.defaultLimit
  clock _ := .epoch

/-- The last action fails after one that has succeeded. -/
theorem exists_vase_drop :
    ∃ (trace : List (Run String Signal Nat Unit Unit × Happening String Signal))
      (run rest : Run String Signal Nat Unit Unit),
      Steps vase (vase.newRun () ()) trace run ∧ run.dequeue? = some (signal "drop", rest) ∧
      rest.queue = [signal "clap"] ∧
      vase.Refused (signal "drop") rest
        (some (.failed (.action "break" "broken" "drop" "no"))) := by
  have hbegin : Step vase (vase.newRun () ()) .begin
      (vase.enterInitial ⟨0, [signal "drop", signal "clap"], ()⟩ (vase.newRun () ())) :=
    .begin rfl rfl
  have hsteps : vase.ruleSteps "whole" ["crack"] (some "broken") =
      [("whole", "crack")] ++ ("broken", "break") :: [] := rfl
  exact ⟨_, _, _, hbegin.steps, rfl, rfl, .failed rfl hsteps rfl rfl⟩

/-- The drop is undone, and nobody hears a noise: the clap is next. -/
theorem all_or_nothing_vase :
    ∃ (trace : List (Run String Signal Nat Unit Unit × Happening String Signal))
      (run rest : Run String Signal Nat Unit Unit),
      Steps vase (vase.newRun () ()) trace run ∧ run.dequeue? = some (signal "drop", rest) ∧
      ¬ vase.Commits (signal "drop") rest ∧ Untouched rest (vase.process (signal "drop") rest) ∧
      ∀ later last, Steps vase (vase.process (signal "drop") rest) later last →
        eventsProcessed later <+: [signal "clap"] ++ vase.supplied later := by
  obtain ⟨trace, run, rest, hs, hdrop, hqueue, hr⟩ := exists_vase_drop
  obtain ⟨hiff, hrefused⟩ := all_or_nothing vase (signal "drop") rest
  obtain ⟨huntouched, -, hlater⟩ := hrefused _ hr
  rw [hqueue] at hlater
  exact ⟨trace, run, rest, hs, hdrop, hiff.2 ⟨_, hr⟩, huntouched, hlater⟩

end

end Machine

end Automat
