import Automat.Proofs.Machine.Journal
import Automat.Proofs.Machine.Table
import Automat.Proofs.Machine.View

/-!
What becomes of an event by the table. A machine whose guards and actions note their uses (`noting`)
does the same as the machine itself, and shows in which order they are used for an event, and on
what. Main statement: an event that carries no timer is processed as the table says, down to every
single use (`process_by_table`).
-/

namespace Automat

/-! ## Noting uses -/

/-- A guard was asked, or an action was run, about an event and a context. -/
inductive Use (E C : Type) where
  | asked (guard : String) (event : Option E) (context : C)
  | ran (action : String) (event : Option E) (context : C)

section

variable {S E C W O : Type}

def Action.noting (entry : String) (action : Action E C W) : Action E C (W × List (Use E C)) :=
  fun event context world =>
    let done := action event context world.1
    ⟨done.context, done.raised, (done.world, world.2 ++ [.ran entry event context]), done.fault⟩

def Guard.noting (entry : String) (guard : Guard E C W) : Guard E C (W × List (Use E C)) :=
  fun event context world =>
    let (next, answer) := guard event context world.1
    ((next, world.2 ++ [.asked entry event context]), answer)

theorem Registry.find?_map {α β : Type} (f : String → α → β) (registry : Registry α)
    (entry : String) :
    Registry.find? (registry.map fun item => (item.1, f item.1 item.2)) entry =
      (registry.find? entry).map (f entry) := by
  induction registry with
  | nil => rfl
  | cons item registry ih =>
    simp only [List.map_cons, Registry.find?]
    split
    · next h =>
      subst h
      rfl
    · exact ih

def Draft.noted (uses : List (Use E C)) (draft : Draft E C W) : Draft E C (W × List (Use E C)) :=
  ⟨draft.context, draft.raised, (draft.world, uses)⟩

def Run.noted (uses : List (Use E C)) (run : Run S E C W O) :
    Run S E C (W × List (Use E C)) O :=
  { run with world := (run.world, uses) }

end

namespace Machine

variable {S K E C W O : Type}

/-- The machine when its guards and actions note their uses. -/
def noting (m : Machine S K E C W) : Machine S K E C (W × List (Use E C)) where
  definition := m.definition
  actions := m.actions.map fun item => (item.1, item.2.noting item.1)
  guards := m.guards.map fun item => (item.1, item.2.noting item.1)
  context := m.context
  historyLimit := m.historyLimit
  clock world := m.clock world.1

theorem find?_actions_noting (m : Machine S K E C W) (entry : String) :
    m.noting.actions.find? entry = (m.actions.find? entry).map (Action.noting entry) :=
  Registry.find?_map (fun entry (action : Action E C W) => action.noting entry) m.actions entry

theorem find?_guards_noting (m : Machine S K E C W) (entry : String) :
    m.noting.guards.find? entry = (m.guards.find? entry).map (Guard.noting entry) :=
  Registry.find?_map (fun entry (guard : Guard E C W) => guard.noting entry) m.guards entry

/-- Noting the uses changes nothing. -/
theorem resembles_noting [DecidableEq S] [DecidableEq K] (m : Machine S K E C W) :
    Resembles Prod.fst m.noting m where
  definition := .refl m.definition
  context := rfl
  clock _ := rfl
  actions entry := by
    rw [find?_actions_noting]
    cases m.actions.find? entry with
    | none => exact .none
    | some action => exact .some fun _ _ _ => rfl
  guards entry := by
    rw [find?_guards_noting]
    cases m.guards.find? entry with
    | none => exact .none
    | some guard => exact .some fun _ _ _ => rfl

/-! ## What the table says -/

section

variable [DecidableEq S] [Named S] [Named K] [EventLike E K]
variable (m : Machine S K E C W) (event : E) (run : Run S E C W O)

/-- Actions are run for an event in order, each on what the one before has left, until all are done or
one fails. Each comes with the state that a failure of it is reported for. -/
inductive Performs :
    List (S × String) → Draft E C W → List (Use E C) → Draft E C W → Option Failure → Prop where
  | done {draft : Draft E C W} : Performs [] draft [] draft none
  | next {state : S} {action : String} {act : Action E C W} {steps : List (S × String)}
      {draft last : Draft E C W} {done : Performed E C W} {uses : List (Use E C)}
      {failure? : Option Failure} :
      m.actions.find? action = some act → act (some event) draft.context draft.world = done →
      done.fault = none →
      Performs steps ⟨done.context, draft.raised ++ done.raised, done.world⟩ uses last failure? →
      Performs ((state, action) :: steps) draft (.ran action (some event) draft.context :: uses)
        last failure?
  | fails {state : S} {action : String} {act : Action E C W} {steps : List (S × String)}
      {draft : Draft E C W} {done : Performed E C W} {fault : Fault} :
      m.actions.find? action = some act → act (some event) draft.context draft.world = done →
      done.fault = some fault →
      Performs ((state, action) :: steps) draft [.ran action (some event) draft.context]
        ⟨done.context, draft.raised ++ done.raised, done.world⟩
        (some (.action action (name state) (name (EventLike.kind event)) fault.message))

/-- A rule lets an event pass because it has no guard, or because its guard says yes. The guard is
asked about the event and the context of the run. -/
inductive Passes (rule : Rule S) : List (Use E C) → W → Prop where
  | unguarded : rule.guard = none → Passes rule [] run.world
  | allowed {guard : String} {ask : Guard E C W} {world : W} :
      rule.guard = some guard → m.guards.find? guard = some ask →
      ask (some event) run.context run.world = (world, .ok true) →
      Passes rule [.asked guard (some event) run.context] world

omit [Named S] [Named K] [EventLike E K] in
/-- What a rule has to be run in a state: its own actions, and then those on entering its target if
that is another state. -/
inductive Prescribes (state : S) (rule : Rule S) : Option S → List (S × String) → Prop where
  | stays : rule.target = none ∨ rule.target = some state →
      Prescribes state rule none (rule.actions.map (state, ·))
  | moves {target : S} {node : Node S K} : rule.target = some target → target ≠ state →
      m.definition.node? target = some node →
      Prescribes state rule (some target)
        (rule.actions.map (state, ·) ++ node.entry.map (target, ·))

/-- What the table makes of an event: the uses of guard and actions in order, the outcome, and the
context and the world that are left, with the events that have been raised. -/
inductive Verdict [DecidableEq K] : List (Use E C) → Outcome S → Draft E C W → Prop where
  | ignored : m.definition.rule? run.state (EventLike.kind event) = none →
      Verdict [] .ignored ⟨run.context, [], run.world⟩
  | rejected {rule : Rule S} {guard : String} {ask : Guard E C W} {world : W} :
      m.definition.rule? run.state (EventLike.kind event) = some rule → rule.guard = some guard →
      m.guards.find? guard = some ask →
      ask (some event) run.context run.world = (world, .ok false) →
      Verdict [.asked guard (some event) run.context] (.guardRejected guard)
        ⟨run.context, [], world⟩
  | unanswered {rule : Rule S} {guard : String} {ask : Guard E C W} {world : W} {fault : Fault} :
      m.definition.rule? run.state (EventLike.kind event) = some rule → rule.guard = some guard →
      m.guards.find? guard = some ask →
      ask (some event) run.context run.world = (world, .error fault) →
      Verdict [.asked guard (some event) run.context]
        (.failed (.guard guard (name run.state) (name (EventLike.kind event)) fault.message))
        ⟨run.context, [], world⟩
  | failed {rule : Rule S} {asked ran : List (Use E C)} {world : W} {target : Option S}
      {steps : List (S × String)} {last : Draft E C W} {failure : Failure} :
      m.definition.rule? run.state (EventLike.kind event) = some rule →
      m.Passes event run rule asked world → m.Prescribes run.state rule target steps →
      m.Performs event steps ⟨run.context, [], world⟩ ran last (some failure) →
      Verdict (asked ++ ran) (.failed failure) ⟨run.context, [], last.world⟩
  | handled {rule : Rule S} {asked ran : List (Use E C)} {world : W}
      {steps : List (S × String)} {last : Draft E C W} :
      m.definition.rule? run.state (EventLike.kind event) = some rule →
      m.Passes event run rule asked world → m.Prescribes run.state rule none steps →
      m.Performs event steps ⟨run.context, [], world⟩ ran last none →
      Verdict (asked ++ ran) .handled last
  | transitioned {rule : Rule S} {asked ran : List (Use E C)} {world : W} {target : S}
      {steps : List (S × String)} {last : Draft E C W} :
      m.definition.rule? run.state (EventLike.kind event) = some rule →
      m.Passes event run rule asked world → m.Prescribes run.state rule (some target) steps →
      m.Performs event steps ⟨run.context, [], world⟩ ran last none →
      Verdict (asked ++ ran) (.transitioned run.state target) last

end

/-- How a run goes on after an event with such an outcome: it is reported in one snapshot, context,
world and queue are as the actions have left them, and the state is another one exactly if that is
the outcome. -/
structure Concluded (event : E) (run next : Run S E C W O) (outcome : Outcome S)
    (draft : Draft E C W) : Prop where
  journal : next.journal = next.shown (some event) outcome :: run.journal
  audience : next.audience = run.audience.notify (next.shown (some event) outcome)
  context : next.context = draft.context
  world : next.world = draft.world
  queue : next.queue = run.queue ++ draft.raised
  status : next.status = run.status
  now : next.now = run.now
  stays : outcome.isTransition = false → Stays run next ∧ next.timers = run.timers
  moves : ∀ source target, outcome = .transitioned source target →
    source = run.state ∧ next.state = target ∧ next.previous = some source ∧
      next.visit = run.visit + 1

section

variable [DecidableEq S] [Named S] [Named K] [EventLike E K]
variable {m : Machine S K E C W} {event : E} {run : Run S E C W O} {rule : Rule S}

/-! ## The single uses -/

omit [DecidableEq S] in
/-- The noting machine runs the same actions and notes them. -/
theorem Performs.noted {steps : List (S × String)} {draft last : Draft E C W}
    {uses : List (Use E C)} {failure? : Option Failure}
    (h : m.Performs event steps draft uses last failure?) (log : List (Use E C)) :
    m.noting.perform (some event) steps (draft.noted log) =
      (last.noted (log ++ uses), failure?) := by
  induction h generalizing log with
  | done =>
    rw [List.append_nil]
    rfl
  | @next state action act steps draft last done uses failure? ha hd hf _ ih =>
    subst hd
    have hrest := ih (log ++ [.ran action (some event) draft.context])
    rw [List.append_assoc] at hrest
    simp only [perform, find?_actions_noting, ha, Option.map_some, Action.noting, Draft.noted, hf]
    exact hrest
  | fails ha hd hf =>
    subst hd
    simp only [perform, find?_actions_noting, ha, Option.map_some, Action.noting, Draft.noted, hf]
    rfl

omit [DecidableEq S] in
theorem exists_performs {steps : List (S × String)}
    (h : ∀ step ∈ steps, (m.actions.find? step.2).isSome) (draft : Draft E C W) :
    ∃ uses last failure?, m.Performs event steps draft uses last failure? := by
  induction steps generalizing draft with
  | nil => exact ⟨_, _, _, .done⟩
  | cons step steps ih =>
    obtain ⟨state, action⟩ := step
    obtain ⟨act, ha⟩ := Option.isSome_iff_exists.1 (h (state, action) List.mem_cons_self)
    cases hf : (act (some event) draft.context draft.world).fault with
    | none =>
      obtain ⟨uses, last, failure?, hrest⟩ :=
        ih (fun step hmem => h step (List.mem_cons_of_mem _ hmem)) _
      exact ⟨_, _, _, .next ha rfl hf hrest⟩
    | some fault => exact ⟨_, _, _, .fails ha rfl hf⟩

omit [DecidableEq S] in
theorem check_noting {guard : String} {ask : Guard E C W} (hg : m.guards.find? guard = some ask)
    (state : S) (context : C) (world : W) (log : List (Use E C)) :
    m.noting.check guard state (some event) context (world, log) =
      (((ask (some event) context world).1, log ++ [.asked guard (some event) context]),
        (ask (some event) context world).2.mapError fun fault =>
          .guard guard (name state) (name (EventLike.kind event)) fault.message) := by
  simp only [check, find?_guards_noting, hg, Option.map_some, Guard.noting]
  rcases ask (some event) context world with ⟨next, fault | answer⟩ <;> rfl

/-- An event that may pass sets the actions of the rule going. -/
theorem Passes.applyGuarded {asked : List (Use E C)} {world : W}
    (h : m.Passes event run rule asked world) (log : List (Use E C)) :
    m.noting.applyGuarded rule event (run.noted log) =
      m.noting.apply rule.target rule.actions event
        ((run.withWorld world).noted (log ++ asked)) := by
  cases h with
  | unguarded hg =>
    rw [Machine.applyGuarded, hg, List.append_nil]
    rfl
  | @allowed guard ask world hg hf ha =>
    have hc : m.noting.check guard (run.noted log).state (some event) (run.noted log).context
        (run.noted log).world = _ := check_noting hf run.state run.context run.world log
    rw [ha] at hc
    simp only [Machine.applyGuarded, hg, hc]
    rfl

omit [Named S] [Named K] [EventLike E K] in
theorem Prescribes.ruleSteps {state : S} {target : Option S} {steps : List (S × String)}
    (h : m.Prescribes state rule target steps) :
    rule.target.filter (· ≠ state) = target ∧
      m.ruleSteps state rule.actions target = steps := by
  cases h with
  | stays ht =>
    refine ⟨?_, List.append_nil _⟩
    rcases ht with ht | ht <;> simp [ht]
  | moves ht hne hn =>
    refine ⟨by simp [ht, hne], ?_⟩
    simp [Machine.ruleSteps, entrySteps, hn]

omit [Named S] in
/-- Committing does not read the world of the run, and goes the same way with the uses beside it. -/
theorem commit_noting (target : Option S) (draft : Draft E C W) (world : W)
    (log uses : List (Use E C)) :
    m.noting.commit target event (draft.noted uses) ((run.withWorld world).noted log) =
      (m.commit target event draft run).noted uses := by
  cases target with
  | none => rfl
  | some target =>
    rw [commit_some, commit_some]
    rfl

/-! ## Verdicts -/

/-- How a run goes on after an event with such an outcome. -/
def conclude (m : Machine S K E C W) (event : E) (run : Run S E C W O) (outcome : Outcome S)
    (draft : Draft E C W) : Run S E C W O :=
  match outcome with
  | .transitioned _ target => m.commit (some target) event draft run
  | .handled => m.commit none event draft run
  | outcome => (run.withWorld draft.world).publish (some event) outcome

def outcomeOf (run : Run S E C W O) (target : Option S) : Option Failure → Outcome S
  | some failure => .failed failure
  | none => (target.map (.transitioned run.state)).getD .handled

/-- The noting machine runs what a rule prescribes, and notes it. -/
theorem Prescribes.apply {target : Option S} {steps : List (S × String)} {world : W}
    {ran : List (Use E C)} {last : Draft E C W} {failure? : Option Failure}
    (h : m.Prescribes run.state rule target steps)
    (hp : m.Performs event steps ⟨run.context, [], world⟩ ran last failure?)
    (log : List (Use E C)) :
    m.noting.apply rule.target rule.actions event ((run.withWorld world).noted log) =
      (m.conclude event run (outcomeOf run target failure?) last).noted (log ++ ran) := by
  obtain ⟨htarget, hsteps⟩ := h.ruleSteps
  have hperform : m.noting.perform (some event)
      (m.noting.ruleSteps ((run.withWorld world).noted log).state rule.actions
        (rule.target.filter (· ≠ ((run.withWorld world).noted log).state)))
      ⟨((run.withWorld world).noted log).context, [], ((run.withWorld world).noted log).world⟩ =
        (last.noted (log ++ ran), failure?) := by
    have hsame : m.noting.ruleSteps run.state rule.actions target = steps := hsteps
    show m.noting.perform (some event)
      (m.noting.ruleSteps run.state rule.actions (rule.target.filter (· ≠ run.state)))
      ⟨run.context, [], (world, log)⟩ = _
    rw [htarget, hsame]
    exact hp.noted log
  cases failure? with
  | some failure => exact apply_of_failed hperform
  | none =>
    have hfilter : rule.target.filter (· ≠ ((run.withWorld world).noted log).state) = target :=
      htarget
    rw [apply_of_performed hperform, hfilter, commit_noting]
    cases target <;> rfl

variable [DecidableEq K] {uses : List (Use E C)} {outcome : Outcome S} {draft : Draft E C W}

/-- The noting machine processes an event as the table says, and notes just the uses it says. -/
theorem Verdict.noted (h : m.Verdict event run uses outcome draft)
    (hw : EventLike.isWellFormed event = true) (ht : EventLike.elapsedTimer? event = none)
    (log : List (Use E C)) :
    m.noting.process event (run.noted log) =
      (m.conclude event run outcome draft).noted (log ++ uses) := by
  -- With a rule it is the guard that decides, asked of the noting machine.
  have hrule (rule : Rule S) (hr : m.definition.rule? run.state (EventLike.kind event) = some rule) :
      m.noting.process event (run.noted log) =
        m.noting.applyGuarded rule event (run.noted log) := process_of_rule hw ht hr
  have hcheck (guard : String) (ask : Guard E C W) (hf : m.guards.find? guard = some ask) :
      m.noting.check guard (run.noted log).state (some event) (run.noted log).context
        (run.noted log).world = _ := check_noting hf run.state run.context run.world log
  cases h with
  | ignored hr =>
    have hnone : m.noting.definition.rule? (run.noted log).state (EventLike.kind event) = none := hr
    rw [process_of_no_rule ht hnone, List.append_nil]
    rfl
  | @rejected rule guard ask world hr hg hf ha =>
    rw [hrule rule hr]
    simp only [Machine.applyGuarded, hg, hcheck guard ask hf, ha]
    rfl
  | @unanswered rule guard ask world fault hr hg hf ha =>
    rw [hrule rule hr]
    simp only [Machine.applyGuarded, hg, hcheck guard ask hf, ha]
    rfl
  | @failed rule asked ran world target steps last failure hr hpass hsteps hp =>
    rw [hrule rule hr, hpass.applyGuarded, hsteps.apply hp, ← List.append_assoc]
    rfl
  | @handled rule asked ran world steps last hr hpass hsteps hp =>
    rw [hrule rule hr, hpass.applyGuarded, hsteps.apply hp, ← List.append_assoc]
    rfl
  | @transitioned rule asked ran world target steps last hr hpass hsteps hp =>
    rw [hrule rule hr, hpass.applyGuarded, hsteps.apply hp, ← List.append_assoc]
    rfl

theorem Verdict.process_eq (h : m.Verdict event run uses outcome draft)
    (hw : EventLike.isWellFormed event = true) (ht : EventLike.elapsedTimer? event = none) :
    m.process event run = m.conclude event run outcome draft := by
  have hview : m.process event ((run.noted []).seen Prod.fst id) = _ :=
    m.resembles_noting.process hears_id event (run.noted [])
  rw [h.noted hw ht] at hview
  exact hview

theorem Verdict.concluded (h : m.Verdict event run uses outcome draft) :
    Concluded event run (m.conclude event run outcome draft) outcome draft := by
  cases h with
  | ignored | rejected | unanswered | failed =>
    exact ⟨rfl, rfl, rfl, rfl, (List.append_nil _).symm, rfl, rfl,
      fun _ => ⟨⟨rfl, rfl, rfl, rfl⟩, rfl⟩, fun _ _ h => by cases h⟩
  | handled =>
    exact ⟨rfl, rfl, rfl, rfl, rfl, rfl, rfl, fun _ => ⟨⟨rfl, rfl, rfl, rfl⟩, rfl⟩,
      fun _ _ h => by cases h⟩
  | @transitioned rule asked ran world target =>
    show Concluded event run (m.commit (some target) event draft run) _ _
    rw [commit_some]
    refine ⟨rfl, rfl, rfl, rfl, rfl, rfl, rfl, ?_, ?_⟩
    · intro h
      cases h
    · intro source other h
      cases h
      exact ⟨rfl, rfl, rfl, rfl⟩

/-- The table of an accepted machine has a verdict for every event. -/
theorem Accepted.exists_verdict (hm : m.Accepted) (ht : EventLike.elapsedTimer? event = none)
    (run : Run S E C W O) : ∃ uses outcome draft, m.Verdict event run uses outcome draft := by
  cases hr : m.definition.rule? run.state (EventLike.kind event) with
  | none => exact ⟨_, _, _, .ignored hr⟩
  | some rule =>
    obtain ⟨node, hn, hentry⟩ := exists_entry_of_rule? hr
    have hplaced := hm.placed hn
    -- What the rule prescribes can be run, once the guard lets the event pass.
    have hpasses (asked : List (Use E C)) (world : W) (hpass : m.Passes event run rule asked world) :
        ∃ uses outcome draft, m.Verdict event run uses outcome draft := by
      have hsteps : ∃ target steps, m.Prescribes run.state rule target steps := by
        cases htarget : rule.target with
        | none => exact ⟨_, _, .stays (.inl htarget)⟩
        | some target =>
          by_cases hsame : target = run.state
          · exact ⟨_, _, .stays (.inr (hsame ▸ htarget))⟩
          · have hdeclared : (m.definition.node? target).isSome := by
              refine hplaced.targets target (List.mem_append_left _ ?_)
              exact List.mem_filterMap.2 ⟨_, hentry, htarget⟩
            obtain ⟨other, hother⟩ := Option.isSome_iff_exists.1 hdeclared
            exact ⟨_, _, .moves htarget hsame hother⟩
      obtain ⟨target, steps, hsteps⟩ := hsteps
      have hactions : ∀ step ∈ steps, (m.actions.find? step.2).isSome := by
        rw [← hsteps.ruleSteps.2]
        exact hm.find?_ruleSteps (.inr ⟨ht, rule, hr, rfl, rfl⟩) target
      obtain ⟨ran, last, failure?, hp⟩ :=
        exists_performs hactions (⟨run.context, [], world⟩ : Draft E C W)
      cases failure? with
      | some failure => exact ⟨_, _, _, .failed hr hpass hsteps hp⟩
      | none =>
        cases target with
        | none => exact ⟨_, _, _, .handled hr hpass hsteps hp⟩
        | some target => exact ⟨_, _, _, .transitioned hr hpass hsteps hp⟩
    cases hg : rule.guard with
    | none => exact hpasses _ _ (.unguarded hg)
    | some guard =>
      have hknown : (m.guards.find? guard).isSome :=
        hplaced.guards guard (List.mem_filterMap.2 ⟨_, hentry, hg⟩)
      obtain ⟨ask, hf⟩ := Option.isSome_iff_exists.1 hknown
      cases ha : ask (some event) run.context run.world with
      | mk world answer =>
        rcases answer with fault | _ | _
        · exact ⟨_, _, _, .unanswered hr hg hf ha⟩
        · exact ⟨_, _, _, .rejected hr hg hf ha⟩
        · exact hpasses _ _ (.allowed hg hf ha)

theorem Verdict.unique {others : List (Use E C)} {other : Outcome S} {last : Draft E C W}
    (h : m.Verdict event run uses outcome draft) (ho : m.Verdict event run others other last)
    (hw : EventLike.isWellFormed event = true) (ht : EventLike.elapsedTimer? event = none) :
    others = uses ∧ other = outcome ∧ last = draft := by
  have hnoted := (ho.noted hw ht []).symm.trans (h.noted hw ht [])
  have hsame : m.conclude event run other last = m.conclude event run outcome draft :=
    (ho.process_eq hw ht).symm.trans (h.process_eq hw ht)
  have hdone := h.concluded
  have hlast := ho.concluded
  rw [hsame] at hlast
  refine ⟨congrArg (·.world.2) hnoted, ?_, ?_⟩
  · have hsnapshot := List.head_eq_of_cons_eq (hlast.journal.symm.trans hdone.journal)
    exact congrArg Snapshot.outcome hsnapshot
  · have hraised : last.raised = draft.raised :=
      List.append_cancel_left (hlast.queue.symm.trans hdone.queue)
    obtain ⟨context, raised, world⟩ := draft
    obtain ⟨_, _, _⟩ := last
    congr 1
    · exact hlast.context.symm.trans hdone.context
    · exact hlast.world.symm.trans hdone.world

theorem Verdict.ignored_iff (h : m.Verdict event run uses outcome draft) :
    outcome = .ignored ↔ m.definition.rule? run.state (EventLike.kind event) = none := by
  cases h with
  | ignored hr => simp [hr]
  | rejected hr | unanswered hr | failed hr | handled hr | transitioned hr => simp [hr]

/-! ## Processing -/

/-- Whatever state a run is in, an event that is well formed and carries no timer becomes just what the
table says: there is one verdict about it, the machine goes on as the verdict says, and guard and
actions are used as listed there, in that order and no more than that, also if they note it
themselves. The event is ignored exactly if the state has no rule for it. A malformed event is
ignored, whatever it is, and nothing is used for it. -/
theorem process_by_table (hm : m.Accepted) (event : E) (run : Run S E C W O) :
    (EventLike.isWellFormed event = true → EventLike.elapsedTimer? event = none →
      ∃ uses outcome draft, m.Verdict event run uses outcome draft ∧
        (∀ others other last, m.Verdict event run others other last →
          others = uses ∧ other = outcome ∧ last = draft) ∧
        Concluded event run (m.process event run) outcome draft ∧
        (∀ log, m.noting.process event (run.noted log) =
          (m.process event run).noted (log ++ uses)) ∧
        (outcome = .ignored ↔ m.definition.rule? run.state (EventLike.kind event) = none)) ∧
    (EventLike.isWellFormed event = false →
      m.process event run = run.publish (some event) .ignored ∧
      ∀ log, m.noting.process event (run.noted log) = (m.process event run).noted log) := by
  constructor
  · intro hw ht
    obtain ⟨uses, outcome, draft, h⟩ := hm.exists_verdict ht run
    refine ⟨uses, outcome, draft, h, fun _ _ _ ho => h.unique ho hw ht, ?_, ?_, h.ignored_iff⟩
    · rw [h.process_eq hw ht]
      exact h.concluded
    · intro log
      rw [h.process_eq hw ht]
      exact h.noted hw ht log
  · intro hw
    refine ⟨process_of_malformed hw, ?_⟩
    intro log
    rw [process_of_malformed hw, process_of_malformed hw]
    rfl

end

/-! ## A strongbox -/

section

open Script

/-- It opens for those who know the number, if the lid moves. -/
def strongboxBuilder : Builder String String Signal Nat Unit where
  definition :=
    { id := "strongbox"
      initial := "shut"
      nodes :=
        [{ state := "shut"
           rules := [("open",
             { target := some "open", guard := some "known", actions := ["turn", "pull"] })] },
         { state := "open", entry := ["creak", "stick", "shine"] }] }
  actions :=
    [("turn", .assign fun _ turns => turns + 1), ("pull", .assign fun _ turns => turns + 10),
     ("creak", .assign fun _ turns => turns + 100), ("shine", .nothing),
     ("stick", fun _ turns world => ⟨turns, [], world, some (.error "rusty")⟩)]
  guards := [("known", .pure fun event _ => event.any (·.value = some 7))]
  context := some 0
  clock _ := .epoch

def strongbox : Machine String String Signal Nat Unit where
  definition := strongboxBuilder.definition
  actions := strongboxBuilder.actions
  guards := strongboxBuilder.guards
  context := 0
  historyLimit := History.defaultLimit
  clock _ := .epoch

def opening : Signal := { kind := "open", value := some 7 }

def closed : Run String Signal Nat Unit Unit :=
  strongbox.enterInitial ⟨0, [], ()⟩ (strongbox.newRun () ())

/-- The lid sticks after four actions have been run, and what they did is lost. -/
theorem process_by_table_strongbox : strongbox.Accepted ∧
    strongbox.noting.process opening (closed.noted []) =
      (strongbox.process opening closed).noted
        [.asked "known" (some opening) 0, .ran "turn" (some opening) 0,
          .ran "pull" (some opening) 1, .ran "creak" (some opening) 11,
          .ran "stick" (some opening) 111] ∧
    (strongbox.process opening closed).journal =
      (strongbox.process opening closed).shown (some opening)
        (.failed (.action "stick" "open" "open" "rusty")) :: closed.journal ∧
    (strongbox.process opening closed).context = 0 := by
  have hm : strongbox.Accepted := ⟨strongboxBuilder, rfl⟩
  obtain ⟨uses, outcome, draft, -, honly, hdone, hnoted, -⟩ :=
    (process_by_table hm opening closed).1 rfl rfl
  have hsteps : strongbox.Prescribes closed.state
      ⟨some "open", some "known", ["turn", "pull"]⟩ (some "open") _ := .moves rfl (by decide) rfl
  have hverdict : strongbox.Verdict opening closed _ _ _ :=
    .failed rfl (.allowed rfl rfl rfl) hsteps
      (.next rfl rfl rfl (.next rfl rfl rfl (.next rfl rfl rfl (.fails rfl rfl rfl))))
  obtain ⟨rfl, rfl, rfl⟩ := honly _ _ _ hverdict
  exact ⟨hm, hnoted [], hdone.journal, hdone.context⟩

end

end Machine

end Automat
