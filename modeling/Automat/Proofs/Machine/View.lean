import Automat.Proofs.Definition.Alike
import Automat.Proofs.Machine.Reachable

/-!
Machines that run alike. Their tables may be written in different ways, they may keep different
worlds as far as a view of one goes with every action and every guard, and different audiences may
listen: every call goes the same way on both (`Resembles.call`). What the views leave out has no
influence.
-/

namespace Automat

def Draft.viewed {E C V W : Type} (view : V → W) (draft : Draft E C V) : Draft E C W :=
  ⟨draft.context, draft.raised, view draft.world⟩

/-- What an action leaves behind, with the world seen through a view. -/
def Performed.viewed {E C V W : Type} (view : V → W) (done : Performed E C V) :
    Performed E C W :=
  ⟨done.context, done.raised, view done.world, done.fault⟩

/-- A view of audiences that goes with all that a machine does to them. -/
structure Hears {M O P : Type} (hear : Audience M O → Audience M P) : Prop where
  notify : ∀ message audience, hear (audience.notify message) = (hear audience).notify message
  clear : ∀ audience, hear audience.clear = (hear audience).clear

theorem hears_id {M O : Type} : Hears (id : Audience M O → Audience M O) where
  notify _ _ := rfl
  clear _ := rfl

/-- A run with its world and its audience seen through views. -/
def Run.seen {S E C V W O P : Type} (view : V → W)
    (hear : Audience (Snapshot S C E) O → Audience (Snapshot S C E) P) (run : Run S E C V O) :
    Run S E C W P :=
  { run with world := view run.world, audience := hear run.audience }

theorem Hears.publish {S E C V W O P : Type} {view : V → W}
    {hear : Audience (Snapshot S C E) O → Audience (Snapshot S C E) P} (h : Hears hear)
    (event : Option E) (outcome : Outcome S) (run : Run S E C V O) :
    (run.seen view hear).publish event outcome = (run.publish event outcome).seen view hear := by
  simp only [Run.publish, Run.seen, h.notify]

namespace Machine

variable {S K E C V W O : Type}

/-- The tables of the machines work alike, and their actions and guards do the same, as far as the
view shows. -/
structure Resembles [DecidableEq S] [DecidableEq K] (view : V → W) (m : Machine S K E C V)
    (n : Machine S K E C W) : Prop where
  definition : m.definition.Alike n.definition
  context : n.context = m.context
  clock : ∀ world, n.clock (view world) = m.clock world
  actions : ∀ name, Option.Rel (fun own other => ∀ event context world,
    other event context (view world) = (own event context world).viewed view)
    (m.actions.find? name) (n.actions.find? name)
  guards : ∀ name, Option.Rel (fun own other => ∀ event context world,
    other event context (view world) = (own event context world).map view id)
    (m.guards.find? name) (n.guards.find? name)

namespace Resembles

variable {S K E C V W O P : Type} [DecidableEq S] [DecidableEq K]
variable {view : V → W} {hear : Audience (Snapshot S C E) O → Audience (Snapshot S C E) P}
variable {m : Machine S K E C V} {n : Machine S K E C W}

theorem refl (m : Machine S K E C W) : Resembles id m m where
  definition := .refl m.definition
  context := rfl
  clock _ := rfl
  actions name := by
    cases m.actions.find? name with
    | none => exact .none
    | some action => exact .some fun _ _ _ => rfl
  guards name := by
    cases m.guards.find? name with
    | none => exact .none
    | some guard => exact .some fun _ _ _ => rfl

/-! ## Actions and guards -/

theorem perform [Named S] [Named K] [EventLike E K] (h : Resembles view m n) (event : Option E)
    (steps : List (S × String)) (draft : Draft E C V) :
    n.perform event steps (draft.viewed view) =
      (m.perform event steps draft).map (Draft.viewed view) id := by
  induction steps generalizing draft with
  | nil => rfl
  | cons step steps ih =>
    obtain ⟨state, action⟩ := step
    have ha := h.actions action
    simp only [Machine.perform]
    generalize m.actions.find? action = own?, n.actions.find? action = other? at ha ⊢
    cases ha with
    | none => rfl
    | @some own other hviewed =>
      have hdone : other event (draft.viewed view).context (draft.viewed view).world = _ :=
        hviewed event draft.context draft.world
      simp only [hdone, Performed.viewed]
      cases own event draft.context draft.world with
      | mk context raised world fault =>
        cases fault with
        | none => exact ih ⟨context, draft.raised ++ raised, world⟩
        | some fault => rfl

theorem check [Named S] [Named K] [EventLike E K] (h : Resembles view m n) (guard : String)
    (state : S) (event : Option E) (context : C) (world : V) :
    n.check guard state event context (view world) =
      (m.check guard state event context world).map view id := by
  have hg := h.guards guard
  simp only [Machine.check]
  generalize m.guards.find? guard = own?, n.guards.find? guard = other? at hg ⊢
  cases hg with
  | none => rfl
  | @some own other hviewed =>
    simp only [hviewed]
    cases own event context world with
    | mk next answer => cases answer <;> rfl

/-! ## Look-ups -/

theorem entrySteps (h : Resembles view m n) (state : S) :
    n.entrySteps state = m.entrySteps state := by
  have hn := h.definition.nodes state
  unfold Machine.entrySteps
  generalize m.definition.node? state = own?, n.definition.node? state = other? at hn ⊢
  cases hn with
  | none => rfl
  | some halike => simp only [halike.entry]

theorem after? (h : Resembles view m n) (state : S) :
    n.definition.after? state = m.definition.after? state := by
  have hn := h.definition.nodes state
  unfold Definition.after?
  generalize m.definition.node? state = own?, n.definition.node? state = other? at hn ⊢
  cases hn with
  | none => rfl
  | some halike => exact halike.after

theorem guard_rule? (h : Resembles view m n) (state : S) (kind : K) :
    (n.definition.rule? state kind).map (·.guard) =
      (m.definition.rule? state kind).map (·.guard) := by
  have hn := h.definition.nodes state
  unfold Definition.rule?
  generalize m.definition.node? state = own?, n.definition.node? state = other? at hn ⊢
  cases hn with
  | none => rfl
  | @some node other halike =>
    have hguard (rule? : Option (Rule S)) :
        rule?.map (·.guard) = (rule?.map (Rule.within node.state)).map (·.guard) := by
      rw [Option.map_map]
      congr
      funext rule
      exact (rule.guard_within node.state).symm
    show (other.rule? kind).map (·.guard) = (node.rule? kind).map (·.guard)
    rw [hguard, halike.rules, ← hguard]

/-! ## Changing the state -/

theorem ruleSteps (h : Resembles view m n) (state : S) (actions : List String) (target : Option S) :
    n.ruleSteps state actions target = m.ruleSteps state actions target := by
  simp only [Machine.ruleSteps]
  rw [funext h.entrySteps]

theorem arm (h : Resembles view m n) (run : Run S E C V O) :
    n.arm (run.seen view hear) = (m.arm run).seen view hear := by
  have ha : n.definition.after? (run.seen view hear).state = _ := h.after? run.state
  simp only [Machine.arm, ha]
  cases m.definition.after? run.state <;> rfl

theorem commit [Named K] [EventLike E K] (h : Resembles view m n) (hv : Hears hear)
    (target : Option S) (event : E) (draft : Draft E C V) (run : Run S E C V O) :
    n.commit target event (draft.viewed view) (run.seen view hear) =
      (m.commit target event draft run).seen view hear := by
  cases target with
  | none =>
    have hp : ((run.seen view hear).adopt (draft.viewed view)).publish (some event) .handled = _ :=
      hv.publish (some event) .handled (run.adopt draft)
    simp only [Machine.commit, hp]
    rfl
  | some target =>
    have he : n.enter target event ((run.seen view hear).adopt (draft.viewed view)) =
        (m.enter target event (run.adopt draft)).seen view hear := by
      simp only [Machine.enter]
      rw [← h.arm, ← h.clock]
      rfl
    have hs : (run.seen view hear).state = run.state := rfl
    simp only [Machine.commit, he, hv.publish, hs]
    rfl

theorem enterInitial (h : Resembles view m n) (hv : Hears hear) (draft : Draft E C V)
    (run : Run S E C V O) :
    n.enterInitial (draft.viewed view) (run.seen view hear) =
      (m.enterInitial draft run).seen view hear := by
  have ha : n.arm (((run.seen view hear).adopt (draft.viewed view)).begin
      m.definition.initial) = _ := h.arm ((run.adopt draft).begin m.definition.initial)
  simp only [Machine.enterInitial, h.definition.initial, ha, hv.publish]
  rfl

variable [Named S] [Named K] [EventLike E K]

/-- Nothing matters of a target but whether it is another state, and which. -/
theorem apply (h : Resembles view m n) (hv : Hears hear) {target other : Option S}
    {run : Run S E C V O} (ht : other.filter (· ≠ run.state) = target.filter (· ≠ run.state))
    (actions : List String) (event : E) :
    n.apply other actions event (run.seen view hear) =
      (m.apply target actions event run).seen view hear := by
  have htarget : other.filter (· ≠ (run.seen view hear).state) = target.filter (· ≠ run.state) := ht
  have hp : n.perform (some event)
      (m.ruleSteps (run.seen view hear).state actions (target.filter (· ≠ run.state)))
      ⟨(run.seen view hear).context, [], (run.seen view hear).world⟩ = _ :=
    h.perform (some event) (m.ruleSteps run.state actions (target.filter (· ≠ run.state)))
      ⟨run.context, [], run.world⟩
  simp only [Machine.apply, htarget, h.ruleSteps, hp]
  cases m.perform (some event) (m.ruleSteps run.state actions (target.filter (· ≠ run.state)))
      ⟨run.context, [], run.world⟩ with
  | mk draft failure =>
    cases failure with
    | none => exact h.commit hv (target.filter (· ≠ run.state)) event draft run
    | some failure => exact hv.publish (some event) (.failed failure) (run.withWorld draft.world)

/-! ## Processing events -/

theorem applyGuarded (h : Resembles view m n) (hv : Hears hear) {rule other : Rule S}
    {run : Run S E C V O} (hr : other.within run.state = rule.within run.state) (event : E) :
    n.applyGuarded other event (run.seen view hear) =
      (m.applyGuarded rule event run).seen view hear := by
  have hguard : other.guard = rule.guard := by
    rw [← other.guard_within run.state, hr, Rule.guard_within]
  have hactions : other.actions = rule.actions := by
    rw [← other.actions_within run.state, hr, Rule.actions_within]
  have htarget : other.target.filter (· ≠ run.state) = rule.target.filter (· ≠ run.state) := by
    rw [← Rule.target_within, hr, Rule.target_within]
  unfold Machine.applyGuarded
  rw [hguard, hactions]
  cases rule.guard with
  | none => exact h.apply hv htarget rule.actions event
  | some guard =>
    have hc : n.check guard (run.seen view hear).state (some event) (run.seen view hear).context
        (run.seen view hear).world = _ :=
      h.check guard run.state (some event) run.context run.world
    simp only [hc]
    cases m.check guard run.state (some event) run.context run.world with
    | mk world answer =>
      rcases answer with failure | _ | _
      · exact hv.publish _ _ (run.withWorld world)
      · exact hv.publish _ _ (run.withWorld world)
      · have hw : other.target.filter (· ≠ (run.withWorld world).state) =
            rule.target.filter (· ≠ (run.withWorld world).state) := htarget
        exact h.apply hv hw rule.actions event

theorem applyDelayed (h : Resembles view m n) (hv : Hears hear) {node other : Node S K}
    (ha : other.after = node.after) (timer : TimerId) (event : E) (run : Run S E C V O) :
    n.applyDelayed other timer event (run.seen view hear) =
      (m.applyDelayed node timer event run).seen view hear := by
  unfold Machine.applyDelayed
  rw [ha]
  cases node.after with
  | none => rfl
  | some after =>
    have hl : (run.seen view hear).timers.isLive timer (run.seen view hear).visit =
        run.timers.isLive timer run.visit := rfl
    simp only [hl]
    split
    · exact h.apply hv rfl after.actions event
    · rfl

theorem process (h : Resembles view m n) (hv : Hears hear) (event : E) (run : Run S E C V O) :
    n.process event (run.seen view hear) = (m.process event run).seen view hear := by
  have hn : Option.Rel Node.Alike (m.definition.node? run.state)
      (n.definition.node? (run.seen view hear).state) := h.definition.nodes run.state
  have hstate (node : Node S K) (hnode : m.definition.node? run.state = some node) :
      node.state = run.state := Definition.node?_eq_some_state hnode
  unfold Machine.process
  generalize m.definition.node? run.state = own?,
    n.definition.node? (run.seen view hear).state = other? at hn hstate ⊢
  cases hn with
  | none => exact hv.publish (some event) .ignored run
  | @some node other halike =>
    have hrule := halike.rules (EventLike.kind event)
    rw [hstate node rfl] at hrule
    by_cases hw : EventLike.isWellFormed event = true
    · simp only [if_pos hw]
      cases EventLike.elapsedTimer? event with
      | some timer => exact h.applyDelayed hv halike.after timer event run
      | none =>
        generalize node.rule? (EventLike.kind event) = own?,
          other.rule? (EventLike.kind event) = other? at hrule ⊢
        cases own? with
        | none =>
          rw [Option.map_none, Option.map_eq_none_iff] at hrule
          rw [hrule]
          exact hv.publish (some event) .ignored run
        | some rule =>
          obtain ⟨found, rfl, hsame⟩ := Option.map_eq_some_iff.1 hrule
          exact h.applyGuarded hv hsame event
    · simp only [if_neg hw]
      exact hv.publish (some event) .ignored run

theorem drain (h : Resembles view m n) (hv : Hears hear) (fuel : Nat) (run : Run S E C V O) :
    n.drain fuel (run.seen view hear) = (m.drain fuel run).map (Run.seen view hear) := by
  have hq (run : Run S E C V O) : (run.seen view hear).dequeue? =
      run.dequeue?.map fun (event, rest) => (event, rest.seen view hear) := by
    unfold Run.dequeue?
    cases hs : run.status <;> cases hq : run.queue <;> simp [Run.seen, hs, hq]
  induction fuel generalizing run with
  | zero =>
    unfold Machine.drain
    rw [hq]
    cases run.dequeue? <;> rfl
  | succ fuel ih =>
    unfold Machine.drain
    rw [hq]
    cases run.dequeue? with
    | none => rfl
    | some next =>
      obtain ⟨event, rest⟩ := next
      simp only [Option.map_some, h.process hv]
      exact ih _

/-! ## Calls -/

theorem fire (h : Resembles view m n) (hv : Hears hear) (fuel : Nat) (run : Run S E C V O) :
    n.fire fuel (run.seen view hear) = (m.fire fuel run).map (Run.seen view hear) := by
  have hf : (run.seen view hear).timers.fire? (run.seen view hear).now =
    run.timers.fire? run.now := rfl
  unfold Machine.fire
  rw [hf]
  cases run.timers.fire? run.now with
  | none => rfl
  | some fired =>
    obtain ⟨timer, timers⟩ := fired
    exact h.drain hv fuel ((run.withTimers timers).enqueue [EventLike.ofTimer timer])

theorem advanceTo (h : Resembles view m n) (hv : Hears hear) (fuel : Nat) (time : Duration)
    (run : Run S E C V O) :
    n.advanceTo fuel time (run.seen view hear) =
      (m.advanceTo fuel time run).map (Run.seen view hear) := by
  have hd (run : Run S E C V O) : (run.seen view hear).nextDeadline? = run.nextDeadline? := rfl
  induction fuel generalizing run with
  | zero =>
    unfold Machine.advanceTo
    rw [hd]
    cases run.nextDeadline?.filter (· ≤ time) <;> rfl
  | succ fuel ih =>
    unfold Machine.advanceTo
    rw [hd]
    cases run.nextDeadline?.filter (· ≤ time) with
    | none => rfl
    | some due =>
      have hf : n.fire fuel ((run.seen view hear).moveClock due) = _ :=
        h.fire hv fuel (run.moveClock due)
      simp only [hf]
      cases m.fire fuel (run.moveClock due) with
      | none => rfl
      | some fired => exact ih fired

theorem start (h : Resembles view m n) (hv : Hears hear) (fuel : Nat) (run : Run S E C V O) :
    n.start fuel (run.seen view hear) =
      (m.start fuel run).map fun (next, result) => (next.seen view hear, result) := by
  have hs : (run.seen view hear).status = run.status := rfl
  have hp : n.perform none (m.entrySteps m.definition.initial)
      ⟨m.context, [], (run.seen view hear).world⟩ = _ :=
    h.perform none (m.entrySteps m.definition.initial) ⟨m.context, [], run.world⟩
  simp only [Machine.start, hs, h.definition.initial, h.context, h.entrySteps, hp, h.definition.id]
  split
  · cases m.perform none (m.entrySteps m.definition.initial) ⟨m.context, [], run.world⟩ with
    | mk draft failure =>
      cases failure with
      | none =>
        simp only [Prod.map, id_eq, h.enterInitial hv, h.drain hv]
        cases m.drain fuel (m.enterInitial draft run) <;> rfl
      | some failure => rfl
  · rfl

theorem send (h : Resembles view m n) (hv : Hears hear) (fuel : Nat) (event : E)
    (run : Run S E C V O) :
    n.send fuel event (run.seen view hear) = (m.send fuel event run).map (Run.seen view hear) := by
  unfold Machine.send
  by_cases hr : run.status = .running
  · rw [if_pos hr, if_pos (by exact hr)]
    exact h.drain hv fuel (run.enqueue [event])
  · rw [if_neg hr, if_neg (by exact hr)]
    rfl

theorem canTransition (h : Resembles view m n) (kind : K) (run : Run S E C V O) :
    n.canTransition kind (run.seen view hear) =
      (m.canTransition kind run).map (Run.seen view hear) id := by
  have hs : (run.seen view hear).status = run.status := rfl
  have hr : (n.definition.rule? (run.seen view hear).state kind).map (·.guard) =
      (m.definition.rule? run.state kind).map (·.guard) := h.guard_rule? run.state kind
  simp only [Machine.canTransition, hs]
  split
  · generalize m.definition.rule? run.state kind = own?,
      n.definition.rule? (run.seen view hear).state kind = other? at hr ⊢
    cases own? with
    | none =>
      rw [Option.map_none, Option.map_eq_none_iff] at hr
      rw [hr]
      rfl
    | some rule =>
      obtain ⟨found, rfl, hsame⟩ := Option.map_eq_some_iff.1 hr
      simp only [hsame]
      cases rule.guard with
      | none => rfl
      | some guard =>
        have hc : n.check guard (run.seen view hear).state none (run.seen view hear).context
            (run.seen view hear).world = _ := h.check guard run.state none run.context run.world
        simp only [hc]
        cases m.check guard run.state none run.context run.world with
        | mk world answer => cases answer <;> rfl
  · rfl

/-- A call goes the same way on both machines, and gives the same answer. -/
theorem call (h : Resembles view m n) (hv : Hears hear) (fuel : Nat) (call : Call K E)
    (run : Run S E C V O) :
    n.call fuel call (run.seen view hear) =
      (m.call fuel call run).map fun (next, answer) => (next.seen view hear, answer) := by
  cases call with
  | start =>
    simp only [Machine.call, h.start hv]
    rcases m.start fuel run with _ | ⟨next, _ | _⟩ <;> rfl
  | send event =>
    simp only [Machine.call, h.send hv]
    cases m.send fuel event run <;> rfl
  | advance elapsed =>
    have hnow : (run.seen view hear).now = run.now := rfl
    simp only [Machine.call, Machine.advance, h.advanceTo hv, hnow]
    cases m.advanceTo fuel (run.now + elapsed) run <;> rfl
  | advanceTo time =>
    simp only [Machine.call, h.advanceTo hv]
    cases m.advanceTo fuel time run <;> rfl
  | stop =>
    have hstop : (run.seen view hear).stop = run.stop.seen view hear := by
      have hs : (run.seen view hear).status = run.status := rfl
      unfold Run.stop
      by_cases hr : run.status = .stopped
      · rw [if_pos (hs.trans hr), if_pos hr]
      · rw [if_neg (hs ▸ hr), if_neg hr]
        simp only [Run.seen, hv.clear]
    simp only [Machine.call, hstop]
    rfl
  | can kind =>
    simp only [Machine.call, h.canTransition]
    rfl

end Resembles

end Machine

end Automat
