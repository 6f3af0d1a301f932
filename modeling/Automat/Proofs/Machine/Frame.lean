import Automat.Machine.Call

/-!
What processing an event can do to a run (`processed`): nothing at all, a report that changes
nothing but the world, or the commitment of a rule or of the delayed transition, and what each of
them leaves as it was.
-/

namespace Automat

/-- Outcomes after which the machine is as it was before. -/
def Outcome.Keeps {S : Type} : Outcome S → Prop
  | .ignored | .guardRejected _ | .failed _ => True
  | _ => False

namespace Machine

/-! ## Arming -/

section

variable {S K E C W O : Type} [DecidableEq S] (m : Machine S K E C W) (run : Run S E C W O)

def entryTimers : Timers S :=
  match m.definition.after? run.state with
  | some after => run.timers.arm run.state run.visit run.now after.delay
  | none => run.timers

theorem arm_eq : m.arm run = run.withTimers (m.entryTimers run) := by
  unfold arm entryTimers
  cases m.definition.after? run.state with
  | none => rfl
  | some after => rfl

theorem status_enterInitial (draft : Draft E C W) :
    (m.enterInitial draft run).status = .running := by
  rw [enterInitial, arm_eq]
  rfl

end

/-! ## Committing -/

section

variable {S K E C W O : Type} [DecidableEq S] [Named K] [EventLike E K]
variable (m : Machine S K E C W) (event : E) (draft : Draft E C W) (run : Run S E C W O)

/-- The run right after it has moved to another state, with no timer yet. -/
def moved (target : S) : Run S E C W O :=
  (run.adopt draft).moveTo target (name (EventLike.kind event)) (m.clock draft.world)

theorem commit_some (target : S) :
    m.commit (some target) event draft run =
      (((m.moved event draft run target).withTimers
        (m.entryTimers (m.moved event draft run target))).publish (some event)
          (.transitioned run.state target)).enqueue draft.raised := by
  simp only [commit, enter, arm_eq]
  rfl

theorem status_commit (target : Option S) :
    (m.commit target event draft run).status = run.status := by
  cases target with
  | none => rfl
  | some target => rw [commit_some]; rfl

theorem queue_commit (target : Option S) :
    (m.commit target event draft run).queue = run.queue ++ draft.raised := by
  cases target with
  | none => rfl
  | some target => rw [commit_some]; rfl

theorem now_commit (target : Option S) : (m.commit target event draft run).now = run.now := by
  cases target with
  | none => rfl
  | some target => rw [commit_some]; rfl

@[simp]
theorem state_commit (target : Option S) :
    (m.commit target event draft run).state = target.getD run.state := by
  cases target with
  | none => rfl
  | some target => rw [commit_some]; rfl

@[simp]
theorem context_commit (target : Option S) :
    (m.commit target event draft run).context = draft.context := by
  cases target with
  | none => rfl
  | some target => rw [commit_some]; rfl

@[simp]
theorem world_commit (target : Option S) :
    (m.commit target event draft run).world = draft.world := by
  cases target with
  | none => rfl
  | some target => rw [commit_some]; rfl

@[simp]
theorem journal_commit_some (target : S) : (m.commit (some target) event draft run).journal =
    ⟨target, some run.state, draft.context, some event, .transitioned run.state target,
      run.visit + 1, run.now⟩ :: run.journal := by
  rw [commit_some]
  rfl

@[simp]
theorem journal_commit_none : (m.commit none event draft run).journal =
    ⟨run.state, run.previous, draft.context, some event, .handled, run.visit, run.now⟩ ::
      run.journal := rfl

/-- A commitment is reported once. -/
theorem journal_commit (target : Option S) :
    ∃ snapshot, (m.commit target event draft run).journal = snapshot :: run.journal := by
  cases target with
  | none => exact ⟨_, rfl⟩
  | some target => rw [commit_some]; exact ⟨_, rfl⟩

end

/-! ## Processing -/

section

variable {S K E C W O : Type} [DecidableEq S] [EventLike E K]

/-- The delayed transition that processing an event attempts: that of the current state, if the
event is a well-formed report of its fired timer. -/
def delayed? (m : Machine S K E C W) (event : E) (run : Run S E C W O) : Option (Delayed S) :=
  match EventLike.isWellFormed event, EventLike.elapsedTimer? event with
  | true, some timer =>
    if run.timers.isLive timer run.visit then m.definition.after? run.state else none
  | _, _ => none

/-- Nothing but the delayed transition of the current state is ever attempted. -/
theorem after?_of_delayed? {m : Machine S K E C W} {event : E} {run : Run S E C W O}
    {after : Delayed S} (h : m.delayed? event run = some after) :
    m.definition.after? run.state = some after := by
  unfold delayed? at h
  split at h
  · split at h
    · exact h
    · cases h
  · cases h

end

variable {S K E C W O : Type} [DecidableEq S] [DecidableEq K] [Named S] [Named K] [EventLike E K]
variable (m : Machine S K E C W) (event : E) (run : Run S E C W O)

/-- The rule or delayed transition behind an event has this target and these actions. -/
def Prompts (target : Option S) (actions : List String) : Prop :=
  (∃ after, m.delayed? event run = some after ∧ target = some after.target ∧
    actions = after.actions) ∨
  (EventLike.elapsedTimer? event = none ∧
    ∃ rule, m.definition.rule? run.state (EventLike.kind event) = some rule ∧
      target = rule.target ∧ actions = rule.actions)

/-- What processing an event can do. -/
inductive Processed : Run S E C W O → Prop where
  | dropped {timer : TimerId} :
      EventLike.isWellFormed event = true → EventLike.elapsedTimer? event = some timer →
      m.delayed? event run = none → Processed run
  | kept (world : W) (outcome : Outcome S) :
      outcome.Keeps → Processed ((run.withWorld world).publish (some event) outcome)
  | committed {target : Option S} {actions : List String} {draft : Draft E C W} (world : W) :
      m.Prompts event run target actions →
      m.perform (some event) (m.ruleSteps run.state actions (target.filter (· ≠ run.state)))
        ⟨run.context, [], world⟩ = (draft, none) →
      Processed (m.commit (target.filter (· ≠ run.state)) event draft (run.withWorld world))

variable {m event run}

theorem apply_processed {target : Option S} {actions : List String} (world : W)
    (h : m.Prompts event run target actions) :
    m.Processed event run (m.apply target actions event (run.withWorld world)) := by
  simp only [apply]
  split
  · next draft hp => exact .committed world h hp
  · next draft failure hp => exact .kept draft.world (.failed failure) trivial

variable (m event run) in
omit [DecidableEq K] in
theorem journal_apply (target : Option S) (actions : List String) :
    ∃ snapshot, (m.apply target actions event run).journal = snapshot :: run.journal := by
  simp only [apply]
  split
  · exact journal_commit m event _ run _
  · exact ⟨_, rfl⟩

theorem applyGuarded_processed {rule : Rule S} (ht : EventLike.elapsedTimer? event = none)
    (hr : m.definition.rule? run.state (EventLike.kind event) = some rule) :
    m.Processed event run (m.applyGuarded rule event run) := by
  have hp : m.Prompts event run rule.target rule.actions := .inr ⟨ht, rule, hr, rfl, rfl⟩
  unfold applyGuarded
  split
  · exact apply_processed run.world hp
  · next guard _ =>
    split
    · next world _ => exact apply_processed world hp
    · next world _ => exact .kept world (.guardRejected guard) trivial
    · next world failure _ => exact .kept world (.failed failure) trivial

theorem process_eq_apply {after : Delayed S} (h : m.delayed? event run = some after) :
    m.process event run = m.apply (some after.target) after.actions event run := by
  unfold delayed? at h
  split at h
  · next timer hw ht =>
    split at h
    · next hl =>
      obtain ⟨node, hn, ha⟩ := Option.bind_eq_some_iff.1 h
      simp [process, hn, hw, ht, applyDelayed, ha, hl]
    · cases h
  · cases h

/-- A well-formed report of a timer either takes the delayed transition or does nothing. -/
theorem process_of_delayed?_none {node : Node S K} {timer : TimerId}
    (hn : m.definition.node? run.state = some node) (hw : EventLike.isWellFormed event = true)
    (ht : EventLike.elapsedTimer? event = some timer) (hd : m.delayed? event run = none) :
    m.process event run = run := by
  simp only [process, hn, hw, ht, if_true, applyDelayed]
  cases ha : node.after with
  | none => rfl
  | some after =>
    simp only [ite_eq_right_iff]
    intro hl
    simp [delayed?, hw, ht, hl, Definition.after?, hn, ha] at hd

theorem process_of_rule {rule : Rule S} (hw : EventLike.isWellFormed event = true)
    (ht : EventLike.elapsedTimer? event = none)
    (hr : m.definition.rule? run.state (EventLike.kind event) = some rule) :
    m.process event run = m.applyGuarded rule event run := by
  obtain ⟨node, hn, hrule⟩ := Option.bind_eq_some_iff.1 hr
  simp only [process, hn, hw, ht, if_true, hrule]

theorem process_of_unguarded {target : Option S} {actions : List String}
    (hw : EventLike.isWellFormed event = true) (ht : EventLike.elapsedTimer? event = none)
    (hr : m.definition.rule? run.state (EventLike.kind event) = some ⟨target, none, actions⟩) :
    m.process event run = m.apply target actions event run :=
  process_of_rule hw ht hr

theorem process_of_malformed (hw : EventLike.isWellFormed event = false) :
    m.process event run = run.publish (some event) .ignored := by
  unfold process
  cases m.definition.node? run.state with
  | none => rfl
  | some node => simp only [hw, Bool.false_eq_true, if_false]

/-- An event that reports no timer and has no rule is ignored. -/
theorem process_of_no_rule (ht : EventLike.elapsedTimer? event = none)
    (hr : m.definition.rule? run.state (EventLike.kind event) = none) :
    m.process event run = run.publish (some event) .ignored := by
  cases hw : EventLike.isWellFormed event with
  | false => exact process_of_malformed hw
  | true =>
    unfold process
    cases hn : m.definition.node? run.state with
    | none => rfl
    | some node =>
      have hrule : node.rule? (EventLike.kind event) = none := by
        simpa [Definition.rule?, hn] using hr
      simp only [hw, ht, if_true, hrule]

variable (m event run) in
/-- Whatever an event does, it is one of the three. -/
theorem processed : m.Processed event run (m.process event run) := by
  cases hd : m.delayed? event run with
  | some after =>
    rw [process_eq_apply hd]
    exact apply_processed run.world (.inl ⟨after, hd, rfl, rfl⟩)
  | none =>
    cases hw : EventLike.isWellFormed event with
    | false =>
      rw [process_of_malformed hw]
      exact .kept run.world .ignored trivial
    | true =>
      cases ht : EventLike.elapsedTimer? event with
      | none =>
        cases hr : m.definition.rule? run.state (EventLike.kind event) with
        | some rule =>
          rw [process_of_rule hw ht hr]
          exact applyGuarded_processed ht hr
        | none =>
          rw [process_of_no_rule ht hr]
          exact .kept run.world .ignored trivial
      | some timer =>
        cases hn : m.definition.node? run.state with
        | some node =>
          rw [process_of_delayed?_none hn hw ht hd]
          exact .dropped hw ht hd
        | none =>
          rw [process, hn]
          exact .kept run.world .ignored trivial

/-! ## What processing leaves as it was -/

variable {next : Run S E C W O}

theorem Processed.status_eq (h : m.Processed event run next) : next.status = run.status := by
  cases h with
  | dropped => rfl
  | kept => rfl
  | committed => exact status_commit m event _ _ _

theorem Processed.now_eq (h : m.Processed event run next) : next.now = run.now := by
  cases h with
  | dropped => rfl
  | kept => rfl
  | committed => exact now_commit m event _ _ _

theorem Processed.journal_suffix (h : m.Processed event run next) :
    run.journal <:+ next.journal := by
  cases h with
  | dropped => exact List.suffix_refl _
  | kept => exact List.suffix_cons _ _
  | @committed target _ draft world =>
    obtain ⟨snapshot, hj⟩ := journal_commit m event draft (run.withWorld world)
      (target.filter (· ≠ run.state))
    rw [hj]
    exact List.suffix_cons _ _

/-- A question changes at most the world, through the guard that it asks. -/
theorem canTransition_eq (m : Machine S K E C W) (kind : K) (run : Run S E C W O) :
    ∃ world, (m.canTransition kind run).1 = run.withWorld world := by
  unfold canTransition
  split
  · split
    · exact ⟨run.world, rfl⟩
    · split
      · exact ⟨run.world, rfl⟩
      · split
        · next world _ _ => exact ⟨world, rfl⟩
        · next world _ _ => exact ⟨world, rfl⟩
  · exact ⟨run.world, rfl⟩

end Machine

end Automat
