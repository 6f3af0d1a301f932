import Automat.Proofs.Machine.Armed
import Automat.Proofs.Machine.Processing

/-!
Look-ups in the table of an accepted machine. Every state that a run comes to has one node, to which
the look-ups for events lead without a choice, and everything the node refers to is there
(`Accepted.placed`). So nothing that goes wrong in a run is a name without an implementation
(`lookups_succeed`).
-/

namespace Automat

def Failure.isUnknown : Failure → Bool
  | .unknownAction _ | .unknownGuard _ => true
  | _ => false

namespace Machine

variable {S K E C W O : Type} [DecidableEq S] [DecidableEq K] [Named S] [Named K]

/-! ## Nodes -/

/-- The node of a state as runs rely on it: it is the only one, it has at most one rule for each kind
of event, and all that it refers to is there. -/
structure Placed (m : Machine S K E C W) (state : S) (node : Node S K) : Prop where
  found : m.definition.node? state = some node
  alone : m.definition.nodes.filter (·.state = state) = [node]
  rules : ∀ kind, node.rules.filter (·.1 = kind) =
    (m.definition.rule? state kind).toList.map (kind, ·)
  targets : ∀ target ∈ node.targets, (m.definition.node? target).isSome
  actions : ∀ action ∈ node.actionNames, (m.actions.find? action).isSome
  guards : ∀ guard ∈ node.guardNames, (m.guards.find? guard).isSome

variable {m : Machine S K E C W}

theorem Accepted.placed (hm : m.Accepted) {state : S} {node : Node S K}
    (h : m.definition.node? state = some node) : m.Placed state node := by
  have hc := hm.complete
  have hn := Definition.mem_nodes_of_node? h
  refine ⟨h, ?_, ?_, hc.targets node hn, hc.actions node hn, hc.guards node hn⟩
  · rw [hc.filter_nodes, h]
    rfl
  · intro kind
    have hrule : m.definition.rule? state kind = node.rule? kind := by
      rw [Definition.rule?, h]
      rfl
    rw [hrule]
    exact Definition.filter_rules (hc.rules node hn) kind

theorem Accepted.find?_entrySteps (hm : m.Accepted) (state : S) :
    ∀ step ∈ m.entrySteps state, (m.actions.find? step.2).isSome := by
  intro step hmem
  unfold entrySteps at hmem
  cases h : m.definition.node? state with
  | none => simp [h] at hmem
  | some node =>
    simp only [h, List.mem_map] at hmem
    obtain ⟨action, haction, rfl⟩ := hmem
    exact (hm.placed h).actions action (by simp [Node.actionNames, haction])

/-! ## Failures -/

section

omit [DecidableEq S] [DecidableEq K]

variable [EventLike E K]

/-- Actions that are registered fail for a reason of their own. -/
theorem isUnknown_of_perform {event : Option E} {steps : List (S × String)} {draft last : Draft E C W}
    {failure : Failure} (hs : ∀ step ∈ steps, (m.actions.find? step.2).isSome)
    (h : m.perform event steps draft = (last, some failure)) : failure.isUnknown = false := by
  induction steps generalizing draft with
  | nil => cases h
  | cons step steps ih =>
    obtain ⟨state, name⟩ := step
    obtain ⟨action, ha⟩ := Option.isSome_iff_exists.1 (hs (state, name) List.mem_cons_self)
    simp only [perform, ha] at h
    split at h
    · exact ih (fun step hmem => hs step (List.mem_cons_of_mem _ hmem)) h
    · cases h
      rfl

theorem isUnknown_of_check {guard : String} {state : S} {event : Option E} {context : C}
    {world after : W} {failure : Failure} (hg : (m.guards.find? guard).isSome)
    (h : m.check guard state event context world = (after, .error failure)) :
    failure.isUnknown = false := by
  obtain ⟨ask, ha⟩ := Option.isSome_iff_exists.1 hg
  simp only [check, ha] at h
  split at h
  · cases h
  · cases h
    rfl

end

variable [EventLike E K] {event : E} {run next : Run S E C W O}

/-- What is admitted comes from the table. -/
theorem prompts_of_admitted? {target : Option S} {actions : List String} {world : W}
    (h : m.admitted? event run = some (target, actions, world)) :
    m.Prompts event run target actions := by
  unfold admitted? at h
  split at h
  · next after hd =>
    cases h
    exact .inl ⟨after, hd, rfl, rfl⟩
  · split at h
    · next hw =>
      split at h
      · next rule hr =>
        have hprompts : m.Prompts event run rule.target rule.actions :=
          .inr ⟨hw.2, rule, hr, rfl, rfl⟩
        split at h
        · cases h
          exact hprompts
        · split at h
          · cases h
            exact hprompts
          · cases h
      · cases h
    · cases h

omit [Named S] [Named K] [EventLike E K] in
theorem exists_entry_of_rule? {kind : K} {state : S} {rule : Rule S}
    (h : m.definition.rule? state kind = some rule) :
    ∃ node, m.definition.node? state = some node ∧ (kind, rule) ∈ node.rules := by
  obtain ⟨node, hn, hk⟩ := Option.bind_eq_some_iff.1 h
  obtain ⟨entry, hf, rfl⟩ := Option.map_eq_some_iff.1 hk
  have hkind : entry.1 = kind := by simpa using List.find?_some hf
  subst hkind
  exact ⟨node, hn, List.mem_of_find?_eq_some hf⟩

/-- The actions behind an event are registered. -/
theorem Accepted.find?_of_prompts (hm : m.Accepted) {target : Option S} {actions : List String}
    (hp : m.Prompts event run target actions) :
    ∀ action ∈ actions, (m.actions.find? action).isSome := by
  intro action hmem
  rcases hp with ⟨after, hd, -, rfl⟩ | ⟨-, rule, hr, -, rfl⟩
  · obtain ⟨node, hn, ha⟩ := Option.bind_eq_some_iff.1 (after?_of_delayed? hd)
    refine (hm.placed hn).actions action ?_
    simp only [Node.actionNames, ha, List.mem_append]
    exact .inr (by simpa using hmem)
  · obtain ⟨node, hn, hentry⟩ := exists_entry_of_rule? hr
    refine (hm.placed hn).actions action ?_
    simp only [Node.actionNames, List.mem_append, List.mem_flatMap]
    exact .inl (.inr ⟨_, hentry, hmem⟩)

theorem Accepted.find?_ruleSteps (hm : m.Accepted) {target : Option S} {actions : List String}
    (hp : m.Prompts event run target actions) (entered : Option S) :
    ∀ step ∈ m.ruleSteps run.state actions entered, (m.actions.find? step.2).isSome := by
  intro step hmem
  rcases List.mem_append.1 hmem with hmem | hmem
  · obtain ⟨action, haction, rfl⟩ := List.mem_map.1 hmem
    exact hm.find?_of_prompts hp action haction
  · obtain ⟨state, -, hstep⟩ := List.mem_flatMap.1 hmem
    exact hm.find?_entrySteps state step hstep

/-! ## Outcomes -/

/-- The outcome tells of no hole in the table: a change of state is between states with nodes, and a
failure is none of a look-up. -/
def Grounded (m : Machine S K E C W) : Outcome S → Prop
  | .transitioned source target =>
    (m.definition.node? source).isSome ∧ (m.definition.node? target).isSome
  | .failed failure => failure.isUnknown = false
  | _ => True

theorem Refused.grounded {outcome : Outcome S} (hm : m.Accepted)
    (h : m.Refused event run (some outcome)) : m.Grounded outcome := by
  cases h with
  | ignored | rejected => trivial
  | @unanswered rule guard world failure hw ht hr hg hc =>
    obtain ⟨node, hn, hentry⟩ := exists_entry_of_rule? hr
    refine isUnknown_of_check ((hm.placed hn).guards guard ?_) hc
    exact List.mem_filterMap.2 ⟨_, hentry, hg⟩
  | @failed target actions world before after step middle last failure ha hs hb hf =>
    have hsteps := hm.find?_ruleSteps (prompts_of_admitted? ha) (target.filter (· ≠ run.state))
    refine isUnknown_of_perform ?_ hf
    intro other hmem
    rw [List.mem_singleton.1 hmem]
    refine hsteps step ?_
    rw [hs]
    exact List.mem_append_right _ List.mem_cons_self

/-- Processing an event reports nothing else. -/
theorem grounded_process (hm : m.Accepted) (hn : (m.definition.node? run.state).isSome)
    (hold : ∀ snapshot ∈ run.journal, m.Grounded snapshot.outcome) :
    ∀ snapshot ∈ (m.process event run).journal, m.Grounded snapshot.outcome := by
  rcases m.attempted_or_refused event run with ⟨draft, hd⟩ | ⟨outcome, hr⟩
  · obtain ⟨⟨target, actions, world⟩, ha, hp⟩ := Option.map_eq_some_iff.1 hd
    rw [process_of_admitted? ha, apply_of_performed hp]
    cases hf : target.filter (· ≠ run.state) with
    | none =>
      have hsame : (target.filter (· ≠ (run.withWorld world).state)) = none := hf
      rw [hsame, journal_commit_none]
      exact List.forall_mem_cons.2 ⟨trivial, hold⟩
    | some other =>
      have hsome : (target.filter (· ≠ (run.withWorld world).state)) = some other := hf
      obtain ⟨rfl, -⟩ := Option.filter_eq_some_iff.1 hf
      rw [hsome, journal_commit_some]
      exact List.forall_mem_cons.2
        ⟨⟨hn, hm.isSome_node?_of_prompts (prompts_of_admitted? ha)⟩, hold⟩
  · rw [hr.journal_eq]
    cases outcome with
    | none => exact hold
    | some outcome => exact List.forall_mem_cons.2 ⟨hr.grounded hm, hold⟩

theorem Step.grounded {happening : Happening K E} (hm : m.Accepted)
    (hs : Step m run happening next) (hn : (m.definition.node? run.state).isSome)
    (hold : ∀ snapshot ∈ run.journal, m.Grounded snapshot.outcome) :
    ∀ snapshot ∈ next.journal, m.Grounded snapshot.outcome := by
  cases hs with
  | begin =>
    rw [enterInitial, arm_eq]
    exact List.forall_mem_cons.2 ⟨trivial, hold⟩
  | @take rest event hq =>
    obtain ⟨-, queue, -, rfl⟩ := Run.dequeue?_eq_some_iff.1 hq
    exact grounded_process hm hn hold
  | elapse => exact grounded_process hm hn hold
  | ask kind =>
    obtain ⟨world, hw⟩ := m.canTransition_eq kind run
    rw [hw]
    exact hold
  | stop =>
    unfold Run.stop
    split <;> exact hold
  | refuse | accept | tick | listen => exact hold

/-! ## Runs -/

variable {world : W} {observers : O} {calls : List (Made S K E C W O)}
variable {trace : List (Run S E C W O × Happening K E)}

theorem Steps.grounded (hm : m.Accepted) (hs : Steps m (m.newRun world observers) trace run) :
    ∀ snapshot ∈ run.journal, m.Grounded snapshot.outcome := by
  induction hs with
  | refl =>
    intro snapshot hmem
    cases hmem
  | snoc hs hstep ih => exact hstep.grounded hm (hs.timed_of_newRun hm).declared ih

/-- Every state that a run comes to has its place in the table. -/
theorem Steps.placed (hm : m.Accepted) (hs : Steps m (m.newRun world observers) trace run) :
    ∃ node, m.Placed run.state node := by
  obtain ⟨node, hn⟩ := Option.isSome_iff_exists.1 (hs.timed_of_newRun hm).declared
  exact ⟨node, hm.placed hn⟩

theorem CallTrace.isUnknown_of_refused {call : Call K E} {failure : Failure} (hm : m.Accepted)
    (h : m.CallTrace call run trace next (.refused (.entry failure))) :
    failure.isUnknown = false := by
  cases h with
  | refused hr hp => exact isUnknown_of_perform (hm.find?_entrySteps _) hp

theorem Chronicle.isUnknown_of_refused (hm : m.Accepted)
    (h : m.Chronicle (m.newRun world observers) calls trace run) {failure : Failure} :
    ∀ made ∈ calls, made.answer = .refused (.entry failure) → failure.isUnknown = false := by
  induction h with
  | first =>
    intro made hmem
    cases hmem
  | call _ _ ht ih =>
    intro made hmem hanswer
    rcases List.mem_append.1 hmem with hmem | hmem
    · exact ih made hmem hanswer
    · obtain rfl := List.mem_singleton.1 hmem
      obtain rfl := hanswer
      exact ht.isUnknown_of_refused hm
  | subscribe _ _ ih | unsubscribe _ _ ih => exact ih

/-- In a run of an accepted machine the current state always has its place in the table, also in the
middle of a call: one node, one rule at most for a kind of event, and everything they refer to is
there. States are changed between states with nodes, and neither a start nor an event ever fails
because of a name without an implementation. -/
theorem lookups_succeed (hm : m.Accepted)
    (h : m.Chronicle (m.newRun world observers) calls trace run) :
    (∃ node, m.Placed run.state node) ∧
    (∀ entry ∈ trace, ∃ node, m.Placed entry.1.state node) ∧
    (∀ snapshot ∈ run.journal, ∀ source target, snapshot.outcome = .transitioned source target →
      (m.definition.node? source).isSome ∧ (m.definition.node? target).isSome) ∧
    (∀ made ∈ calls, ∀ failure, made.answer = .refused (.entry failure) →
      failure.isUnknown = false) ∧
    ∀ snapshot ∈ run.journal, ∀ failure, snapshot.outcome = .failed failure →
      failure.isUnknown = false := by
  have hs := (h.leads rfl).steps
  have hgrounded := hs.grounded hm
  refine ⟨hs.placed hm, ?_, ?_, ?_, ?_⟩
  · rintro ⟨mid, happening⟩ hmem
    obtain ⟨before, after, rfl⟩ := List.append_of_mem hmem
    exact hs.split.1.placed hm
  · intro snapshot hmem source target ho
    have hsnapshot := hgrounded snapshot hmem
    rwa [ho] at hsnapshot
  · exact fun made hmem failure => h.isUnknown_of_refused hm made hmem
  · intro snapshot hmem failure ho
    have hsnapshot := hgrounded snapshot hmem
    rwa [ho] at hsnapshot

section

open Script

/-- The lamp that jams has gone off, and cannot go on because its switch fails. -/
theorem lookups_succeed_lamp :
    ∃ (calls : List (Made String String Signal Unit Unit Unit))
      (trace : List (Run String Signal Unit Unit Unit × Happening String Signal))
      (run : Run String Signal Unit Unit Unit),
      lamp.Chronicle (lamp.newRun () ()) calls trace run ∧
      calls.map Made.exchange = [(.start, .done), (.advance (.ofMillis 30000), .done)] ∧
      run.journal.map (·.outcome) =
        [.failed (.action "switch" "off" "Timer" "jammed"), .transitioned "on" "off", .started] ∧
      (∃ node, lamp.Placed run.state node) ∧
      ∀ snapshot ∈ run.journal, ∀ failure, snapshot.outcome = .failed failure →
        failure.isUnknown = false := by
  have hsome : (lamp.calls 3 [.start, .advance (.ofMillis 30000)] (lamp.newRun () ())).map
      (fun result => (result.1.journal.map (·.outcome), result.2)) =
        some ([.failed (.action "switch" "off" "Timer" "jammed"), .transitioned "on" "off",
          .started], [.done, .done]) := rfl
  obtain ⟨⟨run, answers⟩, hcalls, hrun⟩ := Option.map_eq_some_iff.1 hsome
  rw [Prod.mk.injEq] at hrun
  obtain ⟨houtcomes, rfl⟩ := hrun
  obtain ⟨calls, trace, hmade, h⟩ := exists_chronicle_of_calls rfl hcalls
  obtain ⟨hplaced, -, -, -, hknown⟩ := lookups_succeed lamp_accepted h
  exact ⟨calls, trace, run, h, hmade, houtcomes, hplaced, hknown⟩

end

end Machine

end Automat
