import Automat.Proofs.Machine.Frame
import Automat.Proofs.Run

/-!
Why an event is or is not carried out. If it is, a rule or the delayed transition has been found,
the guard lets it pass, and every action succeeds (`commits_iff`); if it is not, there is a reason,
and the reason decides the report (`not_commits_iff`, `Refused.process_eq`).
-/

namespace Automat

def Outcome.commits {S : Type} : Outcome S → Bool
  | .transitioned _ _ | .handled => true
  | _ => false

theorem Outcome.Keeps.commits_eq_false {S : Type} {outcome : Outcome S} (h : outcome.Keeps) :
    outcome.commits = false := by
  cases outcome with
  | ignored | guardRejected | failed => rfl
  | started | transitioned | handled => cases h

/-- Publishes the outcome of an event, if there is one. -/
def Run.report {S E C W O : Type} (event : E) (outcome : Option (Outcome S))
    (run : Run S E C W O) : Run S E C W O :=
  match outcome with
  | some outcome => run.publish (some event) outcome
  | none => run

namespace Machine

variable {S K E C W O : Type} [DecidableEq S] [Named S] [Named K] [EventLike E K]

/-! ## Where a sequence of actions fails -/

section

omit [DecidableEq S]

variable {m : Machine S K E C W} {event : Option E} {before after steps : List (S × String)}
variable {draft middle last : Draft E C W} {failure : Failure}

/-- After actions that succeed the next ones are run on what they leave. -/
theorem perform_append (h : m.perform event before draft = (middle, none)) :
    m.perform event (before ++ after) draft = m.perform event after middle := by
  induction before generalizing draft with
  | nil =>
    cases h
    rfl
  | cons step before ih =>
    obtain ⟨state, action⟩ := step
    simp only [List.cons_append, perform] at h ⊢
    cases hf : m.actions.find? action with
    | none => simp [hf] at h
    | some act =>
      simp only [hf] at h ⊢
      cases hd : (act event draft.context draft.world).fault with
      | none =>
        simp only [hd] at h ⊢
        exact ih h
      | some fault => simp [hd] at h

/-- After an action that fails no other is run. -/
theorem perform_append_of_failed (h : m.perform event before draft = (last, some failure)) :
    m.perform event (before ++ after) draft = (last, some failure) := by
  induction before generalizing draft with
  | nil => cases h
  | cons step before ih =>
    obtain ⟨state, action⟩ := step
    simp only [List.cons_append, perform] at h ⊢
    cases hf : m.actions.find? action with
    | none => simpa [hf] using h
    | some act =>
      simp only [hf] at h ⊢
      cases hd : (act event draft.context draft.world).fault with
      | none =>
        simp only [hd] at h ⊢
        exact ih h
      | some fault => simpa [hd] using h

/-- A sequence of actions fails with the first of them that fails, wherever that stands: those in
front of it have succeeded, and those behind it are not run. -/
theorem perform_failed_iff : m.perform event steps draft = (last, some failure) ↔
    ∃ before step after middle, steps = before ++ step :: after ∧
      m.perform event before draft = (middle, none) ∧
      m.perform event [step] middle = (last, some failure) := by
  constructor
  · intro h
    -- Either the first action fails, or it is one of the others, from what the first one leaves.
    induction steps generalizing draft with
    | nil => cases h
    | cons step steps ih =>
      change m.perform event ([step] ++ steps) draft = (last, some failure) at h
      cases hp : m.perform event [step] draft with
      | mk middle result =>
        cases result with
        | none =>
          rw [perform_append hp] at h
          obtain ⟨before, failing, after, latest, rfl, hb, hf⟩ := ih h
          refine ⟨step :: before, failing, after, latest, rfl, ?_, hf⟩
          change m.perform event ([step] ++ before) draft = (latest, none)
          rwa [perform_append hp]
        | some other =>
          rw [perform_append_of_failed hp] at h
          exact ⟨[], step, steps, draft, rfl, rfl, hp.trans h⟩
  · rintro ⟨before, step, after, middle, rfl, hb, hf⟩
    rw [perform_append hb]
    change m.perform event ([step] ++ after) middle = (last, some failure)
    exact perform_append_of_failed hf

end

/-! ## What an event asks for -/

section

variable [DecidableEq K] (m : Machine S K E C W) (event : E) (run : Run S E C W O)

/-- What processing an event sets out to do: the target and actions of the delayed transition or of
the rule, if its guard lets the event pass, and the world to do it in. -/
def admitted? : Option (Option S × List String × W) :=
  match m.delayed? event run with
  | some after => some (some after.target, after.actions, run.world)
  | none =>
    if EventLike.isWellFormed event ∧ EventLike.elapsedTimer? event = none then
      match m.definition.rule? run.state (EventLike.kind event) with
      | some rule =>
        match rule.guard with
        | none => some (rule.target, rule.actions, run.world)
        | some guard =>
          match m.check guard run.state (some event) run.context run.world with
          | (world, .ok true) => some (rule.target, rule.actions, world)
          | _ => none
      | none => none
    else none

/-- How far the actions come that an event sets going: those of the rule, and those on entering a
target that is another state. -/
def attempted? : Option (Draft E C W × Option Failure) :=
  (m.admitted? event run).map fun (target, actions, world) =>
    m.perform (some event) (m.ruleSteps run.state actions (target.filter (· ≠ run.state)))
      ⟨run.context, [], world⟩

/-- The events that come into the queue when an event is processed: those that the actions raise, if
all of them succeed. -/
def raised : List E :=
  match m.attempted? event run with
  | some (draft, none) => draft.raised
  | _ => []

/-- The event is carried out, and reported as such. -/
def Commits : Prop :=
  ∃ snapshot, (m.process event run).journal = snapshot :: run.journal ∧
    snapshot.outcome.commits = true

/-- Why an event is not carried out, and with which outcome it is reported. -/
inductive Refused : Option (Outcome S) → Prop where
  | ignored : (m.definition.node? run.state = none ∨ EventLike.isWellFormed event = false ∨
      EventLike.elapsedTimer? event = none ∧
        m.definition.rule? run.state (EventLike.kind event) = none) → Refused (some .ignored)
  /-- The timer is not that of the current visit, or has not fired. -/
  | stale {timer : TimerId} : m.definition.node? run.state ≠ none →
      EventLike.isWellFormed event = true → EventLike.elapsedTimer? event = some timer →
      m.delayed? event run = none → Refused none
  | rejected {rule : Rule S} {guard : String} {world : W} :
      EventLike.isWellFormed event = true → EventLike.elapsedTimer? event = none →
      m.definition.rule? run.state (EventLike.kind event) = some rule → rule.guard = some guard →
      m.check guard run.state (some event) run.context run.world = (world, .ok false) →
      Refused (some (.guardRejected guard))
  | unanswered {rule : Rule S} {guard : String} {world : W} {failure : Failure} :
      EventLike.isWellFormed event = true → EventLike.elapsedTimer? event = none →
      m.definition.rule? run.state (EventLike.kind event) = some rule → rule.guard = some guard →
      m.check guard run.state (some event) run.context run.world = (world, .error failure) →
      Refused (some (.failed failure))
  /-- An action fails, after any others that have succeeded. -/
  | failed {target : Option S} {actions : List String} {world : W}
      {before after : List (S × String)} {step : S × String} {middle last : Draft E C W}
      {failure : Failure} :
      m.admitted? event run = some (target, actions, world) →
      m.ruleSteps run.state actions (target.filter (· ≠ run.state)) = before ++ step :: after →
      m.perform (some event) before ⟨run.context, [], world⟩ = (middle, none) →
      m.perform (some event) [step] middle = (last, some failure) →
      Refused (some (.failed failure))

end

variable [DecidableEq K] {m : Machine S K E C W} {event : E} {run : Run S E C W O}

theorem process_of_admitted? {target : Option S} {actions : List String} {world : W}
    (h : m.admitted? event run = some (target, actions, world)) :
    m.process event run = m.apply target actions event (run.withWorld world) := by
  unfold admitted? at h
  split at h
  · next after hd =>
    cases h
    exact process_eq_apply hd
  · split at h
    · next hw =>
      split at h
      · next rule hr =>
        rw [process_of_rule hw.1 hw.2 hr, applyGuarded]
        cases hg : rule.guard with
        | none =>
          simp only [hg, Option.some.injEq, Prod.mk.injEq] at h
          obtain ⟨rfl, rfl, rfl⟩ := h
          rfl
        | some guard =>
          cases hc : m.check guard run.state (some event) run.context run.world with
          | mk world answer =>
            cases answer with
            | error failure => simp [hg, hc] at h
            | ok answer =>
              cases answer with
              | false => simp [hg, hc] at h
              | true =>
                simp only [hg, hc, Option.some.injEq, Prod.mk.injEq] at h
                obtain ⟨rfl, rfl, rfl⟩ := h
                simp only [hc]
      · cases h
    · cases h

omit [DecidableEq K] in
theorem apply_of_performed {target : Option S} {actions : List String} {draft : Draft E C W}
    (h : m.perform (some event) (m.ruleSteps run.state actions (target.filter (· ≠ run.state)))
      ⟨run.context, [], run.world⟩ = (draft, none)) :
    m.apply target actions event run =
      m.commit (target.filter (· ≠ run.state)) event draft run := by
  simp only [apply, h]

omit [DecidableEq K] in
theorem apply_of_failed {target : Option S} {actions : List String} {draft : Draft E C W}
    {failure : Failure}
    (h : m.perform (some event) (m.ruleSteps run.state actions (target.filter (· ≠ run.state)))
      ⟨run.context, [], run.world⟩ = (draft, some failure)) :
    m.apply target actions event run =
      (run.withWorld draft.world).publish (some event) (.failed failure) := by
  simp only [apply, h]

theorem process_of_attempted? {draft : Draft E C W}
    (h : m.attempted? event run = some (draft, none)) :
    ∃ target world, m.process event run = m.commit target event draft (run.withWorld world) := by
  obtain ⟨⟨target, actions, world⟩, ha, hp⟩ := Option.map_eq_some_iff.1 h
  refine ⟨target.filter (· ≠ run.state), world, ?_⟩
  rw [process_of_admitted? ha]
  exact apply_of_performed hp

theorem Refused.process_eq {outcome : Option (Outcome S)} (h : m.Refused event run outcome) :
    ∃ world, m.process event run = (run.withWorld world).report event outcome := by
  cases h with
  | ignored hi =>
    refine ⟨run.world, ?_⟩
    rcases hi with hn | hw | ⟨ht, hr⟩
    · rw [process, hn]
      rfl
    · exact process_of_malformed hw
    · exact process_of_no_rule ht hr
  | stale hn hw ht hd =>
    obtain ⟨node, hnode⟩ := Option.ne_none_iff_exists'.1 hn
    exact ⟨run.world, process_of_delayed?_none hnode hw ht hd⟩
  | @rejected rule guard world hw ht hr hg hc =>
    refine ⟨world, ?_⟩
    rw [process_of_rule hw ht hr, applyGuarded, hg]
    simp only [hc]
    rfl
  | @unanswered rule guard world failure hw ht hr hg hc =>
    refine ⟨world, ?_⟩
    rw [process_of_rule hw ht hr, applyGuarded, hg]
    simp only [hc]
    rfl
  | @failed target actions world before after step middle last failure ha hs hb hf =>
    refine ⟨last.world, ?_⟩
    have hp := perform_failed_iff.2 ⟨before, step, after, middle, hs, hb, hf⟩
    rw [process_of_admitted? ha]
    exact apply_of_failed hp

/-- What is not admitted is refused. -/
theorem refused_of_admitted? (h : m.admitted? event run = none) :
    ∃ outcome, m.Refused event run outcome := by
  cases hw : EventLike.isWellFormed event with
  | false => exact ⟨_, .ignored (.inr (.inl hw))⟩
  | true =>
    cases hd : m.delayed? event run with
    | some after => simp [admitted?, hd] at h
    | none =>
      cases ht : EventLike.elapsedTimer? event with
      | some timer =>
        by_cases hn : m.definition.node? run.state = none
        · exact ⟨_, .ignored (.inl hn)⟩
        · exact ⟨_, .stale hn hw ht hd⟩
      | none =>
        cases hr : m.definition.rule? run.state (EventLike.kind event) with
        | none => exact ⟨_, .ignored (.inr (.inr ⟨ht, hr⟩))⟩
        | some rule =>
          cases hg : rule.guard with
          | none => simp [admitted?, hd, hw, ht, hr, hg] at h
          | some guard =>
            cases hc : m.check guard run.state (some event) run.context run.world with
            | mk world answer =>
              cases answer with
              | ok answer =>
                cases answer with
                | true => simp [admitted?, hd, hw, ht, hr, hg, hc] at h
                | false => exact ⟨_, .rejected hw ht hr hg hc⟩
              | error failure => exact ⟨_, .unanswered hw ht hr hg hc⟩

/-- Either all actions succeed, or there is a reason why nothing comes of the event. -/
theorem attempted_or_refused (m : Machine S K E C W) (event : E) (run : Run S E C W O) :
    (∃ draft, m.attempted? event run = some (draft, none)) ∨
      ∃ outcome, m.Refused event run outcome := by
  cases ha : m.admitted? event run with
  | none => exact .inr (refused_of_admitted? ha)
  | some admitted =>
    obtain ⟨target, actions, world⟩ := admitted
    cases hp : m.perform (some event)
        (m.ruleSteps run.state actions (target.filter (· ≠ run.state)))
        ⟨run.context, [], world⟩ with
    | mk draft result =>
      cases result with
      | none => exact .inl ⟨draft, Option.map_eq_some_iff.2 ⟨_, ha, hp⟩⟩
      | some failure =>
        obtain ⟨before, step, after, middle, hs, hb, hf⟩ := perform_failed_iff.1 hp
        exact .inr ⟨_, .failed ha hs hb hf⟩

/-! ## Carried out or not -/

theorem Refused.keeps {outcome : Outcome S} (h : m.Refused event run (some outcome)) :
    outcome.Keeps := by
  cases h with
  | ignored | rejected | unanswered | failed => trivial

theorem Refused.journal_eq {outcome : Option (Outcome S)} (h : m.Refused event run outcome) :
    (m.process event run).journal =
      (outcome.map fun outcome => run.shown (some event) outcome).toList ++ run.journal := by
  obtain ⟨world, hp⟩ := h.process_eq
  rw [hp]
  cases outcome with
  | none => rfl
  | some outcome => rfl

theorem Refused.not_commits {outcome : Option (Outcome S)} (h : m.Refused event run outcome) :
    ¬ m.Commits event run := by
  rintro ⟨snapshot, hj, hc⟩
  rw [h.journal_eq] at hj
  cases outcome with
  | none => exact List.cons_ne_self _ _ hj.symm
  | some outcome =>
    cases hj
    change outcome.commits = true at hc
    rw [h.keeps.commits_eq_false] at hc
    cases hc

/-- An event is carried out exactly if it is admitted and all actions succeed. -/
theorem commits_iff :
    m.Commits event run ↔ ∃ draft, m.attempted? event run = some (draft, none) := by
  constructor
  · intro h
    rcases m.attempted_or_refused event run with hdone | ⟨outcome, hr⟩
    · exact hdone
    · exact absurd h hr.not_commits
  · rintro ⟨draft, h⟩
    obtain ⟨target, world, hp⟩ := process_of_attempted? h
    unfold Commits
    rw [hp]
    cases target with
    | none => exact ⟨_, rfl, rfl⟩
    | some target =>
      rw [journal_commit_some]
      exact ⟨_, rfl, rfl⟩

theorem not_commits_iff : ¬ m.Commits event run ↔ ∃ outcome, m.Refused event run outcome := by
  constructor
  · intro h
    rcases m.attempted_or_refused event run with hdone | hr
    · exact absurd (commits_iff.2 hdone) h
    · exact hr
  · rintro ⟨outcome, h⟩
    exact h.not_commits

theorem raised_eq_nil (h : ¬ m.Commits event run) : m.raised event run = [] := by
  unfold raised
  split
  · next draft ha => exact absurd (commits_iff.2 ⟨draft, ha⟩) h
  · rfl

theorem queue_process (m : Machine S K E C W) (event : E) (run : Run S E C W O) :
    (m.process event run).queue = run.queue ++ m.raised event run := by
  rcases m.attempted_or_refused event run with ⟨draft, ha⟩ | ⟨outcome, hr⟩
  · obtain ⟨target, world, hp⟩ := process_of_attempted? ha
    rw [hp, queue_commit, raised, ha]
    rfl
  · obtain ⟨world, hp⟩ := hr.process_eq
    rw [hp, raised_eq_nil hr.not_commits, List.append_nil]
    cases outcome with
    | none => rfl
    | some outcome => rfl

end Machine

end Automat
