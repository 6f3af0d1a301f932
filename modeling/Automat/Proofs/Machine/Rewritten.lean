import Automat.Proofs.Machine.Clients
import Automat.Proofs.Machine.Journal
import Automat.Proofs.Machine.Table

/-!
Machines with rewritten tables. A builder that accepts a table also accepts it in another order, and
the machine does the same (`reordered_runs_alike`); so it does when rules that lead back to their
own state are made rules without a target, since they never changed the state (`self_targets_stay`).
-/

namespace Automat

variable {S K E C W : Type} [DecidableEq S] [DecidableEq K] [Named S] [Named K]

/-- What a builder accepts, and what it makes of it. -/
theorem Builder.build_eq_ok_iff {builder : Builder S K E C W} {m : Machine S K E C W} :
    builder.build = .ok m ↔ ∃ context, builder.context = some context ∧
      builder.definition.Complete builder.actions.contains builder.guards.contains ∧
      m = ⟨builder.definition, builder.actions, builder.guards, context, builder.historyLimit,
        builder.clock⟩ := by
  unfold build
  cases builder.context with
  | none => simp
  | some context =>
    have hissues : builder.issues.isEmpty = true ↔
        builder.definition.Complete builder.actions.contains builder.guards.contains := by
      rw [List.isEmpty_iff]
      exact Definition.issues_eq_nil_iff
    by_cases hc : builder.definition.Complete builder.actions.contains builder.guards.contains
    · simp [hissues.2 hc, hc, eq_comm]
    · have hempty : builder.issues.isEmpty = false := by
        rw [← Bool.not_eq_true, hissues]
        exact hc
      simp [hempty, hc]

theorem Builder.build_rewritten {builder : Builder S K E C W} {m : Machine S K E C W}
    {other : Definition S K} (hb : builder.build = .ok m)
    (hc : other.Complete builder.actions.contains builder.guards.contains) :
    ({ builder with definition := other } : Builder S K E C W).build =
      .ok { m with definition := other } := by
  obtain ⟨context, hcontext, -, rfl⟩ := build_eq_ok_iff.1 hb
  exact build_eq_ok_iff.2 ⟨context, hcontext, hc, rfl⟩

namespace Machine

variable [EventLike E K] {m : Machine S K E C W} {O : Type}

omit [Named S] [Named K] [EventLike E K] in
theorem Resembles.rewritten {other : Definition S K} (h : m.definition.Alike other) :
    Resembles id m { m with definition := other } :=
  { Resembles.refl m with definition := h }

/-- With a table that works alike, sessions are the same from beginning to end. -/
theorem session_rewritten {other : Definition S K} (h : m.definition.Alike other) (fuel : Nat)
    (interactions : List (Interaction S K E C O)) (world : W) (observers : O) :
    { m with definition := other }.session fuel interactions
        ({ m with definition := other }.newRun world observers) =
      m.session fuel interactions (m.newRun world observers) := by
  have hstart : { m with definition := other }.newRun world observers =
      m.newRun world observers := by
    simp only [newRun, h.initial]
  rw [hstart]
  refine session_congr ?_ interactions _
  intro call run
  have hcall : { m with definition := other }.call fuel call (run.seen id id) = _ :=
    (Resembles.rewritten h).call hears_id fuel call run
  cases hm : m.call fuel call run with
  | none =>
    rw [hm] at hcall
    exact hcall
  | some done =>
    rw [hm] at hcall
    exact hcall

/-- A builder that accepts a table accepts it in any other order of its nodes and of the rules
inside them. In every session the two machines give the same answers and are the same after
everything that clients do: in what they are, in what they have published, and in what their
actions, guards and callbacks have done. -/
theorem reordered_runs_alike {builder : Builder S K E C W} (hb : builder.build = .ok m)
    {other : Definition S K} (hr : builder.definition.Reordered other) :
    ∃ n, ({ builder with definition := other } : Builder S K E C W).build = .ok n ∧
      ∀ (O : Type) fuel (interactions : List (Interaction S K E C O)) world observers,
        n.session fuel interactions (n.newRun world observers) =
          m.session fuel interactions (m.newRun world observers) := by
  obtain ⟨context, -, hc, rfl⟩ := Builder.build_eq_ok_iff.1 hb
  exact ⟨_, Builder.build_rewritten hb (hr.complete hc),
    fun _ => session_rewritten (hr.alike hc)⟩

/-! ## A turnstile -/

section

open Script

/-- It counts how often it is locked. A coin opens it for ten milliseconds, whether more of them
follow or not; then it locks by itself. -/
def turnstileBuilder : Builder String String Signal Nat Unit where
  definition :=
    { id := "turnstile"
      initial := "locked"
      nodes :=
        [{ state := "locked"
           entry := ["count"]
           rules := [("coin", { target := some "open" }), ("push", { target := some "locked" })] },
         { state := "open"
           rules := [("push", { target := some "locked" }), ("coin", { target := some "open" })]
           after := some { delay := .ofMillis 10, target := "locked" } }] }
  actions := [("count", .assign fun _ count => count + 1)]
  context := some 0
  clock _ := .epoch

def turnstile : Machine String String Signal Nat Unit where
  definition := turnstileBuilder.definition
  actions := turnstileBuilder.actions
  guards := []
  context := 0
  historyLimit := History.defaultLimit
  clock _ := .epoch

def delays : List (Interaction String String Signal Nat Unit) :=
  [.call .start, .call (.send { kind := "push" }), .call (.send { kind := "coin" }),
    .call (.advance (.ofMillis 6)), .call (.send { kind := "coin" }),
    .call (.advance (.ofMillis 6))]

/-- The table from its end to its beginning. -/
def backwards {S K : Type} (definition : Definition S K) : Definition S K :=
  { definition with
    nodes := (definition.nodes.map fun node => { node with rules := node.rules.reverse }).reverse }

theorem reordered_backwards {S K : Type} (definition : Definition S K) :
    definition.Reordered (backwards definition) where
  id := rfl
  initial := rfl
  nodes := by
    refine ⟨_, ?_, (List.reverse_perm _).symm⟩
    rw [List.forall₂_map_right_iff, List.forall₂_same]
    intro node _
    exact ⟨rfl, rfl, rfl, (List.reverse_perm _).symm⟩

/-- The turnstile works the same with its table backwards: it is locked after the start, and again
when the time for the first coin is over. -/
theorem reordered_runs_alike_turnstile :
    turnstileBuilder.build = .ok turnstile ∧
    turnstileBuilder.definition.Reordered (backwards turnstileBuilder.definition) ∧
    backwards turnstileBuilder.definition ≠ turnstileBuilder.definition ∧
    ∃ n, ({ turnstileBuilder with definition := backwards turnstileBuilder.definition } :
        Builder String String Signal Nat Unit).build = .ok n ∧
      n.session 3 delays (n.newRun () ()) = turnstile.session 3 delays (turnstile.newRun () ()) ∧
      ((n.session 3 delays (n.newRun () ())).map courses).map
          (·.map fun (_, course) => (course.state, course.context)) =
        some [("locked", 1), ("locked", 1), ("open", 1), ("open", 1), ("open", 1),
          ("locked", 2)] := by
  have hb : turnstileBuilder.build = .ok turnstile := rfl
  obtain ⟨n, hn, hsame⟩ := reordered_runs_alike hb (reordered_backwards _)
  refine ⟨hb, reordered_backwards _, by decide, n, hn, hsame _ _ _ _ _, ?_⟩
  rw [hsame]
  rfl

end

/-! ## Rules that lead back to their own state -/

/-- An event is reported once and not as a change of state, and there is no new visit, no other
timer and no record. -/
structure InPlace {S E C W O : Type} (event : E) (run next : Run S E C W O) : Prop where
  stays : Stays run next
  timers : next.timers = run.timers
  now : next.now = run.now
  reported : ∃ outcome, (outcome = .handled ∨ outcome.Keeps) ∧
    next.journal = next.shown (some event) outcome :: run.journal

variable {event : E} {run next : Run S E C W O} {rule : Rule S}

omit [Named S] [Named K] in
theorem prompts_iff_of_rule {target : Option S} {actions : List String}
    (ht : EventLike.elapsedTimer? event = none)
    (hr : m.definition.rule? run.state (EventLike.kind event) = some rule) :
    m.Prompts event run target actions ↔ target = rule.target ∧ actions = rule.actions := by
  have hd : m.delayed? event run = none := by
    unfold delayed?
    rw [ht]
    cases EventLike.isWellFormed event <;> rfl
  simp [Prompts, hd, ht, hr]

theorem Processed.inPlace (h : m.Processed event run next)
    (ht : EventLike.elapsedTimer? event = none)
    (hr : m.definition.rule? run.state (EventLike.kind event) = some rule)
    (hself : rule.target.filter (· ≠ run.state) = none) : InPlace event run next := by
  cases h with
  | dropped _ hsome =>
    rw [ht] at hsome
    cases hsome
  | kept world outcome hk => exact ⟨⟨rfl, rfl, rfl, rfl⟩, rfl, rfl, outcome, .inr hk, rfl⟩
  | @committed target actions draft world hprompts _ =>
    obtain ⟨rfl, rfl⟩ := (prompts_iff_of_rule ht hr).1 hprompts
    rw [hself]
    exact ⟨⟨rfl, rfl, rfl, rfl⟩, rfl, rfl, .handled, .inl rfl, rfl⟩

/-- A rule that changes no state attempts its own actions and no others. -/
theorem attempted?_of_rule {draft : Draft E C W × Option Failure}
    (ht : EventLike.elapsedTimer? event = none)
    (hr : m.definition.rule? run.state (EventLike.kind event) = some rule)
    (hself : rule.target.filter (· ≠ run.state) = none)
    (ha : m.attempted? event run = some draft) : ∃ world, draft =
      m.perform (some event) (rule.actions.map (run.state, ·)) ⟨run.context, [], world⟩ := by
  obtain ⟨⟨target, actions, world⟩, hadmitted, rfl⟩ := Option.map_eq_some_iff.1 ha
  obtain ⟨rfl, rfl⟩ := (prompts_iff_of_rule ht hr).1 (prompts_of_admitted? hadmitted)
  refine ⟨world, ?_⟩
  simp only [hself, ruleSteps, Option.toList_none, List.flatMap_nil, List.append_nil]

/-- A builder that accepts a table accepts it with a rule without target in place of every rule that
leads back to its own state. In every session the two machines give the same answers and are the
same after everything that clients do. In both of them an event with such a rule is handled in
place, if at all: no actions are attempted but those of the rule, so none for entering the state. -/
theorem self_targets_stay {builder : Builder S K E C W} (hb : builder.build = .ok m) :
    ∃ n, ({ builder with definition := builder.definition.staying } : Builder S K E C W).build =
        .ok n ∧
      (∀ (O : Type) fuel (interactions : List (Interaction S K E C O)) world observers,
        n.session fuel interactions (n.newRun world observers) =
          m.session fuel interactions (m.newRun world observers)) ∧
      ∀ x, x = m ∨ x = n → ∀ (O : Type) (run : Run S E C W O) event rule,
        EventLike.elapsedTimer? event = none →
        m.definition.rule? run.state (EventLike.kind event) = some rule →
        rule.target = some run.state →
        InPlace event run (x.process event run) ∧
        ∀ draft, x.attempted? event run = some draft → ∃ world, draft =
          x.perform (some event) (rule.actions.map (run.state, ·)) ⟨run.context, [], world⟩ := by
  obtain ⟨context, -, hc, rfl⟩ := Builder.build_eq_ok_iff.1 hb
  refine ⟨_, Builder.build_rewritten hb hc.staying,
    fun _ => session_rewritten builder.definition.alike_staying, ?_⟩
  intro x hx O run event rule ht hr htarget
  have hself : rule.target.filter (· ≠ run.state) = none := by
    simp [htarget, Option.filter_some]
  rcases hx with rfl | rfl
  · exact ⟨(processed _ _ _).inPlace ht hr hself, fun draft => attempted?_of_rule ht hr hself⟩
  · have hstay : builder.definition.staying.rule? run.state (EventLike.kind event) =
        some (rule.within run.state) := by
      rw [Definition.rule?_staying, hr, Option.map_some]
    have hnone : (rule.within run.state).target.filter (· ≠ run.state) = none := by
      rw [Rule.target_within, hself, Option.filter_none]
    rw [← rule.actions_within run.state]
    exact ⟨(processed _ _ _).inPlace ht hstay hnone, fun draft => attempted?_of_rule ht hstay hnone⟩

section

open Script

def locked : Run String Signal Nat Unit Unit :=
  turnstile.enterInitial ⟨1, [], ()⟩ (turnstile.newRun () ())

/-- With stay rules for coins and pushes that change nothing the turnstile works the same, and a
push on the locked one is not counted. -/
theorem self_targets_stay_turnstile :
    turnstileBuilder.build = .ok turnstile ∧
    turnstileBuilder.definition.staying ≠ turnstileBuilder.definition ∧
    ∃ n, ({ turnstileBuilder with definition := turnstileBuilder.definition.staying } :
        Builder String String Signal Nat Unit).build = .ok n ∧
      n.session 3 delays (n.newRun () ()) = turnstile.session 3 delays (turnstile.newRun () ()) ∧
      InPlace { kind := "push" } locked (turnstile.process { kind := "push" } locked) ∧
      InPlace { kind := "push" } locked (n.process { kind := "push" } locked) ∧
      (turnstile.process { kind := "push" } locked).context = 1 := by
  have hb : turnstileBuilder.build = .ok turnstile := rfl
  obtain ⟨n, hn, hsame, hstay⟩ := self_targets_stay hb
  have hplace (x : Machine String String Signal Nat Unit) (hx : x = turnstile ∨ x = n) :
      InPlace { kind := "push" } locked (x.process { kind := "push" } locked) :=
    (hstay x hx Unit locked { kind := "push" } { target := some "locked" } rfl rfl rfl).1
  exact ⟨hb, by decide, n, hn, hsame _ _ _ _ _, hplace _ (.inl rfl), hplace _ (.inr rfl), rfl⟩

end

end Machine

end Automat
