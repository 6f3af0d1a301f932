import Automat.Builder
import Automat.Proofs.Definition.Issue
import Automat.Script.Signal
import Mathlib.Data.List.Basic

/-!
What a builder reports about a table. The report is described without a run over the table: by what
stands in front of a node, a rule or a name (`Definition.Reports`). Main statement: a builder makes a
machine of exactly the complete tables, and about any other it makes the one report there is
(`build_reports`).
-/

namespace Automat

section

variable {α β : Type} [DecidableEq α]

/-- The items whose key is that of an item in front of them. -/
def recurring (key : β → α) (list : List β) : List β :=
  (list.zipIdx.filter fun entry => key entry.1 ∈ (list.take entry.2).map key).map (·.1)

/-- The items of a list that meet a condition, each once, in the order in which they come up first. -/
structure FirstUses (p : α → Bool) (list firsts : List α) : Prop where
  mem_iff : ∀ a, a ∈ firsts ↔ a ∈ list ∧ p a = true
  ordered : firsts.Pairwise fun a b => list.idxOf a < list.idxOf b

/-! ## Repetitions -/

/-- The part of a list behind some items, of which the keys before it are those. -/
theorem repeated_eq_of_front (key : β → α) (front list : List β) (before : List α)
    (h : ∀ a, a ∈ before ↔ a ∈ front.map key) :
    repeated before (list.map key) =
      ((list.zipIdx front.length).filter fun entry =>
        key entry.1 ∈ ((front ++ list).take entry.2).map key).map (key ·.1) := by
  induction list generalizing front before with
  | nil => rfl
  | cons item rest ih =>
    have hrest := ih (front ++ [item]) (key item :: before) (by simp [h, or_comm])
    rw [List.length_append, List.length_singleton, List.append_assoc, List.singleton_append]
      at hrest
    rw [List.map_cons, repeated, hrest, List.zipIdx_cons, List.filter_cons]
    simp only [List.take_left, ← h, decide_eq_true_eq]
    split <;> rfl

theorem repeated_map (key : β → α) (list : List β) :
    repeated [] (list.map key) = (recurring key list).map key := by
  rw [repeated_eq_of_front key [] list [] (by simp), recurring, List.map_map]
  rfl

/-! ## First uses -/

theorem pairwise_distinct (before list : List α) :
    (distinct before list).Pairwise fun a b => list.idxOf a < list.idxOf b := by
  induction list generalizing before with
  | nil => exact .nil
  | cons a rest ih =>
    -- What is not the first item comes up one place later with it in front.
    have hlater (seen : List α) (hseen : a ∈ seen) : (distinct seen rest).Pairwise
        fun b c => (a :: rest).idxOf b < (a :: rest).idxOf c := by
      refine (ih seen).imp_of_mem ?_
      intro b c hb hc hlt
      have hne : ∀ d ∈ distinct seen rest, a ≠ d := by
        rintro d hd rfl
        exact ((mem_distinct_iff _ _ _).1 hd).2 hseen
      rw [List.idxOf_cons_ne rest (hne b hb), List.idxOf_cons_ne rest (hne c hc)]
      exact Nat.succ_lt_succ hlt
    unfold distinct
    split
    · next ha => exact hlater before ha
    · refine List.pairwise_cons.2 ⟨?_, hlater (a :: before) List.mem_cons_self⟩
      intro b hb
      have hne : a ≠ b := by
        rintro rfl
        exact ((mem_distinct_iff _ _ _).1 hb).2 List.mem_cons_self
      rw [List.idxOf_cons_self, List.idxOf_cons_ne rest hne]
      exact Nat.succ_pos _

theorem firstUses_filter_distinct (p : α → Bool) (list : List α) :
    FirstUses p list ((distinct [] list).filter p) where
  mem_iff a := by simp [mem_distinct_iff]
  ordered := (pairwise_distinct [] list).filter p

/-- There is only one way to list the first uses. -/
theorem FirstUses.unique {p : α → Bool} {list firsts others : List α}
    (h : FirstUses p list firsts) (ho : FirstUses p list others) : others = firsts := by
  have hnodup {uses : List α} (hu : FirstUses p list uses) : uses.Nodup := by
    refine hu.ordered.imp ?_
    rintro a b hlt rfl
    exact Nat.lt_irrefl _ hlt
  have hperm : others.Perm firsts := by
    refine (List.perm_ext_iff_of_nodup (hnodup ho) (hnodup h)).2 ?_
    intro a
    rw [ho.mem_iff, h.mem_iff]
  refine hperm.eq_of_pairwise ?_ ho.ordered h.ordered
  intro a b _ _ hlt hgt
  exact absurd hgt (Nat.lt_asymm hlt)

end

/-! ## Reports -/

namespace Definition

variable {S K : Type} [DecidableEq S] [DecidableEq K] [Named S] [Named K]

def declared (definition : Definition S K) : List S := definition.nodes.map (·.state)

/-- All that is wrong with a table, check by check: the initial state if it is not declared; every
node whose state has a node in front of it; every rule whose kind of event has a rule in front of it
in the same node; every target that is not declared, node by node; and every action name, then every
guard name, that is not registered, once each and in order of first use. -/
def Reports (definition : Definition S K) (isAction isGuard : String → Bool)
    (issues : List Issue) : Prop :=
  ∃ actions guards,
    FirstUses (fun name => !isAction name) definition.actionNames actions ∧
    FirstUses (fun name => !isGuard name) definition.guardNames guards ∧
    issues =
      (if definition.initial ∈ definition.declared then []
        else [.unknownInitialState (name definition.initial)]) ++
      (recurring (·.state) definition.nodes).map (fun node => .duplicateState (name node.state)) ++
      definition.nodes.flatMap (fun node => (recurring (·.1) node.rules).map fun entry =>
        .duplicateRule (name node.state) (name entry.1)) ++
      definition.nodes.flatMap (fun node =>
        (node.targets.filter (· ∉ definition.declared)).map fun target =>
          .undeclaredTarget (name node.state) (name target)) ++
      actions.map .unknownAction ++ guards.map .unknownGuard

variable {definition : Definition S K} {isAction isGuard : String → Bool}

omit [DecidableEq K] [Named S] [Named K] in
theorem isSome_node?_iff (state : S) :
    (definition.node? state).isSome ↔ state ∈ definition.declared := by
  simp [node?, declared, List.find?_isSome]

omit [DecidableEq K] [Named K] in
theorem initialIssues_eq : definition.initialIssues =
    if definition.initial ∈ definition.declared then []
      else [.unknownInitialState (name definition.initial)] := by
  unfold initialIssues
  simp only [← isSome_node?_iff]
  cases definition.node? definition.initial <;> rfl

omit [DecidableEq K] [Named K] in
theorem stateIssues_eq : definition.stateIssues =
    (recurring (·.state) definition.nodes).map fun node => .duplicateState (name node.state) := by
  rw [stateIssues, repeated_map, List.map_map]
  rfl

omit [DecidableEq S] in
theorem ruleIssues_eq : definition.ruleIssues = definition.nodes.flatMap fun node =>
    (recurring (·.1) node.rules).map fun entry =>
      .duplicateRule (name node.state) (name entry.1) := by
  unfold ruleIssues
  simp only [repeated_map, List.map_map]
  rfl

omit [DecidableEq K] [Named K] in
theorem targetIssues_eq : definition.targetIssues = definition.nodes.flatMap fun node =>
    (node.targets.filter (· ∉ definition.declared)).map fun target =>
      .undeclaredTarget (name node.state) (name target) := by
  have hdeclared (target : S) :
      (definition.node? target).isNone = decide (target ∉ definition.declared) := by
    rw [Bool.eq_iff_iff, decide_eq_true_iff, ← isSome_node?_iff]
    simp
  simp only [targetIssues, hdeclared]

/-- There is one report on a table, and the checks make it. -/
theorem reports_iff {issues : List Issue} :
    definition.Reports isAction isGuard issues ↔ issues = definition.issues isAction isGuard := by
  have hactions := firstUses_filter_distinct (fun name => !isAction name) definition.actionNames
  have hguards := firstUses_filter_distinct (fun name => !isGuard name) definition.guardNames
  simp only [Definition.issues, initialIssues_eq, stateIssues_eq, ruleIssues_eq, targetIssues_eq]
  constructor
  · rintro ⟨actions, guards, ha, hg, rfl⟩
    rw [hactions.unique ha, hguards.unique hg]
    rfl
  · rintro rfl
    exact ⟨_, _, hactions, hguards, rfl⟩

end Definition

namespace Builder

variable {S K E C W : Type} [DecidableEq S] [DecidableEq K] [Named S] [Named K]

/-- With a context, a builder makes a machine exactly if its table is complete. Otherwise it fails
with a report of all that is wrong with the table, of which there is one and which is not empty.
Without a context it says so, whatever the table is like. -/
theorem build_reports (builder : Builder S K E C W) :
    (∀ context, builder.context = some context →
      ((∃ m, builder.build = .ok m) ↔
        builder.definition.Complete builder.actions.contains builder.guards.contains) ∧
      (¬ builder.definition.Complete builder.actions.contains builder.guards.contains →
        ∃ issues, builder.build = .error (.invalidDefinition builder.definition.id issues) ∧
          issues ≠ [] ∧
          ∀ other, builder.definition.Reports builder.actions.contains builder.guards.contains
            other ↔ other = issues)) ∧
    (builder.context = none → builder.build = .error .missingContext) := by
  have hcomplete : builder.issues = [] ↔
      builder.definition.Complete builder.actions.contains builder.guards.contains :=
    Definition.issues_eq_nil_iff
  refine ⟨?_, ?_⟩
  · intro context hcontext
    refine ⟨(build_isOk_iff hcontext).trans hcomplete, ?_⟩
    intro hincomplete
    have hissues : builder.issues ≠ [] := mt hcomplete.1 hincomplete
    refine ⟨builder.issues, ?_, hissues, fun other => Definition.reports_iff⟩
    unfold build
    rw [hcontext]
    simp [hissues]
  · intro hnone
    rw [build, hnone]

section

open Script

/-- Its first state is missing, "a" has two nodes, "go" and "stop" have two rules each, "b" is the
target of a rule and of a delayed transition, and neither "hum" nor "fair" is known. -/
def muddledBuilder : Builder String String Signal Nat Unit where
  definition :=
    { id := "muddle"
      initial := "home"
      nodes :=
        [{ state := "a"
           entry := ["hum"]
           rules := [("go", { target := some "b", guard := some "fair", actions := ["hum", "walk"] }),
             ("go", { target := some "c", guard := some "wet" })]
           after := some { delay := .ofMillis 1, target := "b", actions := ["hum"] } },
         { state := "c", entry := ["walk"], rules := [("go", { target := some "a" })] },
         { state := "a"
           rules := [("stop", { target := none, guard := some "fair" }),
             ("stop", { target := some "c" })] }] }
  actions := [("walk", .nothing)]
  guards := [("wet", .pure fun _ _ => true)]
  context := some 0
  clock _ := .epoch

/-- The missing target is reported for each of its uses, and a missing name only once. -/
theorem build_reports_muddle : ∃ issues,
    muddledBuilder.build = .error (.invalidDefinition "muddle" issues) ∧
    issues = [.unknownInitialState "home", .duplicateState "a", .duplicateRule "a" "go",
      .duplicateRule "a" "stop", .undeclaredTarget "a" "b", .undeclaredTarget "a" "b",
      .unknownAction "hum", .unknownGuard "fair"] ∧
    muddledBuilder.definition.Reports muddledBuilder.actions.contains
      muddledBuilder.guards.contains issues := by
  obtain ⟨hbuild, -⟩ := build_reports muddledBuilder
  obtain ⟨-, hfails⟩ := hbuild 0 rfl
  obtain ⟨issues, herror, -, hreport⟩ := hfails fun h => absurd h.states (by decide)
  have hissues : muddledBuilder.build = .error (.invalidDefinition "muddle" _) := rfl
  cases herror.symm.trans hissues
  exact ⟨_, hissues, rfl, (hreport _).2 rfl⟩

end

end Builder

end Automat
