import Automat.Proofs.Definition.Issue
import Mathlib.Data.List.Forall2

/-!
Tables that work alike: every look-up finds the same in both, but for targets that are no change of
state. A complete table stays complete, and works as before, when its nodes and the rules inside
them are put into another order (`Reordered.complete`, `Reordered.alike`), and when every rule that
leads back to its own state is made one without a target (`Complete.staying`, `alike_staying`).
-/

namespace Automat

variable {S K : Type}

/-! ## Alike -/

section

variable [DecidableEq S]

/-- The rule as it works in a state: the state itself as a target is none. -/
def Rule.within (state : S) (rule : Rule S) : Rule S :=
  if rule.target = some state then { rule with target := none } else rule

@[simp]
theorem Rule.guard_within (state : S) (rule : Rule S) :
    (rule.within state).guard = rule.guard := by
  unfold within
  split <;> rfl

@[simp]
theorem Rule.actions_within (state : S) (rule : Rule S) :
    (rule.within state).actions = rule.actions := by
  unfold within
  split <;> rfl

@[simp]
theorem Rule.target_within (state : S) (rule : Rule S) :
    (rule.within state).target = rule.target.filter (· ≠ state) := by
  unfold within
  cases ht : rule.target with
  | none => simp [ht]
  | some target =>
    by_cases hs : target = state
    · simp [hs, Option.filter_some]
    · simp [ht, hs, Option.filter_some]

@[simp]
theorem Rule.within_within (state : S) (rule : Rule S) :
    (rule.within state).within state = rule.within state := by
  have hne : (rule.within state).target ≠ some state := by simp
  rw [within.eq_1 state (rule.within state), if_neg hne]

/-- Nodes of one state that do the same in it. -/
structure Node.Alike [DecidableEq K] (node other : Node S K) : Prop where
  entry : other.entry = node.entry
  after : other.after = node.after
  rules : ∀ kind, (other.rule? kind).map (Rule.within node.state) =
    (node.rule? kind).map (Rule.within node.state)

/-- Tables in which every state has nodes that do the same, or none. -/
structure Definition.Alike [DecidableEq K] (definition other : Definition S K) : Prop where
  id : other.id = definition.id
  initial : other.initial = definition.initial
  nodes : ∀ state, Option.Rel Node.Alike (definition.node? state) (other.node? state)

theorem Definition.Alike.refl [DecidableEq K] (definition : Definition S K) :
    definition.Alike definition where
  id := rfl
  initial := rfl
  nodes state := by
    cases definition.node? state with
    | none => exact .none
    | some node => exact .some ⟨rfl, rfl, fun _ => rfl⟩

end

/-! ## Another order -/

/-- Nodes that differ at most in the order of their rules. -/
structure Node.Reordered (node other : Node S K) : Prop where
  state : other.state = node.state
  entry : other.entry = node.entry
  after : other.after = node.after
  rules : node.rules.Perm other.rules

/-- Tables that differ at most in the order of their nodes and of the rules inside them. -/
structure Definition.Reordered (definition other : Definition S K) : Prop where
  id : other.id = definition.id
  initial : other.initial = definition.initial
  nodes : ∃ nodes, List.Forall₂ Node.Reordered definition.nodes nodes ∧ nodes.Perm other.nodes

/-- Where no key is given twice, a look-up finds the same in any order. -/
theorem find?_key_eq_of_perm {α β : Type} [DecidableEq α] {key : β → α} {list other : List β}
    (h : (list.map key).Nodup) (hp : list.Perm other) (a : α) :
    other.find? (key · = a) = list.find? (key · = a) := by
  have ho : (other.map key).Nodup := (hp.map key).nodup_iff.1 h
  have hfound : (list.find? (key · = a)).toList.Perm (other.find? (key · = a)).toList := by
    rw [← filter_key_eq_find? h, ← filter_key_eq_find? ho]
    exact hp.filter _
  cases hf : list.find? (key · = a) with
  | none =>
    rw [hf, Option.toList_none, List.nil_perm] at hfound
    exact Option.toList_eq_nil_iff.1 hfound
  | some b =>
    rw [hf, Option.toList_some, List.singleton_perm] at hfound
    exact Option.toList_eq_singleton_iff.1 hfound.symm

theorem exists_of_forall₂ {α β : Type} {r : α → β → Prop} {list : List α} {other : List β}
    (h : List.Forall₂ r list other) {b : β} (hb : b ∈ other) : ∃ a ∈ list, r a b := by
  induction h with
  | nil => cases hb
  | @cons a c list other hr _ ih =>
    rcases List.mem_cons.1 hb with rfl | hb
    · exact ⟨a, List.mem_cons_self, hr⟩
    · obtain ⟨found, hfound, hrel⟩ := ih hb
      exact ⟨found, List.mem_cons_of_mem _ hfound, hrel⟩

namespace Node.Reordered

variable {node other : Node S K} (h : node.Reordered other)

include h

theorem mem_rules_iff (entry : K × Rule S) : entry ∈ other.rules ↔ entry ∈ node.rules :=
  h.rules.mem_iff.symm

theorem mem_targets_iff (target : S) : target ∈ other.targets ↔ target ∈ node.targets := by
  simp only [Node.targets, List.mem_append, List.mem_filterMap, h.mem_rules_iff, h.after]

theorem mem_actionNames_iff (action : String) :
    action ∈ other.actionNames ↔ action ∈ node.actionNames := by
  simp only [Node.actionNames, List.mem_append, List.mem_flatMap, h.mem_rules_iff, h.entry, h.after]

theorem mem_guardNames_iff (guard : String) :
    guard ∈ other.guardNames ↔ guard ∈ node.guardNames := by
  simp only [Node.guardNames, List.mem_filterMap, h.mem_rules_iff]

theorem nodup (hn : (node.rules.map (·.1)).Nodup) : (other.rules.map (·.1)).Nodup :=
  (h.rules.map _).nodup_iff.1 hn

theorem rule?_eq [DecidableEq K] (hn : (node.rules.map (·.1)).Nodup) (kind : K) :
    other.rule? kind = node.rule? kind := by
  unfold rule?
  rw [find?_key_eq_of_perm hn h.rules]

theorem alike [DecidableEq S] [DecidableEq K] (hn : (node.rules.map (·.1)).Nodup) :
    node.Alike other where
  entry := h.entry
  after := h.after
  rules kind := by rw [h.rule?_eq hn]

end Node.Reordered

namespace Definition

variable [DecidableEq S] {definition other : Definition S K}
variable {isAction isGuard : String → Bool}

omit [DecidableEq S] in
theorem Reordered.exists_node (h : definition.Reordered other) {node : Node S K}
    (hn : node ∈ other.nodes) : ∃ own ∈ definition.nodes, own.Reordered node := by
  obtain ⟨nodes, hrel, hperm⟩ := h.nodes
  exact exists_of_forall₂ hrel (hperm.mem_iff.2 hn)

omit [DecidableEq S] in
theorem Reordered.states_perm (h : definition.Reordered other) :
    (definition.nodes.map (·.state)).Perm (other.nodes.map (·.state)) := by
  obtain ⟨nodes, hrel, hperm⟩ := h.nodes
  have hsame : definition.nodes.map (·.state) = nodes.map (·.state) := by
    rw [← List.forall₂_eq_eq_eq, List.forall₂_map_left_iff, List.forall₂_map_right_iff]
    exact hrel.imp fun own node hown => hown.state.symm
  rw [hsame]
  exact hperm.map _

theorem Reordered.isSome_node?_iff (h : definition.Reordered other) (state : S) :
    (other.node? state).isSome ↔ (definition.node? state).isSome := by
  have hmem (definition : Definition S K) :
      (definition.node? state).isSome ↔ state ∈ definition.nodes.map (·.state) := by
    simp [node?, List.find?_isSome]
  rw [hmem, hmem, h.states_perm.mem_iff]

theorem Reordered.complete (h : definition.Reordered other)
    (hc : definition.Complete isAction isGuard) : other.Complete isAction isGuard where
  initial := by
    rw [h.initial, h.isSome_node?_iff]
    exact hc.initial
  states := h.states_perm.nodup_iff.1 hc.states
  rules node hn := by
    obtain ⟨own, hown, hre⟩ := h.exists_node hn
    exact hre.nodup (hc.rules own hown)
  targets node hn target ht := by
    obtain ⟨own, hown, hre⟩ := h.exists_node hn
    rw [h.isSome_node?_iff]
    exact hc.targets own hown target ((hre.mem_targets_iff target).1 ht)
  actions node hn action ha := by
    obtain ⟨own, hown, hre⟩ := h.exists_node hn
    exact hc.actions own hown action ((hre.mem_actionNames_iff action).1 ha)
  guards node hn guard hg := by
    obtain ⟨own, hown, hre⟩ := h.exists_node hn
    exact hc.guards own hown guard ((hre.mem_guardNames_iff guard).1 hg)

/-- The node of a state is the only one, so it is found in any order. -/
theorem Reordered.alike [DecidableEq K] (h : definition.Reordered other)
    (hc : definition.Complete isAction isGuard) : definition.Alike other where
  id := h.id
  initial := h.initial
  nodes state := by
    have hsome := h.isSome_node?_iff state
    cases ho : other.node? state with
    | none =>
      cases hd : definition.node? state with
      | none => exact .none
      | some node => simp [ho, hd] at hsome
    | some node =>
      obtain ⟨own, hown, hre⟩ := h.exists_node (mem_nodes_of_node? ho)
      have hstate : own.state = state := hre.state.symm.trans (node?_eq_some_state ho)
      have hfilter : own ∈ definition.nodes.filter (·.state = state) :=
        List.mem_filter.2 ⟨hown, by simpa using hstate⟩
      rw [hc.filter_nodes, Option.mem_toList] at hfilter
      rw [hfilter]
      exact .some (hre.alike (hc.rules own hown))

/-! ## Stay rules -/

end Definition

variable [DecidableEq S]

/-- The node with a rule without target in place of every rule that leads to its own state. -/
def Node.staying (node : Node S K) : Node S K :=
  { node with rules := node.rules.map fun (kind, rule) => (kind, rule.within node.state) }

namespace Definition

def staying (definition : Definition S K) : Definition S K :=
  { definition with nodes := definition.nodes.map Node.staying }

theorem node?_staying (definition : Definition S K) (state : S) :
    definition.staying.node? state = (definition.node? state).map Node.staying := by
  simp only [node?, staying, List.find?_map]
  rfl

variable {isAction isGuard : String → Bool} {definition : Definition S K}

omit [DecidableEq S] in
theorem rule?_map [DecidableEq K] (node : Node S K) (f : Rule S → Rule S) (kind : K) :
    ({ node with rules := node.rules.map fun (kind, rule) => (kind, f rule) } : Node S K).rule?
        kind = (node.rule? kind).map f := by
  simp only [Node.rule?, List.find?_map, Option.map_map]
  rfl

theorem alike_staying [DecidableEq K] (definition : Definition S K) :
    definition.Alike definition.staying where
  id := rfl
  initial := rfl
  nodes state := by
    rw [node?_staying]
    cases definition.node? state with
    | none => exact .none
    | some node =>
      refine .some ⟨rfl, rfl, ?_⟩
      intro kind
      rw [Node.staying, rule?_map, Option.map_map]
      cases node.rule? kind <;> simp

theorem rule?_staying [DecidableEq K] (definition : Definition S K) (state : S) (kind : K) :
    definition.staying.rule? state kind =
      (definition.rule? state kind).map (Rule.within state) := by
  unfold rule?
  rw [node?_staying]
  cases hn : definition.node? state with
  | none => rfl
  | some node =>
    obtain rfl := node?_eq_some_state hn
    exact rule?_map node (Rule.within node.state) kind

theorem mem_nodes_staying_iff {node : Node S K} :
    node ∈ definition.staying.nodes ↔ ∃ own ∈ definition.nodes, own.staying = node :=
  List.mem_map

theorem isSome_node?_staying (definition : Definition S K) (state : S) :
    (definition.staying.node? state).isSome = (definition.node? state).isSome := by
  rw [node?_staying, Option.isSome_map]

theorem mem_targets_of_staying {node : Node S K} {target : S} (h : target ∈ node.staying.targets) :
    target ∈ node.targets := by
  simp only [Node.targets, Node.staying, List.mem_append, List.mem_filterMap, List.mem_map] at h ⊢
  rcases h with ⟨-, ⟨⟨kind, rule⟩, hmem, rfl⟩, ht⟩ | h
  · rw [Rule.target_within, Option.filter_eq_some_iff] at ht
    exact .inl ⟨(kind, rule), hmem, ht.1⟩
  · exact .inr h

theorem actionNames_staying (node : Node S K) : node.staying.actionNames = node.actionNames := by
  simp [Node.actionNames, Node.staying, List.flatMap_map]

theorem guardNames_staying (node : Node S K) : node.staying.guardNames = node.guardNames := by
  simp [Node.guardNames, Node.staying, List.filterMap_map]

theorem Complete.staying (h : definition.Complete isAction isGuard) :
    definition.staying.Complete isAction isGuard where
  initial := by
    rw [isSome_node?_staying]
    exact h.initial
  states := by
    have hstates : definition.staying.nodes.map (·.state) = definition.nodes.map (·.state) := by
      simp [Definition.staying, Node.staying]
    rw [hstates]
    exact h.states
  rules node hn := by
    obtain ⟨own, hown, rfl⟩ := mem_nodes_staying_iff.1 hn
    have hkinds : own.staying.rules.map (·.1) = own.rules.map (·.1) := by
      simp [Node.staying]
    rw [hkinds]
    exact h.rules own hown
  targets node hn target ht := by
    obtain ⟨own, hown, rfl⟩ := mem_nodes_staying_iff.1 hn
    rw [isSome_node?_staying]
    exact h.targets own hown target (mem_targets_of_staying ht)
  actions node hn := by
    obtain ⟨own, hown, rfl⟩ := mem_nodes_staying_iff.1 hn
    rw [actionNames_staying]
    exact h.actions own hown
  guards node hn := by
    obtain ⟨own, hown, rfl⟩ := mem_nodes_staying_iff.1 hn
    rw [guardNames_staying]
    exact h.guards own hown

end Definition

end Automat
