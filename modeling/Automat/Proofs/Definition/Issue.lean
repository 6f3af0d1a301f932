import Automat.Definition.Issue

/-!
What a table without issues is like. Main statement: there are no issues exactly if everything the
table refers to is there, and no state and no rule is given twice (`issues_eq_nil_iff`). Look-ups in
such a table find all there is (`Complete.filter_nodes`, `Complete.filter_rules`).
-/

namespace Automat

section

variable {α β : Type} [DecidableEq α]

/-- Nothing is repeated exactly if no item is equal to an earlier one. -/
theorem repeated_eq_nil_iff (before list : List α) :
    repeated before list = [] ↔ list.Nodup ∧ ∀ a ∈ list, a ∉ before := by
  induction list generalizing before with
  | nil => simp [repeated]
  | cons a rest ih =>
    by_cases ha : a ∈ before
    · simp [repeated, ha]
    · simp only [repeated, ha, if_false, ih, List.nodup_cons, List.mem_cons, not_or]
      constructor
      · rintro ⟨hnodup, hnew⟩
        refine ⟨⟨fun hmem => (hnew a hmem).1 rfl, hnodup⟩, ?_⟩
        rintro b (rfl | hmem)
        · exact ha
        · exact (hnew b hmem).2
      · rintro ⟨⟨hfirst, hnodup⟩, hnew⟩
        refine ⟨hnodup, ?_⟩
        intro b hmem
        exact ⟨fun hb => hfirst (hb ▸ hmem), hnew b (.inr hmem)⟩

theorem mem_distinct_iff (before list : List α) (a : α) :
    a ∈ distinct before list ↔ a ∈ list ∧ a ∉ before := by
  induction list generalizing before with
  | nil => simp [distinct]
  | cons b rest ih =>
    by_cases hb : b ∈ before
    · simp only [distinct, hb, if_true, ih, List.mem_cons]
      constructor
      · rintro ⟨hmem, hnot⟩
        exact ⟨.inr hmem, hnot⟩
      · rintro ⟨rfl | hmem, hnot⟩
        · exact absurd hb hnot
        · exact ⟨hmem, hnot⟩
    · simp only [distinct, hb, if_false, ih, List.mem_cons, not_or]
      constructor
      · rintro (rfl | ⟨hmem, -, hnot⟩)
        · exact ⟨.inl rfl, hb⟩
        · exact ⟨.inr hmem, hnot⟩
      · rintro ⟨rfl | hmem, hnot⟩
        · exact .inl rfl
        · by_cases hab : a = b
          · exact .inl hab
          · exact .inr ⟨hmem, hab, hnot⟩

/-- Where no key is given twice, the first entry with a key is the only one. -/
theorem filter_key_eq_find? {key : β → α} {list : List β} (h : (list.map key).Nodup) (a : α) :
    list.filter (key · = a) = (list.find? (key · = a)).toList := by
  induction list with
  | nil => rfl
  | cons b rest ih =>
    rw [List.map_cons, List.nodup_cons] at h
    by_cases hb : key b = a
    · have hrest : rest.filter (key · = a) = [] := by
        rw [List.filter_eq_nil_iff]
        intro c hmem hc
        have hkey : key c = key b := by
          rw [hb]
          exact of_decide_eq_true hc
        exact h.1 (hkey ▸ List.mem_map_of_mem hmem)
      rw [List.filter_cons_of_pos (by simpa using hb), List.find?_cons_of_pos (by simpa using hb),
        hrest]
      rfl
    · rw [List.filter_cons_of_neg (by simpa using hb), List.find?_cons_of_neg (by simpa using hb),
        ih h.2]

end

namespace Definition

variable {S K : Type} [DecidableEq S] [DecidableEq K]

/-- Everything the table refers to is there, and no state and no rule of a state is given twice. -/
structure Complete (definition : Definition S K) (isAction isGuard : String → Bool) : Prop where
  initial : (definition.node? definition.initial).isSome
  states : (definition.nodes.map (·.state)).Nodup
  rules : ∀ node ∈ definition.nodes, (node.rules.map (·.1)).Nodup
  targets : ∀ node ∈ definition.nodes, ∀ target ∈ node.targets, (definition.node? target).isSome
  actions : ∀ node ∈ definition.nodes, ∀ action ∈ node.actionNames, isAction action
  guards : ∀ node ∈ definition.nodes, ∀ guard ∈ node.guardNames, isGuard guard

variable {definition : Definition S K} {isAction isGuard : String → Bool}

/-! ## Check by check -/

theorem unregistered_eq_nil_iff (isRegistered : String → Bool) (names : List String) :
    unregistered isRegistered names = [] ↔ ∀ name ∈ names, isRegistered name := by
  simp [unregistered, List.filter_eq_nil_iff, mem_distinct_iff]

variable [Named S] [Named K]

omit [DecidableEq K] [Named K] in
theorem initialIssues_eq_nil_iff :
    definition.initialIssues = [] ↔ (definition.node? definition.initial).isSome := by
  unfold initialIssues
  cases definition.node? definition.initial with
  | none => simp
  | some node => simp

omit [DecidableEq K] [Named K] in
theorem stateIssues_eq_nil_iff :
    definition.stateIssues = [] ↔ (definition.nodes.map (·.state)).Nodup := by
  simp [stateIssues, repeated_eq_nil_iff]

omit [DecidableEq S] in
theorem ruleIssues_eq_nil_iff :
    definition.ruleIssues = [] ↔ ∀ node ∈ definition.nodes, (node.rules.map (·.1)).Nodup := by
  simp [ruleIssues, repeated_eq_nil_iff]

omit [DecidableEq K] [Named K] in
theorem targetIssues_eq_nil_iff :
    definition.targetIssues = [] ↔
      ∀ node ∈ definition.nodes, ∀ target ∈ node.targets, (definition.node? target).isSome := by
  simp [targetIssues, Option.isSome_iff_ne_none]

/-- Exactly the complete tables have no issues. -/
theorem issues_eq_nil_iff :
    definition.issues isAction isGuard = [] ↔ definition.Complete isAction isGuard := by
  simp only [issues, List.append_eq_nil_iff, List.map_eq_nil_iff, initialIssues_eq_nil_iff,
    stateIssues_eq_nil_iff, ruleIssues_eq_nil_iff, targetIssues_eq_nil_iff,
    unregistered_eq_nil_iff, actionNames, guardNames, List.mem_flatMap, forall_exists_index,
    and_imp]
  constructor
  · rintro ⟨⟨⟨⟨⟨hinitial, hstates⟩, hrules⟩, htargets⟩, hactions⟩, hguards⟩
    exact ⟨hinitial, hstates, hrules, htargets, fun node hn name => hactions name node hn,
      fun node hn name => hguards name node hn⟩
  · intro h
    exact ⟨⟨⟨⟨⟨h.initial, h.states⟩, h.rules⟩, h.targets⟩,
      fun name node hn => h.actions node hn name⟩, fun name node hn => h.guards node hn name⟩

/-! ## Look-ups -/

omit [DecidableEq K] [Named S] [Named K] in
theorem Complete.filter_nodes (h : definition.Complete isAction isGuard) (state : S) :
    definition.nodes.filter (·.state = state) = (definition.node? state).toList :=
  filter_key_eq_find? h.states state

omit [DecidableEq S] [Named S] [Named K] in
theorem filter_rules {node : Node S K} (h : (node.rules.map (·.1)).Nodup) (kind : K) :
    node.rules.filter (·.1 = kind) = (node.rule? kind).toList.map (kind, ·) := by
  rw [filter_key_eq_find? h, Node.rule?]
  cases hf : node.rules.find? (·.1 = kind) with
  | none => rfl
  | some entry =>
    have hkind : entry.1 = kind := by simpa using List.find?_some hf
    subst hkind
    rfl

end Definition

end Automat
