import Automat.Builder
import Automat.Proofs.Definition.Issue
import Automat.Proofs.Machine.Trace

/-!
The machines that a builder accepts, and the runs that clients can reach by calls and by coming and
going as subscribers. Main statement: what holds of a run that has not started and is kept by every
step holds of every reachable run (`Reached.keeps`). Where it matters how a run was reached, there is
a chronicle of it (`reachable_iff_chronicle`).
-/

namespace Automat

/-- A call that was made, with the answer and the runs before and after it. -/
structure Made (S K E C W O : Type) where
  run : Run S E C W O
  call : Call K E
  answer : Answer
  next : Run S E C W O

def Made.exchange {S K E C W O : Type} (made : Made S K E C W O) : Call K E × Answer :=
  (made.call, made.answer)

/-! ## Accepted machines -/

namespace Machine

variable {S K E C W : Type} [DecidableEq S] [DecidableEq K] [Named S] [Named K]

/-- Some builder made the machine. -/
def Accepted (m : Machine S K E C W) : Prop :=
  ∃ builder : Builder S K E C W, builder.build = .ok m

variable {m : Machine S K E C W}

/-- The table of an accepted machine has no issues. -/
theorem Accepted.complete (h : m.Accepted) :
    m.definition.Complete m.actions.contains m.guards.contains := by
  obtain ⟨builder, hb⟩ := h
  unfold Builder.build at hb
  split at hb
  · cases hb
  · split at hb
    · next hi =>
      cases hb
      exact Definition.issues_eq_nil_iff.1 (List.isEmpty_iff.1 hi)
    · cases hb

variable [EventLike E K] {O : Type}

theorem Accepted.isSome_node?_of_prompts (h : m.Accepted) {event : E} {run : Run S E C W O}
    {target : S} {actions : List String} (hp : m.Prompts event run (some target) actions) :
    (m.definition.node? target).isSome := by
  rcases hp with ⟨after, hd, ht, -⟩ | ⟨-, rule, hr, ht, -⟩
  · unfold delayed? at hd
    split at hd
    · split at hd
      · obtain ⟨node, hn, ha⟩ := Option.bind_eq_some_iff.1 hd
        refine h.complete.targets node (Definition.mem_nodes_of_node? hn) target ?_
        simp only [Node.targets, List.mem_append, List.mem_map, Option.mem_toList]
        exact .inr ⟨after, ha, (Option.some.inj ht).symm⟩
      · cases hd
    · cases hd
  · obtain ⟨node, hn, hk⟩ := Option.bind_eq_some_iff.1 hr
    refine h.complete.targets node (Definition.mem_nodes_of_node? hn) target ?_
    obtain ⟨entry, hf, rfl⟩ := Option.map_eq_some_iff.1 hk
    simp only [Node.targets, List.mem_append, List.mem_filterMap]
    exact .inl ⟨entry, List.mem_of_find?_eq_some hf, ht.symm⟩

/-! ## Reachable runs -/

variable {S K E C W O : Type} [DecidableEq S] [DecidableEq K] [Named S] [Named K] [EventLike E K]

/-- The runs between calls, when each call is an allowed one: those that come about from a first run
by calls that come to an end. -/
inductive Reached (m : Machine S K E C W) (allowed : Run S E C W O → Call K E → Prop)
    (first : Run S E C W O) : Run S E C W O → Prop where
  | first : Reached m allowed first first
  | call {run next : Run S E C W O} {fuel : Nat} {call : Call K E} {answer : Answer} :
      Reached m allowed first run → allowed run call →
      m.call fuel call run = some (next, answer) → Reached m allowed first next
  | subscribe {run : Run S E C W O} (callback : Snapshot S C E → O → O × Reaction) :
      Reached m allowed first run → Reached m allowed first (run.subscribe callback)
  | unsubscribe {run : Run S E C W O} (id : Nat) :
      Reached m allowed first run → Reached m allowed first (run.unsubscribe id)

/-- The runs between calls, after any calls at all. -/
def Reachable (m : Machine S K E C W) (run : Run S E C W O) : Prop :=
  ∃ world observers, Reached m (fun _ _ => True) (m.newRun world observers) run

variable {m : Machine S K E C W} {allowed : Run S E C W O → Call K E → Prop}
variable {first run : Run S E C W O}

/-- A reached run is at rest, and steps lead to it that accept only events which may be sent. -/
theorem Reached.settles (h : Reached m allowed first run) (hq : first.queue = []) :
    m.Settles (fun run event => allowed run (.send event)) first run := by
  induction h with
  | first => exact (Leads.refl first hq).settles
  | call _ ha hc ih =>
    obtain ⟨hrest, trace, hs, hacc⟩ := ih
    obtain ⟨steps, ht⟩ := callTrace_of_call hrest hc
    exact (Leads.trans ⟨hrest, hs, hacc⟩ (ht.leads _ hrest fun event he => he ▸ ha)).settles
  | @subscribe run callback _ ih =>
    obtain ⟨hrest, trace, hs, hacc⟩ := ih
    exact (Leads.trans ⟨hrest, hs, hacc⟩
      ((Leads.refl (run.subscribe callback) hrest).cons_quiet (.listen _) rfl)).settles
  | @unsubscribe run id _ ih =>
    obtain ⟨hrest, trace, hs, hacc⟩ := ih
    exact (Leads.trans ⟨hrest, hs, hacc⟩
      ((Leads.refl (run.unsubscribe id) hrest).cons_quiet (.listen _) rfl)).settles

/-- Calls in a row lead from a reached run to a reached run. -/
theorem Reached.calls {fuel : Nat} {calls : List (Call K E)} {answers : List Answer}
    {done : Run S E C W O} (h : Reached m allowed first run)
    (ha : ∀ call ∈ calls, ∀ run, allowed run call)
    (hc : m.calls fuel calls run = some (done, answers)) : Reached m allowed first done := by
  induction calls generalizing run answers with
  | nil =>
    cases hc
    exact h
  | cons call calls ih =>
    simp only [Machine.calls, Option.bind_eq_bind, Option.bind_eq_some_iff] at hc
    obtain ⟨⟨next, answer⟩, hcall, ⟨last, rest⟩, hrest, he⟩ := hc
    cases he
    exact ih (h.call (ha call (by simp) run) hcall)
      (fun call hmem => ha call (List.mem_cons_of_mem _ hmem)) hrest

theorem reached_get_calls {fuel : Nat} {calls : List (Call K E)}
    (h : (m.calls fuel calls first).isSome) (ha : ∀ call ∈ calls, ∀ run, allowed run call) :
    Reached m allowed first ((m.calls fuel calls first).get h).1 :=
  Reached.first.calls ha (Option.some_get h).symm

theorem Reachable.queue_eq_nil (h : m.Reachable run) : run.queue = [] := by
  obtain ⟨world, observers, hr⟩ := h
  exact (hr.settles rfl).1

/-- What holds at first and is kept by every step holds of every reached run. -/
theorem Reached.keeps {P : Run S E C W O → Prop} (h : Reached m allowed first run)
    (hq : first.queue = []) (hp : P first)
    (hstep : ∀ run happening next, Step m run happening next →
      (∀ event, happening.accepted? = some event → allowed run (.send event)) → P run → P next) :
    P run := by
  obtain ⟨-, trace, hs, ha⟩ := h.settles hq
  exact hs.keeps (fun run happening next hmem hs => hstep run happening next hs (ha _ hmem)) hp

/-! ## Chronicles -/

/-- How a run came about from a first one: the calls that were made, and all that happened. -/
inductive Chronicle (m : Machine S K E C W) (first : Run S E C W O) :
    List (Made S K E C W O) → List (Run S E C W O × Happening K E) → Run S E C W O → Prop where
  | first : Chronicle m first [] [] first
  | call {calls : List (Made S K E C W O)} {trace steps : List (Run S E C W O × Happening K E)}
      {run next : Run S E C W O} {fuel : Nat} {call : Call K E} {answer : Answer} :
      Chronicle m first calls trace run → m.call fuel call run = some (next, answer) →
      m.CallTrace call run steps next answer →
      Chronicle m first (calls ++ [⟨run, call, answer, next⟩]) (trace ++ steps) next
  | subscribe {calls : List (Made S K E C W O)} {trace : List (Run S E C W O × Happening K E)}
      {run : Run S E C W O} (callback : Snapshot S C E → O → O × Reaction) :
      Chronicle m first calls trace run →
      Chronicle m first calls (trace ++ [(run, .listen)]) (run.subscribe callback)
  | unsubscribe {calls : List (Made S K E C W O)} {trace : List (Run S E C W O × Happening K E)}
      {run : Run S E C W O} (id : Nat) :
      Chronicle m first calls trace run →
      Chronicle m first calls (trace ++ [(run, .listen)]) (run.unsubscribe id)

variable {calls : List (Made S K E C W O)} {trace : List (Run S E C W O × Happening K E)}

theorem Chronicle.leads (h : m.Chronicle first calls trace run) (hq : first.queue = []) :
    m.Leads (fun _ _ => True) first trace run := by
  induction h with
  | first => exact .refl first hq
  | call _ _ ht ih => exact ih.trans (ht.arrives ih.rest)
  | @subscribe _ _ run callback _ ih =>
    exact ih.trans ((Leads.refl (run.subscribe callback) ih.rest).cons_quiet (.listen _) rfl)
  | @unsubscribe _ _ run id _ ih =>
    exact ih.trans ((Leads.refl (run.unsubscribe id) ih.rest).cons_quiet (.listen _) rfl)

theorem Chronicle.reached (h : m.Chronicle first calls trace run) :
    Reached m (fun _ _ => True) first run := by
  induction h with
  | first => exact .first
  | call _ hc _ ih => exact ih.call trivial hc
  | subscribe callback _ ih => exact ih.subscribe callback
  | unsubscribe id _ ih => exact ih.unsubscribe id

theorem Reached.chronicle (h : Reached m allowed first run) (hq : first.queue = []) :
    ∃ calls trace, m.Chronicle first calls trace run := by
  induction h with
  | first => exact ⟨[], [], .first⟩
  | call _ _ hc ih =>
    obtain ⟨calls, trace, ht⟩ := ih
    obtain ⟨steps, hsteps⟩ := callTrace_of_call (ht.leads hq).rest hc
    exact ⟨_, _, ht.call hc hsteps⟩
  | subscribe callback _ ih =>
    obtain ⟨calls, trace, ht⟩ := ih
    exact ⟨_, _, ht.subscribe callback⟩
  | unsubscribe id _ ih =>
    obtain ⟨calls, trace, ht⟩ := ih
    exact ⟨_, _, ht.unsubscribe id⟩

/-- Calls in a row go on with a chronicle. -/
theorem Chronicle.append_calls {fuel : Nat} {further : List (Call K E)} {answers : List Answer}
    {done : Run S E C W O} (h : m.Chronicle first calls trace run) (hq : first.queue = [])
    (hc : m.calls fuel further run = some (done, answers)) :
    ∃ later steps, later.map Made.exchange = further.zip answers ∧
      m.Chronicle first (calls ++ later) (trace ++ steps) done := by
  induction further generalizing calls trace run answers with
  | nil =>
    cases hc
    refine ⟨[], [], rfl, ?_⟩
    rwa [List.append_nil, List.append_nil]
  | cons call further ih =>
    simp only [Machine.calls, Option.bind_eq_bind, Option.bind_eq_some_iff] at hc
    obtain ⟨⟨next, answer⟩, hcall, ⟨last, rest⟩, hrest, he⟩ := hc
    cases he
    obtain ⟨steps, hsteps⟩ := callTrace_of_call (h.leads hq).rest hcall
    obtain ⟨later, more, hlater, hmore⟩ := ih (h.call hcall hsteps) hrest
    refine ⟨⟨run, call, answer, next⟩ :: later, steps ++ more, ?_, ?_⟩
    · rw [List.map_cons, hlater]
      rfl
    · simpa only [List.append_assoc, List.singleton_append] using hmore

theorem exists_chronicle_of_calls {fuel : Nat} {wanted : List (Call K E)} {answers : List Answer}
    (hq : first.queue = []) (hc : m.calls fuel wanted first = some (run, answers)) :
    ∃ calls trace, calls.map Made.exchange = wanted.zip answers ∧
      m.Chronicle first calls trace run := by
  have hfirst : m.Chronicle first [] [] first := .first
  exact hfirst.append_calls hq hc

/-- The reachable runs are those that a chronicle leads to. -/
theorem reachable_iff_chronicle : m.Reachable run ↔
    ∃ world observers calls trace, m.Chronicle (m.newRun world observers) calls trace run := by
  constructor
  · rintro ⟨world, observers, h⟩
    exact ⟨world, observers, h.chronicle rfl⟩
  · rintro ⟨world, observers, calls, trace, h⟩
    exact ⟨world, observers, h.reached⟩

end Machine

end Automat
