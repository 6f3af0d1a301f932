import Automat.Proofs.Machine.Stopped
import Automat.Proofs.Machine.Verdict

/-!
Starts that fail. The entry actions are run in order up to one that gives up (`GivesUp`), and then
nothing has changed but the world. What else clients do before a machine has started moves the clock
or concerns the audience. Main statement: a start that fails leaves no trace, and a start that succeeds
after it is the same as without it (`failed_starts_traceless`).
-/

namespace Automat

def Use.used {E C : Type} : Use E C → String
  | .asked guard _ _ => guard
  | .ran action _ _ => action

/-- What counts before a machine has started: the clock is advanced, or a subscriber comes or goes. -/
def Interaction.prepares {S K E C O : Type} : Interaction S K E C O → Bool
  | .call (.advance _) | .call (.advanceTo _) | .subscribe _ | .unsubscribe _ => true
  | .call .start | .call (.send _) | .call .stop | .call (.can _) => false

namespace Run

variable {S K E C W O : Type}

theorem idle_of_not_prepares (run : Run S E C W O) {interaction : Interaction S K E C O}
    (h : interaction.prepares = false) : run.idle interaction = run := by
  cases interaction with
  | call call =>
    cases call with
    | advance | advanceTo => cases h
    | start | send | stop | can => rfl
  | subscribe | unsubscribe => cases h

theorem foldl_idle_filter (interactions : List (Interaction S K E C O)) (run : Run S E C W O) :
    (interactions.filter Interaction.prepares).foldl Run.idle run =
      interactions.foldl Run.idle run := by
  induction interactions generalizing run with
  | nil => rfl
  | cons first rest ih =>
    cases h : first.prepares with
    | true =>
      rw [List.filter_cons_of_pos h]
      exact ih (run.idle first)
    | false =>
      rw [List.filter_cons_of_neg (Bool.not_eq_true _ ▸ h), List.foldl_cons,
        run.idle_of_not_prepares h]
      exact ih run

theorem foldl_idle_withWorld (world : W) (interactions : List (Interaction S K E C O))
    (run : Run S E C W O) : interactions.foldl Run.idle (run.withWorld world) =
      (interactions.foldl Run.idle run).withWorld world := by
  induction interactions generalizing run with
  | nil => rfl
  | cons first rest ih => exact ih (run.idle first)

end Run

namespace Machine

section

variable {S K E C W O : Type}

/-- On starting, actions are run in order, each on what the one before has left, until one gives up:
how they are used up to there, which one gives up and why, and the world that is left. -/
inductive GivesUp (m : Machine S K E C W) :
    List String → C → W → List (Use E C) → String → Fault → W → Prop where
  | now {action : String} {act : Action E C W} {rest : List String} {context : C} {world : W}
      {fault : Fault} :
      m.actions.find? action = some act → (act none context world).fault = some fault →
      GivesUp m (action :: rest) context world [.ran action none context] action fault
        (act none context world).world
  | later {first action : String} {act : Action E C W} {rest : List String} {context : C}
      {world left : W} {uses : List (Use E C)} {fault : Fault} :
      m.actions.find? first = some act → (act none context world).fault = none →
      GivesUp m rest (act none context world).context (act none context world).world uses action
        fault left →
      GivesUp m (first :: rest) context world (.ran first none context :: uses) action fault left

variable {m : Machine S K E C W} {entry : List String} {context : C} {world left : W}
variable {uses : List (Use E C)} {action : String} {fault : Fault}

/-! ## Entry actions that fail -/

/-- No action is run after the one that gives up. -/
theorem GivesUp.split (h : m.GivesUp entry context world uses action fault left) :
    ∃ before after, entry = before ++ action :: after ∧
      uses.map Use.used = before ++ [action] := by
  induction h with
  | now => exact ⟨[], _, rfl, rfl⟩
  | @later first _ _ _ _ _ _ _ _ _ _ _ ih =>
    obtain ⟨before, after, rfl, huses⟩ := ih
    exact ⟨first :: before, after, rfl, congrArg (first :: ·) huses⟩

theorem GivesUp.noted (h : m.GivesUp entry context world uses action fault left)
    (log : List (Use E C)) :
    m.noting.GivesUp entry context (world, log) uses action fault (left, log ++ uses) := by
  have hnoting {action : String} {act : Action E C W} (ha : m.actions.find? action = some act) :
      m.noting.actions.find? action = some (act.noting action) := by
    rw [find?_actions_noting, ha]
    rfl
  induction h generalizing log with
  | now ha hf => exact .now (hnoting ha) hf
  | @later first _ _ _ context _ _ _ _ ha hf _ ih =>
    have hrest := ih (log ++ [.ran first none context])
    rw [List.append_assoc] at hrest
    exact .later (hnoting ha) hf hrest

section

variable [Named S] [Named K] [EventLike E K]

theorem GivesUp.perform (h : m.GivesUp entry context world uses action fault left) (state : S)
    (raised : List E) : ∃ draft : Draft E C W, draft.world = left ∧
      m.perform none (entry.map (state, ·)) ⟨context, raised, world⟩ =
        (draft, some (.action action (name state) "start" fault.message)) := by
  induction h generalizing raised with
  | @now _ act _ context world _ ha hf =>
    let done := act none context world
    refine ⟨⟨done.context, raised ++ done.raised, done.world⟩, rfl, ?_⟩
    simp only [List.map_cons, Machine.perform, ha, hf]
    rfl
  | later ha hf _ ih =>
    obtain ⟨draft, hleft, hp⟩ := ih _
    refine ⟨draft, hleft, ?_⟩
    simp only [List.map_cons, Machine.perform, ha, hf]
    exact hp

/-- Actions that are all known fail only because one gives up. -/
theorem exists_givesUp (hk : ∀ action ∈ entry, (m.actions.find? action).isSome) {state : S}
    {raised : List E} {draft : Draft E C W} {failure : Failure}
    (h : m.perform none (entry.map (state, ·)) ⟨context, raised, world⟩ = (draft, some failure)) :
    ∃ uses action fault left, m.GivesUp entry context world uses action fault left := by
  induction entry generalizing context world raised with
  | nil => cases h
  | cons first rest ih =>
    obtain ⟨hfirst, hrest⟩ := List.forall_mem_cons.1 hk
    obtain ⟨act, ha⟩ := Option.isSome_iff_exists.1 hfirst
    simp only [List.map_cons, Machine.perform, ha] at h
    cases hf : (act none context world).fault with
    | some fault => exact ⟨_, _, _, _, .now ha hf⟩
    | none =>
      rw [hf] at h
      obtain ⟨uses, action, fault, left, hgives⟩ := ih hrest h
      exact ⟨_, _, _, _, .later ha hf hgives⟩

end

end

variable {S K E C W O : Type} [DecidableEq S] [DecidableEq K] [Named S] [Named K] [EventLike E K]
variable {m : Machine S K E C W} {run next : Run S E C W O} {fuel : Nat}

omit [DecidableEq K] [Named S] [Named K] [EventLike E K] in
theorem entrySteps_of_node? {node : Node S K} {state : S}
    (h : m.definition.node? state = some node) :
    m.entrySteps state = node.entry.map (state, ·) := by
  rw [entrySteps, h]

/-- A start that fails names the action that gives up, and changes nothing but the world. -/
theorem GivesUp.start {node : Node S K} {uses : List (Use E C)} {action : String} {fault : Fault}
    {left : W} (hs : run.status = .notStarted)
    (hn : m.definition.node? m.definition.initial = some node)
    (h : m.GivesUp node.entry m.context run.world uses action fault left) (fuel : Nat) :
    m.start fuel run = some (run.withWorld left,
      .error (.entry (.action action (name m.definition.initial) "start" fault.message))) := by
  obtain ⟨draft, rfl, hp⟩ := h.perform m.definition.initial []
  rw [Machine.start, if_pos hs, entrySteps_of_node? hn, hp]

theorem exists_givesUp_of_start (hm : m.Accepted) {node : Node S K}
    (hn : m.definition.node? m.definition.initial = some node) (hs : run.status = .notStarted)
    {error : StartError} (h : m.start fuel run = some (next, .error error)) :
    ∃ uses action fault left,
      m.GivesUp node.entry m.context run.world uses action fault left := by
  have hknown : ∀ action ∈ node.entry, (m.actions.find? action).isSome := by
    intro action hmem
    refine hm.find?_entrySteps m.definition.initial (m.definition.initial, action) ?_
    rw [entrySteps_of_node? hn]
    exact List.mem_map_of_mem hmem
  rw [Machine.start, if_pos hs] at h
  split at h
  · obtain ⟨_, -, hresult⟩ := Option.map_eq_some_iff.1 h
    cases hresult
  · next draft failure hp =>
    rw [entrySteps_of_node? hn] at hp
    exact exists_givesUp hknown hp

/-! ## What clients do before a start -/

omit [DecidableEq S] [DecidableEq K] [Named S] in
theorem Published.fresh (h : Published m run next) (hn : next.status = .notStarted) :
    run.status = .notStarted := by
  cases h with
  | silent _ _ _ _ hr =>
    rcases hr with hsame | hstopped
    · exact hsame.symm.trans hn
    · cases hstopped.symm.trans hn
  | begun hr => exact hr
  | reported _ hr | moved _ hr => cases hr.symm.trans hn

/-- A machine that has not started never did. -/
theorem Steps.fresh {trace : List (Run S E C W O × Happening K E)} (h : Steps m run trace next)
    (hn : next.status = .notStarted) : run.status = .notStarted := by
  by_contra hr
  exact h.keeps (P := fun run => run.status ≠ .notStarted)
    (fun _ _ _ _ hs hk hn => hk (hs.published.fresh hn)) hr hn

/-- What a call leaves of a machine that has not started, if it still has not. -/
theorem CallTrace.idle {call : Call K E} {steps : List (Run S E C W O × Happening K E)}
    {answer : Answer} (h : m.CallTrace call run steps next answer)
    (hn : next.status = .notStarted) (hr : run.status = .notStarted) :
    (∃ world, next = (run.idle (.call call : Interaction S K E C O)).withWorld world) ∧
      (call = .start → ∃ failure, answer = .refused (.entry failure)) := by
  cases h with
  | begun _ _ hd => cases (hd.leads (fun _ _ => True) (m.status_enterInitial run _)).2.symm.trans hn
  | refused => exact ⟨⟨_, rfl⟩, fun _ => ⟨_, rfl⟩⟩
  | late hlate => exact absurd hr hlate
  | sent hrunning => cases hr.symm.trans hrunning
  | dropped => exact ⟨⟨run.world, rfl⟩, fun h => by cases h⟩
  | advanced h | advancedTo h =>
    cases h with
    | clear => exact ⟨⟨run.world, rfl⟩, fun h => by cases h⟩
    | fired hdue => cases hr.symm.trans (Run.running_of_nextDeadline? hdue)
  | stopped => cases run.status_stop.symm.trans hn
  | asked kind =>
    obtain ⟨world, hw⟩ := m.canTransition_eq kind run
    exact ⟨⟨world, hw⟩, fun h => by cases h⟩

/-- One interaction with a machine that has not started when it is over. -/
theorem interact_of_fresh {interaction : Interaction S K E C O}
    {stage : Option Answer × Run S E C W O} (hq : run.queue = [])
    (h : m.interact fuel interaction run = some stage) :
    stage.2.queue = [] ∧ (stage.2.status = .notStarted → run.status = .notStarted ∧
      (∃ world, stage.2 = (run.idle interaction).withWorld world) ∧
      (interaction.call? = some .start →
        ∃ failure, stage.1 = some (.refused (.entry failure)))) := by
  cases interaction with
  | call call =>
    obtain ⟨⟨next, answer⟩, hcall, rfl⟩ := Option.map_eq_some_iff.1 h
    obtain ⟨steps, ht⟩ := callTrace_of_call hq hcall
    have hl := ht.arrives hq
    refine ⟨hl.rest, ?_⟩
    intro hn
    have hr := hl.steps.fresh hn
    obtain ⟨hidle, hrefused⟩ := ht.idle hn hr
    refine ⟨hr, hidle, ?_⟩
    intro hstart
    obtain ⟨failure, rfl⟩ := hrefused (Option.some.inj hstart)
    exact ⟨failure, rfl⟩
  | subscribe | unsubscribe =>
    cases h
    exact ⟨hq, fun hn => ⟨hn, ⟨run.world, rfl⟩, fun h => by cases h⟩⟩

/-- Before a machine starts, all that remains of a session is where the clock stands, who listens, and
what failed starts have done to the world. -/
theorem session_of_fresh {interactions : List (Interaction S K E C O)}
    {stages : List (Option Answer × Run S E C W O)} (hq : run.queue = [])
    (h : m.session fuel interactions run = some stages) :
    (lastRun run stages).queue = [] ∧ ((lastRun run stages).status = .notStarted →
      run.status = .notStarted ∧
      (∃ world, lastRun run stages = (interactions.foldl Run.idle run).withWorld world) ∧
      List.Forall₂ (fun interaction stage => interaction.call? = some .start →
        ∃ failure, stage.1 = some (.refused (.entry failure))) interactions stages) := by
  induction interactions generalizing run stages with
  | nil =>
    cases h
    exact ⟨hq, fun hn => ⟨hn, ⟨run.world, rfl⟩, .nil⟩⟩
  | cons first rest ih =>
    obtain ⟨stage, later, hstage, hlater, rfl⟩ := session_cons_eq_some_iff.1 h
    obtain ⟨hnext, hfirst⟩ := interact_of_fresh hq hstage
    obtain ⟨hlast, hrest⟩ := ih hnext hlater
    refine ⟨hlast, ?_⟩
    intro hn
    obtain ⟨hfresh, ⟨world, hidle⟩, hstarts⟩ := hrest hn
    obtain ⟨hr, ⟨left, hleft⟩, hstart⟩ := hfirst hfresh
    refine ⟨hr, ⟨world, ?_⟩, .cons hstart hstarts⟩
    rw [hleft, Run.foldl_idle_withWorld] at hidle
    show lastRun stage.2 later = _
    rw [hleft]
    exact hidle

theorem interact_of_prepares {interaction : Interaction S K E C O}
    (hp : interaction.prepares = true) (hr : run.status = .notStarted) (fuel : Nat) :
    m.interact fuel interaction run =
      some (interaction.call?.map (·.refusal m.definition.id), run.idle interaction) := by
  have hrunning : run.status ≠ .running := by
    rw [hr]
    decide
  cases interaction with
  | call call =>
    cases call with
    | advance | advanceTo =>
      simp only [interact, Machine.call, advance, advanceTo_of_not_running m hrunning]
      rfl
    | start | send | stop | can => cases hp
  | subscribe | unsubscribe => rfl

/-! ## Starts after failed starts -/

/-- A start that succeeds after a session that has not started the machine, and the same start after
only that part of the session that counts, with the world as the start finds it. -/
theorem session_prepares_start {interactions : List (Interaction S K E C O)}
    {stages : List (Option Answer × Run S E C W O)} (hq : run.queue = [])
    (h : m.session fuel interactions run = some stages)
    (hn : (lastRun run stages).status = .notStarted)
    (hd : m.call fuel .start (lastRun run stages) = some (next, .done)) :
    ∃ kept, m.session fuel (interactions.filter Interaction.prepares ++ [.call .start])
        (run.withWorld (lastRun run stages).world) = some (kept ++ [(some .done, next)]) ∧
      lastRun (run.withWorld (lastRun run stages).world) kept = lastRun run stages := by
  obtain ⟨hr, ⟨world, hlast⟩, -⟩ := (session_of_fresh hq h).2 hn
  have hworld : (lastRun run stages).world = world := by
    rw [hlast]
    rfl
  rw [hworld]
  have hprepared : (run.withWorld world).status = .notStarted := hr
  have hkept : m.session fuel (interactions.filter Interaction.prepares) (run.withWorld world) =
      some ((run.withWorld world).idling m.definition.id
        (interactions.filter Interaction.prepares)) := by
    refine session_eq_idling ?_ hprepared
    intro interaction hmem other hother
    exact interact_of_prepares (List.mem_filter.1 hmem).2 hother fuel
  have hsame : lastRun (run.withWorld world) ((run.withWorld world).idling m.definition.id
      (interactions.filter Interaction.prepares)) = lastRun run stages := by
    rw [Run.lastRun_idling, Run.foldl_idle_filter, Run.foldl_idle_withWorld, hlast]
  refine ⟨_, ?_, hsame⟩
  rw [session_append, hkept, Option.bind_some, hsame]
  simp only [session, interact, hd, Option.map_some, Option.bind_eq_bind, Option.bind_some]

/-- A start that fails, because an entry action gives up, says which action it was; no action is run
after it, and nothing has changed but the world of the actions, so there is no snapshot, no
event in the queue and no timer. A machine that is accepted fails to start in no other way. And
after any session with failed starts, whatever clients have tried between them, a start that succeeds
leads to the same run as it would alone, after the same advances and with the same subscribers, with
the world as it finds it: it begins in the same run and goes the same steps from there. -/
theorem failed_starts_traceless (hm : m.Accepted) (hr : m.Reachable run)
    (hs : run.status = .notStarted) :
    ∃ node, m.definition.node? m.definition.initial = some node ∧
      (∀ uses action fault left,
        m.GivesUp node.entry m.context run.world uses action fault left →
        (∃ before after, node.entry = before ++ action :: after ∧
          uses.map Use.used = before ++ [action]) ∧
        ∀ fuel, m.start fuel run = some (run.withWorld left,
            .error (.entry (.action action (name m.definition.initial) "start" fault.message))) ∧
          ∀ log, m.noting.start fuel (run.noted log) = some ((run.withWorld left).noted (log ++ uses),
            .error (.entry (.action action (name m.definition.initial) "start" fault.message)))) ∧
      (∀ fuel done error, m.start fuel run = some (done, .error error) →
        ∃ uses action fault left,
          m.GivesUp node.entry m.context run.world uses action fault left) ∧
      ∀ fuel interactions stages done, m.session fuel interactions run = some stages →
        m.call fuel .start (lastRun run stages) = some (done, .done) →
        List.Forall₂ (fun interaction stage => interaction.call? = some .start →
          ∃ failure, stage.1 = some (.refused (.entry failure))) interactions stages ∧
        (∃ world, lastRun run stages = (interactions.foldl Run.idle run).withWorld world) ∧
        ∃ kept steps,
          m.session fuel (interactions.filter Interaction.prepares ++ [.call .start])
            (run.withWorld (lastRun run stages).world) = some (kept ++ [(some .done, done)]) ∧
          lastRun (run.withWorld (lastRun run stages).world) kept = lastRun run stages ∧
          m.CallTrace .start (lastRun run stages) steps done .done := by
  obtain ⟨node, hn⟩ := Option.isSome_iff_exists.1 hm.complete.initial
  refine ⟨node, hn, ?_, fun _ _ _ h => exists_givesUp_of_start hm hn hs h, ?_⟩
  · intro uses action fault left h
    refine ⟨h.split, ?_⟩
    intro fuel
    refine ⟨h.start hs hn fuel, ?_⟩
    intro log
    have hnoted : (run.noted log).status = .notStarted := hs
    have hnode : m.noting.definition.node? m.noting.definition.initial = some node := hn
    exact GivesUp.start hnoted hnode (h.noted log) fuel
  · intro fuel interactions stages done h hd
    have hq := hr.queue_eq_nil
    obtain ⟨hrest, hunstarted⟩ := session_of_fresh hq h
    obtain ⟨steps, ht⟩ := callTrace_of_call hrest hd
    have hfresh : (lastRun run stages).status = .notStarted := by
      cases ht with
      | begun hfresh => exact hfresh
    obtain ⟨-, hlast, hstarts⟩ := hunstarted hfresh
    obtain ⟨kept, hkept, hsame⟩ := session_prepares_start hq h hfresh hd
    exact ⟨hstarts, hlast, kept, steps, hkept, hsame, ht⟩

/-! ## A kettle -/

section

open Script

/-- It is filled and then plugged in, and there is no power before the third time it is plugged in. -/
def kettleBuilder : Builder String String Signal Nat Nat where
  definition :=
    { id := "kettle"
      initial := "cold"
      nodes :=
        [{ state := "cold"
           entry := ["fill", "plug"]
           rules := [("filled", { target := some "hot" })] },
         { state := "hot" }] }
  actions :=
    [("fill", fun _ litres tries => ⟨litres + 1, [{ kind := "filled" }], tries, none⟩),
     ("plug", fun _ litres tries =>
       ⟨litres, [], tries + 1, if tries < 2 then some (.panic "no power") else none⟩)]
  guards := []
  context := some 0
  clock _ := .epoch

def kettle : Machine String String Signal Nat Nat where
  definition := kettleBuilder.definition
  actions := kettleBuilder.actions
  guards := kettleBuilder.guards
  context := 0
  historyLimit := History.defaultLimit
  clock _ := .epoch

def impatience : List (Interaction String String Signal Nat Nat) :=
  [.call (.advance (.ofMillis 5)), .call .start, .subscribe modest,
    .call (.send { kind := "filled" }), .call .start, .call (.can "filled"),
    .call (.advanceTo (.ofMillis 12)), .subscribe rude, .unsubscribe 0]

/-- The third start is the first for those who only wait. Nothing is left of the water of the first
two. -/
theorem failed_starts_traceless_kettle : ∃ run stages done kept, kettle.Accepted ∧
    kettle.Reachable run ∧ run.status = .notStarted ∧
    kettle.GivesUp ["fill", "plug"] 0 0 [.ran "fill" none 0, .ran "plug" none 1] "plug"
      (.panic "no power") 1 ∧
    kettle.start 0 run = some (run.withWorld 1,
      .error (.entry (.action "plug" "cold" "start" "no power"))) ∧
    kettle.session 2 impatience run = some stages ∧
    kettle.call 2 .start (lastRun run stages) = some (done, .done) ∧
    kettle.session 2 [.call (.advance (.ofMillis 5)), .subscribe modest,
      .call (.advanceTo (.ofMillis 12)), .subscribe rude, .unsubscribe 0, .call .start]
      (run.withWorld 2) = some (kept ++ [(some .done, done)]) ∧
    done.state = "hot" ∧ done.context = 1 ∧ done.now = .ofMillis 12 ∧ done.journal.length = 2 := by
  have hm : kettle.Accepted := ⟨kettleBuilder, rfl⟩
  have hr : kettle.Reachable (kettle.newRun 0 0) := ⟨0, 0, .first⟩
  have hgives : kettle.GivesUp ["fill", "plug"] 0 0 _ _ _ _ := .later rfl rfl (.now rfl rfl)
  have hsome : (kettle.session 2 impatience (kettle.newRun 0 0)).isSome := rfl
  have hsession := (Option.some_get hsome).symm
  have hstart : kettle.call 2 .start (lastRun (kettle.newRun 0 0)
      ((kettle.session 2 impatience (kettle.newRun 0 0)).get hsome)) = some (_, .done) := rfl
  obtain ⟨node, hn, hfails, -, hsucceeds⟩ := failed_starts_traceless hm hr rfl
  cases hn
  obtain ⟨-, -, kept, -, hkept, -⟩ := hsucceeds 2 impatience _ _ hsession hstart
  exact ⟨_, _, _, kept, hm, hr, rfl, hgives, ((hfails _ _ _ _ hgives).2 0).1, hsession, hstart, hkept,
    rfl, rfl, rfl, rfl⟩

end

end Machine

end Automat
