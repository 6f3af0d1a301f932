import Automat.Proofs.Machine.Reachable
import Automat.Vending.Table

/-!
What the vending machine does with an event. Every rule comes down to the hooks that it calls and
the context that it leaves behind (`Planned`); a rule is carried out as planned unless one of the
hooks fails, and an event without a rule changes nothing (`handled`).
-/

namespace Automat.Vending

variable {W O : Type} (clock : W → Timestamp) (display : Display W) (config : Config)

/-- The machine that the builder makes. -/
def assembled : Machine State Kind Event Context W where
  definition := definition config
  actions := (builder clock display config).actions
  guards := (builder clock display config).guards
  context := .empty
  historyLimit := config.run.historyLimit
  clock := clock

theorem machine_eq_ok : machine clock display config = .ok (assembled clock display config) := rfl

theorem assembled_accepted : (assembled clock display config).Accepted :=
  ⟨builder clock display config, machine_eq_ok clock display config⟩

/-- A clock that stands still. -/
def standing (_ : W) : Timestamp := .epoch

/-! ## Hooks -/

/-- Calls hooks in order, up to the first that fails. -/
def Display.callAll (display : Display W) : List Hook → W → W × Option Fault
  | [], world => (world, none)
  | hook :: rest, world =>
    match display hook world with
    | (world, none) => Display.callAll display rest world
    | (world, some fault) => (world, some fault)

theorem callAll_append (first rest : List Hook) (world : W) :
    display.callAll (first ++ rest) world =
      match display.callAll first world with
      | (world, none) => display.callAll rest world
      | (world, some fault) => (world, some fault) := by
  induction first generalizing world with
  | nil => rfl
  | cons hook first ih =>
    simp only [List.cons_append, Display.callAll]
    split
    · exact ih _
    · rfl

theorem callAll_single (hook : Hook) (world : W) :
    display.callAll [hook] world = display hook world := by
  simp only [Display.callAll]
  split <;> simp_all

/-! ## Actions -/

/-- The action calls these hooks and turns the context into another one. -/
def Acts (action : Action Event Context W) (event : Option Event) (context : Context)
    (hooks : List Hook) (result : Context) : Prop :=
  ∀ world, action event context world =
    ⟨result, [], (display.callAll hooks world).1, (display.callAll hooks world).2⟩

variable {clock display}

theorem acts_resetContext (event : Option Event) (context : Context) :
    Acts display resetContext event context [] .empty := fun _ => rfl

theorem acts_assignSelectedItem (item : Item) (context : Context) :
    Acts display assignSelectedItem (some (.selectItem item)) context []
      { context with selectedItem := some item } := fun _ => rfl

theorem acts_accumulateInsertedMoney {amount : UInt64} {context : Context}
    (h : context.insertedMoney.toNat + amount.toNat < UInt64.size) :
    Acts display accumulateInsertedMoney (some (.insertMoney amount)) context []
      { context with insertedMoney := context.insertedMoney + amount } := by
  intro world
  simp only [accumulateInsertedMoney, if_pos h]
  rfl

theorem acts_computeRefund (event : Option Event) (context : Context) :
    Acts display computeRefund event context [] { context with change := context.insertedMoney } :=
  fun _ => rfl

theorem acts_computeChange (event : Option Event) (context : Context) :
    Acts display computeChange event context []
      { context with change := context.changeAfterPurchase } := fun _ => rfl

theorem acts_displayDispensing (event : Option Event) (context : Context) :
    Acts display (displayDispensing display) event context
      [.showDispensing context.selectedItem] context := by
  intro world
  rw [callAll_single]
  rfl

theorem acts_displayReturning (event : Option Event) (context : Context) :
    Acts display (displayReturning display) event context [.showReturning context.change]
      context := by
  intro world
  rw [callAll_single]
  rfl

theorem acts_dispenseItem (event : Option Event) (context : Context) :
    Acts display (dispenseItem display) event context
      (context.selectedItem.toList.map .dispenseItem) context := by
  intro world
  cases h : context.selectedItem with
  | none => simp [dispenseItem, Action.effect, h, Display.callAll]
  | some item => simp [dispenseItem, Action.effect, h, callAll_single]

def Context.payable (context : Context) : List UInt64 :=
  if 0 < context.change then [context.change] else []

theorem acts_dispenseChange (event : Option Event) (context : Context) :
    Acts display (dispenseChange display) event context (context.payable.map .dispenseChange)
      context := by
  intro world
  by_cases h : 0 < context.change
  · simp [dispenseChange, Action.effect, Context.payable, h, callAll_single]
  · simp [dispenseChange, Action.effect, Context.payable, h, Display.callAll]

/-! ## Sequences of actions -/

variable {config}

/-- The steps call these hooks and, unless one of them fails, end with this context. -/
def Performs (clock : W → Timestamp) (display : Display W) (config : Config) (event : Event)
    (steps : List (State × String)) (context : Context) (hooks : List Hook)
    (result : Context) : Prop :=
  ∀ world, match display.callAll hooks world with
    | (done, none) =>
      (assembled clock display config).perform (some event) steps ⟨context, [], world⟩ =
        (⟨result, [], done⟩, none)
    | (done, some _) => ∃ draft failure,
      (assembled clock display config).perform (some event) steps ⟨context, [], world⟩ =
        (draft, some failure) ∧ draft.world = done

theorem performs_nil (event : Event) (context : Context) :
    Performs clock display config event [] context [] context := fun _ => rfl

theorem performs_cons {event : Event} {state : State} {name : String}
    {action : Action Event Context W} {steps : List (State × String)}
    {context middle result : Context} {first rest : List Hook}
    (hf : (assembled clock display config).actions.find? name = some action)
    (ha : Acts display action (some event) context first middle)
    (hr : Performs clock display config event steps middle rest result) :
    Performs clock display config event ((state, name) :: steps) context (first ++ rest)
      result := by
  intro world
  have hrest := hr (display.callAll first world).1
  rw [callAll_append]
  cases hc : display.callAll first world with
  | mk done fault =>
    rw [hc] at hrest
    cases fault with
    | none =>
      simp only [Machine.perform, hf, ha world, hc, List.append_nil]
      exact hrest
    | some fault =>
      simp only [Machine.perform, hf, ha world, hc]
      exact ⟨_, _, rfl, rfl⟩

theorem performs_assign {event : Event} {state : State} {name : String}
    {action : Action Event Context W} {steps : List (State × String)}
    {context middle result : Context} {hooks : List Hook}
    (hf : (assembled clock display config).actions.find? name = some action)
    (ha : Acts display action (some event) context [] middle)
    (hr : Performs clock display config event steps middle hooks result) :
    Performs clock display config event ((state, name) :: steps) context hooks result :=
  performs_cons hf ha hr

/-! ## Plans -/

/-- The rule for an event in a run moves to this target, calls these hooks, and leaves this context
behind. -/
inductive Planned (run : Run State Event Context W O) :
    Event → Option State → List Hook → Context → Prop where
  | start : run.state = .idle → Planned run .start (some .selecting) [] run.context
  | choose (item : Item) : run.state = .selecting →
      Planned run (.selectItem item) none [] { run.context with selectedItem := some item }
  | pay {amount : UInt64} : run.state = .selecting →
      run.context.insertedMoney.toNat + amount.toNat < UInt64.size →
      Planned run (.insertMoney amount) none []
        { run.context with insertedMoney := run.context.insertedMoney + amount }
  | buy {item : Item} : run.state = .selecting → run.context.selectedItem = some item →
      item.price ≤ run.context.insertedMoney →
      Planned run .purchase (some .dispensing) [.showDispensing (some item)] run.context
  | cancel : run.state = .selecting →
      Planned run .cancel (some .returning) [.showReturning run.context.insertedMoney]
        { run.context with change := run.context.insertedMoney }
  | dispense {id : TimerId} : run.state = .dispensing → run.timers.isLive id run.visit = true →
      Planned run (.timerElapsed id) (some .returning)
        (run.context.selectedItem.toList.map .dispenseItem ++
          [.showReturning run.context.changeAfterPurchase])
        { run.context with change := run.context.changeAfterPurchase }
  | giveBack {id : TimerId} : run.state = .returning → run.timers.isLive id run.visit = true →
      Planned run (.timerElapsed id) (some .idle) (run.context.payable.map .dispenseChange) .empty

/-- A plan was carried out, or given up at a hook that failed. -/
inductive CarriedOut (clock : W → Timestamp) (display : Display W) (config : Config) (event : Event)
    (target : Option State) (hooks : List Hook) (context : Context)
    (run : Run State Event Context W O) : Run State Event Context W O → Prop where
  | committed {world : W} : display.callAll hooks run.world = (world, none) →
      CarriedOut clock display config event target hooks context run
        ((assembled clock display config).commit target event ⟨context, [], world⟩ run)
  | failed {world : W} {fault : Fault} (failure : Failure) :
      display.callAll hooks run.world = (world, some fault) →
      CarriedOut clock display config event target hooks context run
        ((run.withWorld world).publish (some event) (.failed failure))

/-- What the machine does with an event. -/
inductive Handled (clock : W → Timestamp) (display : Display W) (config : Config) (event : Event)
    (run : Run State Event Context W O) : Run State Event Context W O → Prop where
  | stale : (assembled clock display config).delayed? event run = none →
      Handled clock display config event run run
  | kept (outcome : Outcome State) : EventLike.elapsedTimer? event = none → outcome.Keeps →
      Handled clock display config event run (run.publish (some event) outcome)
  | planned {target : Option State} {hooks : List Hook} {context : Context}
      {next : Run State Event Context W O} : Planned run event target hooks context →
      CarriedOut clock display config event target hooks context run next →
      Handled clock display config event run next

variable {run : Run State Event Context W O} {event : Event}

theorem carriedOut_apply {target : Option State} {actions : List String} {hooks : List Hook}
    {context : Context} (ht : target.filter (· ≠ run.state) = target)
    (hp : Performs clock display config event
      ((assembled clock display config).ruleSteps run.state actions target) run.context hooks
      context) :
    CarriedOut clock display config event target hooks context run
      ((assembled clock display config).apply target actions event run) := by
  have h := hp run.world
  simp only [Machine.apply, ht]
  cases hc : display.callAll hooks run.world with
  | mk world fault =>
    rw [hc] at h
    cases fault with
    | none =>
      simp only [h]
      exact .committed hc
    | some fault =>
      obtain ⟨draft, failure, hd, rfl⟩ := h
      simp only [hd]
      exact .failed failure hc

theorem planned_apply {target : Option State} {actions : List String} {hooks : List Hook}
    {context : Context} (hplan : Planned run event target hooks context)
    (ht : target.filter (· ≠ run.state) = target)
    (hp : Performs clock display config event
      ((assembled clock display config).ruleSteps run.state actions target) run.context hooks
      context) :
    Handled clock display config event run
      ((assembled clock display config).apply target actions event run) :=
  .planned hplan (carriedOut_apply ht hp)

theorem handled_of_no_rule (ht : EventLike.elapsedTimer? event = none)
    (hr : (definition config).rule? run.state event.kind = none) :
    Handled clock display config event run
      ((assembled clock display config).process event run) := by
  have hp : (assembled clock display config).process event run =
      run.publish (some event) .ignored :=
    Machine.process_of_no_rule ht hr
  rw [hp]
  exact .kept .ignored ht trivial

theorem isLive_of_delayed? {id : TimerId} {after : Delayed State}
    (h : (assembled clock display config).delayed? (.timerElapsed id) run = some after) :
    run.timers.isLive id run.visit = true := by
  cases hl : run.timers.isLive id run.visit with
  | true => rfl
  | false =>
    simp [Machine.delayed?, EventLike.isWellFormed, EventLike.elapsedTimer?, hl] at h

theorem handled_timerElapsed (id : TimerId) :
    Handled clock display config (.timerElapsed id) run
      ((assembled clock display config).process (.timerElapsed id) run) := by
  cases hd : (assembled clock display config).delayed? (.timerElapsed id) run with
  | none =>
    have hn : ∃ node, (assembled clock display config).definition.node? run.state = some node := by
      cases run.state <;> exact ⟨_, rfl⟩
    obtain ⟨node, hn⟩ := hn
    rw [Machine.process_of_delayed?_none hn rfl rfl hd]
    exact .stale hd
  | some after =>
    have hl := isLive_of_delayed? hd
    have ha := Machine.after?_of_delayed? hd
    rw [Machine.process_eq_apply hd]
    cases hs : run.state with
    | idle => rw [hs] at ha; cases ha
    | selecting => rw [hs] at ha; cases ha
    | dispensing =>
      rw [hs] at ha
      cases ha
      refine planned_apply (.dispense hs hl) (by rw [hs]; rfl) ?_
      rw [hs]
      exact performs_assign rfl (acts_computeChange _ _)
        (performs_cons rfl (acts_dispenseItem _ _)
          (performs_cons rfl (acts_displayReturning _ _) (performs_nil _ _)))
    | returning =>
      rw [hs] at ha
      cases ha
      refine planned_apply (.giveBack hs hl) (by rw [hs]; rfl) ?_
      rw [hs, ← List.append_nil (run.context.payable.map _)]
      exact performs_cons rfl (acts_dispenseChange _ _)
        (performs_cons rfl (acts_resetContext _ _) (performs_nil _ _))

theorem handled_selectItem (hs : run.state = .selecting) (item : Item) :
    Handled clock display config (.selectItem item) run
      ((assembled clock display config).process (.selectItem item) run) := by
  have hp : (assembled clock display config).process (.selectItem item) run =
      (assembled clock display config).apply none ["assignSelectedItem"] (.selectItem item) run :=
    Machine.process_of_unguarded rfl rfl (by rw [hs]; rfl)
  rw [hp]
  refine planned_apply (.choose item hs) rfl ?_
  exact performs_assign rfl (acts_assignSelectedItem item _) (performs_nil _ _)

/-- Money is counted, or the event is ignored or fails. -/
theorem handled_insertMoney (hs : run.state = .selecting) (amount : UInt64) :
    Handled clock display config (.insertMoney amount) run
      ((assembled clock display config).process (.insertMoney amount) run) := by
  by_cases hz : amount = 0
  · rw [Machine.process_of_malformed (by simp [EventLike.isWellFormed, hz])]
    exact .kept .ignored rfl trivial
  · have hp : (assembled clock display config).process (.insertMoney amount) run =
        (assembled clock display config).apply none ["accumulateInsertedMoney"]
          (.insertMoney amount)
          run :=
      Machine.process_of_unguarded (by simp [EventLike.isWellFormed, hz]) rfl (by rw [hs]; rfl)
    rw [hp]
    by_cases hsum : run.context.insertedMoney.toNat + amount.toNat < UInt64.size
    · refine planned_apply (.pay hs hsum) rfl ?_
      exact performs_assign rfl (acts_accumulateInsertedMoney hsum) (performs_nil _ _)
    · have hf : (assembled clock display config).actions.find? "accumulateInsertedMoney" =
          some accumulateInsertedMoney := rfl
      simp only [Machine.apply, Machine.ruleSteps, Machine.perform, Option.filter_none,
        Option.toList_none, List.flatMap_nil, List.append_nil, List.map_cons, List.map_nil, hf,
        accumulateInsertedMoney, if_neg hsum]
      exact .kept _ rfl trivial

/-- A purchase is made if an item is chosen and paid for. -/
theorem handled_purchase (hs : run.state = .selecting) :
    Handled clock display config .purchase run
      ((assembled clock display config).process .purchase run) := by
  have hp : (assembled clock display config).process .purchase run =
      (assembled clock display config).applyGuarded
        { target := some .dispensing, guard := some "canPurchase" } .purchase run :=
    Machine.process_of_rule rfl rfl (by rw [hs]; rfl)
  have hcheck : (assembled clock display config).check "canPurchase" run.state (some .purchase)
      run.context run.world = (run.world, .ok run.context.canPurchase) := rfl
  rw [hp]
  simp only [Machine.applyGuarded, hcheck]
  cases hc : run.context.canPurchase with
  | false => exact .kept _ rfl trivial
  | true =>
    unfold Context.canPurchase at hc
    split at hc
    · next item hi =>
      have hle : item.price ≤ run.context.insertedMoney := by simpa using hc
      refine planned_apply (.buy hs hi hle) (by rw [hs]; rfl) ?_
      rw [← hi]
      exact performs_cons rfl (acts_displayDispensing _ _) (performs_nil _ _)
    · cases hc

theorem handled_cancel (hs : run.state = .selecting) :
    Handled clock display config .cancel run
      ((assembled clock display config).process .cancel run) := by
  have hp : (assembled clock display config).process .cancel run =
      (assembled clock display config).apply (some .returning) ["computeRefund"] .cancel run :=
    Machine.process_of_unguarded rfl rfl (by rw [hs]; rfl)
  rw [hp]
  refine planned_apply (.cancel hs) (by rw [hs]; rfl) ?_
  exact performs_assign rfl (acts_computeRefund _ _)
    (performs_cons rfl (acts_displayReturning _ _) (performs_nil _ _))

variable (clock display config) in
/-- Every event is dropped, reported without effect, or carried out as planned. -/
theorem handled (run : Run State Event Context W O) (event : Event) :
    Handled clock display config event run
      ((assembled clock display config).process event run) := by
  cases hs : run.state with
  | idle =>
    cases event with
    | start =>
      have hp : (assembled clock display config).process .start run =
          (assembled clock display config).apply (some .selecting) [] .start run :=
        Machine.process_of_unguarded rfl rfl (by rw [hs]; rfl)
      rw [hp]
      exact planned_apply (.start hs) (by rw [hs]; rfl) (performs_nil _ _)
    | timerElapsed id => exact handled_timerElapsed id
    | selectItem | insertMoney | purchase | cancel =>
      exact handled_of_no_rule rfl (by rw [hs]; rfl)
  | selecting =>
    cases event with
    | start => exact handled_of_no_rule rfl (by rw [hs]; rfl)
    | selectItem item => exact handled_selectItem hs item
    | insertMoney amount => exact handled_insertMoney hs amount
    | purchase => exact handled_purchase hs
    | cancel => exact handled_cancel hs
    | timerElapsed id => exact handled_timerElapsed id
  | dispensing | returning =>
    cases event with
    | timerElapsed id => exact handled_timerElapsed id
    | start | selectItem | insertMoney | purchase | cancel =>
      exact handled_of_no_rule rfl (by rw [hs]; rfl)

/-- No action of the machine raises events. -/
theorem Handled.queue_eq {next : Run State Event Context W O}
    (h : Handled clock display config event run next) : next.queue = run.queue := by
  cases h with
  | stale => rfl
  | kept => rfl
  | planned _ hc =>
    cases hc with
    | committed => rw [Machine.queue_commit, List.append_nil]
    | failed => rfl

theorem Handled.status_eq {next : Run State Event Context W O}
    (h : Handled clock display config event run next) : next.status = run.status := by
  cases h with
  | stale => rfl
  | kept => rfl
  | planned _ hc =>
    cases hc with
    | committed => rw [Machine.status_commit]
    | failed => rfl

/-- A question changes nothing: the only guard reads the context alone. -/
theorem canTransition_fst (kind : Kind) (run : Run State Event Context W O) :
    ((assembled clock display config).canTransition kind run).1 = run := by
  unfold Machine.canTransition
  split
  · cases run.state <;> cases kind <;> rfl
  · rfl

end Automat.Vending
