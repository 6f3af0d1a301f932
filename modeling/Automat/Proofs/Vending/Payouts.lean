import Automat.Proofs.Machine.Attempts
import Automat.Proofs.Vending.Ledger

/-!
Money in the vending machine, over whole runs. With a display whose hooks return, all the money
taken is handed out or still held (`money_conserved`). Whatever the display does, nothing is handed
out twice until a client reports a timer that is spent, and then something is
(`payouts_single_iff`).
-/

namespace Automat.Vending

variable {W O : Type} {clock : List Hook × W → Timestamp} {display : Display W} {config : Config}
variable {fired : Bool} {run next : Run State Event Context (List Hook × W) O} {event : Event}

/-! ## One event -/

theorem CarriedOut.books {target : Option State} {hooks : List Hook} {context : Context}
    (hc : CarriedOut clock display.recorded config event target hooks context run next)
    (hp : Planned run event target hooks context) (hb : Books false run) :
    (Books false next ∧ ∃ world, next =
      (assembled clock display.recorded config).commit target event ⟨context, [], world⟩ run) ∨
    (Books (delays run.state) next ∧ next.timers = run.timers ∧ ¬ display.Returns) := by
  obtain ⟨called, rest, hh, hcalls, hrest, hne⟩ :=
    callAll_recorded display hooks run.world.1 run.world.2
  cases hc with
  | @committed world hall =>
    rw [hall] at hcalls hrest
    obtain rfl := hrest rfl
    obtain rfl : hooks = called := by rw [hh, List.append_nil]
    exact .inl ⟨hp.books_commit hb hcalls, world, rfl⟩
  | @failed world fault failure hall =>
    rw [hall] at hcalls
    have hhooks : hooks ≠ [] := by
      rintro rfl
      cases hall
    refine .inr ⟨hp.books_fail hb hh (hne hhooks) hcalls failure, rfl, ?_⟩
    intro hd
    have hnone := hd.recorded.callAll_eq_none hooks run.world
    rw [hall] at hnone
    cases hnone

/-- The state with no delayed transition has no timer. -/
theorem hasFired_eq_false (ht : (assembled clock display.recorded config).Timed run)
    (hr : run.status = .running) (hs : delays run.state = false) :
    run.timers.hasFired = false := by
  have ha : run.timers.armed.isSome = false := by
    rw [ht.armed hr]
    cases h : run.state with
    | idle | selecting => rfl
    | dispensing | returning => rw [h] at hs; cases hs
  have hn : run.timers.armed = none := by simpa using ha
  rw [Timers.hasFired, hn]
  rfl

/-- Only events that are no reports of a live timer are planned in a state without a delay. -/
theorem Planned.delays_eq_false {target : Option State} {hooks : List Hook} {context : Context}
    (hp : Planned run event target hooks context)
    (hd : (assembled clock display.recorded config).delayed? event run = none) :
    delays run.state = false := by
  cases hp with
  | start hs | choose _ hs | pay hs | buy hs | cancel hs => rw [hs]; rfl
  | dispense hs hl =>
    simp [Machine.delayed?, EventLike.isWellFormed, EventLike.elapsedTimer?, hl, hs] at hd
    cases hd
  | giveBack hs hl =>
    simp [Machine.delayed?, EventLike.isWellFormed, EventLike.elapsedTimer?, hl, hs] at hd
    cases hd

/-- An event that is no report of a spent timer keeps the books balanced. -/
theorem books_process (hp : Handled clock display.recorded config event run next)
    (ht : (assembled clock display.recorded config).Timed run) (hr : run.status = .running)
    (hb : Books fired run) (hf : run.timers.hasFired = fired)
    (hd : (assembled clock display.recorded config).delayed? event run = none) :
    Books fired next ∧ next.timers.hasFired = fired := by
  cases hp with
  | stale => exact ⟨hb, hf⟩
  | kept outcome _ hk => exact ⟨hb.publish _ hk, hf⟩
  | @planned target hooks context _ hplan hc =>
    have hs := hplan.delays_eq_false hd
    have hfalse : fired = false := hf ▸ hasFired_eq_false ht hr hs
    subst hfalse
    rcases hc.books hplan hb with ⟨hbooks, world, hnext⟩ | ⟨hbooks, htimers, -⟩
    · refine ⟨hbooks, ?_⟩
      rw [hnext]
      cases target with
      | some target => exact Machine.hasFired_commit target _ _ _
      | none => exact hf
    · rw [hs] at hbooks
      exact ⟨hbooks, by rw [htimers, hf]⟩

/-- The delayed transition keeps the books balanced, and succeeds if the display returns. -/
theorem books_delayed {id : TimerId}
    (hp : Handled clock display.recorded config (.timerElapsed id) run next) (hb : Books false run)
    (hf : run.timers.hasFired = true)
    (hd : (assembled clock display.recorded config).delayed? (.timerElapsed id) run ≠ none) :
    Books next.timers.hasFired next ∧ (display.Returns → next.timers.hasFired = false) := by
  cases hp with
  | stale h => exact absurd h hd
  | kept outcome h => cases h
  | @planned target hooks context _ hplan hc =>
    have hs : delays run.state = true ∧ ∃ state, target = some state := by
      cases hplan with
      | dispense hs => exact ⟨by rw [hs]; rfl, _, rfl⟩
      | giveBack hs => exact ⟨by rw [hs]; rfl, _, rfl⟩
    obtain ⟨hs, state, rfl⟩ := hs
    rcases hc.books hplan hb with ⟨hbooks, world, hnext⟩ | ⟨hbooks, htimers, hreturns⟩
    · have hfalse : next.timers.hasFired = false := by
        rw [hnext]
        exact Machine.hasFired_commit state _ _ _
      rw [hfalse]
      exact ⟨hbooks, fun _ => rfl⟩
    · rw [htimers, hf, ← hs]
      exact ⟨hbooks, fun h => absurd h hreturns⟩

/-! ## Whole runs -/

/-- The timer is in order and the books balance; no event that waits reports a spent timer. -/
structure Audited (clock : List Hook × W → Timestamp) (display : Display W) (config : Config)
    (fired : Bool)
    (run : Run State Event Context (List Hook × W) O) : Prop where
  timed : (assembled clock display.recorded config).Timed run
  books : Books fired run
  fired : run.status = .running → run.timers.hasFired = fired
  fresh : run.status = .notStarted → run.state = .idle ∧ run.context = .empty
  waiting : run.queue = [] ∨ run.status = .running ∧ ∃ event, run.queue = [event] ∧
    (assembled clock display.recorded config).delayed? event run = none

theorem audited_newRun (world : W) (observers : O) :
    Audited clock display config false
      ((assembled clock display.recorded config).newRun ([], world) observers) where
  timed := Machine.timed_newRun (assembled_accepted _ _ _) _ _
  books := ⟨rfl, rfl, rfl, (fun hs => by cases hs), Bool.false_ne_true.elim⟩
  fired hs := by cases hs
  fresh _ := ⟨rfl, rfl⟩
  waiting := .inl rfl

/-- Entering the first state empties the context and hands out nothing. -/
theorem Audited.enterInitial (ha : Audited clock display config fired run)
    (hr : run.status = .notStarted) :
    Books false
      ((assembled clock display.recorded config).enterInitial ⟨.empty, [], run.world⟩ run) ∧
    ((assembled clock display.recorded config).enterInitial ⟨.empty, [], run.world⟩
      run).timers.hasFired =
      false := by
  obtain ⟨hs, hc⟩ := ha.fresh hr
  have hdis : run.timers.armed = none := ha.timed.disarmed (by rw [hr]; decide)
  rw [Machine.enterInitial, Machine.arm_eq]
  constructor
  · refine ha.books.entry rfl (List.append_nil _).symm ?_ ?_ ?_ ?_ Bool.false_ne_true.elim
    · rw [hs, hc]
      rfl
    · rw [hs]
      rfl
    · rw [hs]
      rfl
    · intro hd
      cases hd
  · exact Machine.hasFired_entryTimers ((run.adopt ⟨.empty, [], run.world⟩).begin .idle) hdis

theorem Audited.of_eq (ha : Audited clock display config fired run) (hr : next.status = run.status)
    (hs : next.state = run.state) (hv : next.visit = run.visit) (hc : next.context = run.context)
    (ht : next.timers = run.timers) (hj : next.journal = run.journal)
    (hw : next.world = run.world) (hq : next.queue = run.queue) :
    Audited clock display config fired next := by
  obtain ⟨htimed, hbooks, hfired, hfresh, hwaiting⟩ := ha
  constructor
  · exact htimed.of_eq hr hs hv ht
  · exact hbooks.of_eq hs hc hj (by rw [hw])
  · rwa [hr, ht]
  · rwa [hr, hs, hc]
  · have hd : ∀ event, (assembled clock display.recorded config).delayed? event next =
        (assembled clock display.recorded config).delayed? event run := by
      intro event
      simp only [Machine.delayed?, hs, hv, ht]
    simpa only [hq, hr, hd] using hwaiting

/-- A step that accepts no report of a spent timer leaves the books balanced; and with a display
that returns, no delayed transition stays behind unfinished. -/
theorem Audited.step {happening : Happening Kind Event}
    (ha : Audited clock display config fired run)
    (hs : Machine.Step (assembled clock display.recorded config) run happening next)
    (he : ∀ event, happening.accepted? = some event →
      (assembled clock display.recorded config).delayed? event run = none) :
    ∃ later, Audited clock display config later next ∧
      (display.Returns → fired = false → later = false) := by
  have htimed := hs.timed (assembled_accepted _ _ _) ha.timed
  cases hs with
  | @begin draft hr hp =>
    cases hp
    obtain ⟨hbooks, hfired⟩ := ha.enterInitial hr
    refine ⟨false, ⟨htimed, hbooks, fun _ => hfired, ?_, ?_⟩, fun _ _ => rfl⟩
    · intro hn
      cases (Machine.status_enterInitial _ _ _).symm.trans hn
    · rcases ha.waiting with hq | ⟨hrunning, -⟩
      · refine .inl ?_
        rw [Machine.enterInitial, Machine.arm_eq]
        exact (List.append_nil _).trans hq
      · cases hr.symm.trans hrunning
  | @refuse draft failure hr hp => cases hp
  | accept event hr hq =>
    refine ⟨fired, ⟨htimed, ha.books.of_eq rfl rfl rfl rfl, ha.fired, ha.fresh, ?_⟩,
      fun _ h => h⟩
    exact .inr ⟨hr, event, by simp [Run.enqueue, hq], he event rfl⟩
  | @take rest event hq =>
    obtain ⟨hr, queue, hqueue, rfl⟩ := Run.dequeue?_eq_some_iff.1 hq
    rcases ha.waiting with hnil | ⟨-, other, hother, hd⟩
    · cases hqueue.symm.trans hnil
    · cases hqueue.symm.trans hother
      have hp := handled clock display.recorded config { run with queue := [] } event
      obtain ⟨hbooks, hfired⟩ := books_process hp (ha.timed.of_eq rfl rfl rfl rfl) hr
        (ha.books.of_eq rfl rfl rfl rfl) (ha.fired hr) hd
      refine ⟨fired, ⟨htimed, hbooks, fun _ => hfired, ?_, .inl hp.queue_eq⟩, fun _ h => h⟩
      intro hn
      cases (hp.status_eq.trans hr).symm.trans hn
  | @elapse id timers hr hq hf =>
    have hd := ha.timed.isSome_delayed?_fire hr hf
    have hp := handled clock display.recorded config (run.withTimers timers) (.timerElapsed id)
    obtain ⟨timer, harmed, hunfired, -, -, rfl⟩ := Timers.fire?_eq_some_iff.1 hf
    have hfalse : fired = false := by
      rw [← ha.fired hr, Timers.hasFired, harmed]
      exact hunfired
    subst hfalse
    obtain ⟨hbooks, hreturns⟩ := books_delayed hp (ha.books.of_eq rfl rfl rfl rfl) rfl
      (Option.isSome_iff_ne_none.1 hd)
    refine ⟨_, ⟨htimed, hbooks, fun _ => rfl, ?_, .inl (hp.queue_eq.trans hq)⟩,
      fun h _ => hreturns h⟩
    intro hn
    cases (hp.status_eq.trans hr).symm.trans hn
  | tick time hq hd => exact ⟨fired, ha.of_eq rfl rfl rfl rfl rfl rfl rfl rfl, fun _ h => h⟩
  | ask kind =>
    rw [canTransition_fst]
    exact ⟨fired, ha, fun _ h => h⟩
  | stop =>
    unfold Run.stop at htimed ⊢
    split
    · exact ⟨fired, ha, fun _ h => h⟩
    · next hn =>
      rw [if_neg hn] at htimed
      refine ⟨fired, ⟨htimed, ha.books.of_eq rfl rfl rfl rfl, ?_, ?_, .inl rfl⟩, fun _ h => h⟩
      · intro hs
        cases hs
      · intro hs
        cases hs
  | listen audience => exact ⟨fired, ha.of_eq rfl rfl rfl rfl rfl rfl rfl rfl, fun _ h => h⟩

/-! ## Conservation -/

/-- The money that the machine still holds for the customer. -/
def moneyHeld (run : Run State Event Context (List Hook × W) O) : Nat :=
  if run.state = .returning then run.context.change.toNat else run.context.insertedMoney.toNat

theorem Audited.delayed?_eq_none (ha : Audited clock display config false run) (event : Event) :
    (assembled clock display.recorded config).delayed? event run = none := by
  cases hd : (assembled clock display.recorded config).delayed? event run with
  | none => rfl
  | some after =>
    have hfired := Machine.hasFired_of_delayed? (Option.ne_none_iff_exists'.2 ⟨after, hd⟩)
    by_cases hr : run.status = .running
    · cases (ha.fired hr).symm.trans hfired
    · rw [Timers.hasFired, ha.timed.disarmed hr] at hfired
      cases hfired

/-- With a display whose hooks return, all the money taken has been handed out, as items or as
change, or is still held. -/
theorem money_conserved (hd : display.Returns)
    {m : Machine State Kind Event Context (List Hook × W)}
    (hm : machine clock display.recorded config = .ok m) {world : W} {observers : O}
    (hr : Machine.Reached m (fun _ _ => True) (m.newRun ([], world) observers) run) :
    takings run.journal = paidOut run.world.1 + moneyHeld run := by
  obtain rfl : assembled clock display.recorded config = m :=
    Except.ok.inj ((machine_eq_ok clock display.recorded config).symm.trans hm)
  have ha : Audited clock display config false run := by
    refine hr.keeps rfl (audited_newRun world observers) ?_
    intro run happening next hs _ ha
    obtain ⟨later, hlater, hfalse⟩ := ha.step hs fun event _ => ha.delayed?_eq_none event
    rwa [hfalse hd rfl] at hlater
  rw [ha.books.money, moneyHeld]
  cases run.state <;> rfl

/-- The calls of a purchase up to the moment at which the item has been handed out. -/
def purchaseCalls (item : Item) (amount : UInt64) : List (Call Kind Event) :=
  [.start, .send .start, .send (.selectItem item), .send (.insertMoney amount), .send .purchase,
    .advance (.ofMillis 2000)]

def slipper : Item := ⟨"slipperA", "Slipper A", 25000⟩

/-- A purchase for which too much was paid: the change is still held. -/
theorem money_conserved_purchase :
    ∃ run : Run State Event Context (List Hook × Unit) Unit,
      run.world.1 = [.showDispensing (some slipper), .dispenseItem slipper, .showReturning 5000] ∧
      moneyHeld run = 5000 ∧ takings run.journal = 30000 ∧
      takings run.journal = paidOut run.world.1 + moneyHeld run := by
  have hd : (Display.blank : Display Unit).Returns := fun _ _ => rfl
  have hsome : ((assembled standing Display.blank.recorded {}).calls 3 (purchaseCalls slipper 30000)
      ((assembled standing Display.blank.recorded {}).newRun ([], ()) ())).isSome := rfl
  exact ⟨_, rfl, rfl, rfl, money_conserved hd (machine_eq_ok _ _ _)
    (Machine.reached_get_calls hsome fun _ _ _ => trivial)⟩

/-! ## Single payouts -/

/-- No more is handed out than was taken; the items handed out are those of the first accepted
purchases, and the change handed out is that which became due first. -/
structure SinglePayouts (run : Run State Event Context (List Hook × W) O) : Prop where
  covered : paidOut run.world.1 ≤ takings run.journal
  items : itemsOut run.world.1 <+: purchases run.journal
  change : changeOut run.world.1 <+: debts run.journal

theorem Books.singlePayouts (hb : Books fired run) : SinglePayouts run := by
  refine ⟨?_, ?_, ?_⟩
  · rw [hb.money]
    exact Nat.le_add_right _ _
  · rw [hb.items]
    exact List.prefix_append _ _
  · rw [hb.change]
    exact List.prefix_append _ _

/-- A client reports a timer that has fired and is still armed. -/
def Forges (call : Call Kind Event) (run : Run State Event Context (List Hook × W) O) : Prop :=
  run.status = .running ∧ ∃ id, call = .send (.timerElapsed id) ∧ run.timers.Spent id

theorem forges_of_delayed? (ht : (assembled clock display.recorded config).Timed run)
    (hr : run.status = .running)
    (hd : (assembled clock display.recorded config).delayed? event run ≠ none) :
    Forges (.send event) run := by
  cases event with
  | timerElapsed id =>
    rw [← Option.isSome_iff_ne_none, ht.delayed?_isSome_iff hr rfl rfl] at hd
    exact ⟨hr, id, rfl, hd⟩
  | start | selectItem | purchase | cancel => exact absurd rfl hd
  | insertMoney amount =>
    refine absurd ?_ hd
    unfold Machine.delayed?
    split <;> simp_all [EventLike.elapsedTimer?]

theorem exists_audited {world : W} {observers : O}
    (hr : Machine.Reached (assembled clock display.recorded config)
      (fun run call => ¬ Forges call run)
      ((assembled clock display.recorded config).newRun ([], world) observers) run) :
    ∃ fired, Audited clock display config fired run := by
  refine Machine.Reached.keeps
    (P := fun run => ∃ fired, Audited clock display config fired run) hr rfl
    ⟨false, audited_newRun world observers⟩ ?_
  rintro run happening next hs hnot ⟨fired, ha⟩
  have he : ∀ event, happening.accepted? = some event →
      (assembled clock display.recorded config).delayed? event run = none := by
    intro event he
    cases hs with
    | accept other hr hq =>
      cases he
      cases hd : (assembled clock display.recorded config).delayed? event run with
      | none => rfl
      | some after =>
        have hne := Option.ne_none_iff_exists'.2 ⟨after, hd⟩
        exact absurd (forges_of_delayed? ha.timed hr hne) (hnot event rfl)
    | _ => cases he
  obtain ⟨later, hlater, -⟩ := ha.step hs he
  exact ⟨later, hlater⟩

/-- What a plan calls and reports, whether it was carried out or given up. -/
theorem CarriedOut.exists_entry {target : State} {hooks : List Hook} {context : Context}
    (hc : CarriedOut clock display.recorded config event (some target) hooks context run next) :
    ∃ called rest snapshot, hooks = called ++ rest ∧ (hooks ≠ [] → called ≠ []) ∧
      next.world.1 = run.world.1 ++ called ∧ next.journal = snapshot :: run.journal ∧
      (snapshot.outcome = .transitioned run.state target ∨
        ∃ failure, snapshot.outcome = .failed failure) := by
  obtain ⟨called, rest, hh, hcalls, hrest, hne⟩ :=
    callAll_recorded display hooks run.world.1 run.world.2
  cases hc with
  | @committed world hall =>
    rw [hall] at hcalls
    refine ⟨called, rest, _, hh, hne, ?_, Machine.journal_commit_some .., .inl rfl⟩
    rw [Machine.world_commit]
    exact hcalls
  | @failed world fault failure hall =>
    rw [hall] at hcalls
    exact ⟨called, rest, _, hh, hne, hcalls, rfl, .inr ⟨failure, rfl⟩⟩

theorem not_append_cons_isPrefix {α : Type} (list : List α) (a : α) (rest : List α) :
    ¬ list ++ a :: rest <+: list := by
  intro h
  have hle := h.length_le
  rw [List.length_append, List.length_cons] at hle
  omega

/-- Where the delayed transition was attempted before, one more attempt hands out twice. -/
theorem not_singlePayouts {id : TimerId}
    (hp : Handled clock display.recorded config (.timerElapsed id) run next) (hb : Books true run)
    (hd : (assembled clock display.recorded config).delayed? (.timerElapsed id) run ≠ none) :
    ¬ SinglePayouts next := by
  rintro ⟨-, hitems, hchange⟩
  cases hp with
  | stale h => exact hd h
  | kept outcome h => cases h
  | @planned target hooks context _ hplan hc =>
    cases hplan with
    | dispense hs hl =>
      obtain ⟨item, hi, -⟩ := hb.covered hs
      obtain ⟨called, rest, snapshot, hh, hne, hw, hj, ho⟩ := hc.exists_entry
      obtain ⟨hook, called, rfl⟩ := List.exists_cons_of_ne_nil (hne (by simp))
      rw [hi] at hh
      obtain ⟨rfl, -⟩ := List.cons.inj hh
      have hnew : purchased snapshot = [] := by
        rcases ho with ho | ⟨failure, ho⟩ <;> simp [purchased, ho]
      have hold : purchases run.journal = itemsOut run.world.1 := by
        rw [hb.items, hs]
        exact List.append_nil _
      rw [hw, hj, purchases_cons, hnew, List.append_nil, hold, itemsOut_append,
        itemsOut_cons] at hitems
      exact not_append_cons_isPrefix _ item _ hitems
    | giveBack hs hl =>
      have hpay : run.context.payable = [run.context.change] := if_pos (hb.due rfl hs)
      obtain ⟨called, rest, snapshot, hh, hne, hw, hj, ho⟩ := hc.exists_entry
      rw [hpay] at hh hne
      obtain ⟨hook, called, rfl⟩ := List.exists_cons_of_ne_nil (hne (by simp))
      obtain ⟨rfl, -⟩ := List.cons.inj hh
      have hnew : owed snapshot = [] := by
        rcases ho with ho | ⟨failure, ho⟩ <;> simp [owed, ho]
      have hold : debts run.journal = changeOut run.world.1 := by
        rw [hb.change, hs]
        exact List.append_nil _
      rw [hw, hj, debts_cons, hnew, List.append_nil, hold, changeOut_append,
        changeOut_cons] at hchange
      exact not_append_cons_isPrefix _ run.context.change _ hchange

/-- As long as no client reports a timer that has fired and is still armed, nothing is handed out
twice, whatever the display does. The first such report does make the machine hand out twice. -/
theorem payouts_single_iff {m : Machine State Kind Event Context (List Hook × W)}
    (hm : machine clock display.recorded config = .ok m) {world : W} {observers : O}
    (hr : Machine.Reached m (fun run call => ¬ Forges call run) (m.newRun ([], world) observers)
      run) {fuel : Nat} {call : Call Kind Event} {answer : Answer}
    (hc : m.call fuel call run = some (next, answer)) :
    SinglePayouts run ∧ (SinglePayouts next ↔ ¬ Forges call run) := by
  obtain rfl : assembled clock display.recorded config = m :=
    Except.ok.inj ((machine_eq_ok clock display.recorded config).symm.trans hm)
  obtain ⟨fired, ha⟩ := exists_audited hr
  refine ⟨ha.books.singlePayouts, ?_, ?_⟩
  · rintro hsingle ⟨hrunning, id, rfl, hspent⟩
    obtain ⟨last, hsend, he⟩ := Option.map_eq_some_iff.1 hc
    cases he
    have hq : run.queue = [] := (hr.settles rfl).1
    have hp := handled clock display.recorded config run (.timerElapsed id)
    have hmore := Machine.send_mono hsend (Nat.le_succ fuel)
    rw [Machine.send_succ hrunning hq,
      Machine.drain_of_queue_eq_nil (hp.queue_eq.trans hq), Option.some.injEq] at hmore
    rw [hmore] at hp
    have hd : ((assembled clock display.recorded config).delayed? (.timerElapsed id) run).isSome :=
      (ha.timed.delayed?_isSome_iff hrunning rfl rfl).2 hspent
    have hfired : fired = true := by
      obtain ⟨timer, harmed, hf, -⟩ := hspent
      rw [← ha.fired hrunning, Timers.hasFired, harmed]
      exact hf
    exact not_singlePayouts hp (hfired ▸ ha.books) (Option.isSome_iff_ne_none.1 hd) hsingle
  · intro hnot
    obtain ⟨later, hlater⟩ := exists_audited (hr.call hnot hc)
    exact hlater.books.singlePayouts

/-- A display that jams after it has handed out an item. -/
def jammed : Display Unit := fun hook world =>
  (world, match hook with
    | .dispenseItem _ => some (.panic "jammed")
    | _ => none)

/-- After the display has jammed, a report of the spent timer hands out the same item again. -/
theorem jammed_hands_out_twice :
    ¬ ∀ run : Run State Event Context (List Hook × Unit) Unit,
      Machine.Reached (assembled standing jammed.recorded {}) (fun _ _ => True)
        ((assembled standing jammed.recorded {}).newRun ([], ()) ()) run → SinglePayouts run := by
  intro h
  have hsome : ((assembled standing jammed.recorded {}).calls 3
      (purchaseCalls slipper 30000 ++ [.send (.timerElapsed ⟨1⟩)])
      ((assembled standing jammed.recorded {}).newRun ([], ()) ())).isSome := rfl
  have hsingle := h _ (Machine.reached_get_calls hsome fun _ _ _ => trivial)
  have hle : 50000 ≤ 30000 := hsingle.covered
  omega

/-- The run of a purchase at that display. -/
def jammedRun : Run State Event Context (List Hook × Unit) Unit :=
  (((assembled standing jammed.recorded {}).calls 3 (purchaseCalls slipper 30000)
    ((assembled standing jammed.recorded {}).newRun ([], ()) ())).get rfl).1

theorem payouts_single_iff_jammed : ∃ next answer,
    (assembled standing jammed.recorded {}).call 3 (.send (.timerElapsed ⟨1⟩)) jammedRun =
      some (next, answer) ∧
    SinglePayouts jammedRun ∧ ¬ SinglePayouts next := by
  have hhonest : ∀ call ∈ purchaseCalls slipper 30000,
      ∀ run : Run State Event Context (List Hook × Unit) Unit, ¬ Forges call run := by
    simp [purchaseCalls, Forges]
  have hforges : Forges (.send (.timerElapsed ⟨1⟩)) jammedRun :=
    ⟨rfl, ⟨1⟩, rfl, _, rfl, rfl, rfl⟩
  have hsome : ((assembled standing jammed.recorded {}).call 3 (.send (.timerElapsed ⟨1⟩))
      jammedRun).isSome := rfl
  obtain ⟨⟨next, answer⟩, hc⟩ := Option.isSome_iff_exists.1 hsome
  obtain ⟨hsingle, hiff⟩ :=
    payouts_single_iff (machine_eq_ok _ _ _) (Machine.reached_get_calls rfl hhonest) hc
  exact ⟨next, answer, hc, hsingle, fun h => hiff.1 h hforges⟩

end Automat.Vending
