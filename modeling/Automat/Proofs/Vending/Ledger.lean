import Mathlib.Algebra.GroupWithZero.Nat
import Automat.Proofs.Vending.Process

/-!
The books of a vending machine: money taken against items and change handed out. The journal shows
what was taken and what is owed, and a display that writes down its calls shows what was handed out.
What is still held follows from the state and from whether the delayed transition of the state was
attempted already (`Books`).
-/

namespace Automat.Vending

variable {W O : Type}

/-! ## What was handed out -/

/-- A display that also writes down the hooks called, the last one at the end. -/
def Display.recorded (display : Display W) : Display (List Hook × W) := fun hook (calls, world) =>
  let (world, fault) := display hook world
  ((calls ++ [hook], world), fault)

def Hook.item? : Hook → Option Item
  | .dispenseItem item => some item
  | _ => none

def Hook.change? : Hook → Option UInt64
  | .dispenseChange amount => some amount
  | _ => none

def itemsOut (calls : List Hook) : List Item := calls.filterMap Hook.item?

def changeOut (calls : List Hook) : List UInt64 := calls.filterMap Hook.change?

/-- What the items and the change handed out are worth. -/
def paidOut (calls : List Hook) : Nat :=
  ((itemsOut calls).map (·.price.toNat)).sum + ((changeOut calls).map (·.toNat)).sum

@[simp]
theorem itemsOut_nil : itemsOut [] = [] := rfl

@[simp]
theorem changeOut_nil : changeOut [] = [] := rfl

@[simp]
theorem itemsOut_cons (hook : Hook) (calls : List Hook) :
    itemsOut (hook :: calls) = hook.item?.toList ++ itemsOut calls := by
  cases hook <;> rfl

@[simp]
theorem changeOut_cons (hook : Hook) (calls : List Hook) :
    changeOut (hook :: calls) = hook.change?.toList ++ changeOut calls := by
  cases hook <;> rfl

@[simp]
theorem itemsOut_append (first rest : List Hook) :
    itemsOut (first ++ rest) = itemsOut first ++ itemsOut rest := by
  simp [itemsOut]

@[simp]
theorem changeOut_append (first rest : List Hook) :
    changeOut (first ++ rest) = changeOut first ++ changeOut rest := by
  simp [changeOut]

@[simp]
theorem changeOut_map_dispenseChange (amounts : List UInt64) :
    changeOut (amounts.map .dispenseChange) = amounts := by
  induction amounts with
  | nil => rfl
  | cons amount amounts ih => simp [ih, Hook.change?]

@[simp]
theorem itemsOut_map_dispenseChange (amounts : List UInt64) :
    itemsOut (amounts.map .dispenseChange) = [] := by
  induction amounts with
  | nil => rfl
  | cons amount amounts ih => simp [ih, Hook.item?]

@[simp]
theorem paidOut_append (first rest : List Hook) :
    paidOut (first ++ rest) = paidOut first + paidOut rest := by
  simp only [paidOut, itemsOut_append, changeOut_append, List.map_append, List.sum_append]
  omega

/-! ## What was taken and what is owed -/

def taken (snapshot : Snapshot State Context Event) : Nat :=
  match snapshot.event, snapshot.outcome with
  | some (.insertMoney amount), .handled => amount.toNat
  | _, _ => 0

def purchased (snapshot : Snapshot State Context Event) : List Item :=
  match snapshot.outcome with
  | .transitioned .selecting .dispensing => snapshot.context.selectedItem.toList
  | _ => []

/-- The change that is due on entering the state that returns it, if there is any. -/
def owed (snapshot : Snapshot State Context Event) : List UInt64 :=
  match snapshot.outcome with
  | .transitioned _ .returning => snapshot.context.payable
  | _ => []

def takings (journal : List (Snapshot State Context Event)) : Nat :=
  (journal.map taken).sum

/-- The items of all accepted purchases, in order. -/
def purchases (journal : List (Snapshot State Context Event)) : List Item :=
  journal.reverse.flatMap purchased

def debts (journal : List (Snapshot State Context Event)) : List UInt64 :=
  journal.reverse.flatMap owed

@[simp]
theorem takings_cons (snapshot : Snapshot State Context Event)
    (journal : List (Snapshot State Context Event)) :
    takings (snapshot :: journal) = taken snapshot + takings journal := by
  simp [takings]

@[simp]
theorem purchases_cons (snapshot : Snapshot State Context Event)
    (journal : List (Snapshot State Context Event)) :
    purchases (snapshot :: journal) = purchases journal ++ purchased snapshot := by
  simp [purchases]

@[simp]
theorem debts_cons (snapshot : Snapshot State Context Event)
    (journal : List (Snapshot State Context Event)) :
    debts (snapshot :: journal) = debts journal ++ owed snapshot := by
  simp [debts]

/-! ## What is still held -/

/-- The money held; `fired` says whether the delayed transition of the state was attempted. -/
def held (fired : Bool) (state : State) (context : Context) : Nat :=
  match state, fired with
  | .returning, false => context.change.toNat
  | .returning, true => 0
  | .dispensing, true => context.insertedMoney.toNat - context.price.toNat
  | _, _ => context.insertedMoney.toNat

def heldItem (fired : Bool) (state : State) (context : Context) : List Item :=
  match state, fired with
  | .dispensing, false => context.selectedItem.toList
  | _, _ => []

def heldChange (fired : Bool) (state : State) (context : Context) : List UInt64 :=
  match state, fired with
  | .returning, false => context.payable
  | _, _ => []

/-- The books balance: in money, in items and in amounts of change. -/
structure Books (fired : Bool) (run : Run State Event Context (List Hook × W) O) : Prop where
  money : takings run.journal = paidOut run.world.1 + held fired run.state run.context
  items : purchases run.journal =
    itemsOut run.world.1 ++ heldItem fired run.state run.context
  change : debts run.journal =
    changeOut run.world.1 ++ heldChange fired run.state run.context
  covered : run.state = .dispensing → ∃ item, run.context.selectedItem = some item ∧
    item.price ≤ run.context.insertedMoney
  due : fired = true → run.state = .returning → 0 < run.context.change

variable {fired : Bool} {run next : Run State Event Context (List Hook × W) O}

theorem Books.of_eq (hb : Books fired run) (hs : next.state = run.state)
    (hc : next.context = run.context) (hj : next.journal = run.journal)
    (hw : next.world.1 = run.world.1) : Books fired next := by
  obtain ⟨hmoney, hitems, hchange, hcovered, hdue⟩ := hb
  constructor
  · rwa [hj, hw, hs, hc]
  · rwa [hj, hw, hs, hc]
  · rwa [hj, hw, hs, hc]
  · rwa [hs, hc]
  · rwa [hs, hc]

/-- One more entry: what it takes in and hands out makes up for the change of what is held. -/
theorem Books.entry {later : Bool} {snapshot : Snapshot State Context Event} {calls : List Hook}
    (hb : Books fired run) (hj : next.journal = snapshot :: run.journal)
    (hw : next.world.1 = run.world.1 ++ calls)
    (hmoney : taken snapshot + held fired run.state run.context =
      paidOut calls + held later next.state next.context)
    (hitems : heldItem fired run.state run.context ++ purchased snapshot =
      itemsOut calls ++ heldItem later next.state next.context)
    (hchange : heldChange fired run.state run.context ++ owed snapshot =
      changeOut calls ++ heldChange later next.state next.context)
    (hcovered : next.state = .dispensing → ∃ item, next.context.selectedItem = some item ∧
      item.price ≤ next.context.insertedMoney)
    (hdue : later = true → next.state = .returning → 0 < next.context.change) :
    Books later next := by
  refine ⟨?_, ?_, ?_, hcovered, hdue⟩
  · rw [hj, hw, takings_cons, paidOut_append, hb.money]
    omega
  · rw [hj, hw, purchases_cons, itemsOut_append, hb.items, List.append_assoc, hitems,
      List.append_assoc]
  · rw [hj, hw, debts_cons, changeOut_append, hb.change, List.append_assoc, hchange,
      List.append_assoc]

/-- Outcomes after which nothing has changed do not show in the books. -/
theorem Books.publish (hb : Books fired run) (event : Option Event) {outcome : Outcome State}
    (hk : outcome.Keeps) : Books fired (run.publish event outcome) := by
  refine hb.entry rfl (List.append_nil _).symm ?_ ?_ ?_ hb.covered hb.due
  · cases outcome with
    | ignored | guardRejected | failed => simp [taken, paidOut, itemsOut, changeOut, Run.publish]
    | started | transitioned | handled => cases hk
  · cases outcome with
    | ignored | guardRejected | failed => simp [purchased, itemsOut, Run.publish]
    | started | transitioned | handled => cases hk
  · cases outcome with
    | ignored | guardRejected | failed => simp [owed, changeOut, Run.publish]
    | started | transitioned | handled => cases hk

/-! ## Plans in the books -/

variable {clock : List Hook × W → Timestamp} {display : Display W} {config : Config}
variable {event : Event} {target : Option State}
variable {hooks : List Hook} {context : Context}

theorem price_of_selectedItem {item : Item} (h : context.selectedItem = some item) :
    context.price = item.price := by
  simp [Context.price, h]

theorem sum_payable (context : Context) :
    (context.payable.map (·.toNat)).sum = context.change.toNat := by
  unfold Context.payable
  split
  · simp
  · next h =>
    have hz : context.change.toNat = 0 := by
      rw [UInt64.lt_iff_toNat_lt] at h
      simpa using h
    simp [hz]

/-- A plan carried out in full keeps the books balanced. -/
theorem Planned.books_commit (hp : Planned run event target hooks context)
    (hb : Books false run) {world : List Hook × W} (hw : world.1 = run.world.1 ++ hooks) :
    Books false ((assembled clock display.recorded config).commit target event ⟨context, [], world⟩
      run) := by
  have hcalls : ((assembled clock display.recorded config).commit target event ⟨context, [], world⟩
      run).world.1 = run.world.1 ++ hooks := by
    rw [Machine.world_commit]
    exact hw
  cases hp with
  | start hs =>
    refine hb.entry (Machine.journal_commit_some ..) hcalls ?_ ?_ ?_ ?_ Bool.false_ne_true.elim
    · simp [hs, taken, held, paidOut]
    · simp [hs, purchased, heldItem]
    · simp [hs, owed, heldChange]
    · simp
  | choose item hs =>
    refine hb.entry (Machine.journal_commit_none ..) hcalls ?_ ?_ ?_ ?_ Bool.false_ne_true.elim
    · simp [hs, taken, held, paidOut]
    · simp [hs, purchased, heldItem]
    · simp [hs, owed, heldChange]
    · simp [hs]
  | pay hs hsum =>
    refine hb.entry (Machine.journal_commit_none ..) hcalls ?_ ?_ ?_ ?_ Bool.false_ne_true.elim
    · simp [hs, taken, held, paidOut]
      rw [Nat.mod_eq_of_lt hsum, Nat.add_comm]
    · simp [hs, purchased, heldItem]
    · simp [hs, owed, heldChange]
    · simp [hs]
  | buy hs hi hle =>
    refine hb.entry (Machine.journal_commit_some ..) hcalls ?_ ?_ ?_ ?_ Bool.false_ne_true.elim
    · simp [hs, taken, held, paidOut, Hook.item?, Hook.change?]
    · simp [hs, purchased, heldItem, Hook.item?]
    · simp [hs, owed, heldChange, Hook.change?]
    · simp [hi, hle]
  | cancel hs =>
    refine hb.entry (Machine.journal_commit_some ..) hcalls ?_ ?_ ?_ ?_ Bool.false_ne_true.elim
    · simp [hs, taken, held, paidOut, Hook.item?, Hook.change?]
    · simp [hs, purchased, heldItem, Hook.item?]
    · simp [hs, owed, heldChange, Hook.change?]
    · simp
  | dispense hs hl =>
    obtain ⟨item, hi, hle⟩ := hb.covered hs
    have hprice := price_of_selectedItem hi
    have hchange : run.context.changeAfterPurchase =
        run.context.insertedMoney - run.context.price := by
      rw [Context.changeAfterPurchase, hprice, if_pos hle]
    refine hb.entry (Machine.journal_commit_some ..) hcalls ?_ ?_ ?_ ?_ Bool.false_ne_true.elim
    · simp [hs, taken, held, paidOut, Hook.item?, Hook.change?, hi]
      rw [hchange, hprice, UInt64.toNat_sub_of_le _ _ hle]
      have := UInt64.le_iff_toNat_le.1 hle
      omega
    · simp [hs, purchased, heldItem, Hook.item?, hi]
    · simp [hs, owed, heldChange, Hook.change?, hi]
    · simp
  | giveBack hs hl =>
    refine hb.entry (Machine.journal_commit_some ..) hcalls ?_ ?_ ?_ ?_ Bool.false_ne_true.elim
    · simp [hs, taken, held, paidOut, sum_payable, Context.empty]
    · simp [hs, purchased, heldItem]
    · simp [hs, owed, heldChange]
    · simp

/-- The states with a delayed transition. -/
def delays : State → Bool
  | .dispensing | .returning => true
  | _ => false

theorem Books.fail {later : Bool} {called : List Hook} {world : List Hook × W}
    (hb : Books fired run) (hw : world.1 = run.world.1 ++ called) (event : Event)
    (failure : Failure)
    (hmoney : held fired run.state run.context =
      paidOut called + held later run.state run.context)
    (hitems : heldItem fired run.state run.context =
      itemsOut called ++ heldItem later run.state run.context)
    (hchange : heldChange fired run.state run.context =
      changeOut called ++ heldChange later run.state run.context)
    (hdue : later = true → run.state = .returning → 0 < run.context.change) :
    Books later ((run.withWorld world).publish (some event) (.failed failure)) := by
  refine hb.entry rfl hw ?_ ?_ ?_ hb.covered hdue
  · rw [hmoney]
    simp [taken, Run.publish, Run.withWorld]
  · rw [hitems]
    simp [purchased, Run.publish, Run.withWorld]
  · rw [hchange]
    simp [owed, Run.publish, Run.withWorld]

/-- A plan given up at a hook leaves balanced books too. What was to be handed out has been handed
out by then, so no more than the rest is held. -/
theorem Planned.books_fail (hp : Planned run event target hooks context) (hb : Books false run)
    {called rest : List Hook} (hh : hooks = called ++ rest) (hne : called ≠ [])
    {world : List Hook × W} (hw : world.1 = run.world.1 ++ called) (failure : Failure) :
    Books (delays run.state) ((run.withWorld world).publish (some event) (.failed failure)) := by
  obtain ⟨hook, called, rfl⟩ := List.exists_cons_of_ne_nil hne
  cases hp with
  | start hs => cases hh
  | choose item hs => cases hh
  | pay hs hsum => cases hh
  | buy hs hi hle =>
    cases called <;> cases hh
    rw [hs]
    refine hb.fail hw .purchase failure ?_ ?_ ?_ Bool.false_ne_true.elim
    · simp [hs, held, paidOut, Hook.item?, Hook.change?, delays]
    · simp [hs, heldItem, Hook.item?, delays]
    · simp [hs, heldChange, Hook.change?, delays]
  | cancel hs =>
    cases called <;> cases hh
    rw [hs]
    refine hb.fail hw .cancel failure ?_ ?_ ?_ Bool.false_ne_true.elim
    · simp [hs, held, paidOut, Hook.item?, Hook.change?, delays]
    · simp [hs, heldItem, Hook.item?, delays]
    · simp [hs, heldChange, Hook.change?, delays]
  | @dispense id hs hl =>
    obtain ⟨item, hi, hle⟩ := hb.covered hs
    rw [hi] at hh
    obtain ⟨rfl, hrest⟩ := List.cons.inj hh
    -- After the item comes at most the hook that announces the change.
    have hcalled : itemsOut called = [] ∧ changeOut called = [] := by
      cases called with
      | nil => exact ⟨rfl, rfl⟩
      | cons hook called =>
        cases called <;> cases hrest
        exact ⟨rfl, rfl⟩
    refine hb.fail hw (.timerElapsed id) failure ?_ ?_ ?_ ?_
    · have := UInt64.le_iff_toNat_le.1 hle
      simp [hs, held, paidOut, Hook.item?, Hook.change?, delays, hcalled,
        price_of_selectedItem hi]
      omega
    · simp [hs, heldItem, Hook.item?, delays, hcalled, hi]
    · simp [hs, heldChange, Hook.change?, delays, hcalled]
    · intro _ hr
      cases hs.symm.trans hr
  | @giveBack id hs hl =>
    unfold Context.payable at hh
    split at hh
    · next hpos =>
      cases called <;> cases hh
      refine hb.fail hw (.timerElapsed id) failure ?_ ?_ ?_ (fun _ _ => hpos)
      · simp [hs, held, paidOut, Hook.item?, Hook.change?, delays]
      · simp [hs, heldItem, Hook.item?, delays]
      · simp [hs, heldChange, Hook.change?, delays, Context.payable, hpos]
    · cases hh

/-! ## The recording display -/

/-- What is written down is what was called, up to the hook that failed. -/
theorem callAll_recorded (display : Display W) (hooks calls : List Hook) (world : W) :
    ∃ called rest, hooks = called ++ rest ∧
      (display.recorded.callAll hooks (calls, world)).1.1 = calls ++ called ∧
      ((display.recorded.callAll hooks (calls, world)).2 = none → rest = []) ∧
      (hooks ≠ [] → called ≠ []) := by
  induction hooks generalizing calls world with
  | nil => exact ⟨[], [], rfl, (List.append_nil _).symm, fun _ => rfl, fun h => h⟩
  | cons hook hooks ih =>
    cases hd : display hook world with
    | mk done fault =>
      have hr : display.recorded hook (calls, world) = ((calls ++ [hook], done), fault) := by
        simp [Display.recorded, hd]
      cases fault with
      | none =>
        obtain ⟨called, rest, rfl, hcalls, hrest, -⟩ := ih (calls ++ [hook]) done
        refine ⟨hook :: called, rest, rfl, ?_, ?_, fun _ => List.cons_ne_nil _ _⟩
        · simp only [Display.callAll, hr, hcalls]
          simp
        · simpa only [Display.callAll, hr] using hrest
      | some fault =>
        refine ⟨[hook], hooks, rfl, ?_, ?_, fun _ => List.cons_ne_nil _ _⟩
        · simp only [Display.callAll, hr]
        · simp only [Display.callAll, hr]
          intro h
          cases h

/-- No hook of the display gives up. -/
def Display.Returns (display : Display W) : Prop := ∀ hook world, (display hook world).2 = none

theorem Display.Returns.recorded {display : Display W} (hd : display.Returns) :
    display.recorded.Returns := fun hook world => hd hook world.2

theorem Display.Returns.callAll_eq_none {display : Display W} (hd : display.Returns)
    (hooks : List Hook) (world : W) : (display.callAll hooks world).2 = none := by
  induction hooks generalizing world with
  | nil => rfl
  | cons hook hooks ih =>
    have h := hd hook world
    cases hr : display hook world with
    | mk done fault =>
      rw [hr] at h
      cases h
      simp only [Display.callAll, hr]
      exact ih done

end Automat.Vending
