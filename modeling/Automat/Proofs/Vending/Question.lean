import Automat.Proofs.Machine.Question
import Automat.Proofs.Vending.Payouts

/-!
What the vending machine says when it is asked. Its only guard reads the context alone, so it answers
the same with an event and without it (`indifferent_assembled`). Main statement: whether an event will
be taken can be told before it is sent, of the vending machine always, and of any other if its guards
do not mind (`canTransition_predicts_send`).
-/

namespace Automat.Vending

theorem Context.canPurchase_iff {context : Context} : context.canPurchase = true ↔
    ∃ item, context.selectedItem = some item ∧ item.price ≤ context.insertedMoney := by
  unfold Context.canPurchase
  cases context.selectedItem with
  | none => simp
  | some item => simp

variable {W O : Type} (clock : W → Timestamp) (display : Display W) (config : Config)

theorem eq_canPurchase_of_find? {guard : String} {ask : Guard Event Context W}
    (h : (assembled clock display config).guards.find? guard = some ask) : ask = canPurchase := by
  have hfind : (assembled clock display config).guards.find? guard =
      if "canPurchase" = guard then some canPurchase else none := rfl
  rw [hfind] at h
  split at h
  · exact (Option.some.inj h).symm
  · cases h

theorem indifferent_assembled (event : Event) (world : W) (run : Run State Event Context W O) :
    (assembled clock display config).Indifferent event world run := by
  intro rule guard ask _ _ hf
  rw [eq_canPurchase_of_find? clock display config hf]
  exact Iff.rfl

/-- A purchase can be made of an item that is chosen and paid for, and only then. -/
theorem canTransition_purchase_iff {run : Run State Event Context W O} :
    ((assembled clock display config).canTransition .purchase run).2 = true ↔
      run.status = .running ∧ run.state = .selecting ∧
        ∃ item, run.context.selectedItem = some item ∧
          item.price ≤ run.context.insertedMoney := by
  unfold Machine.canTransition
  by_cases hr : run.status = .running
  · rw [if_pos hr]
    cases run.state with
    | selecting =>
      show run.context.canPurchase = true ↔ _
      rw [Context.canPurchase_iff, and_iff_right hr, and_iff_right rfl]
    | idle | dispensing | returning =>
      refine iff_of_false Bool.false_ne_true ?_
      rintro ⟨-, hs, -⟩
      cases hs
  · rw [if_neg hr]
    exact iff_of_false Bool.false_ne_true fun h => hr h.1

/-- An event that is well formed and carries no timer is taken if and only if the machine has said so
when it was asked about the kind, in any reachable run of any machine that is accepted and running, if
the guard does not mind whether it is asked with the event or without it. No guard of the vending
machine minds: as long as it is running each answer is right, and when it is not the answer is no and
all events are dropped. In particular it takes a purchase of an item that is chosen and paid
for, and no other. -/
theorem canTransition_predicts_send :
    (∀ (S K E C W O : Type) [DecidableEq S] [DecidableEq K] [Named S] [Named K] [EventLike E K]
      (m : Machine S K E C W) (run : Run S E C W O), m.Accepted → m.Reachable run →
      run.status = .running → ∀ event world, EventLike.isWellFormed event = true →
        EventLike.elapsedTimer? event = none → m.Indifferent event world run →
        m.Predicts (m.canTransition (EventLike.kind event) run).2 event (run.withWorld world)) ∧
    ∀ (W O : Type) (clock : W → Timestamp) (display : Display W) (config : Config)
      (m : Machine State Kind Event Context W) (run : Run State Event Context W O),
      machine clock display config = .ok m → m.Reachable run →
      (run.status = .running → ∀ event world, EventLike.isWellFormed event = true →
        EventLike.elapsedTimer? event = none →
        m.Predicts (m.canTransition (EventLike.kind event) run).2 event (run.withWorld world)) ∧
      (run.status ≠ .running → (∀ kind, (m.canTransition kind run).2 = false) ∧
        ∀ fuel event, m.send fuel event run = some run) ∧
      ((m.canTransition .purchase run).2 = true ↔ run.status = .running ∧ run.state = .selecting ∧
        ∃ item, run.context.selectedItem = some item ∧
          item.price ≤ run.context.insertedMoney) := by
  constructor
  · intro S K E C W O _ _ _ _ _ m run hm hr hs event world hw ht hi
    exact hm.predicts hr hs hw ht hi
  · intro W O clock display config m run hm hr
    obtain rfl : assembled clock display config = m :=
      Except.ok.inj ((machine_eq_ok clock display config).symm.trans hm)
    refine ⟨?_, ?_, canTransition_purchase_iff clock display config⟩
    · intro hs event world hw ht
      exact (assembled_accepted clock display config).predicts hr hs hw ht
        (indifferent_assembled clock display config event world run)
    · intro hs
      constructor
      · intro kind
        rw [Machine.canTransition, if_neg hs]
      · intro fuel event
        rw [Machine.send, if_neg hs]

/-- With a slipper chosen and enough money put in, the purchase is taken; with the number of a
strongbox forgotten, it stays shut. -/
theorem canTransition_predicts_send_purchase :
    (∃ run : Run State Event Context Unit Unit,
      (assembled standing Display.blank {}).Reachable run ∧ run.status = .running ∧
      run.context = ⟨30000, some slipper, 0⟩ ∧
      ((assembled standing Display.blank {}).canTransition .purchase run).2 = true ∧
      (assembled standing Display.blank {}).Predicts true .purchase run) ∧
    Machine.strongbox.Accepted ∧ Machine.strongbox.Reachable Machine.closed ∧
    Machine.strongbox.Indifferent { kind := "open", value := some 3 } () Machine.closed ∧
    Machine.strongbox.Predicts false { kind := "open", value := some 3 } Machine.closed := by
  obtain ⟨hany, hvending⟩ := canTransition_predicts_send
  have hsome : ((assembled standing (Display.blank : Display Unit) {}).calls 1
      [.start, .send .start, .send (.selectItem slipper), .send (.insertMoney 30000)]
      ((assembled standing Display.blank {}).newRun () ())).isSome := rfl
  have hr : (assembled standing Display.blank {}).Reachable _ :=
    ⟨_, _, Machine.reached_get_calls hsome fun _ _ _ => trivial⟩
  obtain ⟨hpredicts, -, hpurchase⟩ :=
    hvending _ _ standing Display.blank {} _ _ (machine_eq_ok _ _ _) hr
  have hpaid : slipper.price ≤ 30000 := by decide
  have hyes := hpurchase.2 ⟨rfl, rfl, slipper, rfl, hpaid⟩
  have hbuy : (assembled standing Display.blank {}).Predicts
      ((assembled standing Display.blank {}).canTransition .purchase _).2 .purchase _ :=
    hpredicts rfl .purchase () rfl rfl
  rw [hyes] at hbuy
  have hm : Machine.strongbox.Accepted := ⟨Machine.strongboxBuilder, rfl⟩
  have hstart : Machine.strongbox.call 1 .start (Machine.strongbox.newRun () ()) =
      some (Machine.closed, .done) := rfl
  have hclosed : Machine.strongbox.Reachable Machine.closed :=
    ⟨(), (), Machine.Reached.first.call trivial hstart⟩
  have hi : Machine.strongbox.Indifferent { kind := "open", value := some 3 } () Machine.closed := by
    intro rule guard ask hrule hguard hask
    cases hrule
    cases hguard
    cases hask
    exact Iff.rfl
  exact ⟨⟨_, hr, rfl, rfl, hyes, hbuy⟩, hm, hclosed, hi,
    hany _ _ _ _ _ _ _ _ hm hclosed rfl _ () rfl rfl hi⟩

end Automat.Vending
