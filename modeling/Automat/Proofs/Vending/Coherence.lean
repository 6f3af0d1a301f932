import Automat.Proofs.Machine.Visit
import Automat.Proofs.Vending.Payouts

/-!
What the context of a vending machine says in each state of a sale. Every plan leaves behind a
context that fits the state it leads to (`Planned.coherent`), and a hook that fails leaves the one
before. So the contexts of all runs fit their states, whatever the display does, and so do those of
all snapshots (`reachable_coherent`).
-/

namespace Automat.Vending

/-- What the context says in each state of a sale. -/
def Fits : State → Context → Prop
  | .idle, context => context = .empty
  | .selecting, context => context.change = 0
  | .dispensing, context => context.change = 0 ∧
      ∃ item, context.selectedItem = some item ∧ item.price ≤ context.insertedMoney
  | .returning, context => context.change = context.insertedMoney ∨
      ∃ item, context.selectedItem = some item ∧ item.price ≤ context.insertedMoney ∧
        context.change.toNat = context.insertedMoney.toNat - item.price.toNat

/-- The context fits the state: it says what belongs there, and no more is owed than the money
that was inserted. -/
structure Coherent (state : State) (context : Context) : Prop where
  covered : context.change ≤ context.insertedMoney
  fits : Fits state context

variable {W O : Type} {clock : W → Timestamp} {display : Display W} {config : Config}
variable {run next : Run State Event Context W O} {event : Event}

/-! ## Plans -/

theorem coherent_empty : Coherent .idle .empty := ⟨by decide, rfl⟩

theorem coherent_selecting {context : Context} (h : context.change = 0) :
    Coherent .selecting context := by
  refine ⟨?_, h⟩
  rw [h, UInt64.le_iff_toNat_le]
  exact Nat.zero_le _

/-- What is left after a purchase is the exact difference. -/
theorem coherent_changeAfterPurchase {context : Context} {item : Item}
    (hi : context.selectedItem = some item) (hle : item.price ≤ context.insertedMoney) :
    Coherent .returning { context with change := context.changeAfterPurchase } := by
  have hchange : context.changeAfterPurchase = context.insertedMoney - item.price := by
    rw [Context.changeAfterPurchase, price_of_selectedItem hi, if_pos hle]
  have hexact : context.changeAfterPurchase.toNat =
      context.insertedMoney.toNat - item.price.toNat := by
    rw [hchange, UInt64.toNat_sub_of_le _ _ hle]
  constructor
  · show context.changeAfterPurchase ≤ context.insertedMoney
    rw [UInt64.le_iff_toNat_le, hexact]
    exact Nat.sub_le _ _
  · exact .inr ⟨item, hi, hle, hexact⟩

/-- A plan leads to a context that fits its target. -/
theorem Planned.coherent {target : Option State} {hooks : List Hook} {context : Context}
    (hp : Planned run event target hooks context) (hc : Coherent run.state run.context) :
    Coherent (target.getD run.state) context := by
  have hfits := hc.fits
  cases hp with
  | start hs =>
    rw [hs] at hfits
    have hempty : run.context = .empty := hfits
    exact coherent_selecting (by rw [hempty]; rfl)
  | choose item hs | pay hs hsum =>
    rw [hs] at hfits ⊢
    exact coherent_selecting hfits
  | @buy item hs hi hle =>
    rw [hs] at hfits
    exact ⟨hc.covered, hfits, item, hi, hle⟩
  | cancel hs => exact ⟨UInt64.le_refl _, .inl rfl⟩
  | dispense hs hl =>
    rw [hs] at hfits
    obtain ⟨-, item, hi, hle⟩ := hfits
    exact coherent_changeAfterPurchase hi hle
  | giveBack hs hl => exact coherent_empty

/-! ## Runs -/

/-- An event leaves a context that fits the state, whether it is carried out, given up at a hook, or
not carried out at all. -/
theorem Handled.coherent (hh : Handled clock display config event run next)
    (hc : Coherent run.state run.context) : Coherent next.state next.context := by
  cases hh with
  | stale => exact hc
  | kept => exact hc
  | planned hp hdone =>
    cases hdone with
    | committed =>
      rw [Machine.state_commit, Machine.context_commit]
      exact hp.coherent hc
    | failed => exact hc

theorem coherent_step {happening : Happening Kind Event}
    (hs : Machine.Step (assembled clock display config) run happening next)
    (hc : Coherent run.state run.context) : Coherent next.state next.context := by
  cases hs with
  | begin hr hp =>
    cases hp
    rw [Machine.enterInitial, Machine.arm_eq]
    exact coherent_empty
  | @take rest event hq =>
    obtain ⟨-, queue, -, rfl⟩ := Run.dequeue?_eq_some_iff.1 hq
    exact (handled clock display config _ event).coherent hc
  | @elapse id timers =>
    exact (handled clock display config (run.withTimers timers) (.timerElapsed id)).coherent hc
  | ask kind =>
    rw [canTransition_fst]
    exact hc
  | stop =>
    unfold Run.stop
    split <;> exact hc
  | refuse | accept | tick | listen => exact hc

/-- In every reachable run, and in every snapshot published on the way to it, the context fits the
state, whatever hooks fail. -/
theorem reachable_coherent {m : Machine State Kind Event Context W}
    (hm : machine clock display config = .ok m) (hr : m.Reachable run) :
    Coherent run.state run.context ∧
      ∀ snapshot ∈ run.journal, Coherent snapshot.state snapshot.context := by
  obtain rfl : assembled clock display config = m :=
    Except.ok.inj ((machine_eq_ok clock display config).symm.trans hm)
  obtain ⟨world, observers, hr⟩ := hr
  exact hr.keeps_journal rfl rfl coherent_empty (fun _ _ _ hc => hc)
    (fun _ _ _ hs hc => coherent_step hs hc)

def Display.flaky : Display (List Bool) := fun _ world =>
  (world.tail, if world.headD false then some (.panic "jammed") else none)

/-- The item is handed out and announced only at the third attempt; then the change is due. -/
theorem reachable_coherent_flaky :
    ∃ run : Run State Event Context (List Bool) Unit, run.state = .returning ∧
      run.context = ⟨30000, some slipper, 5000⟩ ∧ run.journal.length = 8 ∧
      Coherent run.state run.context ∧
      ∀ snapshot ∈ run.journal, Coherent snapshot.state snapshot.context := by
  have hsome : ((assembled standing Display.flaky {}).calls 3
      (purchaseCalls slipper 30000 ++ [.send (.timerElapsed ⟨1⟩), .send (.timerElapsed ⟨1⟩)])
      ((assembled standing Display.flaky {}).newRun [false, true, false, true] ())).isSome := rfl
  exact ⟨_, rfl, rfl, rfl, reachable_coherent (machine_eq_ok standing Display.flaky {})
    ⟨_, _, Machine.reached_get_calls hsome fun _ _ _ => trivial⟩⟩

end Automat.Vending
