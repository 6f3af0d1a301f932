import Automat.Proofs.Dispatcher.Refinement

/-!
Turns around a dispatcher, one after the other. Every turn either breaks the dispatcher down or has
one of a few effects (`effect_of_turn`), of which only a post puts a command into the queue and only
a look into the queue takes one out. Schedules are sequences of turns (`Plays`).
-/

namespace Automat

variable {S K E C W O : Type}

def Command.isStop : Command K E → Bool
  | .stop => true
  | _ => false

def Command.isRequest : Command K E → Bool
  | .send _ => false
  | _ => true

def Turn.needsHandle : Turn K E → Bool
  | .post _ | .addHandle | .dropHandle => true
  | _ => false

def Turn.serves : Turn K E → Bool
  | .serve _ => true
  | _ => false

theorem Turn.readies_of_elapsed? {turn : Turn K E} {elapsed : Duration}
    (he : turn.elapsed? = some elapsed) : turn.readies = true := by
  cases turn with
  | serve | wake => rfl
  | post | addHandle | dropHandle | ready => cases he

namespace Dispatcher

/-! ## What a turn does -/

def accepted? (turn : Turn K E) (d : Dispatcher S K E C W O) : Option (Nat × Command K E) :=
  match turn with
  | .post command => if d.isClosed then none else some (d.posted, command)
  | _ => none

/-- The order that takes effect in a turn: none beyond the range of the clock. -/
def carried? (turn : Turn K E) (d : Dispatcher S K E C W O) : Option (Order K E) :=
  (d.order? turn).filter fun order => (d.clock.now? order.elapsed).isSome

/-- The turn finds the dispatcher unable to wait for the next deadline, or to tell the time when it has
something to do. -/
def Breaks (turn : Turn K E) (d : Dispatcher S K E C W O) : Prop :=
  d.phase = .serving ∧ (turn.readies = true ∧ d.canWait = false ∨
    ∃ elapsed, turn.elapsed? = some elapsed ∧ d.clock.now? elapsed = none ∧
      (turn.serves = true → d.canReceive = true))

theorem canReceive_eq_false_iff {d : Dispatcher S K E C W O} :
    d.canReceive = false ↔ d.queue = [] ∧ d.handles ≠ 0 := by
  simp [canReceive]

theorem accepted?_of_elapsed? {turn : Turn K E} {elapsed : Duration} {d : Dispatcher S K E C W O}
    (he : turn.elapsed? = some elapsed) : d.accepted? turn = none := by
  cases turn with
  | serve | wake => rfl
  | post | addHandle | dropHandle | ready => cases he

theorem order?_of_closed {turn : Turn K E} {d : Dispatcher S K E C W O}
    (h : d.await.isClosed = true) : d.order? turn = none := by
  cases turn <;> simp [order?, h]

theorem elapsed?_of_order? {turn : Turn K E} {d : Dispatcher S K E C W O} {order : Order K E}
    (h : d.order? turn = some order) : turn.elapsed? = some order.elapsed := by
  cases turn with
  | serve now =>
    unfold order? at h
    dsimp only at h
    split at h
    · cases h
    · split at h
      · cases h
        rfl
      · split at h
        · cases h
          rfl
        · cases h
  | post | addHandle | dropHandle | ready | wake => cases h

section

variable {elapsed : Duration} {d : Dispatcher S K E C W O} (hopen : d.await.isClosed = false)
include hopen

theorem order?_of_command {first : Nat × Command K E} {queue : List (Nat × Command K E)}
    (hq : d.queue = first :: queue) : d.order? (.serve elapsed) = some ⟨elapsed, some first⟩ := by
  simp [order?, hopen, hq]

theorem order?_of_end (hq : d.queue = []) (hh : d.handles = 0) :
    d.order? (.serve elapsed : Turn K E) = some ⟨elapsed, none⟩ := by
  simp [order?, hopen, hq, hh]

theorem order?_of_idle (hq : d.queue = []) (hh : d.handles ≠ 0) :
    d.order? (.serve elapsed : Turn K E) = none := by
  simp [order?, hopen, hq, hh]

end

theorem carried?_eq_order? {turn : Turn K E} {d : Dispatcher S K E C W O}
    (hr : ∀ elapsed, turn.elapsed? = some elapsed → (d.clock.now? elapsed).isSome) :
    d.carried? turn = d.order? turn := by
  unfold carried?
  cases ho : d.order? turn with
  | none => rfl
  | some order => simp [Option.filter_some, hr _ (elapsed?_of_order? ho)]

theorem carried?_of_overflow {turn : Turn K E} {elapsed : Duration}
    {d : Dispatcher S K E C W O} (he : turn.elapsed? = some elapsed)
    (h : d.clock.now? elapsed = none) : d.carried? turn = none := by
  unfold carried?
  rw [Option.filter_eq_none_iff]
  intro order ho
  cases (elapsed?_of_order? ho).symm.trans he
  simp [h]

/-! ## What a schedule does -/

/-- The commands put into the queue, in order, each with its number. -/
def accepted (trace : List (Dispatcher S K E C W O × Turn K E)) : List (Nat × Command K E) :=
  trace.filterMap fun entry => entry.1.accepted? entry.2

def carried (trace : List (Dispatcher S K E C W O × Turn K E)) : List (Order K E) :=
  trace.filterMap fun entry => entry.1.carried? entry.2

def served (trace : List (Dispatcher S K E C W O × Turn K E)) : List (Nat × Command K E) :=
  (carried trace).filterMap Order.command?

/-- Only those who hold a handle use one. -/
def Held (trace : List (Dispatcher S K E C W O × Turn K E)) : Prop :=
  ∀ entry ∈ trace, entry.2.needsHandle = true → entry.1.handles ≠ 0

instance (trace : List (Dispatcher S K E C W O × Turn K E)) : Decidable (Held trace) :=
  inferInstanceAs (Decidable (∀ entry ∈ trace, entry.2.needsHandle = true → entry.1.handles ≠ 0))

def looks (trace : List (Dispatcher S K E C W O × Turn K E)) : Nat :=
  trace.countP fun entry => entry.2.serves

variable {trace : List (Dispatcher S K E C W O × Turn K E)} {d : Dispatcher S K E C W O}
variable {turn : Turn K E}

theorem accepted_snoc :
    accepted (trace ++ [(d, turn)]) = accepted trace ++ (d.accepted? turn).toList := by
  unfold accepted
  cases h : d.accepted? turn <;> simp [h]

theorem carried_snoc :
    carried (trace ++ [(d, turn)]) = carried trace ++ (d.carried? turn).toList := by
  unfold carried
  cases h : d.carried? turn <;> simp [h]

theorem served_snoc : served (trace ++ [(d, turn)]) =
    served trace ++ (d.carried? turn).toList.filterMap Order.command? := by
  unfold served
  rw [carried_snoc, List.filterMap_append]

theorem looks_snoc :
    looks (trace ++ [(d, turn)]) = looks trace + if turn.serves then 1 else 0 := by
  unfold looks
  cases h : turn.serves <;> simp [h]

theorem Held.left {later : List (Dispatcher S K E C W O × Turn K E)}
    (h : Held (trace ++ later)) : Held trace :=
  fun entry hmem => h entry (List.mem_append_left _ hmem)

theorem Held.last (h : Held (trace ++ [(d, turn)])) (hn : turn.needsHandle = true) :
    d.handles ≠ 0 :=
  h (d, turn) (by simp) hn

variable [DecidableEq S] [DecidableEq K] [Named S] [Named K] [EventLike E K]

/-- What a turn does that does not break the dispatcher down, with the command that it puts into the
queue and the order that it carries out. -/
inductive Effect (m : Machine S K E C W) (turn : Turn K E) (d : Dispatcher S K E C W O) :
    Option (Nat × Command K E) → Option (Order K E) → Dispatcher S K E C W O → Prop where
  | posted (command : Command K E) : turn = .post command → d.phase = .serving →
      Effect m turn d (some (d.posted, command)) none
        { d with posted := d.posted + 1, queue := d.queue ++ [(d.posted, command)] }
  | joined : turn = .addHandle → Effect m turn d none none d.addHandle
  | left : turn = .dropHandle → Effect m turn d none none d.dropHandle
  | unmoved : (turn.serves = true → d.phase = .serving → d.queue = [] ∧ d.handles ≠ 0) →
      Effect m turn d none none d
  | woken {fuel : Nat} {elapsed time : Duration} {ahead : Run S E C W O} :
      turn = .wake elapsed → d.phase = .serving → d.clock.now? elapsed = some time →
      m.advanceTo fuel time d.run = some ahead →
      Effect m turn d none none { d with run := ahead }
  | ended {fuel : Nat} {elapsed time : Duration} {ahead : Run S E C W O} :
      turn = .serve elapsed → d.phase = .serving → d.queue = [] → d.handles = 0 →
      d.clock.now? elapsed = some time → m.advanceTo fuel time d.run = some ahead →
      Effect m turn d none (some ⟨elapsed, none⟩) (close .ended { d with run := ahead })
  | served {fuel number : Nat} {elapsed time : Duration} {command : Command K E}
      {queue : List (Nat × Command K E)} {ahead : Run S E C W O}
      {next : Dispatcher S K E C W O} : turn = .serve elapsed → d.phase = .serving →
      d.queue = (number, command) :: queue → d.clock.now? elapsed = some time →
      m.advanceTo fuel time d.run = some ahead →
      carryOut m fuel number command { d with queue := queue, run := ahead } = some next →
      Effect m turn d none (some ⟨elapsed, some (number, command)⟩) next

/-- What a turn that breaks the dispatcher down does. -/
structure Broken (turn : Turn K E) (d next : Dispatcher S K E C W O) : Prop where
  breaks : d.Breaks turn
  next : next = d.close .broken
  accepted : d.accepted? turn = none
  carried : d.carried? turn = none

variable {m : Machine S K E C W} {d next : Dispatcher S K E C W O} {turn : Turn K E}
variable {fuel : Nat} {elapsed time : Duration}

theorem catchUp_eq_broken (h : d.clock.now? elapsed = none) :
    d.catchUp m fuel elapsed = some (d.close .broken) := by
  simp only [catchUp, h]

theorem receive_of_closed (h : d.isClosed = true) : d.receive m fuel elapsed = some d := by
  unfold receive
  rw [h, if_pos rfl]

theorem receive_of_idle (hr : d.canReceive = false) : d.receive m fuel elapsed = some d := by
  obtain ⟨hq, hh⟩ := canReceive_eq_false_iff.1 hr
  unfold receive
  simp [hq, hh]

/-- Beyond the range of the clock a dispatcher with something to do breaks down. -/
theorem receive_of_overflow (hp : d.phase = .serving) (hr : d.canReceive = true)
    (h : d.clock.now? elapsed = none) : d.receive m fuel elapsed = some (d.close .broken) := by
  have hopen : d.isClosed = false := isClosed_eq_false_iff.2 hp
  unfold receive
  rw [hopen, if_neg Bool.false_ne_true]
  cases hq : d.queue with
  | nil =>
    have hh : d.handles = 0 := by simpa [canReceive, hq] using hr
    simp only [hh, if_true]
    rw [catchUp_eq_broken h]
    rfl
  | cons first queue =>
    have hcatch : catchUp m fuel elapsed { d with queue := queue } = some (d.close .broken) :=
      catchUp_eq_broken h
    simp only [hcatch]
    rfl

theorem turn_of_closed (h : d.await.isClosed = true) (he : turn.elapsed? = some elapsed) :
    d.turn m fuel turn = some d.await := by
  cases turn with
  | serve now => exact receive_of_closed h
  | wake now => exact if_pos h
  | post | addHandle | dropHandle | ready => cases he

/-! ## The effect of every turn -/

theorem Round.effect (h : Round m fuel time d turn next) (he : turn.elapsed? = some elapsed)
    (htime : d.clock.now? elapsed = some time) (hopen : d.await.isClosed = false) :
    Effect m turn d none (d.order? turn) next := by
  have hphase := (await_of_open hopen).2.1
  cases h with
  | closed hclosed => cases hopen.symm.trans hclosed
  | woken _ ha =>
    cases he
    exact .woken rfl hphase htime ha
  | idle _ hq hh =>
    rw [order?_of_idle hopen hq hh]
    exact .unmoved fun _ _ => ⟨hq, hh⟩
  | ended _ hq hh ha =>
    cases he
    rw [order?_of_end hopen hq hh]
    exact .ended rfl hphase hq hh htime ha
  | served _ hq ha hc =>
    cases he
    rw [order?_of_command hopen hq]
    exact .served rfl hphase hq htime ha hc

/-- What a round beyond the range of the clock does. -/
theorem effect_of_overflow (ht : d.turn m fuel turn = some next)
    (he : turn.elapsed? = some elapsed) (hopen : d.await.isClosed = false)
    (htime : d.clock.now? elapsed = none) :
    Broken turn d next ∨ ¬ d.Breaks turn ∧ Effect m turn d none none next := by
  obtain ⟨hawait, hphase, hwait⟩ := await_of_open hopen
  have hbroken (hr : turn.serves = true → d.canReceive = true)
      (hn : next = d.close .broken) : Broken turn d next :=
    { breaks := ⟨hphase, .inr ⟨elapsed, he, htime, hr⟩⟩
      next := hn
      accepted := accepted?_of_elapsed? he
      carried := carried?_of_overflow he htime }
  cases turn with
  | wake now =>
    cases he
    change d.await.wake m fuel elapsed = some next at ht
    rw [hawait, wake, isClosed_eq_false_iff.2 hphase, if_neg Bool.false_ne_true,
      catchUp_eq_broken htime, Option.some.injEq] at ht
    exact .inl (hbroken (fun hs => absurd hs Bool.false_ne_true) ht.symm)
  | serve now =>
    cases he
    change d.await.receive m fuel elapsed = some next at ht
    rw [hawait] at ht
    cases hr : d.canReceive with
    | true =>
      rw [receive_of_overflow hphase hr htime, Option.some.injEq] at ht
      exact .inl (hbroken (fun _ => hr) ht.symm)
    | false =>
      rw [receive_of_idle hr, Option.some.injEq] at ht
      subst ht
      refine .inr ⟨?_, .unmoved fun _ _ => canReceive_eq_false_iff.1 hr⟩
      rintro ⟨-, ⟨-, hstuck⟩ | ⟨-, -, -, hreceive⟩⟩
      · cases hstuck.symm.trans hwait
      · cases hr.symm.trans (hreceive rfl)
  | post | addHandle | dropHandle | ready => cases he

/-- What a round does that finds the dispatcher closed, or closes it in getting ready. -/
theorem effect_of_closed (ht : d.turn m fuel turn = some next)
    (he : turn.elapsed? = some elapsed) (hclosed : d.await.isClosed = true) :
    Broken turn d next ∨ ¬ d.Breaks turn ∧ Effect m turn d none (d.carried? turn) next := by
  have hcarried : d.carried? turn = none := by
    unfold carried?
    rw [order?_of_closed hclosed]
    rfl
  rw [turn_of_closed hclosed he, Option.some.injEq] at ht
  rcases await_cases d with ⟨hawait, -⟩ | ⟨hphase, hwait, hawait⟩
  · rw [hawait] at ht hclosed
    have hphase : d.phase ≠ .serving := fun hp => by
      cases hclosed.symm.trans (isClosed_eq_false_iff.2 hp)
    subst ht
    rw [hcarried]
    exact .inr ⟨fun hb => hphase hb.1, .unmoved fun _ hp => absurd hp hphase⟩
  · exact .inl
      { breaks := ⟨hphase, .inl ⟨Turn.readies_of_elapsed? he, hwait⟩⟩
        next := ht.symm.trans hawait
        accepted := accepted?_of_elapsed? he
        carried := hcarried }

/-- What a round of the loop does. -/
theorem effect_of_round (ht : d.turn m fuel turn = some next) (he : turn.elapsed? = some elapsed) :
    Broken turn d next ∨
      ¬ d.Breaks turn ∧ Effect m turn d (d.accepted? turn) (d.carried? turn) next := by
  rw [accepted?_of_elapsed? he]
  cases hclosed : d.await.isClosed with
  | true => exact effect_of_closed ht he hclosed
  | false =>
    cases htime : d.clock.now? elapsed with
    | none =>
      rw [carried?_of_overflow he htime]
      exact effect_of_overflow ht he hclosed htime
    | some time =>
      have hrange : ∀ now, turn.elapsed? = some now → (d.clock.now? now).isSome := by
        intro now hnow
        cases hnow.symm.trans he
        exact Option.isSome_of_eq_some htime
      rw [carried?_eq_order? hrange]
      refine .inr ⟨?_, (round_of_turn ht he htime).effect he htime hclosed⟩
      rintro ⟨-, ⟨-, hstuck⟩ | ⟨now, hnow, hover, -⟩⟩
      · cases hstuck.symm.trans (await_of_open hclosed).2.2
      · cases hnow.symm.trans he
        cases hover.symm.trans htime

/-- Every turn breaks the dispatcher down or has one of the effects. -/
theorem effect_of_turn (ht : d.turn m fuel turn = some next) :
    Broken turn d next ∨
      ¬ d.Breaks turn ∧ Effect m turn d (d.accepted? turn) (d.carried? turn) next := by
  have hsafe (hready : turn.readies = false) (he : turn.elapsed? = none) : ¬ d.Breaks turn := by
    rintro ⟨-, ⟨hr, -⟩ | ⟨now, hnow, -⟩⟩
    · cases hr.symm.trans hready
    · cases hnow.symm.trans he
  cases turn with
  | post command =>
    cases ht
    refine .inr ⟨hsafe rfl rfl, ?_⟩
    unfold accepted? post
    cases hclosed : d.isClosed with
    | true => exact .unmoved fun hs => absurd hs Bool.false_ne_true
    | false => exact .posted command rfl (isClosed_eq_false_iff.1 hclosed)
  | addHandle =>
    cases ht
    exact .inr ⟨hsafe rfl rfl, .joined rfl⟩
  | dropHandle =>
    cases ht
    exact .inr ⟨hsafe rfl rfl, .left rfl⟩
  | ready =>
    cases ht
    rcases await_cases d with ⟨hawait, hwait⟩ | ⟨hphase, hwait, hawait⟩
    · rw [hawait]
      refine .inr ⟨?_, .unmoved fun hs => absurd hs Bool.false_ne_true⟩
      rintro ⟨hp, ⟨-, hstuck⟩ | ⟨now, hnow, -⟩⟩
      · cases hstuck.symm.trans (hwait hp)
      · cases hnow
    · exact .inl
        { breaks := ⟨hphase, .inl ⟨rfl, hwait⟩⟩
          next := hawait
          accepted := rfl
          carried := rfl }
  | serve elapsed | wake elapsed => exact effect_of_round ht rfl

/-! ## Schedules -/

/-- Turns taken one after the other, each listed with the dispatcher that it found. -/
inductive Plays (m : Machine S K E C W) (first : Dispatcher S K E C W O) :
    List (Dispatcher S K E C W O × Turn K E) → Dispatcher S K E C W O → Prop where
  | nil : Plays m first [] first
  | snoc {trace : List (Dispatcher S K E C W O × Turn K E)} {d next : Dispatcher S K E C W O}
      {turn : Turn K E} {fuel : Nat} : Plays m first trace d → d.turn m fuel turn = some next →
      Plays m first (trace ++ [(d, turn)]) next

variable {first last : Dispatcher S K E C W O}
variable {trace later : List (Dispatcher S K E C W O × Turn K E)}

theorem Plays.trans (h : Plays m first trace d) (hl : Plays m d later last) :
    Plays m first (trace ++ later) last := by
  induction hl with
  | nil => rwa [List.append_nil]
  | snoc _ ht ih =>
    rw [← List.append_assoc]
    exact ih.snoc ht

/-- Takes turns, and lists each with the dispatcher that it found. -/
def trail (m : Machine S K E C W) (fuel : Nat) : List (Turn K E) → Dispatcher S K E C W O →
    Option (List (Dispatcher S K E C W O × Turn K E) × Dispatcher S K E C W O)
  | [], d => some ([], d)
  | first :: turns, d => do
    let (trace, last) ← trail m fuel turns (← d.turn m fuel first)
    some ((d, first) :: trace, last)

theorem plays_of_trail {turns : List (Turn K E)}
    (h : first.trail m fuel turns = some (trace, last)) :
    Plays m first trace last ∧ trace.map (·.2) = turns := by
  induction turns generalizing first trace with
  | nil =>
    cases h
    exact ⟨.nil, rfl⟩
  | cons turn turns ih =>
    simp only [trail, Option.bind_eq_bind, Option.bind_eq_some_iff] at h
    obtain ⟨next, ht, ⟨rest, final⟩, hrest, he⟩ := h
    cases he
    obtain ⟨hp, hturns⟩ := ih hrest
    exact ⟨(Plays.nil.snoc ht).trans hp, by rw [List.map_cons, hturns]⟩

end Dispatcher

end Automat
