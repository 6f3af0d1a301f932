import Automat.Proofs.Dispatcher.Schedule

/-!
One round of a dispatcher. Getting ready it stays as it is or breaks down (`await_cases`); after
that it advances to the time of the round and carries out at most one order (`Round`).
-/

namespace Automat.Dispatcher

variable {S K E C W O : Type}

/-! ## Getting ready -/

theorem isClosed_eq_false_iff {d : Dispatcher S K E C W O} :
    d.isClosed = false ↔ d.phase = .serving := by
  simp [isClosed]

/-- A dispatcher that gets ready stays as it is or breaks down. -/
theorem await_cases (d : Dispatcher S K E C W O) :
    d.await = d ∧ (d.phase = .serving → d.canWait = true) ∨
      d.phase = .serving ∧ d.canWait = false ∧ d.await = d.close .broken := by
  unfold await
  split
  · next h =>
    refine .inl ⟨rfl, fun hp => h.resolve_left ?_⟩
    rw [isClosed_eq_false_iff.2 hp]
    exact Bool.false_ne_true
  · next h =>
    rw [not_or, Bool.not_eq_true, Bool.not_eq_true, isClosed_eq_false_iff] at h
    exact .inr ⟨h.1, h.2, rfl⟩

theorem await_clock (d : Dispatcher S K E C W O) : d.await.clock = d.clock := by
  rcases await_cases d with ⟨h, -⟩ | ⟨-, -, h⟩ <;> rw [h]
  rfl

theorem await_replies (d : Dispatcher S K E C W O) : d.await.replies = d.replies := by
  rcases await_cases d with ⟨h, -⟩ | ⟨-, -, h⟩ <;> rw [h]
  rfl

theorem await_of_open {d : Dispatcher S K E C W O} (h : d.await.isClosed = false) :
    d.await = d ∧ d.phase = .serving ∧ d.canWait = true := by
  rcases await_cases d with ⟨ha, hw⟩ | ⟨-, -, ha⟩
  · rw [ha] at h
    have hp := isClosed_eq_false_iff.1 h
    exact ⟨ha, hp, hw hp⟩
  · rw [ha] at h
    cases h

theorem phase_await_eq_broken_iff (d : Dispatcher S K E C W O) :
    d.await.phase = .broken ↔ d.phase = .broken ∨ d.phase = .serving ∧ d.canWait = false := by
  rcases await_cases d with ⟨ha, hw⟩ | ⟨hphase, hwait, ha⟩
  · rw [ha, or_iff_left]
    rintro ⟨hphase, hwait⟩
    cases (hw hphase).symm.trans hwait
  · rw [ha]
    exact iff_of_true rfl (.inr ⟨hphase, hwait⟩)

/-! ## Going round -/

variable [DecidableEq S] [DecidableEq K] [Named S] [Named K] [EventLike E K]
variable {m : Machine S K E C W} {d next : Dispatcher S K E C W O}

theorem catchUp_eq {fuel : Nat} {elapsed time : Duration} (h : d.clock.now? elapsed = some time) :
    d.catchUp m fuel elapsed =
      (m.advanceTo fuel time d.run).map fun run => { d with run := run } := by
  simp only [catchUp, h]
  cases m.advanceTo fuel time d.run with
  | none => simp
  | some run => simp

/-- A command is carried out on the run as by the call that it stands for. -/
theorem obey_of_carryOut {fuel number : Nat} {command : Command K E}
    (h : d.carryOut m fuel number command = some next) :
    next.clock = d.clock ∧
      m.obey fuel number command d.run d.replies = some (next.run, next.replies) := by
  cases command with
  | send event =>
    simp only [carryOut, Option.bind_eq_bind, Option.bind_eq_some_iff] at h
    obtain ⟨run, hs, he⟩ := h
    cases he
    simp [Machine.obey, hs]
  | snapshot | can | stop =>
    cases h
    exact ⟨rfl, rfl⟩

theorem phase_carryOut_ne_broken {fuel number : Nat} {command : Command K E}
    (hc : d.carryOut m fuel number command = some next) (hp : d.phase = .serving) :
    next.phase ≠ .broken := by
  cases command with
  | send event =>
    simp only [carryOut, Option.bind_eq_bind, Option.bind_eq_some_iff] at hc
    obtain ⟨run, -, he⟩ := hc
    cases he
    show d.phase ≠ .broken
    rw [hp]
    decide
  | snapshot | can =>
    cases hc
    show d.phase ≠ .broken
    rw [hp]
    decide
  | stop =>
    cases hc
    show Phase.ended ≠ .broken
    decide

/-- What a round of the loop does, when the clock shows `time`. -/
inductive Round (m : Machine S K E C W) (fuel : Nat) (time : Duration)
    (d : Dispatcher S K E C W O) : Turn K E → Dispatcher S K E C W O → Prop where
  | closed {turn : Turn K E} : d.await.isClosed = true → Round m fuel time d turn d.await
  | woken {elapsed : Duration} {ahead : Run S E C W O} : d.await.isClosed = false →
      m.advanceTo fuel time d.run = some ahead →
      Round m fuel time d (.wake elapsed) { d with run := ahead }
  | idle {elapsed : Duration} : d.await.isClosed = false → d.queue = [] → d.handles ≠ 0 →
      Round m fuel time d (.serve elapsed) d
  | ended {elapsed : Duration} {ahead : Run S E C W O} : d.await.isClosed = false →
      d.queue = [] → d.handles = 0 → m.advanceTo fuel time d.run = some ahead →
      Round m fuel time d (.serve elapsed) (close .ended { d with run := ahead })
  | served {elapsed : Duration} {number : Nat} {command : Command K E}
      {queue : List (Nat × Command K E)} {ahead : Run S E C W O}
      {next : Dispatcher S K E C W O} : d.await.isClosed = false →
      d.queue = (number, command) :: queue → m.advanceTo fuel time d.run = some ahead →
      carryOut m fuel number command { d with queue := queue, run := ahead } = some next →
      Round m fuel time d (.serve elapsed) next

theorem round_of_wake {fuel : Nat} {elapsed time : Duration}
    (ht : d.turn m fuel (.wake elapsed) = some next) (htime : d.clock.now? elapsed = some time) :
    Round m fuel time d (.wake elapsed) next := by
  simp only [turn, wake] at ht
  cases hclosed : d.await.isClosed with
  | true =>
    rw [hclosed, if_pos rfl] at ht
    cases ht
    exact .closed hclosed
  | false =>
    rw [hclosed, if_neg Bool.false_ne_true, (await_of_open hclosed).1, catchUp_eq htime] at ht
    obtain ⟨ahead, ha, rfl⟩ := Option.map_eq_some_iff.1 ht
    exact .woken hclosed ha

theorem round_of_serve {fuel : Nat} {elapsed time : Duration}
    (ht : d.turn m fuel (.serve elapsed) = some next) (htime : d.clock.now? elapsed = some time) :
    Round m fuel time d (.serve elapsed) next := by
  simp only [turn, receive] at ht
  cases hclosed : d.await.isClosed with
  | true =>
    rw [hclosed, if_pos rfl] at ht
    cases ht
    exact .closed hclosed
  | false =>
    obtain ⟨hawait, hphase, -⟩ := await_of_open hclosed
    have hopen : d.isClosed = false := isClosed_eq_false_iff.2 hphase
    rw [hawait, hopen, if_neg Bool.false_ne_true] at ht
    cases hq : d.queue with
    | nil =>
      simp only [hq] at ht
      split at ht
      · next hhandles =>
        rw [catchUp_eq htime] at ht
        simp only [Option.bind_eq_bind, Option.bind_eq_some_iff, Option.map_eq_some_iff] at ht
        obtain ⟨_, ⟨ahead, ha, rfl⟩, he⟩ := ht
        have hahead : isClosed { d with run := ahead } = false := hopen
        rw [hahead, if_neg Bool.false_ne_true, Option.some.injEq] at he
        subst he
        exact .ended hclosed hq hhandles ha
      · next hhandles =>
        cases ht
        exact .idle hclosed hq hhandles
    | cons first queue =>
      obtain ⟨number, command⟩ := first
      have hcatch : catchUp m fuel elapsed { d with queue := queue } =
          (m.advanceTo fuel time d.run).map fun run => { d with queue := queue, run := run } :=
        catchUp_eq htime
      simp only [hq, hcatch, Option.bind_eq_bind, Option.bind_eq_some_iff,
        Option.map_eq_some_iff] at ht
      obtain ⟨_, ⟨ahead, ha, rfl⟩, hc⟩ := ht
      have hahead : isClosed { d with queue := queue, run := ahead } = false := hopen
      rw [hahead, if_neg Bool.false_ne_true] at hc
      exact .served hclosed hq ha hc

theorem round_of_turn {fuel : Nat} {turn : Turn K E} {elapsed time : Duration}
    (ht : d.turn m fuel turn = some next) (he : turn.elapsed? = some elapsed)
    (htime : d.clock.now? elapsed = some time) : Round m fuel time d turn next := by
  cases turn with
  | serve now =>
    cases he
    exact round_of_serve ht htime
  | wake now =>
    cases he
    exact round_of_wake ht htime
  | post | addHandle | dropHandle | ready => cases he

/-- A round that is taken breaks nothing. -/
theorem Round.phase_ne_broken {fuel : Nat} {turn : Turn K E} {time : Duration}
    (h : Round m fuel time d turn next) (hopen : d.await.isClosed = false) :
    next.phase ≠ .broken := by
  obtain ⟨hawait, hphase, -⟩ := await_of_open hopen
  have hserving : d.phase ≠ .broken := by
    rw [hphase]
    decide
  cases h with
  | closed hclosed => cases hopen.symm.trans hclosed
  | woken => exact hserving
  | idle => exact hserving
  | ended =>
    show Phase.ended ≠ .broken
    decide
  | served _ _ _ hc => exact phase_carryOut_ne_broken hc hphase

theorem Round.phase_eq_broken_iff {fuel : Nat} {turn : Turn K E} {time : Duration}
    (h : Round m fuel time d turn next) :
    next.phase = .broken ↔ d.phase = .broken ∨ d.phase = .serving ∧ d.canWait = false := by
  cases hclosed : d.await.isClosed with
  | false =>
    obtain ⟨-, hphase, hwait⟩ := await_of_open hclosed
    simp [h.phase_ne_broken hclosed, hphase, hwait]
  | true =>
    obtain rfl : next = d.await := by
      cases h with
      | closed => rfl
      | woken hopen | idle hopen | ended hopen | served hopen => cases hopen.symm.trans hclosed
    exact phase_await_eq_broken_iff d

end Automat.Dispatcher
