import Automat.Proofs.Dispatcher.Round
import Automat.Proofs.Machine.Advance
import Automat.Script.Signal

/-!
A dispatcher does what its orders come to when they are carried out by calls, each at the time at
which the dispatcher took it up, whatever the schedule (`play_refines_direct`). The one thing that
can come between is a deadline beyond the last moment of the host.
-/

namespace Automat.Dispatcher

variable {S K E C W O : Type} [DecidableEq S] [DecidableEq K] [Named S] [Named K] [EventLike E K]
variable {m : Machine S K E C W} {d next : Dispatcher S K E C W O} {run : Run S E C W O}

/-! ## Where the dispatcher is ahead -/

/-- The dispatcher has come as far as the calls have, or an advance ahead of them, which goes no
further than the time of its last round. -/
def Synced (m : Machine S K E C W) (latest : Nat) (d : Dispatcher S K E C W O)
    (run : Run S E C W O) : Prop :=
  d.run = run ∨ d.phase ≠ .ended ∧ ∃ fuel time, time.total ≤ d.clock.base.total + latest ∧
    m.advanceTo fuel time run = some d.run

theorem Synced.advanceTo {latest fuel : Nat} {time : Duration} {done : Run S E C W O}
    (hs : d.Synced m latest run) (hle : d.clock.base.total + latest ≤ time.total)
    (ha : m.advanceTo fuel time d.run = some done) :
    ∃ more, m.advanceTo more time run = some done := by
  rcases hs with rfl | ⟨-, first, before, hb, hf⟩
  · exact ⟨fuel, ha⟩
  · exact ⟨first + fuel, Machine.advanceTo_join hf (Nat.le_trans hb hle) ha⟩

theorem Synced.mono {latest later : Nat} (hs : d.Synced m latest run) (hle : latest ≤ later) :
    d.Synced m later run := by
  rcases hs with heq | ⟨hp, fuel, time, hb, hf⟩
  · exact .inl heq
  · exact .inr ⟨hp, fuel, time, by omega, hf⟩

theorem Synced.close_broken {latest : Nat} (hs : d.Synced m latest run) :
    (d.close .broken).Synced m latest run := by
  rcases hs with heq | ⟨-, hs⟩
  · exact .inl heq
  · refine .inr ⟨?_, hs⟩
    show Phase.broken ≠ .ended
    decide

theorem Synced.await {latest : Nat} (hs : d.Synced m latest run) :
    d.await.Synced m latest run := by
  rcases await_cases d with ⟨h, -⟩ | ⟨-, -, h⟩
  · rwa [h]
  · rw [h]
    exact hs.close_broken

/-- One bound on the steps is enough for the calls and for what the dispatcher is ahead of them. -/
theorem Synced.by_calls {latest fuel : Nat} {base : Duration} {orders : List (Order K E)}
    {done : Run S E C W O} {replies given : List (Nat × Reply S C E)}
    (hs : d.Synced m latest done)
    (hd : m.direct fuel base orders run replies = some (done, given)) :
    ∃ more done, m.direct more base orders run replies = some (done, given) ∧
      (d.run = done ∨ d.phase ≠ .ended ∧ ∃ time, m.advanceTo more time done = some d.run) := by
  rcases hs with heq | ⟨hphase, ahead, time, -, ha⟩
  · exact ⟨fuel, done, hd, .inl heq⟩
  · exact ⟨fuel + ahead, done, Machine.direct_mono hd (Nat.le_add_right _ _),
      .inr ⟨hphase, time, Machine.advanceTo_mono ha (Nat.le_add_left _ _)⟩⟩

/-! ## One turn -/

/-- What a turn has to do with the calls: it carries out the order that it stands for. -/
def Follows (m : Machine S K E C W) (latest : Nat) (turn : Turn K E)
    (d next : Dispatcher S K E C W O) (run : Run S E C W O) : Prop :=
  next.clock = d.clock ∧ ∃ more done,
    m.direct more d.clock.base (d.order? turn).toList run d.replies = some (done, next.replies) ∧
    next.Synced m latest done

theorem Round.follows {fuel latest : Nat} {turn : Turn K E} {elapsed time : Duration}
    (h : Round m fuel time d turn next) (he : turn.elapsed? = some elapsed)
    (htime : d.clock.now? elapsed = some time) (hs : d.Synced m latest run)
    (hle : latest ≤ elapsed.total) : Follows m elapsed.total turn d next run := by
  have hsum : d.clock.base.add? elapsed = some time := htime
  have htotal := Duration.add?_eq_some_iff.1 hsum
  have hreach : d.clock.base.total + latest ≤ time.total := by omega
  cases h with
  | closed hclosed =>
    refine ⟨await_clock d, 0, run, ?_, hs.await.mono hle⟩
    cases turn <;> simp [order?, hclosed, await_replies, Machine.direct]
  | woken hopen ha =>
    cases he
    obtain ⟨more, hmore⟩ := hs.advanceTo hreach ha
    refine ⟨rfl, 0, run, rfl, .inr ⟨?_, more, time, Nat.le_of_eq htotal, hmore⟩⟩
    show d.phase ≠ .ended
    rw [(await_of_open hopen).2.1]
    decide
  | idle hopen hq hhandles =>
    refine ⟨rfl, 0, run, ?_, hs.mono hle⟩
    simp [order?, hopen, hq, hhandles, Machine.direct]
  | @ended _ ahead hopen hq hhandles ha =>
    cases he
    obtain ⟨more, hmore⟩ := hs.advanceTo hreach ha
    refine ⟨rfl, more, ahead, ?_, .inl rfl⟩
    simp [order?, hopen, hq, hhandles, Machine.direct, hsum, hmore, close]
  | @served _ number command queue ahead _ hopen hq ha hc =>
    cases he
    obtain ⟨hbase, hobey⟩ := obey_of_carryOut hc
    obtain ⟨more, hmore⟩ := hs.advanceTo hreach ha
    refine ⟨hbase, more + fuel, next.run, ?_, .inl rfl⟩
    have hadvance := Machine.advanceTo_mono hmore (Nat.le_add_right more fuel)
    have hdone := Machine.obey_mono hobey (Nat.le_add_left fuel more)
    simp [order?, hopen, hq, Machine.direct, hsum, hadvance, hdone]

theorem follows_turn {fuel latest : Nat} {turn : Turn K E} (ht : d.turn m fuel turn = some next)
    (hs : d.Synced m latest run) (hlate : ∀ elapsed, turn.elapsed? = some elapsed →
      latest ≤ elapsed.total ∧ (d.clock.now? elapsed).isSome) :
    Follows m (turn.elapsed?.elim latest Duration.total) turn d next run := by
  cases he : turn.elapsed? with
  | some elapsed =>
    obtain ⟨hle, hr⟩ := hlate elapsed he
    obtain ⟨time, htime⟩ := Option.isSome_iff_exists.1 hr
    exact (round_of_turn ht he htime).follows he htime hs hle
  | none =>
    cases turn with
    | post command =>
      cases ht
      unfold post
      split <;> exact ⟨rfl, 0, run, rfl, hs⟩
    | addHandle | dropHandle =>
      cases ht
      exact ⟨rfl, 0, run, rfl, hs⟩
    | ready =>
      cases ht
      exact ⟨await_clock d, 0, run, by rw [await_replies]; rfl, hs.await⟩
    | serve | wake => cases he

/-! ## Whole schedules -/

theorem play_follows {fuel latest : Nat} {turns : List (Turn K E)} {last : Dispatcher S K E C W O}
    {orders : List (Order K E)} (hp : d.play m fuel turns = some (last, orders))
    (hs : d.Synced m latest run)
    (hlate : ∀ elapsed ∈ Turn.times turns, latest ≤ elapsed.total ∧ (d.clock.now? elapsed).isSome)
    (hsorted : (Turn.times turns).Pairwise (· ≤ ·)) :
    ∃ more done later, m.direct more d.clock.base orders run d.replies = some (done, last.replies) ∧
      last.Synced m later done := by
  induction turns generalizing d run latest orders with
  | nil =>
    cases hp
    exact ⟨0, run, latest, rfl, hs⟩
  | cons turn turns ih =>
    simp only [play, Option.bind_eq_bind, Option.bind_eq_some_iff] at hp
    obtain ⟨next, ht, ⟨final, rest⟩, hrest, he⟩ := hp
    cases he
    rw [Turn.times_cons] at hlate hsorted
    obtain ⟨hbase, first, middle, hfirst, hsynced⟩ := follows_turn ht hs fun elapsed he =>
      hlate elapsed (List.mem_append_left _ (Option.mem_toList.2 he))
    have hlater : ∀ elapsed ∈ Turn.times turns,
        turn.elapsed?.elim latest Duration.total ≤ elapsed.total ∧
          (next.clock.now? elapsed).isSome := by
      intro elapsed hmem
      obtain ⟨hle, hr⟩ := hlate elapsed (List.mem_append_right _ hmem)
      refine ⟨?_, hbase ▸ hr⟩
      cases he : turn.elapsed? with
      | none => exact hle
      | some now =>
        rw [he] at hsorted
        exact (List.pairwise_append.1 hsorted).2.2 now (by simp) elapsed hmem
    obtain ⟨more, done, later, hdone, hlast⟩ :=
      ih hrest hsynced hlater (List.pairwise_append.1 hsorted).2.1
    rw [hbase] at hdone
    exact ⟨first + more, done, later, Machine.direct_append
      (Machine.direct_mono hfirst (Nat.le_add_right _ _))
      (Machine.direct_mono hdone (Nat.le_add_left _ _)), hlast⟩

/-- Somewhere in the schedule the dispatcher gets ready while there is no moment for the next
deadline. -/
def Strands (m : Machine S K E C W) (fuel : Nat) :
    List (Turn K E) → Dispatcher S K E C W O → Prop
  | [], _ => False
  | turn :: turns, d => turn.readies = true ∧ d.phase = .serving ∧ d.canWait = false ∨
    ∃ next, d.turn m fuel turn = some next ∧ Strands m fuel turns next

/-- A turn within the range of the clock breaks the dispatcher down only where it cannot wait. -/
theorem phase_turn_eq_broken_iff {fuel : Nat} {turn : Turn K E}
    (ht : d.turn m fuel turn = some next)
    (hr : ∀ elapsed, turn.elapsed? = some elapsed → (d.clock.now? elapsed).isSome) :
    next.phase = .broken ↔
      d.phase = .broken ∨ turn.readies = true ∧ d.phase = .serving ∧ d.canWait = false := by
  cases turn with
  | serve elapsed | wake elapsed =>
    obtain ⟨time, htime⟩ := Option.isSome_iff_exists.1 (hr elapsed rfl)
    simpa [Turn.readies] using (round_of_turn ht rfl htime).phase_eq_broken_iff
  | ready =>
    cases ht
    simpa [Turn.readies] using phase_await_eq_broken_iff d
  | post command =>
    cases ht
    unfold post
    split <;> simp [Turn.readies]
  | addHandle =>
    cases ht
    simp [Turn.readies, addHandle]
  | dropHandle =>
    cases ht
    simp [Turn.readies, dropHandle]

theorem base_turn {fuel : Nat} {turn : Turn K E} (ht : d.turn m fuel turn = some next)
    (hr : ∀ elapsed, turn.elapsed? = some elapsed → (d.clock.now? elapsed).isSome) :
    next.clock = d.clock :=
  (follows_turn ht (.inl rfl : d.Synced m 0 d.run)
    fun elapsed he => ⟨Nat.zero_le _, hr elapsed he⟩).1

theorem play_broken_iff {fuel : Nat} {turns : List (Turn K E)} {last : Dispatcher S K E C W O}
    {orders : List (Order K E)} (hp : d.play m fuel turns = some (last, orders))
    (hr : ∀ elapsed ∈ Turn.times turns, (d.clock.now? elapsed).isSome) :
    last.phase = .broken ↔ d.phase = .broken ∨ d.Strands m fuel turns := by
  induction turns generalizing d orders with
  | nil =>
    cases hp
    simp [Strands]
  | cons turn turns ih =>
    simp only [play, Option.bind_eq_bind, Option.bind_eq_some_iff] at hp
    obtain ⟨next, ht, ⟨final, rest⟩, hrest, he⟩ := hp
    cases he
    rw [Turn.times_cons] at hr
    have hturn : ∀ elapsed, turn.elapsed? = some elapsed → (d.clock.now? elapsed).isSome :=
      fun elapsed he => hr elapsed (List.mem_append_left _ (Option.mem_toList.2 he))
    have hlater : ∀ elapsed ∈ Turn.times turns, (next.clock.now? elapsed).isSome := by
      rw [base_turn ht hturn]
      exact fun elapsed hmem => hr elapsed (List.mem_append_right _ hmem)
    rw [ih hrest hlater, phase_turn_eq_broken_iff ht hturn]
    simp [Strands, ht, or_assoc]

/-- Whatever the schedule, the orders that a dispatcher has carried out come to the same by calls,
in the replies and, when it has ended, in the run; while it serves it is ahead of the calls by an
advance at most. It breaks down exactly if it gets ready while there is no moment for the next
deadline, wherever the moments of the host end. -/
theorem play_refines_direct {timeline : Timeline} {fuel : Nat} {turns : List (Turn K E)}
    {run : Run S E C W O} {d : Dispatcher S K E C W O} {orders : List (Order K E)}
    (hp : (spawn timeline run : Dispatcher S K E C W O).play m fuel turns = some (d, orders))
    (hsorted : (Turn.times turns).Pairwise (· ≤ ·))
    (hr : ∀ elapsed ∈ Turn.times turns, (run.now.add? elapsed).isSome) :
    (∃ more done, m.direct more run.now orders run [] = some (done, d.replies) ∧
      (d.run = done ∨ d.phase ≠ .ended ∧ ∃ time, m.advanceTo more time done = some d.run)) ∧
    (d.phase = .broken ↔ (spawn timeline run : Dispatcher S K E C W O).Strands m fuel turns) := by
  constructor
  · have hstart : (spawn timeline run : Dispatcher S K E C W O).Synced m 0 run := .inl rfl
    obtain ⟨_, _, later, hdone, hsynced⟩ := play_follows hp hstart
      (fun elapsed hmem => ⟨Nat.zero_le _, hr elapsed hmem⟩) hsorted
    exact hsynced.by_calls hdone
  · rw [play_broken_iff hp hr, or_iff_right]
    show Phase.serving ≠ .broken
    decide

/-! ## A machine with one deadline after the other -/

section

open Script

/-- Its only state is left for itself after a delay, which therefore runs out once. -/
def waiting (delay : Duration) : Machine String String Signal Unit Unit where
  definition :=
    { id := "waiting"
      initial := "on"
      nodes := [{ state := "on", after := some { delay := delay, target := "on" } }] }
  actions := []
  guards := []
  context := ()
  historyLimit := History.defaultLimit
  clock _ := .epoch

def waitingRun (delay : Duration) : Run String Signal Unit Unit Unit :=
  (waiting delay).enterInitial ⟨(), [], ()⟩ ((waiting delay).newRun () ())

/-- Moments in signed seconds of 64 bits, on a host that has been up for an hour. -/
def signedTimeline : Timeline where
  start := 3600 * nanosPerSecond
  last := (1 <<< 63) * nanosPerSecond - 1
  start_le := by decide

/-- A wake-up that comes late, a question, and the end. -/
def lateTurns : List (Turn String Signal) :=
  [.post .snapshot, .wake (.ofMillis 12), .serve (.ofMillis 15), .post .stop,
    .serve (.ofMillis 15)]

/-- What becomes of the dispatcher, and the orders that it carries out. -/
def latePlay :
    Option (Dispatcher String String Signal Unit Unit Unit × List (Order String Signal)) :=
  (spawn signedTimeline (waitingRun (.ofMillis 10))).play (waiting (.ofMillis 10)) 2 lateTurns

theorem play_refines_direct_late : ∃ d orders more, latePlay = some (d, orders) ∧
    d.phase = .ended ∧ orders.length = 2 ∧
    (waiting (.ofMillis 10)).direct more .zero orders (waitingRun (.ofMillis 10)) [] =
      some (d.run, d.replies) := by
  have hresult : latePlay.map (fun result => (result.1.phase, result.2.length)) =
      some (.ended, 2) := by
    decide
  obtain ⟨⟨d, orders⟩, hp, he⟩ := Option.map_eq_some_iff.1 hresult
  obtain ⟨hphase, hlength⟩ := Prod.mk.inj he
  obtain ⟨⟨more, done, hdone, hrun⟩, -⟩ := play_refines_direct hp (by decide) (by decide)
  rcases hrun with heq | ⟨hne, -⟩
  · exact ⟨d, orders, more, hp, hphase, hlength, heq ▸ hdone⟩
  · exact absurd hphase hne

/-- With a deadline at the end of time the dispatcher breaks down before it answers, where a call
answers. -/
theorem waiting_longest_breaks : ∃ d done,
    (spawn signedTimeline (waitingRun .longest)).play (waiting .longest) 1
      [.post .snapshot, .serve .zero] = some (d, []) ∧
    d.phase = .broken ∧ d.reply? 0 = none ∧
    (waiting .longest).direct 1 .zero [⟨.zero, some (0, .snapshot)⟩] (waitingRun .longest) [] =
      some (done, [(0, .snapshot (waitingRun .longest).snapshot?)]) :=
  ⟨_, _, rfl, rfl, rfl, rfl⟩

end

end Automat.Dispatcher
