import Automat.Proofs.Dispatcher.Protocol

/-!
The clock arithmetic of a dispatcher. A machine cuts its sums off at the longest duration; a
dispatcher adds up the time elapsed, and the moment of a deadline, by sums that are not cut off.
What it can tell in this way it tells exactly, and the one thing that breaks it down is a sum out of
range (`clock_in_range`).
-/

namespace Automat.Dispatcher

variable {S K E C W O : Type}

/-! ## The two sums -/

/-- After so much time the dispatcher has something to do in the turn. -/
def Acts (turn : Turn K E) (elapsed : Duration) (d : Dispatcher S K E C W O) : Prop :=
  turn.elapsed? = some elapsed ∧ (turn.serves = true → d.canReceive = true)

/-- There is no moment for the next deadline. -/
def OutOfReach (clock : Clock) (run : Run S E C W O) : Prop :=
  ∃ due, run.nextDeadline? = some due ∧
    clock.base.total + clock.timeline.last < clock.timeline.start + due.total

theorem wait?_eq_some_iff {d : Dispatcher S K E C W O} {wait : Duration} :
    d.wait? = some wait ↔ ∃ due, d.run.nextDeadline? = some due ∧ due - d.clock.base = wait :=
  Option.map_eq_some_iff

theorem moment?_cases (clock : Clock) (due : Duration) :
    clock.moment? due = some (clock.timeline.start + (clock.wait due).total) ∧
      clock.timeline.start + (clock.wait due).total ≤ clock.timeline.last ∨
    clock.moment? due = none ∧
      clock.timeline.last < clock.timeline.start + (clock.wait due).total := by
  by_cases hle : clock.timeline.start + (clock.wait due).total ≤ clock.timeline.last
  · exact .inl ⟨if_pos hle, hle⟩
  · exact .inr ⟨if_neg hle, Nat.not_le.1 hle⟩

theorem moment?_eq_none_iff {clock : Clock} {due : Duration} : clock.moment? due = none ↔
    clock.base.total + clock.timeline.last < clock.timeline.start + due.total := by
  have hstart := clock.timeline.start_le
  have hwait : (clock.wait due).total = due.total - clock.base.total := Duration.total_sub _ _
  rcases moment?_cases clock due with ⟨hm, hle⟩ | ⟨hm, hlt⟩
  · refine iff_of_false (fun hn => ?_) (by omega)
    cases hm.symm.trans hn
  · exact iff_of_true hm (by omega)

theorem canWait_eq_false_iff {d : Dispatcher S K E C W O} :
    d.canWait = false ↔ OutOfReach d.clock d.run := by
  unfold canWait OutOfReach
  cases hd : d.run.nextDeadline? with
  | none => simp
  | some due =>
    simp only [Option.isSome_eq_false_iff, Option.isNone_iff_eq_none, moment?_eq_none_iff,
      Option.some.injEq, exists_eq_left']

theorem breaks_iff {turn : Turn K E} {d : Dispatcher S K E C W O} :
    d.Breaks turn ↔ d.phase = .serving ∧ (turn.readies = true ∧ OutOfReach d.clock d.run ∨
      ∃ elapsed, d.Acts turn elapsed ∧ Duration.maxTotal < d.clock.base.total + elapsed.total) := by
  unfold Breaks Acts
  simp only [canWait_eq_false_iff, Clock.now?, Duration.add?_eq_none_iff]
  grind

/-! ## Where the clock stands -/

variable [DecidableEq S] [DecidableEq K] [Named S] [Named K] [EventLike E K]
variable {m : Machine S K E C W} {d next : Dispatcher S K E C W O} {run : Run S E C W O}
variable {timeline : Timeline} {turn : Turn K E}
variable {trace : List (Dispatcher S K E C W O × Turn K E)}
variable {fuel number latest slowest : Nat} {time : Duration} {command : Command K E}

/-- No command moves the clock. -/
theorem now_carryOut (h : d.carryOut m fuel number command = some next) :
    next.run.now = d.run.now := by
  cases command with
  | send event =>
    simp only [carryOut, Option.bind_eq_bind, Option.bind_eq_some_iff] at h
    obtain ⟨done, hsend, he⟩ := h
    cases he
    exact Machine.now_send hsend
  | snapshot =>
    cases h
    rfl
  | can kind =>
    cases h
    obtain ⟨world, hw⟩ := m.canTransition_eq kind d.run
    show (m.canTransition kind d.run).1.now = d.run.now
    rw [hw]
    rfl
  | stop =>
    cases h
    show d.run.stop.now = d.run.now
    unfold Run.stop
    split <;> rfl

theorem reachable_carryOut (h : d.carryOut m fuel number command = some next)
    (hr : m.Reachable d.run) : m.Reachable next.run := by
  cases command with
  | send event =>
    simp only [carryOut, Option.bind_eq_bind, Option.bind_eq_some_iff] at h
    obtain ⟨done, hsend, he⟩ := h
    cases he
    have hends : m.Ends (.send event) d.run done :=
      ⟨fuel, .done, Option.map_eq_some_iff.2 ⟨done, hsend, rfl⟩⟩
    exact hr.ends hends
  | snapshot =>
    cases h
    exact hr
  | can kind =>
    cases h
    have hends : m.Ends (.can kind) d.run (m.canTransition kind d.run).1 := ⟨fuel, _, rfl⟩
    exact hr.ends hends
  | stop =>
    cases h
    have hends : m.Ends .stop d.run d.run.stop := ⟨fuel, .done, rfl⟩
    exact hr.ends hends

/-- A dispatcher with something to do brings the clock to the time of its round. -/
theorem Round.now_eq (h : Round m fuel time d turn next) (hopen : d.await.isClosed = false)
    (hs : turn.serves = true → d.canReceive = true) : next.run.now = max d.run.now time := by
  cases h with
  | closed hclosed => cases hopen.symm.trans hclosed
  | woken _ ha | ended _ _ _ ha => exact Machine.now_advanceTo ha
  | idle _ hq hh => cases (canReceive_eq_false_iff.2 ⟨hq, hh⟩).symm.trans (hs rfl)
  | served _ _ ha hc => exact (now_carryOut hc).trans (Machine.now_advanceTo ha)

/-- How the clock of a dispatcher stands that took a run over and has gone round its loop no later
than this. -/
structure OnTime (m : Machine S K E C W) (timeline : Timeline) (run : Run S E C W O)
    (latest : Nat) (d : Dispatcher S K E C W O) : Prop where
  clock_eq : d.clock = ⟨timeline, run.now⟩
  reachable : m.Reachable d.run
  le_now : run.now ≤ d.run.now
  now_le : d.run.now.total ≤ run.now.total + latest

theorem OnTime.base_eq (h : OnTime m timeline run latest d) : d.clock.base = run.now :=
  congrArg Clock.base h.clock_eq

theorem onTime_spawn (hr : m.Reachable run) :
    OnTime m timeline run latest (spawn timeline run) where
  clock_eq := rfl
  reachable := hr
  le_now := le_refl _
  now_le := Nat.le_add_right _ _

theorem OnTime.of_eq (h : OnTime m timeline run latest d) (hb : next.clock = d.clock)
    (hr : next.run = d.run) : OnTime m timeline run latest next where
  clock_eq := hb.trans h.clock_eq
  reachable := hr ▸ h.reachable
  le_now := hr ▸ h.le_now
  now_le := hr ▸ h.now_le

/-- An advance by the time elapsed. -/
theorem OnTime.advanceTo {elapsed : Duration} {ahead : Run S E C W O}
    (h : OnTime m timeline run latest d) (htime : d.clock.now? elapsed = some time)
    (hl : elapsed.total ≤ latest) (ha : m.advanceTo fuel time d.run = some ahead) :
    OnTime m timeline run latest { d with run := ahead } where
  clock_eq := h.clock_eq
  reachable := h.reachable.ends (Machine.ends_advanceTo_iff.2 ⟨fuel, ha⟩)
  le_now := by
    show run.now ≤ ahead.now
    rw [Machine.now_advanceTo ha]
    exact le_trans h.le_now (le_max_left _ _)
  now_le := by
    have htotal := Duration.add?_eq_some_iff.1 htime
    have hnow := h.now_le
    rw [h.base_eq] at htotal
    show ahead.now.total ≤ run.now.total + latest
    rw [Machine.now_advanceTo ha, Duration.total_max]
    omega

theorem OnTime.carryOut (h : OnTime m timeline run latest d)
    (hc : d.carryOut m fuel number command = some next) : OnTime m timeline run latest next where
  clock_eq := (obey_of_carryOut hc).1.trans h.clock_eq
  reachable := reachable_carryOut hc h.reachable
  le_now := by
    rw [now_carryOut hc]
    exact h.le_now
  now_le := by
    rw [now_carryOut hc]
    exact h.now_le

theorem Effect.onTime {added : Option (Nat × Command K E)} {order : Option (Order K E)}
    (he : Effect m turn d added order next) (h : OnTime m timeline run latest d)
    (hl : ∀ elapsed, turn.elapsed? = some elapsed → elapsed.total ≤ latest) :
    OnTime m timeline run latest next := by
  cases he with
  | posted | joined | left | unmoved => exact h.of_eq rfl rfl
  | woken ht _ htime ha =>
    subst ht
    exact h.advanceTo htime (hl _ rfl) ha
  | @ended _ _ _ ahead ht _ _ _ htime ha =>
    subst ht
    have hahead : OnTime m timeline run latest { d with run := ahead } :=
      h.advanceTo htime (hl _ rfl) ha
    exact hahead.of_eq rfl rfl
  | @served _ _ _ _ _ queue ahead _ ht _ _ htime ha hc =>
    subst ht
    have hqueue : OnTime m timeline run latest { d with queue := queue } := h.of_eq rfl rfl
    exact (hqueue.advanceTo htime (hl _ rfl) ha).carryOut hc

theorem Plays.onTime (hp : Plays m (spawn timeline run) trace d) (hr : m.Reachable run)
    (hl : ∀ elapsed ∈ Turn.times (trace.map (·.2)), elapsed.total ≤ latest) :
    OnTime m timeline run latest d := by
  induction hp with
  | nil => exact onTime_spawn hr
  | @snoc trace d next turn fuel hp ht ih =>
    rw [List.map_append, List.map_singleton, Turn.forall_mem_times_snoc] at hl
    have h := ih hl.1
    rcases effect_of_turn ht with hb | ⟨-, he⟩
    · rw [hb.next]
      exact h.of_eq rfl rfl
    · exact he.onTime h hl.2

/-! ## The safe range -/

/-- Neither the times up to `latest` nor the deadlines that are set by then leave the range, for a
dispatcher that started when the clock showed `base`. A late start leaves a moment for every
deadline that there is. -/
structure Within (m : Machine S K E C W) (timeline : Timeline) (base : Duration)
    (latest slowest : Nat) : Prop where
  delays : ∀ state after, m.definition.after? state = some after → after.delay.total ≤ slowest
  clock : base.total + latest ≤ Duration.maxTotal
  deadlines : timeline.start + (latest + slowest) ≤ timeline.last ∨
    timeline.start + Duration.maxTotal ≤ timeline.last + base.total

/-- Within the range nothing breaks down. -/
theorem OnTime.not_breaks (h : OnTime m timeline run latest d)
    (hw : Within m timeline run.now latest slowest)
    (hl : ∀ elapsed, turn.elapsed? = some elapsed → elapsed.total ≤ latest) :
    ¬ d.Breaks turn := by
  rw [breaks_iff, h.clock_eq]
  rintro ⟨-, ⟨-, due, hd, hfar⟩ | ⟨elapsed, ⟨he, -⟩, hover⟩⟩
  · change run.now.total + timeline.last < timeline.start + due.total at hfar
    have hdue := (h.reachable.foreseen hw.delays).due_le due hd
    have hnow := h.now_le
    have hmax := due.total_le
    rcases hw.deadlines with hnear | hlate <;> omega
  · change Duration.maxTotal < run.now.total + elapsed.total at hover
    have hlast := hl elapsed he
    have hclock := hw.clock
    omega

theorem Plays.not_broken (hp : Plays m (spawn timeline run) trace d) (hr : m.Reachable run)
    (hw : Within m timeline run.now latest slowest)
    (hl : ∀ elapsed ∈ Turn.times (trace.map (·.2)), elapsed.total ≤ latest) :
    d.phase ≠ .broken := by
  induction hp with
  | nil =>
    show Phase.serving ≠ .broken
    decide
  | @snoc trace d next turn fuel hp ht ih =>
    rw [List.map_append, List.map_singleton, Turn.forall_mem_times_snoc] at hl
    have hsafe : ¬ d.Breaks turn := (hp.onTime hr hl.1).not_breaks hw hl.2
    rw [ne_eq, turn_broken_iff ht, not_or]
    exact ⟨ih hl.1, hsafe⟩

/-! ## Turns that come to an end -/

/-- What the machine has to do comes to an end: an advance, and the first event in the queue. -/
def Manages (m : Machine S K E C W) (time : Duration) (d : Dispatcher S K E C W O) : Prop :=
  ∃ ahead, m.Ends (.advanceTo time) d.run ahead ∧
    ∀ number event queue, d.queue = (number, .send event) :: queue →
      ∃ done, m.Ends (.send event) ahead done

theorem exists_carryOut
    (hs : ∀ event, command = .send event → ∃ done, m.Ends (.send event) d.run done) :
    ∃ fuel, ∀ more, fuel ≤ more → ∃ next, d.carryOut m more number command = some next := by
  cases command with
  | send event =>
    obtain ⟨done, fuel, answer, hcall⟩ := hs event rfl
    obtain ⟨sent, hsend, -⟩ := Option.map_eq_some_iff.1 hcall
    refine ⟨fuel, fun more hle => ⟨{ d with run := sent }, ?_⟩⟩
    simp only [carryOut, Machine.send_mono hsend hle, Option.bind_eq_bind, Option.bind_some]
  | snapshot | can | stop => exact ⟨0, fun more _ => ⟨_, rfl⟩⟩

theorem catchUp_of_advanceTo {elapsed : Duration} {ahead : Run S E C W O}
    (htime : d.clock.now? elapsed = some time) (ha : m.advanceTo fuel time d.run = some ahead) :
    d.catchUp m fuel elapsed = some { d with run := ahead } := by
  rw [catchUp_eq htime, ha, Option.map_some]

theorem exists_wake {elapsed : Duration} (hopen : d.isClosed = false)
    (hm : ∀ time, d.clock.now? elapsed = some time → Manages m time d) :
    ∃ fuel next, d.wake m fuel elapsed = some next := by
  simp only [wake, hopen, Bool.false_eq_true, if_false]
  cases htime : d.clock.now? elapsed with
  | none => exact ⟨0, _, catchUp_eq_broken htime⟩
  | some time =>
    obtain ⟨ahead, hends, -⟩ := hm time htime
    obtain ⟨fuel, ha⟩ := Machine.ends_advanceTo_iff.1 hends
    exact ⟨fuel, _, catchUp_of_advanceTo htime ha⟩

theorem exists_receive {elapsed : Duration} (hopen : d.isClosed = false)
    (hm : d.canReceive = true → ∀ time, d.clock.now? elapsed = some time → Manages m time d) :
    ∃ fuel next, d.receive m fuel elapsed = some next := by
  cases hr : d.canReceive with
  | false => exact ⟨0, d, receive_of_idle hr⟩
  | true =>
    cases htime : d.clock.now? elapsed with
    | none => exact ⟨0, _, receive_of_overflow (isClosed_eq_false_iff.1 hopen) hr htime⟩
    | some time =>
      obtain ⟨ahead, hends, hsend⟩ := hm hr time htime
      obtain ⟨first, ha⟩ := Machine.ends_advanceTo_iff.1 hends
      cases hq : d.queue with
      | nil =>
        have hh : d.handles = 0 := by simpa [canReceive, hq] using hr
        refine ⟨first, close .ended { d with run := ahead }, ?_⟩
        have hahead : isClosed { d with run := ahead } = false := hopen
        simp only [receive, hopen, Bool.false_eq_true, if_false, hq, if_pos hh,
          catchUp_of_advanceTo htime ha, Option.bind_eq_bind, Option.bind_some]
        rw [← hq, hahead, if_neg Bool.false_ne_true]
      | cons entry queue =>
        obtain ⟨number, command⟩ := entry
        let taken : Dispatcher S K E C W O := { d with queue := queue, run := ahead }
        obtain ⟨more, hmore⟩ : ∃ more, ∀ fuel, more ≤ fuel →
            ∃ next, taken.carryOut m fuel number command = some next :=
          exists_carryOut fun event he => hsend number event queue (by rw [hq, he])
        obtain ⟨next, hnext⟩ := hmore (first + more) (Nat.le_add_left _ _)
        have hadvance := Machine.advanceTo_mono ha (Nat.le_add_right first more)
        have hcatch : catchUp m (first + more) elapsed { d with queue := queue } = some taken :=
          catchUp_of_advanceTo htime hadvance
        have htaken : taken.isClosed = false := hopen
        refine ⟨first + more, next, ?_⟩
        simp only [receive, hopen, Bool.false_eq_true, if_false, hq, hcatch,
          Option.bind_eq_bind, Option.bind_some, htaken, hnext]

/-- Where the machine comes to an end the turn does so too, even if it breaks the dispatcher down. -/
theorem exists_turn (hm : ∀ elapsed time, d.Acts turn elapsed → d.clock.now? elapsed = some time →
    Manages m time d) : ∃ fuel next, d.turn m fuel turn = some next := by
  cases hclosed : d.await.isClosed with
  | true =>
    cases turn with
    | serve | wake => exact ⟨0, _, turn_of_closed hclosed rfl⟩
    | post | addHandle | dropHandle | ready => exact ⟨0, _, rfl⟩
  | false =>
    obtain ⟨hawait, hphase, -⟩ := await_of_open hclosed
    have hopen : d.isClosed = false := isClosed_eq_false_iff.2 hphase
    cases turn with
    | serve elapsed =>
      simp only [Dispatcher.turn, hawait]
      exact exists_receive hopen fun hr time htime => hm elapsed time ⟨rfl, fun _ => hr⟩ htime
    | wake elapsed =>
      simp only [Dispatcher.turn, hawait]
      exact exists_wake hopen fun time htime =>
        hm elapsed time ⟨rfl, fun hs => absurd hs Bool.false_ne_true⟩ htime
    | post | addHandle | dropHandle | ready => exact ⟨0, _, rfl⟩

/-! ## One turn -/

/-- What the clock arithmetic of a dispatcher comes to in a turn, when it took this run over and the
times of its rounds up to then are these. -/
structure Reckons (m : Machine S K E C W) (timeline : Timeline) (run : Run S E C W O)
    (times : List Duration) (turn : Turn K E) (d next : Dispatcher S K E C W O) : Prop where
  /-- It breaks down where a sum is out of range, and nowhere else. -/
  broken_iff : next.phase = .broken ↔ d.phase = .broken ∨ d.phase = .serving ∧
    (turn.readies = true ∧ OutOfReach ⟨timeline, run.now⟩ d.run ∨
      ∃ elapsed, d.Acts turn elapsed ∧ Duration.maxTotal < run.now.total + elapsed.total)
  /-- Otherwise it waits up to the very deadline. -/
  waits : d.phase = .serving → next.phase ≠ .broken → turn.readies = true →
    ∀ due, d.run.nextDeadline? = some due →
      ∃ wait, d.wait? = some wait ∧ run.now.add? wait = some due ∧
        d.clock.moment? due = some (timeline.start + wait.total)
  /-- Its clock reading is that of the machine, whose sums are cut off, and nothing is cut off; its
  order takes effect at that time. -/
  tells : d.phase = .serving → next.phase ≠ .broken → ∀ elapsed, d.Acts turn elapsed →
    d.clock.now? elapsed = some next.run.now ∧ next.run.now = run.now + elapsed ∧
      d.carried? turn = d.order? turn
  /-- When it breaks down nothing takes effect, and whoever waits learns that it is closed. -/
  lost : d.phase = .serving → next.phase = .broken → next.run = d.run ∧
    next.replies = d.replies ∧
      ∀ entry ∈ d.queue, next.response? entry.1 = some (.error closedMessage)
  /-- Within the range it never does. -/
  safe : ∀ latest slowest, Within m timeline run.now latest slowest →
    (∀ elapsed ∈ times, elapsed.total ≤ latest) → next.phase ≠ .broken

/-- Whoever still waits when the dispatcher breaks down learns that it is closed. -/
theorem Plays.lost (hp : Plays m (spawn timeline run) trace d) (hh : Held trace)
    (hsorted : (Turn.times (trace.map (·.2))).Pairwise (· ≤ ·)) (hserving : d.phase = .serving) :
    ∀ entry ∈ d.queue, (d.close .broken).response? entry.1 = some (.error closedMessage) := by
  intro entry hqueue
  obtain ⟨-, more, done, hdone, -⟩ := hp.follows hsorted fun elapsed _ => elapsed.total_le
  have horderly := hp.orderly hh
  obtain ⟨hmem, hn⟩ := horderly.mem_of_queue hserving hqueue
  have hreply : (d.close .broken).reply? entry.1 = none := horderly.unanswered hdone hmem hn
  rw [response?, hreply]
  rfl

theorem OnTime.waits (h : OnTime m timeline run latest d) (hp : d.phase = .serving)
    (hb : ¬ d.Breaks turn) (hr : turn.readies = true) {due : Duration}
    (hd : d.run.nextDeadline? = some due) :
    ∃ wait, d.wait? = some wait ∧ run.now.add? wait = some due ∧
      d.clock.moment? due = some (timeline.start + wait.total) := by
  refine ⟨due - d.clock.base, wait?_eq_some_iff.2 ⟨due, hd, rfl⟩, ?_, ?_⟩
  · have hnow : run.now.total ≤ due.total :=
      le_trans h.le_now (h.reachable.punctual.ahead due hd)
    rw [Duration.add?_eq_some_iff, Duration.total_sub, h.clock_eq]
    exact (Nat.add_sub_of_le hnow).symm
  · have hnear : d.clock.moment? due ≠ none := fun hfar =>
      hb (breaks_iff.2 ⟨hp, .inl ⟨hr, due, hd, moment?_eq_none_iff.1 hfar⟩⟩)
    rw [((moment?_cases d.clock due).resolve_right fun hn => hnear hn.1).1, h.clock_eq]
    rfl

theorem OnTime.tells {elapsed : Duration} (h : OnTime m timeline run elapsed.total d)
    (ht : d.turn m fuel turn = some next) (hp : d.phase = .serving) (hb : ¬ d.Breaks turn)
    (ha : d.Acts turn elapsed) : d.clock.now? elapsed = some next.run.now ∧
      next.run.now = run.now + elapsed ∧ d.carried? turn = d.order? turn := by
  obtain ⟨he, hs⟩ := ha
  obtain ⟨time, htime⟩ : ∃ time, d.clock.now? elapsed = some time := by
    rw [← Option.isSome_iff_exists, Option.isSome_iff_ne_none]
    exact fun hover => hb ⟨hp, .inr ⟨elapsed, he, hover, hs⟩⟩
  have hopen : d.await.isClosed = false := by
    rcases await_cases d with ⟨hawait, -⟩ | ⟨-, hwait, -⟩
    · rw [hawait]
      exact isClosed_eq_false_iff.2 hp
    · exact absurd ⟨hp, .inl ⟨Turn.readies_of_elapsed? he, hwait⟩⟩ hb
  have htotal := Duration.add?_eq_some_iff.1 htime
  have hle : d.run.now ≤ time := by
    rw [Duration.le_def, htotal, h.base_eq]
    exact h.now_le
  have hnow : next.run.now = time := by
    rw [(round_of_turn ht he htime).now_eq hopen hs, max_eq_right hle]
  refine ⟨?_, ?_, ?_⟩
  · rw [hnow]
    exact htime
  · rw [hnow, ← h.base_eq]
    exact Duration.eq_add_of_add? htime
  · refine carried?_eq_order? fun now hn => ?_
    cases hn.symm.trans he
    exact Option.isSome_of_eq_some htime

/-- In every schedule of a dispatcher that took over a reachable run, whatever its clock showed and
whatever the table says: a turn comes to an end where the machine does, and it breaks the dispatcher
down exactly if the moment of the next deadline, or the time when there is something to do, is out of
range. In every other turn both are exact and nothing is cut off. Times and delays within the range
never break it down. -/
theorem clock_in_range (hr : m.Reachable run) (hp : Plays m (spawn timeline run) trace d)
    (hh : Held trace) (hsorted : (Turn.times (trace.map (·.2) ++ [turn])).Pairwise (· ≤ ·)) :
    ((∀ elapsed time, d.Acts turn elapsed → d.clock.now? elapsed = some time → Manages m time d) →
      ∃ fuel next, d.turn m fuel turn = some next) ∧
    ∀ fuel next, d.turn m fuel turn = some next →
      Reckons m timeline run (Turn.times (trace.map (·.2) ++ [turn])) turn d next := by
  refine ⟨exists_turn, fun fuel next ht => ?_⟩
  have hbase : OnTime m timeline run Duration.maxTotal d :=
    hp.onTime hr fun elapsed _ => elapsed.total_le
  have hintact (hne : next.phase ≠ .broken) : ¬ d.Breaks turn := fun hb =>
    hne ((turn_broken_iff ht).2 (.inr hb))
  constructor
  · rw [turn_broken_iff ht, breaks_iff, hbase.clock_eq]
  · intro hserving hne hready due hd
    exact hbase.waits hserving (hintact hne) hready hd
  · intro hserving hne elapsed ha
    rw [Turn.times_snoc, ha.1] at hsorted
    have hearlier : ∀ now ∈ Turn.times (trace.map (·.2)), now.total ≤ elapsed.total :=
      fun now hmem => (List.pairwise_append.1 hsorted).2.2 now hmem elapsed (by simp)
    exact (hp.onTime hr hearlier).tells ht hserving (hintact hne) ha
  · intro hserving hbroken
    rcases effect_of_turn ht with hb | ⟨-, he⟩
    · rw [hb.next]
      rw [Turn.times_snoc] at hsorted
      exact ⟨rfl, rfl, hp.lost hh (List.pairwise_append.1 hsorted).1 hserving⟩
    · cases hserving.symm.trans (he.phase_eq_broken_iff.1 hbroken)
  · intro latest slowest hw hl
    exact (hp.snoc ht).not_broken hr hw (by simpa using hl)

/-! ## At the end of time -/

section

open Script

/-- A run whose deadline is the longest duration itself, fifteen milliseconds before. -/
def eve : Run String Signal Unit Unit Unit :=
  (waitingRun .longest).moveClock (.longest - .ofMillis 15)

theorem reachable_eve : (waiting .longest).Reachable eve := by
  have hcalls : ((waiting .longest).calls 1 [.start, .advanceTo (.longest - .ofMillis 15)]
      ((waiting .longest).newRun () ())) = some (eve, [.done, .done]) := rfl
  exact ⟨(), (), Machine.Reached.first.calls (fun _ _ _ => trivial) hcalls⟩

/-- Somebody asks for a snapshot, and the dispatcher wakes up too early. -/
def earlyTurns : List (Turn String Signal) := [.post .snapshot, .ready, .wake (.ofMillis 10)]

/-- The times are within the range, and so are all deadlines, however long a delay is. -/
theorem within_eve :
    Within (waiting .longest) signedTimeline eve.now
      (Duration.ofMillis 15).total Duration.maxTotal where
  delays _ after _ := after.delay.total_le
  clock := by decide
  deadlines := .inr (by decide)

/-- Up to the longest duration clock and deadline are exact, and the snapshot is taken there. -/
theorem clock_in_range_until_longest : ∃ trace d fuel next,
    eve.nextDeadline? = some .longest ∧
    Plays (waiting .longest) (spawn signedTimeline eve) trace d ∧
    trace.map (·.2) = earlyTurns ∧
    d.turn (waiting .longest) fuel (.serve (.ofMillis 15)) = some next ∧
    next.phase ≠ .broken ∧ next.run.now = .longest ∧
    d.carried? (.serve (.ofMillis 15)) = some ⟨.ofMillis 15, some (0, .snapshot)⟩ := by
  have hresult : ((spawn signedTimeline eve).trail (waiting .longest) 1 earlyTurns).map
      (fun result => (decide (Held result.1), result.2.phase, result.2.queue, result.2.canReceive,
        result.2.clock.now? (.ofMillis 15), result.2.order? (.serve (.ofMillis 15)),
        ((waiting .longest).advanceTo 2 .longest result.2.run).isSome)) =
      some (true, .serving, [(0, .snapshot)], true, some .longest,
        some ⟨.ofMillis 15, some (0, .snapshot)⟩, true) := rfl
  obtain ⟨⟨trace, d⟩, htrail, he⟩ := Option.map_eq_some_iff.1 hresult
  simp only [Prod.mk.injEq] at he
  obtain ⟨hheld, hserving, hqueue, hreceive, hclock, horder, hadvance⟩ := he
  obtain ⟨hplays, hturns⟩ := plays_of_trail htrail
  have hsorted : (Turn.times (trace.map (·.2) ++ [.serve (.ofMillis 15)])).Pairwise (· ≤ ·) := by
    rw [hturns]
    decide
  have hacts : d.Acts (.serve (.ofMillis 15)) (.ofMillis 15) := ⟨rfl, fun _ => hreceive⟩
  have hmanages : Manages (waiting .longest) .longest d := by
    obtain ⟨ahead, ha⟩ := Option.isSome_iff_exists.1 hadvance
    refine ⟨ahead, Machine.ends_advanceTo_iff.2 ⟨2, ha⟩, fun number event queue hq => ?_⟩
    cases hqueue.symm.trans hq
  obtain ⟨hends, hreckons⟩ :=
    clock_in_range reachable_eve hplays (of_decide_eq_true hheld) hsorted
  obtain ⟨fuel, next, ht⟩ := hends fun elapsed time ha htime => by
    cases ha.1
    cases hclock.symm.trans htime
    exact hmanages
  have hturn := hreckons fuel next ht
  have hintact : next.phase ≠ .broken := by
    refine hturn.safe _ _ within_eve ?_
    rw [hturns]
    decide
  obtain ⟨htime, -, hcarried⟩ := hturn.tells hserving hintact _ hacts
  exact ⟨trace, d, fuel, next, rfl, hplays, hturns, ht, hintact,
    Option.some.inj (htime.symm.trans hclock), hcarried.trans horder⟩

/-- At the longest duration one more millisecond breaks a dispatcher down that has a question to
answer, where an advance leaves the run as it is. -/
theorem clock_breaks_at_longest : ∃ run : Run String Signal Unit Unit Unit, ∃ trace d,
    (waiting (.ofMillis 10)).Reachable run ∧ run.now = .longest ∧ run.nextDeadline? = none ∧
    Plays (waiting (.ofMillis 10)) (spawn signedTimeline run) trace d ∧
    trace.map (·.2) = [.post .snapshot, .serve (.ofMillis 1)] ∧ d.phase = .broken ∧
    d.response? 0 = some (.error closedMessage) ∧
    (waiting (.ofMillis 10)).advance 0 (.ofMillis 1) run = some run := by
  have hresult : (((waiting (.ofMillis 10)).calls 2 [.start, .advanceTo .longest]
      ((waiting (.ofMillis 10)).newRun () ())).bind fun result =>
        ((spawn signedTimeline result.1).trail (waiting (.ofMillis 10)) 2
          [.post .snapshot, .serve (.ofMillis 1)]).map fun last =>
            (result.1.now, result.1.nextDeadline?, last.2.phase, last.2.response? 0)) =
      some (.longest, none, .broken, some (.error closedMessage)) := rfl
  obtain ⟨⟨run, answers⟩, hcalls, hlast⟩ := Option.bind_eq_some_iff.1 hresult
  obtain ⟨⟨trace, d⟩, htrail, he⟩ := Option.map_eq_some_iff.1 hlast
  simp only [Prod.mk.injEq] at he
  obtain ⟨hnow, hdue, hphase, hresponse⟩ := he
  obtain ⟨hplays, hturns⟩ := plays_of_trail htrail
  have hreach : (waiting (.ofMillis 10)).Reachable run :=
    ⟨(), (), Machine.Reached.first.calls (fun _ _ _ => trivial) hcalls⟩
  have hstill : (waiting (.ofMillis 10)).advance 0 (.ofMillis 1) run = some run := by
    have hle : run.now + .ofMillis 1 ≤ run.now := by
      rw [hnow]
      decide
    unfold Machine.advance Machine.advanceTo
    simp only [hdue, Option.filter_none, Machine.moveClock_of_le hle]
  exact ⟨run, trace, d, hreach, hnow, hdue, hplays, hturns, hphase, hresponse, hstill⟩

end

end Automat.Dispatcher
