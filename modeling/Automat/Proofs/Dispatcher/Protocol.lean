import Automat.Proofs.Dispatcher.Orderly

/-!
The protocol between a dispatcher and those who hold its handles, in every schedule. Commands take
effect in the order of the queue, up to the first stop. Each request among them gets the one answer
that a call would have given after the commands before it, and every other request learns that the
dispatcher is closed. Main statement: `commands_in_order`.
-/

namespace Automat

/-- The numbers of the requests among the commands that were carried out. -/
def Order.requests {K E : Type} (orders : List (Order K E)) : List Nat :=
  ((orders.filterMap Order.command?).filter (·.2.isRequest)).map (·.1)

theorem Order.requests_cons {K E : Type} (order : Order K E) (orders : List (Order K E)) :
    Order.requests (order :: orders) = Order.requests [order] ++ Order.requests orders := by
  unfold Order.requests
  rw [← List.map_append, ← List.filter_append, ← List.filterMap_append]
  rfl

theorem Order.requests_sublist {K E : Type} (orders : List (Order K E)) :
    (Order.requests orders).Sublist ((orders.filterMap Order.command?).map (·.1)) :=
  List.filter_sublist.map _

theorem lookup_eq_none {S C E : Type} {number : Nat} {replies : List (Nat × Reply S C E)}
    (h : number ∉ replies.map (·.1)) : replies.lookup number = none := by
  rw [List.lookup_eq_none_iff]
  intro entry hmem
  rw [bne_iff_ne]
  rintro rfl
  exact h (List.mem_map_of_mem hmem)

namespace Machine

variable {S K E C W O : Type} [DecidableEq S] [DecidableEq K] [Named S] [Named K] [EventLike E K]

/-- The answer to a command, if somebody waits for one. -/
def answer? (m : Machine S K E C W) (command : Command K E) (run : Run S E C W O) :
    Option (Reply S C E) :=
  match command with
  | .send _ => none
  | .snapshot => some (.snapshot run.snapshot?)
  | .can kind => some (.answer (m.canTransition kind run).2)
  | .stop => some .stopped

variable {m : Machine S K E C W} {run done : Run S E C W O} {fuel number : Nat}
variable {base elapsed : Duration} {command : Command K E}
variable {replies given : List (Nat × Reply S C E)}

/-! ## Answers to orders that are carried out by calls -/

theorem replies_of_obey (h : m.obey fuel number command run replies = some (done, given)) :
    given = ((m.answer? command run).map (number, ·)).toList ++ replies := by
  cases command with
  | send event =>
    obtain ⟨next, -, he⟩ := Option.map_eq_some_iff.1 h
    cases he
    rfl
  | snapshot | can | stop =>
    cases h
    rfl

theorem isSome_answer? : (m.answer? command run).isSome = command.isRequest := by
  cases command <;> rfl

theorem requests_command (m : Machine S K E C W) (run : Run S E C W O) (elapsed : Duration)
    (number : Nat) (command : Command K E) :
    Order.requests [(⟨elapsed, some (number, command)⟩ : Order K E)] =
      ((m.answer? command run).map (number, ·)).toList.map (·.1) := by
  cases command <;> rfl

/-- Every request is answered, and nothing else is. -/
theorem replies_of_direct {orders : List (Order K E)}
    (h : m.direct fuel base orders run replies = some (done, given)) :
    ∃ answers, given = answers ++ replies ∧
      answers.map (·.1) = (Order.requests orders).reverse := by
  induction orders generalizing run replies with
  | nil =>
    cases h
    exact ⟨[], rfl, rfl⟩
  | cons order orders ih =>
    obtain ⟨elapsed, command?⟩ := order
    simp only [direct, Option.bind_eq_bind, Option.bind_eq_some_iff] at h
    obtain ⟨time, -, next, -, h⟩ := h
    rw [Order.requests_cons]
    cases command? with
    | none =>
      obtain ⟨answers, rfl, hnumbers⟩ := ih h
      exact ⟨answers, rfl, hnumbers⟩
    | some entry =>
      obtain ⟨number, command⟩ := entry
      simp only [Option.bind_eq_some_iff] at h
      obtain ⟨⟨after, middle⟩, hobey, h⟩ := h
      obtain ⟨answers, rfl, hnumbers⟩ := ih h
      rw [replies_of_obey hobey, requests_command m next]
      refine ⟨answers ++ ((m.answer? command next).map (number, ·)).toList, ?_, ?_⟩
      · rw [List.append_assoc]
      · rw [List.map_append, hnumbers, List.reverse_append]
        cases m.answer? command next <;> rfl

/-- A command is answered by what can be seen of the run at its time, after the orders before. -/
theorem lookup_of_direct {before after : List (Order K E)}
    (h : m.direct fuel base (before ++ ⟨elapsed, some (number, command)⟩ :: after) run [] =
      some (done, given))
    (hb : number ∉ Order.requests before) (ha : number ∉ Order.requests after) :
    ∃ time there first ahead, base.add? elapsed = some time ∧
      m.direct fuel base before run [] = some (there, first) ∧
      m.advanceTo fuel time there = some ahead ∧
      given.lookup number = m.answer? command ahead := by
  obtain ⟨there, first, hfirst, hrest⟩ := direct_split h
  simp only [direct, Option.bind_eq_bind, Option.bind_eq_some_iff] at hrest
  obtain ⟨time, htime, ahead, hahead, ⟨next, middle⟩, hobey, hrest⟩ := hrest
  refine ⟨time, there, first, ahead, htime, hfirst, hahead, ?_⟩
  obtain ⟨answers, rfl, hanswers⟩ := replies_of_direct hrest
  obtain ⟨early, rfl, hearly⟩ := replies_of_direct hfirst
  rw [replies_of_obey hobey, List.lookup_append, List.lookup_append]
  have hlate : answers.lookup number = none := lookup_eq_none (by simpa [hanswers] using ha)
  have hsoon : (early ++ []).lookup number = none :=
    lookup_eq_none (by simpa [hearly] using hb)
  rw [hlate, hsoon]
  cases m.answer? command ahead <;> simp

end Machine

namespace Dispatcher

variable {S K E C W O : Type}

/-- What somebody who waits for the answer to a command learns: the answer, or that there will be
none, once it is known. -/
def response? (number : Nat) (d : Dispatcher S K E C W O) :
    Option (Except String (Reply S C E)) :=
  match d.reply? number with
  | some reply => some (.ok reply)
  | none => if d.isClosed then some (.error closedMessage) else none

variable [DecidableEq S] [DecidableEq K] [Named S] [Named K] [EventLike E K]
variable {m : Machine S K E C W} {d next : Dispatcher S K E C W O} {run : Run S E C W O}
variable {timeline : Timeline} {turn : Turn K E} {fuel : Nat}
variable {trace : List (Dispatcher S K E C W O × Turn K E)}

/-! ## The schedule by calls -/

/-- Also beyond the range of the clock a turn does to run and replies what its order comes to. -/
theorem follows_carried {latest : Nat} (ht : d.turn m fuel turn = some next)
    (hs : d.Synced m latest run)
    (hlate : ∀ elapsed, turn.elapsed? = some elapsed → latest = elapsed.total) :
    next.clock = d.clock ∧ ∃ more done,
      m.direct more d.clock.base (d.carried? turn).toList run d.replies =
        some (done, next.replies) ∧
      next.Synced m latest done := by
  by_cases hr : ∀ elapsed, turn.elapsed? = some elapsed → (d.clock.now? elapsed).isSome
  · rw [carried?_eq_order? hr]
    obtain ⟨hbase, more, done, hdone, hsynced⟩ := follows_turn ht hs fun elapsed he =>
      ⟨Nat.le_of_eq (hlate elapsed he), hr elapsed he⟩
    have hlatest : turn.elapsed?.elim latest Duration.total = latest := by
      cases he : turn.elapsed? with
      | none => rfl
      | some elapsed => exact (hlate elapsed he).symm
    rw [hlatest] at hsynced
    exact ⟨hbase, more, done, hdone, hsynced⟩
  · obtain ⟨elapsed, he, hover⟩ : ∃ elapsed, turn.elapsed? = some elapsed ∧
        d.clock.now? elapsed = none := by
      simpa using hr
    rw [carried?_of_overflow he hover]
    have hstill : next.clock = d.clock ∧ next.replies = d.replies ∧ next.Synced m latest run := by
      rcases effect_of_turn ht with hb | ⟨-, heffect⟩
      · rw [hb.next]
        exact ⟨rfl, rfl, hs.close_broken⟩
      · rw [carried?_of_overflow he hover, accepted?_of_elapsed? he] at heffect
        cases heffect with
        | joined hturn | left hturn =>
          subst hturn
          cases he
        | unmoved => exact ⟨rfl, rfl, hs⟩
        | woken hturn _ htime =>
          subst hturn
          cases he
          cases hover.symm.trans htime
    exact ⟨hstill.1, 0, run, by rw [hstill.2.1]; rfl, hstill.2.2⟩

theorem Plays.follows {bound : Nat} (hp : Plays m (spawn timeline run) trace d)
    (hsorted : (Turn.times (trace.map (·.2))).Pairwise (· ≤ ·))
    (hb : ∀ elapsed ∈ Turn.times (trace.map (·.2)), elapsed.total ≤ bound) :
    d.clock = ⟨timeline, run.now⟩ ∧ ∃ more done,
      m.direct more run.now (carried trace) run [] = some (done, d.replies) ∧
      d.Synced m bound done := by
  induction hp generalizing bound with
  | nil => exact ⟨rfl, 0, run, rfl, .inl rfl⟩
  | @snoc trace d next turn fuel hp ht ih =>
    rw [List.map_append, List.map_singleton, Turn.times_snoc] at hsorted hb
    obtain ⟨hpart, -, hlast⟩ := List.pairwise_append.1 hsorted
    have hearlier : ∀ elapsed ∈ Turn.times (trace.map (·.2)),
        elapsed.total ≤ turn.elapsed?.elim bound Duration.total := by
      intro elapsed hmem
      cases he : turn.elapsed? with
      | none => exact hb elapsed (List.mem_append_left _ hmem)
      | some now => exact hlast elapsed hmem now (by simp [he])
    obtain ⟨hclock, first, middle, hfirst, hsynced⟩ := ih hpart hearlier
    obtain ⟨hsame, more, done, hdone, hnext⟩ := follows_carried ht hsynced fun now hnow => by
      rw [hnow]
      rfl
    rw [hclock] at hdone hsame
    refine ⟨hsame, first + more, done, ?_, hnext.mono ?_⟩
    · rw [carried_snoc]
      exact Machine.direct_append (Machine.direct_mono hfirst (Nat.le_add_right _ _))
        (Machine.direct_mono hdone (Nat.le_add_left _ _))
    · cases he : turn.elapsed? with
      | none => exact Nat.le_refl _
      | some now => exact hb now (List.mem_append_right _ (by simp [he]))

/-! ## The protocol -/

/-- What becomes of the commands in a schedule that leads from a run to a dispatcher. -/
structure Protocol (m : Machine S K E C W) (run : Run S E C W O)
    (trace : List (Dispatcher S K E C W O × Turn K E)) (d : Dispatcher S K E C W O) : Prop
    extends Orderly run.status (accepted trace) (served trace) d where
  /-- Run and replies are what the commands that took effect come to by calls, each at its time. -/
  by_calls : ∃ fuel done,
    m.direct fuel run.now (carried trace) run [] = some (done, d.replies) ∧
    (d.run = done ∨ d.phase ≠ .ended ∧ ∃ time, m.advanceTo fuel time done = some d.run)
  /-- Nothing is answered twice. -/
  once : (d.replies.map (·.1)).Nodup
  /-- A command that takes effect is answered by what a call shows at its time, after all commands
  with smaller numbers and no other. -/
  answered : ∀ before elapsed number command after,
    carried trace = before ++ ⟨elapsed, some (number, command)⟩ :: after →
    before.filterMap Order.command? = (accepted trace).take number ∧
    ∃ fuel time there first ahead, run.now.add? elapsed = some time ∧
      m.direct fuel run.now before run [] = some (there, first) ∧
      m.advanceTo fuel time there = some ahead ∧ d.reply? number = m.answer? command ahead ∧
      (d.reply? number).isSome = command.isRequest
  /-- Whoever waits for the answer to another command learns, when the dispatcher is closed, that
  it is. -/
  unanswered : ∀ entry ∈ accepted trace, entry ∉ served trace →
    d.response? entry.1 = if d.isClosed then some (.error closedMessage) else none
  /-- A closed dispatcher remains closed, takes no command and does nothing. -/
  closed : d.isClosed = true → ∀ later last, Plays m d later last →
    last.isClosed = true ∧ last.run = d.run ∧ last.replies = d.replies ∧
      accepted later = [] ∧ carried later = []
  /-- With a stop in the queue, or no handle left, so many looks into the queue bring the end. -/
  closes : (∃ entry ∈ d.queue, entry.2.isStop = true) ∨ d.handles = 0 →
    ∀ later last, Plays m d later last → Held later → d.queue.length < looks later →
      last.isClosed = true
  /-- The dispatcher breaks down only where it cannot tell the time or wait for a deadline. -/
  breaks : d.phase = .broken ↔ ∃ entry ∈ trace, entry.1.Breaks entry.2

/-! ## Each promise -/

theorem numbers_of_direct {more : Nat} {done : Run S E C W O}
    (h : m.direct more run.now (carried trace) run [] = some (done, d.replies)) :
    d.replies.map (·.1) = (Order.requests (carried trace)).reverse := by
  obtain ⟨answers, hanswers, hnumbers⟩ := Machine.replies_of_direct h
  rw [hanswers, List.append_nil, hnumbers]

theorem Orderly.once {status : Status} {more : Nat} {done : Run S E C W O}
    (h : Orderly status (accepted trace) (served trace) d)
    (hd : m.direct more run.now (carried trace) run [] = some (done, d.replies)) :
    (d.replies.map (·.1)).Nodup := by
  rw [numbers_of_direct hd, (List.reverse_perm _).nodup_iff]
  exact h.nodup.sublist (Order.requests_sublist _)

theorem Orderly.answered {status : Status} {more number : Nat} {done : Run S E C W O}
    {before after : List (Order K E)} {elapsed : Duration} {command : Command K E}
    (h : Orderly status (accepted trace) (served trace) d)
    (hd : m.direct more run.now (carried trace) run [] = some (done, d.replies))
    (hc : carried trace = before ++ ⟨elapsed, some (number, command)⟩ :: after) :
    before.filterMap Order.command? = (accepted trace).take number ∧
    ∃ time there first ahead, run.now.add? elapsed = some time ∧
      m.direct more run.now before run [] = some (there, first) ∧
      m.advanceTo more time there = some ahead ∧ d.reply? number = m.answer? command ahead := by
  have hserved : served trace = before.filterMap Order.command? ++
      (number, command) :: after.filterMap Order.command? := by
    rw [served, hc, List.filterMap_append]
    rfl
  have hnodup := h.nodup
  rw [hserved, List.map_append, List.map_cons, List.nodup_append, List.nodup_cons] at hnodup
  obtain ⟨-, ⟨hafter, -⟩, hbefore⟩ := hnodup
  rw [hc] at hd
  refine ⟨h.eq_take hserved, Machine.lookup_of_direct hd ?_ ?_⟩
  · intro hmem
    exact hbefore _ ((Order.requests_sublist _).subset hmem) _ List.mem_cons_self rfl
  · intro hmem
    exact hafter ((Order.requests_sublist _).subset hmem)

theorem Orderly.unanswered {status : Status} {more : Nat} {done : Run S E C W O}
    {entry : Nat × Command K E} (h : Orderly status (accepted trace) (served trace) d)
    (hd : m.direct more run.now (carried trace) run [] = some (done, d.replies))
    (hmem : entry ∈ accepted trace) (hn : entry ∉ served trace) : d.reply? entry.1 = none := by
  refine lookup_eq_none fun hreply => h.not_mem hmem hn ?_
  rw [numbers_of_direct hd, List.mem_reverse] at hreply
  exact (Order.requests_sublist _).subset hreply

/-- Enough looks into the queue, from where the end is in sight, bring it. -/
theorem Plays.closes {last : Dispatcher S K E C W O}
    {later : List (Dispatcher S K E C W O × Turn K E)} (hp : Plays m d later last)
    (hh : Held later) (hs : (∃ entry ∈ d.queue, entry.2.isStop = true) ∨ d.handles = 0)
    (hl : d.queue.length < looks later) : last.isClosed = true := by
  have hwithin : d.ClosesWithin (looks later) := by
    intro _
    rcases hs with ⟨entry, hmem, hstop⟩ | hz
    · rw [List.take_of_length_le (Nat.le_of_lt hl)]
      exact .inl ⟨entry, hmem, hstop⟩
    · exact .inr ⟨hz, hl⟩
  have hlast := hp.closesWithin hwithin hh
  rw [Nat.sub_self] at hlast
  exact hlast.isClosed

/-- Whatever the schedule of a dispatcher and those who hold its handles: the commands take effect in
the order of the queue, each at most once, and in the end exactly those up to the first stop have, or
all of them if there is none and nobody is left to post more. Each of them that somebody waits for is
answered once, after all the commands before it and none behind it; whoever waits for another learns
that the dispatcher is closed. -/
theorem commands_in_order (hp : Plays m (spawn timeline run) trace d) (hh : Held trace)
    (hsorted : (Turn.times (trace.map (·.2))).Pairwise (· ≤ ·)) : Protocol m run trace d := by
  have horderly := hp.orderly hh
  obtain ⟨-, more, done, hdone, hsynced⟩ :=
    hp.follows hsorted fun elapsed _ => elapsed.total_le
  exact
    { horderly with
      by_calls := hsynced.by_calls hdone
      once := horderly.once hdone
      answered := by
        intro before elapsed number command after hc
        obtain ⟨htake, time, there, first, ahead, htime, hthere, hahead, hreply⟩ :=
          horderly.answered hdone hc
        refine ⟨htake, more, time, there, first, ahead, htime, hthere, hahead, hreply, ?_⟩
        rw [hreply, Machine.isSome_answer?]
      unanswered := by
        intro entry hmem hn
        rw [response?, horderly.unanswered hdone hmem hn]
      closed := by
        intro hclosed later last hl
        obtain ⟨hphase, hquiet⟩ := hl.of_closed (of_decide_eq_true hclosed)
        refine ⟨?_, hquiet⟩
        rwa [isClosed, hphase]
      closes := fun hs later last hl hheld hlooks => hl.closes hheld hs hlooks
      breaks := by
        refine hp.broken_iff ?_
        show Phase.serving ≠ .broken
        decide }

/-! ## Two schedules -/

section

open Script

/-- Of two who hold a handle one stops the dispatcher while the other one still has questions. -/
def lastTurns : List (Turn String Signal) :=
  [.addHandle, .post .snapshot, .post .stop, .serve (.ofMillis 5), .post .snapshot, .dropHandle,
    .wake (.ofMillis 12), .serve (.ofMillis 15), .post (.can "event")]

/-- The question behind the stop is not answered, and the last one is not even taken. -/
theorem commands_in_order_stopped : ∃ trace d,
    Plays (waiting (.ofMillis 10)) (spawn signedTimeline (waitingRun (.ofMillis 10))) trace d ∧
    trace.map (·.2) = lastTurns ∧
    Protocol (waiting (.ofMillis 10)) (waitingRun (.ofMillis 10)) trace d ∧
    d.phase = .ended ∧ accepted trace = [(0, .snapshot), (1, .stop), (2, .snapshot)] ∧
    served trace = [(0, .snapshot), (1, .stop)] ∧
    d.response? 2 = some (.error closedMessage) := by
  have hresult : ((spawn signedTimeline (waitingRun (.ofMillis 10))).trail
      (waiting (.ofMillis 10)) 2 lastTurns).map (fun result => (decide (Held result.1),
        result.2.phase, accepted result.1, served result.1, result.2.response? 2)) =
      some (true, .ended, [(0, .snapshot), (1, .stop), (2, .snapshot)],
        [(0, .snapshot), (1, .stop)], some (.error closedMessage)) := rfl
  obtain ⟨⟨trace, d⟩, htrail, he⟩ := Option.map_eq_some_iff.1 hresult
  simp only [Prod.mk.injEq] at he
  obtain ⟨hheld, hrest⟩ := he
  obtain ⟨hplays, hturns⟩ := plays_of_trail htrail
  have hsorted : (Turn.times (trace.map (·.2))).Pairwise (· ≤ ·) := by
    rw [hturns]
    decide
  exact ⟨trace, d, hplays, hturns,
    commands_in_order hplays (of_decide_eq_true hheld) hsorted, hrest⟩

/-- With a deadline at the end of time the dispatcher breaks down on its way to the stop. -/
theorem stop_lost_before_longest : ∃ trace d,
    Plays (waiting .longest) (spawn signedTimeline (waitingRun .longest)) trace d ∧
    trace.map (·.2) = [.post .stop, .serve .zero] ∧ accepted trace = [(0, .stop)] ∧
    served trace = [] ∧ d.phase = .broken ∧ d.response? 0 = some (.error closedMessage) ∧
    d.run.status = .running := by
  have hresult : ((spawn signedTimeline (waitingRun .longest)).trail (waiting .longest) 0
      [.post .stop, .serve .zero]).map (fun result => (accepted result.1, served result.1,
        result.2.phase, result.2.response? 0, result.2.run.status)) =
      some ([(0, .stop)], [], .broken, some (.error closedMessage), .running) := rfl
  obtain ⟨⟨trace, d⟩, htrail, he⟩ := Option.map_eq_some_iff.1 hresult
  simp only [Prod.mk.injEq] at he
  obtain ⟨hplays, hturns⟩ := plays_of_trail htrail
  exact ⟨trace, d, hplays, hturns, he⟩

end

end Dispatcher

end Automat
