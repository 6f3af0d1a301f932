import Automat.Proofs.History
import Automat.Proofs.Machine.Journal

/-!
The history of a run beside its journal. The records are the last of all changes of state that were
published, as many as the limit allows (`history_is_tail`).
-/

namespace Automat

/-! ## Tails -/

/-- A list that holds the last so many elements of another one still does so after a record. -/
theorem History.map_record {S A : Type} (f : Transition S → A) {all : List A}
    {history : History S} (transition : Transition S)
    (h : history.transitions.map f = all.rtake history.limit.toNat) :
    (history.record transition).transitions.map f =
      (all ++ [f transition]).rtake history.limit.toNat := by
  by_cases hzero : history.limit.toNat = 0
  · rw [record_of_zero hzero, h, hzero, List.rtake_zero, List.rtake_zero]
  · rw [transitions_record_eq_rtake (Nat.pos_of_ne_zero hzero), map_rtake, List.map_append, h,
      rtake_rtake_append]
    rfl

/-- Each record goes on where the one before has led, at no earlier time. -/
def Transition.Continues {S : Type} (earlier later : Transition S) : Prop :=
  earlier.target = later.source ∧ earlier.time ≤ later.time

section

variable {S : Type} {first last : Transition S} {rest : List (Transition S)}

theorem dropLast_sources (h : (first :: rest).IsChain Transition.Continues) :
    (first.source :: (first :: rest).map (·.target)).dropLast = (first :: rest).map (·.source) := by
  induction rest generalizing first with
  | nil => rfl
  | cons second rest ih =>
    obtain ⟨⟨hjoin, -⟩, hrest⟩ := List.isChain_cons_cons.1 h
    change first.source :: (first.target :: (second :: rest).map (·.target)).dropLast = _
    rw [hjoin, ih hrest]
    rfl

theorem time_le_of_chain (h : (first :: rest).IsChain Transition.Continues)
    (hl : (first :: rest).getLast? = some last) : first.time ≤ last.time := by
  induction rest generalizing first with
  | nil =>
    cases hl
    exact Nat.le_refl _
  | cons second rest ih =>
    obtain ⟨⟨-, hle⟩, hrest⟩ := List.isChain_cons_cons.1 h
    rw [List.getLast?_cons_cons] at hl
    exact le_trans hle (ih hrest hl)

variable {history : History S}

/-- The path leads through the sources and targets of all records to the target of the last one. -/
theorem History.path_of_chain (h : history.transitions.IsChain Transition.Continues)
    (hne : history.transitions ≠ []) :
    history.path.dropLast = history.transitions.map (·.source) ∧
    history.path.tail = history.transitions.map (·.target) ∧
    history.path.getLast? = history.last?.map (·.target) := by
  obtain ⟨first, rest, hcons⟩ := List.exists_cons_of_ne_nil hne
  have hpath : history.path = first.source :: (first :: rest).map (·.target) := by
    rw [path, hcons]
    rfl
  rw [hcons] at h
  rw [last?, hpath, hcons]
  refine ⟨dropLast_sources h, rfl, ?_⟩
  rw [List.map_cons, List.getLast?_cons_cons, ← List.map_cons, List.getLast?_map]

/-- The time from the first record to the last is not cut off. -/
theorem History.duration?_of_chain (h : history.transitions.IsChain Transition.Continues)
    (hf : history.transitions.head? = some first) (hl : history.last? = some last) :
    ∃ elapsed, history.duration? = some elapsed ∧
      first.time.total + elapsed.total = last.time.total := by
  refine ⟨last.time - first.time, ?_, ?_⟩
  · rw [duration?, hl, hf]
    rfl
  · obtain ⟨rest, hcons⟩ := List.head?_eq_some_iff.1 hf
    rw [last?, hcons] at hl
    rw [hcons] at h
    have hle := time_le_of_chain h hl
    rw [Duration.le_def] at hle
    rw [Duration.total_sub]
    omega

end

/-! ## Changes of state -/

/-- A change of state as it is published: the kind of event by name, and the machine clock. -/
structure Move (S : Type) where
  source : S
  target : S
  event : Option String
  time : Duration
deriving DecidableEq

/-- What a record tells of a change of state, but for the wall clock. -/
def Transition.move {S : Type} (transition : Transition S) : Move S :=
  ⟨transition.source, transition.target, some transition.event, transition.time⟩

section

variable {S K E C W O : Type} [Named K] [EventLike E K]

/-- The change of state that a snapshot tells of. -/
def Snapshot.move? (snapshot : Snapshot S C E) : Option (Move S) :=
  match snapshot.outcome with
  | .transitioned source target =>
    some ⟨source, target, snapshot.event.map fun event => name (EventLike.kind event), snapshot.time⟩
  | _ => none

/-- All changes of state published so far, in order. -/
def Run.moves (run : Run S E C W O) : List (Move S) := run.published.filterMap Snapshot.move?

variable {run next : Run S E C W O} {snapshot : Snapshot S C E}

theorem Run.moves_of_eq (hj : next.journal = run.journal) : next.moves = run.moves := by
  rw [moves, published, hj]
  rfl

theorem Run.moves_of_cons (hj : next.journal = snapshot :: run.journal) :
    next.moves = run.moves ++ snapshot.move?.toList := by
  rw [moves, published, hj, List.reverse_cons, List.filterMap_append]
  cases hm : snapshot.move? with
  | none => simp [hm, moves, published]
  | some move => simp [hm, moves, published]

end

/-! ## What is kept -/

namespace Machine

/-- The records are the last changes of state, each change goes on from the one before, and the last
one led to where the run is. The visits are counted from that of the initial state. -/
structure Recorded {S K E C W O : Type} [Named K] [EventLike E K] (m : Machine S K E C W)
    (run : Run S E C W O) : Prop where
  limit : run.history.limit = m.historyLimit
  tail : run.history.transitions.map Transition.move = run.moves.rtake run.history.limit.toNat
  linked : run.moves.IsChain fun earlier later =>
    earlier.target = later.source ∧ earlier.time ≤ later.time
  counted : run.journal ≠ [] → run.visit = 1 + run.moves.length
  latest : ∀ last, run.moves.getLast? = some last →
    last.target = run.state ∧ run.previous = some last.source ∧ last.time ≤ run.now

section

variable {S K E C W O : Type} [Named K] [EventLike E K]
variable {m : Machine S K E C W} {run next : Run S E C W O}

theorem recorded_newRun (m : Machine S K E C W) (world : W) (observers : O) :
    m.Recorded (m.newRun world observers) where
  limit := rfl
  tail := (List.rtake_nil _).symm
  linked := .nil
  counted h := absurd rfl h
  latest last h := by cases h

theorem Recorded.of_stays (h : m.Recorded run) (hs : Stays run next) (hm : next.moves = run.moves)
    (hj : next.journal ≠ [] → run.journal ≠ []) (hn : run.now ≤ next.now) : m.Recorded next where
  limit := by rw [hs.history, h.limit]
  tail := by rw [hs.history, hm, h.tail]
  linked := by rw [hm]; exact h.linked
  counted hne := by rw [hs.visit, hm]; exact h.counted (hj hne)
  latest last hl := by
    rw [hm] at hl
    obtain ⟨ht, hp, hle⟩ := h.latest last hl
    exact ⟨ht.trans hs.state.symm, hs.previous.trans hp, le_trans hle hn⟩

theorem Published.recorded (hp : Published m run next) (hc : m.Consistent run)
    (h : m.Recorded run) : m.Recorded next := by
  cases hp with
  | silent hj hs _ hn => exact h.of_stays hs (Run.moves_of_eq hj) (by rw [hj]; exact id) hn
  | begun hr hn hj hs hprev hv hh =>
    have hempty : next.moves = [] := by
      rw [Run.moves, Run.published, hj, hc.unstarted hr]
      rfl
    have hbefore : run.moves = [] := by
      rw [Run.moves, Run.published, hc.unstarted hr]
      rfl
    constructor
    · rw [hh, h.limit]
    · rw [hh, hempty, ← hbefore, h.tail]
    · rw [hempty]
      exact .nil
    · intro _
      rw [hempty, hv]
      rfl
    · intro last hl
      rw [hempty] at hl
      cases hl
  | @reported event outcome hr hn hj ho hs hnow =>
    have hnone : (next.shown (some event) outcome).move? = none := by
      rcases ho with rfl | ⟨hk, -⟩
      · rfl
      · cases outcome with
        | ignored | guardRejected | failed => rfl
        | started | transitioned | handled => cases hk
    refine h.of_stays hs ?_ (fun _ => hc.running hr) (le_of_eq hnow.symm)
    rw [Run.moves_of_cons hj, hnone]
    exact List.append_nil _
  | @moved event target timestamp hr hn ht hj hs hprev hv hnow hh =>
    have hmoves : next.moves = run.moves ++
        [⟨run.state, target, some (name (EventLike.kind event)), run.now⟩] := by
      rw [Run.moves_of_cons hj, ← hnow]
      rfl
    constructor
    · rw [hh, History.limit_record, h.limit]
    · rw [hh, hmoves, History.limit_record, History.map_record Transition.move _ h.tail]
      rfl
    · rw [hmoves]
      refine List.isChain_append.2 ⟨h.linked, .singleton _, ?_⟩
      intro last hl first hf
      cases hf
      obtain ⟨htarget, -, hle⟩ := h.latest last hl
      exact ⟨htarget, hle⟩
    · intro _
      rw [hv, h.counted (hc.running hr), hmoves, List.length_append, List.length_singleton,
        Nat.add_assoc]
    · intro last hl
      rw [hmoves, List.getLast?_concat] at hl
      cases hl
      exact ⟨hs.symm, hprev, le_of_eq hnow.symm⟩

/-! ## What is remembered -/

/-- The history holds the last of the changes of state, at most as many as its limit says, and each
record goes on from the one before. If there is a record, the last one led from the previous state to
the current one, the path leads through all their states to the current one, and the time from the
first to the last is exact. -/
structure Remembers (m : Machine S K E C W) (run : Run S E C W O) : Prop where
  tail : run.history.transitions.map Transition.move = run.moves.rtake m.historyLimit.toNat
  length : run.history.transitions.length = min m.historyLimit.toNat run.moves.length
  linked : run.history.transitions.IsChain Transition.Continues
  last : ∀ last, run.history.last? = some last →
    last.target = run.state ∧ run.previous = some last.source
  path : run.history.transitions ≠ [] →
    run.history.path.dropLast = run.history.transitions.map (·.source) ∧
    run.history.path.tail = run.history.transitions.map (·.target) ∧
    run.history.path.getLast? = some run.state
  duration : ∀ first last, run.history.transitions.head? = some first →
    run.history.last? = some last →
    ∃ elapsed, run.history.duration? = some elapsed ∧
      first.time.total + elapsed.total = last.time.total

theorem Recorded.isChain (h : m.Recorded run) :
    run.history.transitions.IsChain Transition.Continues := by
  have hchain := h.linked.suffix (List.drop_suffix (run.moves.length - run.history.limit.toNat) _)
  rw [← List.rtake, ← h.tail, List.isChain_map] at hchain
  exact hchain

theorem Recorded.getLast?_moves (h : m.Recorded run) {last : Transition S}
    (hl : run.history.last? = some last) : run.moves.getLast? = some last.move := by
  have hmoves := congrArg List.getLast? h.tail
  rw [List.getLast?_map, ← History.last?, hl, Option.map_some, List.rtake,
    List.getLast?_drop] at hmoves
  split at hmoves
  · cases hmoves
  · exact hmoves.symm

/-- No record is later than the clock: it has the time of a snapshot. -/
theorem Recorded.time_le (h : m.Recorded run) (hc : m.Consistent run) :
    ∀ record ∈ run.history.transitions, record.time ≤ run.now := by
  intro record hmem
  have hmove : record.move ∈ run.moves := by
    have htail : record.move ∈ run.history.transitions.map Transition.move :=
      List.mem_map_of_mem hmem
    rw [h.tail, List.rtake] at htail
    exact List.mem_of_mem_drop htail
  obtain ⟨snapshot, hsnapshot, hm⟩ := List.mem_filterMap.1 hmove
  have htime : snapshot.time = record.time := by
    unfold Snapshot.move? at hm
    split at hm
    · exact congrArg Move.time (Option.some.inj hm)
    · cases hm
  rw [← htime]
  exact hc.time_le snapshot (List.mem_reverse.1 hsnapshot)

theorem Recorded.remembers (h : m.Recorded run) : m.Remembers run := by
  have hlast : ∀ last, run.history.last? = some last →
      last.target = run.state ∧ run.previous = some last.source := by
    intro last hl
    obtain ⟨htarget, hsource, -⟩ := h.latest last.move (h.getLast?_moves hl)
    exact ⟨htarget, hsource⟩
  refine ⟨?_, ?_, h.isChain, hlast, ?_, fun first last => History.duration?_of_chain h.isChain⟩
  · rw [h.tail, h.limit]
  · have hlength := congrArg List.length h.tail
    rw [List.length_map, List.rtake, List.length_drop, h.limit] at hlength
    omega
  · intro hne
    obtain ⟨hsources, htargets, hends⟩ := History.path_of_chain h.isChain hne
    have hl : run.history.last? = some (run.history.transitions.getLast hne) :=
      List.getLast?_eq_some_getLast hne
    refine ⟨hsources, htargets, ?_⟩
    rw [hends, hl, Option.map_some, (hlast _ hl).1]

end

variable {S K E C W O : Type} [DecidableEq S] [DecidableEq K] [Named S] [Named K] [EventLike E K]
variable {m : Machine S K E C W} {run : Run S E C W O} {world : W} {observers : O}
variable {calls : List (Made S K E C W O)} {trace : List (Run S E C W O × Happening K E)}

theorem Steps.recorded (hs : Steps m (m.newRun world observers) trace run) : m.Recorded run := by
  induction hs with
  | refl => exact recorded_newRun m world observers
  | snoc hs hstep ih => exact hstep.published.recorded hs.consistent ih

/-- After any calls the records are the last of all changes of state that were published, as many as
the limit allows, with all that follows from it, and once the machine has started its visits are one
more than the changes of state. -/
theorem history_is_tail (h : m.Chronicle (m.newRun world observers) calls trace run) :
    m.Remembers run ∧
    ((Call.start, Answer.done) ∈ calls.map Made.exchange → run.visit = 1 + run.moves.length) := by
  have hr : m.Recorded run := (h.leads rfl).steps.recorded
  refine ⟨hr.remembers, ?_⟩
  intro hstarted
  refine hr.counted ?_
  intro hj
  exact h.journal_eq_nil_iff.1 hj hstarted

section

open Script

def forgetfulBlinker : Machine String String Signal Nat Unit := { blinker with historyLimit := 2 }

/-- Of three switches it remembers the last two. -/
theorem history_is_tail_blinker :
    ∃ (calls : List (Made String String Signal Nat Unit Unit))
      (trace : List (Run String Signal Nat Unit Unit × Happening String Signal))
      (run : Run String Signal Nat Unit Unit),
      forgetfulBlinker.Chronicle (forgetfulBlinker.newRun () ()) calls trace run ∧
      calls.map Made.exchange = [(.start, .done), (.advance (.ofMillis 35), .done)] ∧
      run.moves.map (·.time) = [.ofMillis 10, .ofMillis 20, .ofMillis 30] ∧
      run.history.transitions.map (·.time) = [.ofMillis 20, .ofMillis 30] ∧
      run.history.transitions.map Transition.move = run.moves.rtake 2 ∧ run.visit = 4 := by
  have hsome : (forgetfulBlinker.calls 4 [.start, .advance (.ofMillis 35)]
      (forgetfulBlinker.newRun () ())).map (fun result => (result.2,
        result.1.moves.map (·.time), result.1.history.transitions.map (·.time))) =
      some ([.done, .done], [.ofMillis 10, .ofMillis 20, .ofMillis 30],
        [.ofMillis 20, .ofMillis 30]) := rfl
  obtain ⟨⟨run, answers⟩, hcalls, hrun⟩ := Option.map_eq_some_iff.1 hsome
  rw [Prod.mk.injEq, Prod.mk.injEq] at hrun
  obtain ⟨rfl, hmoves, hrecords⟩ := hrun
  obtain ⟨calls, trace, hmade, h⟩ := exists_chronicle_of_calls rfl hcalls
  obtain ⟨hremembers, hvisit⟩ := history_is_tail h
  refine ⟨calls, trace, run, h, hmade, hmoves, hrecords, hremembers.tail, ?_⟩
  have hlength := congrArg List.length hmoves
  rw [List.length_map] at hlength
  have hstarted : (Call.start, Answer.done) ∈ calls.map Made.exchange := by
    rw [hmade]
    exact List.mem_cons_self
  rw [hvisit hstarted, hlength]
  rfl

end

end Machine

end Automat
