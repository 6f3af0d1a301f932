import Automat.Dispatcher
import Automat.Machine.Call

/-!
Schedules of a dispatcher and its handles. Handles post commands and come and go; the dispatcher, in
every round of its loop, gets ready to wait and then either looks into its queue or wakes up, and it
is left open which of them and when. Carrying out the same orders without a dispatcher is a matter
of calls alone (`direct`).
-/

namespace Automat

/-- What may happen next around a dispatcher. A round of its loop has the time elapsed by then. -/
inductive Turn (K E : Type) where
  | post (command : Command K E)
  | addHandle
  | dropHandle
  /-- The dispatcher gets ready to wait, ahead of its next round. -/
  | ready
  /-- The dispatcher looks into its queue. -/
  | serve (elapsed : Duration)
  /-- The dispatcher wakes up. -/
  | wake (elapsed : Duration)

def Turn.elapsed? {K E : Type} : Turn K E → Option Duration
  | .serve elapsed | .wake elapsed => some elapsed
  | _ => none

def Turn.readies {K E : Type} : Turn K E → Bool
  | .ready | .serve _ | .wake _ => true
  | _ => false

/-- The times at which the dispatcher goes round its loop. -/
def Turn.times {K E : Type} (turns : List (Turn K E)) : List Duration :=
  turns.filterMap Turn.elapsed?

theorem Turn.times_cons {K E : Type} (turn : Turn K E) (turns : List (Turn K E)) :
    Turn.times (turn :: turns) = turn.elapsed?.toList ++ Turn.times turns := by
  unfold Turn.times
  cases h : turn.elapsed? <;> simp [h]

theorem Turn.times_snoc {K E : Type} (turns : List (Turn K E)) (turn : Turn K E) :
    Turn.times (turns ++ [turn]) = Turn.times turns ++ turn.elapsed?.toList := by
  unfold Turn.times
  rw [List.filterMap_append]
  cases h : turn.elapsed? <;> simp [h]

theorem Turn.forall_mem_times_snoc {K E : Type} {turns : List (Turn K E)} {turn : Turn K E}
    {p : Duration → Prop} :
    (∀ elapsed ∈ Turn.times (turns ++ [turn]), p elapsed) ↔
      (∀ elapsed ∈ Turn.times turns, p elapsed) ∧
        ∀ elapsed, turn.elapsed? = some elapsed → p elapsed := by
  simp only [times_snoc, List.forall_mem_append, Option.mem_toList]

/-- An order that a dispatcher carries out at some time: a command and its number, or to end when
there will be no more commands. -/
structure Order (K E : Type) where
  elapsed : Duration
  command? : Option (Nat × Command K E)

namespace Dispatcher

variable {S K E C W O : Type}

/-- The order that the dispatcher carries out in a turn, if any. -/
def order? (turn : Turn K E) (d : Dispatcher S K E C W O) : Option (Order K E) :=
  match turn with
  | .serve elapsed =>
    if d.await.isClosed then none
    else
      match d.queue with
      | next :: _ => some ⟨elapsed, some next⟩
      | [] => if d.handles = 0 then some ⟨elapsed, none⟩ else none
  | _ => none

variable [DecidableEq S] [DecidableEq K] [Named S] [Named K] [EventLike E K]

def turn (m : Machine S K E C W) (fuel : Nat) (turn : Turn K E) (d : Dispatcher S K E C W O) :
    Option (Dispatcher S K E C W O) :=
  match turn with
  | .post command => some (d.post command)
  | .addHandle => some d.addHandle
  | .dropHandle => some d.dropHandle
  | .ready => some d.await
  | .serve elapsed => d.await.receive m fuel elapsed
  | .wake elapsed => d.await.wake m fuel elapsed

/-- Takes turns, and lists the orders carried out. -/
def play (m : Machine S K E C W) (fuel : Nat) :
    List (Turn K E) → Dispatcher S K E C W O → Option (Dispatcher S K E C W O × List (Order K E))
  | [], d => some (d, [])
  | first :: turns, d => do
    let (last, orders) ← play m fuel turns (← d.turn m fuel first)
    some (last, (d.order? first).toList ++ orders)

end Dispatcher

namespace Machine

variable {S K E C W O : Type} [DecidableEq S] [DecidableEq K] [Named S] [Named K] [EventLike E K]

/-- Carries out a command by the call that it stands for, and adds the reply to those before. -/
def obey (m : Machine S K E C W) (fuel number : Nat) (command : Command K E)
    (run : Run S E C W O) (replies : List (Nat × Reply S C E)) :
    Option (Run S E C W O × List (Nat × Reply S C E)) :=
  match command with
  | .send event => (m.send fuel event run).map (·, replies)
  | .snapshot => some (run, (number, .snapshot run.snapshot?) :: replies)
  | .can kind =>
    let (run, answer) := m.canTransition kind run
    some (run, (number, .answer answer) :: replies)
  | .stop => some (run.stop, (number, .stopped) :: replies)

/-- Carries out orders by calls: for each of them, an advance to its time on a clock that showed
`base` at the start, and then the command. -/
def direct (m : Machine S K E C W) (fuel : Nat) (base : Duration) :
    List (Order K E) → Run S E C W O → List (Nat × Reply S C E) →
      Option (Run S E C W O × List (Nat × Reply S C E))
  | [], run, replies => some (run, replies)
  | order :: orders, run, replies => do
    let run ← m.advanceTo fuel (← base.add? order.elapsed) run
    match order.command? with
    | none => direct m fuel base orders run replies
    | some (number, command) =>
      let (run, replies) ← m.obey fuel number command run replies
      direct m fuel base orders run replies

variable {m : Machine S K E C W} {run : Run S E C W O} {replies : List (Nat × Reply S C E)}
variable {base : Duration}

/-! ## Orders by calls -/

theorem obey_mono {fuel more number : Nat} {command : Command K E}
    {done : Run S E C W O × List (Nat × Reply S C E)}
    (h : m.obey fuel number command run replies = some done) (hle : fuel ≤ more) :
    m.obey more number command run replies = some done := by
  cases command with
  | send event =>
    obtain ⟨next, hs, he⟩ := Option.map_eq_some_iff.1 h
    exact Option.map_eq_some_iff.2 ⟨next, send_mono hs hle, he⟩
  | snapshot | can | stop => exact h

theorem direct_mono {fuel more : Nat} {orders : List (Order K E)}
    {done : Run S E C W O × List (Nat × Reply S C E)}
    (h : m.direct fuel base orders run replies = some done) (hle : fuel ≤ more) :
    m.direct more base orders run replies = some done := by
  induction orders generalizing run replies with
  | nil => exact h
  | cons order orders ih =>
    simp only [direct, Option.bind_eq_bind, Option.bind_eq_some_iff] at h ⊢
    obtain ⟨time, ht, next, ha, h⟩ := h
    refine ⟨time, ht, next, advanceTo_mono ha hle, ?_⟩
    cases hc : order.command? with
    | none =>
      simp only [hc] at h ⊢
      exact ih h
    | some entry =>
      simp only [hc, Option.bind_eq_some_iff] at h ⊢
      obtain ⟨result, ho, h⟩ := h
      exact ⟨result, obey_mono ho hle, ih h⟩

/-- Orders in a row come to the first ones and then the others. -/
theorem direct_append {fuel : Nat} {first rest : List (Order K E)} {middle : Run S E C W O}
    {given : List (Nat × Reply S C E)} {done : Run S E C W O × List (Nat × Reply S C E)}
    (hf : m.direct fuel base first run replies = some (middle, given))
    (hr : m.direct fuel base rest middle given = some done) :
    m.direct fuel base (first ++ rest) run replies = some done := by
  induction first generalizing run replies with
  | nil =>
    cases hf
    exact hr
  | cons order first ih =>
    simp only [direct, Option.bind_eq_bind, Option.bind_eq_some_iff, List.cons_append] at hf ⊢
    obtain ⟨time, ht, next, ha, hf⟩ := hf
    refine ⟨time, ht, next, ha, ?_⟩
    cases hc : order.command? with
    | none =>
      simp only [hc] at hf ⊢
      exact ih hf
    | some entry =>
      simp only [hc, Option.bind_eq_some_iff] at hf ⊢
      obtain ⟨result, ho, hf⟩ := hf
      exact ⟨result, ho, ih hf⟩

/-- Orders in a row are carried out by way of the first ones. -/
theorem direct_split {fuel : Nat} {first rest : List (Order K E)}
    {done : Run S E C W O × List (Nat × Reply S C E)}
    (h : m.direct fuel base (first ++ rest) run replies = some done) :
    ∃ middle given, m.direct fuel base first run replies = some (middle, given) ∧
      m.direct fuel base rest middle given = some done := by
  induction first generalizing run replies with
  | nil => exact ⟨run, replies, rfl, h⟩
  | cons order first ih =>
    simp only [direct, Option.bind_eq_bind, Option.bind_eq_some_iff, List.cons_append] at h ⊢
    obtain ⟨time, ht, next, ha, h⟩ := h
    cases hc : order.command? with
    | none =>
      simp only [hc] at h
      obtain ⟨middle, given, hf, hr⟩ := ih h
      exact ⟨middle, given, ⟨time, ht, next, ha, by simpa only [hc] using hf⟩, hr⟩
    | some entry =>
      simp only [hc, Option.bind_eq_some_iff] at h
      obtain ⟨result, ho, h⟩ := h
      obtain ⟨middle, given, hf, hr⟩ := ih h
      refine ⟨middle, given, ⟨time, ht, next, ha, ?_⟩, hr⟩
      simp only [Option.bind_eq_some_iff]
      exact ⟨result, ho, hf⟩

end Machine

end Automat
