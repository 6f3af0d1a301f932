import Automat.Proofs.Dispatcher.Turns
import Automat.Proofs.Machine.Clock

/-!
The commands that a dispatcher is given. They take effect in the order of the queue, each once, up to
the first stop (`Plays.orderly`). A dispatcher that finds a stop in its queue, or no handle left,
comes to an end after so many looks (`Plays.closesWithin`), and then nothing happens any more
(`Plays.of_closed`).
-/

namespace Automat

variable {S K E C W O : Type}

namespace Dispatcher

/-! ## The first stop -/

def upToStop : List (Nat × Command K E) → List (Nat × Command K E)
  | [] => []
  | entry :: rest => if entry.2.isStop then [entry] else entry :: upToStop rest

theorem upToStop_eq_self {commands : List (Nat × Command K E)}
    (h : ∀ entry ∈ commands, entry.2.isStop = false) : upToStop commands = commands := by
  induction commands with
  | nil => rfl
  | cons entry rest ih =>
    obtain ⟨hentry, hrest⟩ := List.forall_mem_cons.1 h
    simp only [upToStop, hentry, Bool.false_eq_true, if_false, ih hrest]

theorem upToStop_append_stop {front rest : List (Nat × Command K E)} {entry : Nat × Command K E}
    (h : ∀ entry ∈ front, entry.2.isStop = false) (hs : entry.2.isStop = true) :
    upToStop (front ++ entry :: rest) = front ++ [entry] := by
  induction front with
  | nil => exact if_pos hs
  | cons first front ih =>
    obtain ⟨hfirst, hfront⟩ := List.forall_mem_cons.1 h
    simp only [List.cons_append, upToStop, hfirst, Bool.false_eq_true, if_false, ih hfront]

/-! ## The account of the queue -/

/-- How a dispatcher stands with the commands that were put into its queue and those that have taken
effect, when the machine had the given status at the start. -/
structure Orderly (status : Status) (accepted served : List (Nat × Command K E))
    (d : Dispatcher S K E C W O) : Prop where
  /-- Every command has the number of those before it. -/
  numbered : accepted.map (·.1) = List.range d.posted
  in_order : served <+: accepted
  /-- No command is lost while the dispatcher serves. -/
  serving : d.phase = .serving → served ++ d.queue = accepted
  ended : d.phase = .ended → served = upToStop accepted
  /-- Without a stop nobody is left in the end who could post anything. -/
  dropped : d.phase = .ended → (∀ entry ∈ accepted, entry.2.isStop = false) → d.handles = 0
  /-- A dispatcher does not stop the machine by itself. -/
  unstopped : (∀ entry ∈ served, entry.2.isStop = false) → d.run.status = status
  stopped : (∃ entry ∈ served, entry.2.isStop = true) →
    d.phase = .ended ∧ d.run.status = .stopped

variable {status : Status} {accepted served : List (Nat × Command K E)}
variable {d next : Dispatcher S K E C W O}

theorem orderly_spawn (timeline : Timeline) (run : Run S E C W O) :
    Orderly run.status ([] : List (Nat × Command K E)) [] (spawn timeline run) where
  numbered := rfl
  in_order := List.prefix_refl _
  serving _ := rfl
  ended h := by cases h
  dropped h := by cases h
  unstopped _ := rfl
  stopped h := by
    obtain ⟨_, hmem, -⟩ := h
    cases hmem

theorem Orderly.not_isStop (h : Orderly status accepted served d) (hp : d.phase = .serving) :
    ∀ entry ∈ served, entry.2.isStop = false := by
  intro entry hmem
  cases hs : entry.2.isStop with
  | false => rfl
  | true => cases hp.symm.trans (h.stopped ⟨entry, hmem, hs⟩).1

/-- No two commands have the same number. -/
theorem Orderly.nodup_accepted (h : Orderly status accepted served d) :
    (accepted.map (·.1)).Nodup := by
  rw [h.numbered]
  exact List.nodup_range

theorem Orderly.nodup (h : Orderly status accepted served d) : (served.map (·.1)).Nodup :=
  h.nodup_accepted.sublist (h.in_order.sublist.map _)

/-- The commands before another one are those with smaller numbers. -/
theorem Orderly.eq_take (h : Orderly status accepted served d)
    {front rest : List (Nat × Command K E)} {number : Nat} {command : Command K E}
    (hs : served = front ++ (number, command) :: rest) : front = accepted.take number := by
  obtain ⟨lost, rfl⟩ := h.in_order
  have hnumber : front.length = number := by
    have hget : (List.range d.posted)[front.length]? = some number := by
      rw [← h.numbered, hs]
      simp
    obtain ⟨hlt, he⟩ := List.getElem?_eq_some_iff.1 hget
    rwa [List.getElem_range] at he
  rw [hs, List.append_assoc, ← hnumber, List.take_left]

theorem Orderly.not_mem (h : Orderly status accepted served d) {entry : Nat × Command K E}
    (hmem : entry ∈ accepted) (hn : entry ∉ served) : entry.1 ∉ served.map (·.1) := by
  have hall := h.nodup_accepted
  obtain ⟨lost, rfl⟩ := h.in_order
  rw [List.map_append, List.nodup_append] at hall
  have hlost : entry ∈ lost := (List.mem_append.1 hmem).resolve_left hn
  intro hserved
  exact hall.2.2 _ hserved _ (List.mem_map_of_mem hlost) rfl

theorem Orderly.mem_of_queue (h : Orderly status accepted served d) (hp : d.phase = .serving)
    {entry : Nat × Command K E} (hmem : entry ∈ d.queue) : entry ∈ accepted ∧ entry ∉ served := by
  have hall := h.nodup_accepted
  rw [← h.serving hp, List.map_append, List.nodup_append] at hall
  refine ⟨h.serving hp ▸ List.mem_append_right _ hmem, fun hserved => ?_⟩
  exact hall.2.2 _ (List.mem_map_of_mem hserved) _ (List.mem_map_of_mem hmem) rfl

theorem Orderly.status_of_serving (h : Orderly status accepted served d)
    (hp : d.phase = .serving) : d.run.status = status :=
  h.unstopped (h.not_isStop hp)

theorem Orderly.close_broken (h : Orderly status accepted served d) (hp : d.phase = .serving) :
    Orderly status accepted served (d.close .broken) where
  numbered := h.numbered
  in_order := h.in_order
  serving hb := by cases hb
  ended hb := by cases hb
  dropped hb := by cases hb
  unstopped := h.unstopped
  stopped hs := by cases hp.symm.trans (h.stopped hs).1

theorem Orderly.post (h : Orderly status accepted served d) (hp : d.phase = .serving)
    (command : Command K E) :
    Orderly status (accepted ++ [(d.posted, command)]) served
      { d with posted := d.posted + 1, queue := d.queue ++ [(d.posted, command)] } where
  numbered := by simp [h.numbered, List.range_succ]
  in_order := h.in_order.trans (List.prefix_append _ _)
  serving _ := by rw [← h.serving hp, List.append_assoc]
  ended he := by cases hp.symm.trans he
  dropped he := by cases hp.symm.trans he
  unstopped := h.unstopped
  stopped := h.stopped

/-- Nothing matters but phase, queue, status of the machine and, in the end, the handles. -/
theorem Orderly.of_eq (h : Orderly status accepted served d) (hp : next.phase = d.phase)
    (hq : next.queue = d.queue) (hn : next.posted = d.posted)
    (hr : next.run.status = d.run.status) (hh : d.handles = 0 → next.handles = 0) :
    Orderly status accepted served next where
  numbered := by rw [hn, h.numbered]
  in_order := h.in_order
  serving hs := by rw [hq, h.serving (hp.symm.trans hs)]
  ended he := h.ended (hp.symm.trans he)
  dropped he hs := hh (h.dropped (hp.symm.trans he) hs)
  unstopped hs := hr.trans (h.unstopped hs)
  stopped hs := ⟨hp.trans (h.stopped hs).1, hr.trans (h.stopped hs).2⟩

/-- With no handle and nothing in the queue, everything has taken effect. -/
theorem Orderly.close_ended (h : Orderly status accepted served d) (hp : d.phase = .serving)
    (hq : d.queue = []) (hh : d.handles = 0) :
    Orderly status accepted served (d.close .ended) where
  numbered := h.numbered
  in_order := h.in_order
  serving he := by cases he
  ended _ := by
    have hall : served = accepted := by simpa [hq] using h.serving hp
    rw [← hall, upToStop_eq_self (h.not_isStop hp)]
  dropped _ _ := hh
  unstopped := h.unstopped
  stopped hs := by cases hp.symm.trans (h.stopped hs).1

/-! ## Coming to the end -/

/-- So many looks into the queue are enough to bring the dispatcher to its end. -/
def ClosesWithin (count : Nat) (d : Dispatcher S K E C W O) : Prop :=
  d.phase = .serving → (∃ entry ∈ d.queue.take count, entry.2.isStop = true) ∨
    d.handles = 0 ∧ d.queue.length < count

theorem ClosesWithin.isClosed (h : d.ClosesWithin 0) : d.isClosed = true := by
  cases hclosed : d.isClosed with
  | true => rfl
  | false =>
    rcases h (isClosed_eq_false_iff.1 hclosed) with ⟨entry, hmem, -⟩ | ⟨-, hlt⟩
    · rw [List.take_zero] at hmem
      cases hmem
    · omega

theorem ClosesWithin.post {count : Nat} (h : d.ClosesWithin count) (hh : d.handles ≠ 0)
    (command : Command K E) :
    ClosesWithin count
      { d with posted := d.posted + 1, queue := d.queue ++ [(d.posted, command)] } := by
  intro hp
  rcases h hp with ⟨entry, hmem, hs⟩ | ⟨hz, -⟩
  · refine .inl ⟨entry, ?_, hs⟩
    show entry ∈ (d.queue ++ _).take count
    rw [List.take_append]
    exact List.mem_append_left _ hmem
  · exact absurd hz hh

/-! ## Turn by turn -/

variable [DecidableEq S] [DecidableEq K] [Named S] [Named K] [EventLike E K]
variable {m : Machine S K E C W} {turn : Turn K E} {fuel number : Nat} {command : Command K E}

theorem handles_carryOut (h : d.carryOut m fuel number command = some next) :
    next.handles = d.handles ∧ next.posted = d.posted := by
  cases command with
  | send event =>
    simp only [carryOut, Option.bind_eq_bind, Option.bind_eq_some_iff] at h
    obtain ⟨run, -, he⟩ := h
    cases he
    exact ⟨rfl, rfl⟩
  | snapshot | can | stop =>
    cases h
    exact ⟨rfl, rfl⟩

/-- Only a stop ends the dispatcher or changes the status of the machine. -/
theorem carryOut_of_not_isStop (h : d.carryOut m fuel number command = some next)
    (hs : command.isStop = false) :
    next.phase = d.phase ∧ next.queue = d.queue ∧ next.run.status = d.run.status := by
  cases command with
  | send event =>
    simp only [carryOut, Option.bind_eq_bind, Option.bind_eq_some_iff] at h
    obtain ⟨run, hsend, he⟩ := h
    cases he
    exact ⟨rfl, rfl, Machine.status_send hsend⟩
  | snapshot =>
    cases h
    exact ⟨rfl, rfl, rfl⟩
  | can kind =>
    cases h
    obtain ⟨world, hw⟩ := m.canTransition_eq kind d.run
    refine ⟨rfl, rfl, ?_⟩
    show (m.canTransition kind d.run).1.status = d.run.status
    rw [hw]
    rfl
  | stop => cases hs

theorem carryOut_of_isStop (h : d.carryOut m fuel number command = some next)
    (hs : command.isStop = true) : next.phase = .ended ∧ next.run.status = .stopped := by
  cases command with
  | stop =>
    cases h
    exact ⟨rfl, Run.status_stop d.run⟩
  | send | snapshot | can => cases hs

theorem Orderly.carryOut (h : Orderly status accepted served d) (hp : d.phase = .serving)
    {queue : List (Nat × Command K E)} {ahead : Run S E C W O}
    (hq : d.queue = (number, command) :: queue) (hr : ahead.status = d.run.status)
    (hc : carryOut m fuel number command { d with queue := queue, run := ahead } = some next) :
    Orderly status accepted (served ++ [(number, command)]) next := by
  obtain ⟨hhandles, hposted⟩ := handles_carryOut hc
  have hall : (served ++ [(number, command)]) ++ queue = accepted := by
    rw [List.append_assoc, ← h.serving hp, hq]
    rfl
  have hnumbered : accepted.map (·.1) = List.range next.posted := by
    rw [hposted]
    exact h.numbered
  cases hs : command.isStop with
  | false =>
    obtain ⟨hphase, hqueue, hstatus⟩ := carryOut_of_not_isStop hc hs
    have hopen : next.phase = .serving := hphase.trans hp
    have hnone : ∀ entry ∈ served ++ [(number, command)], entry.2.isStop = false := by
      intro entry hmem
      rcases List.mem_append.1 hmem with hmem | hmem
      · exact h.not_isStop hp entry hmem
      · rw [List.mem_singleton.1 hmem]
        exact hs
    exact
      { numbered := hnumbered
        in_order := ⟨queue, hall⟩
        serving := fun _ => by rw [hqueue, hall]
        ended := fun he => by cases hopen.symm.trans he
        dropped := fun he => by cases hopen.symm.trans he
        unstopped := fun _ => hstatus.trans (hr.trans (h.status_of_serving hp))
        stopped := by
          rintro ⟨entry, hmem, hstop⟩
          cases (hnone entry hmem).symm.trans hstop }
  | true =>
    obtain ⟨hphase, hstatus⟩ := carryOut_of_isStop hc hs
    have hmem : (number, command) ∈ served ++ [(number, command)] := by simp
    have hpart : (number, command) ∈ accepted := by
      rw [← hall]
      exact List.mem_append_left _ hmem
    exact
      { numbered := hnumbered
        in_order := ⟨queue, hall⟩
        serving := fun he => by cases hphase.symm.trans he
        ended := fun _ => by
          rw [← hall, List.append_assoc]
          exact (upToStop_append_stop (h.not_isStop hp) hs).symm
        dropped := fun _ hnone => by cases (hnone _ hpart).symm.trans hs
        unstopped := fun hnone => by cases (hnone _ hmem).symm.trans hs
        stopped := fun _ => ⟨hphase, hstatus⟩ }

theorem Effect.orderly {added : Option (Nat × Command K E)} {order : Option (Order K E)}
    (he : Effect m turn d added order next) (h : Orderly status accepted served d)
    (hh : turn.needsHandle = true → d.handles ≠ 0) :
    Orderly status (accepted ++ added.toList)
      (served ++ order.toList.filterMap Order.command?) next := by
  cases he with
  | posted command _ hp => simpa using h.post hp command
  | joined ht =>
    subst ht
    have hjoined : Orderly status accepted served d.addHandle :=
      h.of_eq rfl rfl rfl rfl fun hz => absurd hz (hh rfl)
    simpa using hjoined
  | left ht =>
    have hleft : Orderly status accepted served d.dropHandle :=
      h.of_eq rfl rfl rfl rfl fun hz => by rw [dropHandle, hz]
    simpa using hleft
  | unmoved => simpa using h
  | @woken _ _ _ ahead _ _ _ ha =>
    have hahead : Orderly status accepted served { d with run := ahead } :=
      h.of_eq rfl rfl rfl (Machine.status_advanceTo ha) id
    simpa using hahead
  | @ended _ _ _ ahead _ hp hq hz _ ha =>
    have hahead : Orderly status accepted served { d with run := ahead } :=
      h.of_eq rfl rfl rfl (Machine.status_advanceTo ha) id
    simpa using hahead.close_ended hp hq hz
  | served _ hp hq _ ha hc =>
    simpa using h.carryOut hp hq (Machine.status_advanceTo ha) hc

theorem Plays.orderly {timeline : Timeline} {run : Run S E C W O}
    {trace : List (Dispatcher S K E C W O × Turn K E)}
    (hp : Plays m (spawn timeline run) trace d) (hh : Held trace) :
    Orderly run.status (Dispatcher.accepted trace) (Dispatcher.served trace) d := by
  induction hp with
  | nil => exact orderly_spawn timeline run
  | snoc _ ht ih =>
    have h := ih hh.left
    rw [accepted_snoc, served_snoc]
    rcases effect_of_turn ht with hb | ⟨-, he⟩
    · rw [hb.accepted, hb.carried, hb.next]
      simpa using h.close_broken hb.breaks.1
    · exact he.orderly h hh.last

/-! ## Closed and broken -/

theorem Effect.phase_eq_broken_iff {added : Option (Nat × Command K E)}
    {order : Option (Order K E)} (he : Effect m turn d added order next) :
    next.phase = .broken ↔ d.phase = .broken := by
  have hne (hp : d.phase = .serving) : d.phase ≠ .broken := by
    rw [hp]
    decide
  cases he with
  | posted | joined | left | unmoved | woken => exact Iff.rfl
  | ended _ hp =>
    refine iff_of_false ?_ (hne hp)
    show Phase.ended ≠ .broken
    decide
  | served _ hp _ _ _ hc => exact iff_of_false (phase_carryOut_ne_broken hc hp) (hne hp)

theorem Effect.of_closed {added : Option (Nat × Command K E)} {order : Option (Order K E)}
    (he : Effect m turn d added order next) (hp : d.phase ≠ .serving) :
    next.phase = d.phase ∧ next.run = d.run ∧ next.replies = d.replies ∧
      added = none ∧ order = none := by
  cases he with
  | joined | left | unmoved => exact ⟨rfl, rfl, rfl, rfl, rfl⟩
  | posted _ _ hserving | woken _ hserving | ended _ hserving | served _ hserving =>
    exact absurd hserving hp

variable {first last : Dispatcher S K E C W O}
variable {trace later : List (Dispatcher S K E C W O × Turn K E)}

theorem Plays.of_closed (hp : Plays m first later last) (hc : first.phase ≠ .serving) :
    last.phase = first.phase ∧ last.run = first.run ∧ last.replies = first.replies ∧
      Dispatcher.accepted later = [] ∧ carried later = [] := by
  induction hp with
  | nil => exact ⟨rfl, rfl, rfl, rfl, rfl⟩
  | snoc _ ht ih =>
    obtain ⟨hphase, hrun, hreplies, haccepted, hcarried⟩ := ih
    have hclosed := hphase ▸ hc
    rcases effect_of_turn ht with hb | ⟨-, he⟩
    · exact absurd hb.breaks.1 hclosed
    · obtain ⟨hnext, hsame, hkept, hadded, horder⟩ := he.of_closed hclosed
      exact ⟨hnext.trans hphase, hsame.trans hrun, hkept.trans hreplies,
        by rw [accepted_snoc, haccepted, hadded]; rfl,
        by rw [carried_snoc, hcarried, horder]; rfl⟩

/-- A turn breaks the dispatcher down only where it has to. -/
theorem turn_broken_iff (ht : d.turn m fuel turn = some next) :
    next.phase = .broken ↔ d.phase = .broken ∨ d.Breaks turn := by
  rcases effect_of_turn ht with hb | ⟨hsafe, he⟩
  · rw [hb.next]
    exact iff_of_true rfl (.inr hb.breaks)
  · rw [or_iff_left hsafe, he.phase_eq_broken_iff]

/-- A dispatcher breaks down only in a turn that has to. -/
theorem Plays.broken_iff (hp : Plays m first trace last) (hf : first.phase ≠ .broken) :
    last.phase = .broken ↔ ∃ entry ∈ trace, entry.1.Breaks entry.2 := by
  induction hp with
  | nil => simp [hf]
  | snoc _ ht ih =>
    rw [turn_broken_iff ht, ih]
    simp only [List.mem_append, List.mem_singleton, or_and_right, exists_or, exists_eq_left]

/-! ## So many looks -/

/-- A look into the queue brings the end closer. -/
theorem ClosesWithin.carryOut {count : Nat} {queue : List (Nat × Command K E)}
    {ahead : Run S E C W O} (h : d.ClosesWithin count) (hp : d.phase = .serving)
    (hq : d.queue = (number, command) :: queue)
    (hc : carryOut m fuel number command { d with queue := queue, run := ahead } = some next) :
    next.ClosesWithin (count - 1) := by
  intro hserving
  have hs : command.isStop = false := by
    cases hs : command.isStop with
    | false => rfl
    | true => cases (carryOut_of_isStop hc hs).1.symm.trans hserving
  have hqueue : next.queue = queue := (carryOut_of_not_isStop hc hs).2.1
  have hhandles : next.handles = d.handles := (handles_carryOut hc).1
  rw [hqueue, hhandles]
  rcases h hp with ⟨entry, hmem, hstop⟩ | ⟨hz, hlt⟩
  · rw [hq] at hmem
    cases count with
    | zero => cases hmem
    | succ count =>
      rcases List.mem_cons.1 hmem with rfl | hmem
      · cases hs.symm.trans hstop
      · exact .inl ⟨entry, hmem, hstop⟩
  · rw [hq, List.length_cons] at hlt
    exact .inr ⟨hz, by omega⟩

theorem Effect.closesWithin {count : Nat} {added : Option (Nat × Command K E)}
    {order : Option (Order K E)} (he : Effect m turn d added order next)
    (h : d.ClosesWithin count) (hh : turn.needsHandle = true → d.handles ≠ 0) :
    next.ClosesWithin (count - if turn.serves then 1 else 0) := by
  cases he with
  | posted command ht =>
    subst ht
    exact h.post (hh rfl) command
  | joined ht =>
    subst ht
    intro hp
    exact (h hp).imp_right fun hz => absurd hz.1 (hh rfl)
  | left ht =>
    subst ht
    intro hp
    exact (h hp).imp_right fun hz => ⟨by rw [dropHandle, hz.1], hz.2⟩
  | unmoved hidle =>
    cases hs : turn.serves with
    | false => exact h
    | true =>
      -- There is nothing to do, so that the end is not in sight.
      intro hp
      obtain ⟨hq, hz⟩ := hidle hs hp
      rcases h hp with ⟨entry, hmem, -⟩ | ⟨hnone, -⟩
      · rw [hq, List.take_nil] at hmem
        cases hmem
      · exact absurd hnone hz
  | woken ht =>
    subst ht
    exact h
  | ended =>
    intro hp
    cases hp
  | served ht hp hq _ _ hc =>
    subst ht
    exact h.carryOut hp hq hc

theorem Plays.closesWithin {count : Nat} (hp : Plays m first later last)
    (h : first.ClosesWithin count) (hh : Held later) : last.ClosesWithin (count - looks later) := by
  induction hp with
  | nil => exact h
  | snoc _ ht ih =>
    rw [looks_snoc, ← Nat.sub_sub]
    rcases effect_of_turn ht with hb | ⟨-, he⟩
    · rw [hb.next]
      intro hp
      cases hp
    · exact he.closesWithin (ih hh.left) hh.last

end Dispatcher

end Automat
