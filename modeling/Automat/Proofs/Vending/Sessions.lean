import Automat.Proofs.Vending.Coherence
import Automat.Proofs.Vending.Smooth

/-!
The order in which the vending machine calls its display. Each time it leaves the state in which
items are chosen, it begins a session of hooks that it calls one after the other, and every event and
every timer calls the next hooks of the session, or none (`Planned.scripted`). So the hooks called are
always those of the sessions so far, up to a point in the last one (`hooks_in_sessions`).
-/

namespace Automat.Vending

open Machine

variable {W O : Type}

/-! ## Sessions -/

/-- The item that a snapshot tells of, if it is that of a choice that was made. -/
def choice? (snapshot : Snapshot State Context Event) : Option Item :=
  match snapshot.event, snapshot.outcome with
  | some (.selectItem item), .handled => some item
  | _, _ => none

/-- The item chosen last in the visit that a journal ends with. -/
def chosen? (journal : List (Snapshot State Context Event)) : Option Item :=
  (journal.takeWhile fun snapshot => !snapshot.outcome.enters).findSome? choice?

/-- The hook that hands out an amount, if there is anything to hand out. -/
def handOut (amount : UInt64) : List Hook := if 0 < amount then [.dispenseChange amount] else []

/-- The hooks of a session: an item is announced and handed out, if one was bought, and then some
change, if there is any. -/
inductive Session (earlier : List (Snapshot State Context Event))
    (snapshot : Snapshot State Context Event) : List Hook → Prop where
  | bought {item : Item} {change : UInt64} : snapshot.event = some .purchase →
      snapshot.outcome = .transitioned .selecting .dispensing → chosen? earlier = some item →
      change = snapshot.context.changeAfterPurchase →
      Session earlier snapshot
        (.showDispensing (some item) :: .dispenseItem item :: .showReturning change :: handOut change)
  | cancelled {change : UInt64} : snapshot.event = some .cancel →
      snapshot.outcome = .transitioned .selecting .returning → change = snapshot.context.change →
      Session earlier snapshot (.showReturning change :: handOut change)

/-- The sessions of a journal, the first one first: one for each snapshot with which the state is left
in which items are chosen. -/
inductive Sessions : List (Snapshot State Context Event) → List (List Hook) → Prop where
  | nil : Sessions [] []
  | stay {snapshot : Snapshot State Context Event} {journal : List (Snapshot State Context Event)}
      {sessions : List (List Hook)} :
      (∀ target, snapshot.outcome ≠ .transitioned .selecting target) → Sessions journal sessions →
      Sessions (snapshot :: journal) sessions
  | leave {snapshot : Snapshot State Context Event} {journal : List (Snapshot State Context Event)}
      {sessions : List (List Hook)} {session : List Hook} : Session journal snapshot session →
      Sessions journal sessions → Sessions (snapshot :: journal) (sessions ++ [session])

/-- The hooks of the last session that are still to be called. -/
def pending (state : State) (context : Context) : List Hook :=
  match state with
  | .dispensing => context.selectedItem.toList.map .dispenseItem ++
      .showReturning context.changeAfterPurchase :: handOut context.changeAfterPurchase
  | .returning => handOut context.change
  | _ => []

variable {journal : List (Snapshot State Context Event)}
variable {snapshot : Snapshot State Context Event}

theorem chosen?_of_enters (h : snapshot.outcome.enters = true) :
    chosen? (snapshot :: journal) = none := by
  simp [chosen?, h]

theorem chosen?_of_choice? {item : Item} (h : snapshot.outcome.enters = false)
    (hc : choice? snapshot = some item) : chosen? (snapshot :: journal) = some item := by
  simp [chosen?, h, hc]

theorem chosen?_of_no_choice (h : snapshot.outcome.enters = false) (hc : choice? snapshot = none) :
    chosen? (snapshot :: journal) = chosen? journal := by
  simp [chosen?, h, hc]

theorem map_payable (context : Context) :
    context.payable.map .dispenseChange = handOut context.change := by
  unfold Context.payable handOut
  split <;> rfl

/-! ## Hooks called -/

theorem callAll_recorded_of_returns {display : Display W} (hd : display.Returns)
    (hooks : List Hook) (world : List Hook × W) :
    (display.recorded.callAll hooks world).1.1 = world.1 ++ hooks := by
  obtain ⟨called, rest, hh, hcalls, hrest, -⟩ := callAll_recorded display hooks world.1 world.2
  rw [hcalls, hh, hrest (hd.recorded.callAll_eq_none hooks world), List.append_nil]

variable {clock : List Hook × W → Timestamp} {display : Display W} {config : Config} {event : Event}
variable {run next : Run State Event Context (List Hook × W) O}

/-- The hooks called so far are those of all sessions but for the end of the last one, and while items
are chosen the context holds the choice. -/
structure Scripted (run : Run State Event Context (List Hook × W) O) : Prop where
  sessions : ∃ sessions, Sessions run.journal sessions ∧
    sessions.flatten = run.world.1 ++ pending run.state run.context
  chosen : run.state = .selecting → chosen? run.journal = run.context.selectedItem

theorem Scripted.of_eq (h : Scripted run) (hs : next.state = run.state)
    (hc : next.context = run.context) (hj : next.journal = run.journal)
    (hw : next.world.1 = run.world.1) : Scripted next := by
  obtain ⟨hsessions, hchosen⟩ := h
  constructor
  · rwa [hj, hw, hs, hc]
  · rwa [hs, hj, hc]

/-- One more entry that begins no session: the hooks called are the next ones of the last session. -/
theorem Scripted.stay {called : List Hook} (h : Scripted run)
    (hj : next.journal = snapshot :: run.journal) (hw : next.world.1 = run.world.1 ++ called)
    (ho : ∀ target, snapshot.outcome ≠ .transitioned .selecting target)
    (hp : pending run.state run.context = called ++ pending next.state next.context)
    (hchosen : next.state = .selecting →
      chosen? (snapshot :: run.journal) = next.context.selectedItem) : Scripted next := by
  obtain ⟨sessions, hsessions, hflat⟩ := h.sessions
  constructor
  · refine ⟨sessions, ?_, ?_⟩
    · rw [hj]
      exact .stay ho hsessions
    · rw [hflat, hw, hp, List.append_assoc]
  · rwa [hj]

/-- One more entry that begins a session: the hooks called are its first ones. -/
theorem Scripted.leave {called : List Hook} (h : Scripted run) (hs : run.state = .selecting)
    (hj : next.journal = snapshot :: run.journal) (hw : next.world.1 = run.world.1 ++ called)
    (hsession : Session run.journal snapshot (called ++ pending next.state next.context))
    (hn : next.state ≠ .selecting) : Scripted next := by
  obtain ⟨sessions, hsessions, hflat⟩ := h.sessions
  constructor
  · refine ⟨sessions ++ [called ++ pending next.state next.context], ?_, ?_⟩
    · rw [hj]
      exact .leave hsession hsessions
    · rw [List.flatten_append, hflat, hs, hw]
      simp [pending]
  · intro hselecting
    exact absurd hselecting hn

/-- A report that nothing was done calls nothing. -/
theorem Scripted.publish (h : Scripted run) (event : Option Event) {outcome : Outcome State}
    (hk : outcome.Keeps) : Scripted (run.publish event outcome) := by
  have hchoice : choice? (run.shown event outcome) = none := by
    cases outcome with
    | ignored | guardRejected | failed =>
      unfold choice? Run.shown
      split <;> simp_all
    | started | transitioned | handled => cases hk
  refine h.stay rfl (List.append_nil _).symm ?_ rfl ?_
  · intro target ho
    change outcome = _ at ho
    rw [ho] at hk
    exact hk
  · intro hs
    exact (chosen?_of_no_choice hk.enters_eq_false hchoice).trans (h.chosen hs)

/-! ## One event -/

/-- A plan calls the next hooks of the last session, or the first ones of a new session. -/
theorem Planned.scripted {target : Option State} {hooks : List Hook} {context : Context}
    (hp : Planned run event target hooks context) (h : Scripted run)
    (hc : Coherent run.state run.context) {world : List Hook × W}
    (hw : world.1 = run.world.1 ++ hooks) :
    Scripted ((assembled clock display.recorded config).commit target event ⟨context, [], world⟩
      run) := by
  have hcalls : ((assembled clock display.recorded config).commit target event ⟨context, [], world⟩
      run).world.1 = run.world.1 ++ hooks := by
    rw [world_commit]
    exact hw
  cases hp with
  | start hs =>
    have hempty : run.context = .empty := by
      have hfits := hc.fits
      rwa [hs] at hfits
    refine h.stay (journal_commit_some ..) hcalls ?_ ?_ ?_
    · simp [hs]
    · simp [hs, pending]
    · intro _
      rw [chosen?_of_enters rfl, context_commit, hempty]
      rfl
  | choose item hs =>
    refine h.stay (journal_commit_none ..) hcalls ?_ ?_ ?_
    · simp
    · simp [hs, pending]
    · intro _
      rw [context_commit]
      exact chosen?_of_choice? rfl rfl
  | pay hs hsum =>
    refine h.stay (journal_commit_none ..) hcalls ?_ ?_ ?_
    · simp
    · simp [hs, pending]
    · intro _
      rw [context_commit]
      exact (chosen?_of_no_choice rfl rfl).trans (h.chosen hs)
  | @buy item hs hi hle =>
    refine h.leave hs (journal_commit_some ..) hcalls ?_ (by simp)
    rw [state_commit, context_commit]
    have hrest : pending .dispensing run.context = .dispenseItem item ::
        .showReturning run.context.changeAfterPurchase ::
          handOut run.context.changeAfterPurchase := by
      simp [pending, hi]
    exact hrest ▸ .bought rfl (by rw [hs]) ((h.chosen hs).trans hi) rfl
  | cancel hs =>
    refine h.leave hs (journal_commit_some ..) hcalls ?_ (by simp)
    rw [state_commit, context_commit]
    exact .cancelled rfl (by rw [hs]) rfl
  | dispense hs hl =>
    refine h.stay (journal_commit_some ..) hcalls ?_ ?_ ?_
    · simp [hs]
    · simp [hs, pending]
    · simp
  | giveBack hs hl =>
    refine h.stay (journal_commit_some ..) hcalls ?_ ?_ ?_
    · simp [hs]
    · simp [hs, pending, map_payable]
    · simp

theorem Handled.scripted (hh : Handled clock display.recorded config event run next)
    (hd : display.Returns)
    (hc : Coherent run.state run.context) (h : Scripted run) : Scripted next := by
  cases hh with
  | stale => exact h
  | kept outcome _ hk => exact h.publish _ hk
  | planned hp hdone =>
    rw [hdone.eq_commit hd.recorded]
    exact hp.scripted h hc (callAll_recorded_of_returns hd _ _)

/-- Hooks are called only for an event with which the state is left in which items are chosen. -/
theorem Handled.calls (hh : Handled clock display.recorded config event run next)
    (hd : display.Returns)
    (hf : run.timers.hasFired = false) :
    next.world.1 = run.world.1 ∨ ∃ snapshot, next.journal = snapshot :: run.journal ∧
      (event = .purchase ∧ snapshot.outcome = .transitioned .selecting .dispensing ∨
        event = .cancel ∧ snapshot.outcome = .transitioned .selecting .returning) := by
  cases hh with
  | stale => exact .inl rfl
  | kept => exact .inl rfl
  | @planned target hooks context _ hp hdone =>
    have hcalled := callAll_recorded_of_returns hd hooks run.world
    rw [hdone.eq_commit hd.recorded, world_commit]
    cases hp with
    | start | choose | pay => exact .inl rfl
    | buy hs =>
      right
      rw [journal_commit_some]
      exact ⟨_, rfl, .inl ⟨rfl, by rw [hs]⟩⟩
    | cancel hs =>
      right
      rw [journal_commit_some]
      exact ⟨_, rfl, .inr ⟨rfl, by rw [hs]⟩⟩
    | dispense _ hl | giveBack _ hl => exact absurd hl (not_isLive_of_hasFired hf _)

/-! ## Whole runs -/

theorem scripted_newRun (world : W) (observers : O) :
    Scripted ((assembled clock display.recorded config).newRun ([], world) observers) where
  sessions := ⟨[], .nil, rfl⟩
  chosen hs := by cases hs

theorem scripted_step {happening : Happening Kind Event} (hd : display.Returns)
    (hs : Step (assembled clock display.recorded config) run happening next)
    (hu : run.status = .notStarted → run.state = .idle) (hc : Coherent run.state run.context)
    (h : Scripted run) : Scripted next := by
  cases hs with
  | begin hr hp =>
    cases hp
    rw [enterInitial, arm_eq]
    refine h.stay rfl (List.append_nil _).symm ?_ ?_ ?_
    · intro target ho
      cases ho
    · rw [hu hr]
      rfl
    · intro hselecting
      cases hselecting
  | @take rest event hq =>
    obtain ⟨-, queue, -, rfl⟩ := Run.dequeue?_eq_some_iff.1 hq
    exact (handled clock display.recorded config _ event).scripted hd hc (h.of_eq rfl rfl rfl rfl)
  | @elapse id timers =>
    have hh := handled clock display.recorded config (run.withTimers timers) (.timerElapsed id)
    exact hh.scripted hd hc (h.of_eq rfl rfl rfl rfl)
  | ask kind =>
    rw [canTransition_fst]
    exact h
  | stop =>
    unfold Run.stop
    split
    · exact h
    · exact h.of_eq rfl rfl rfl rfl
  | refuse hr hp => cases hp
  | accept | tick | listen => exact h.of_eq rfl rfl rfl rfl

/-- With a display whose hooks return, the hooks called are always those of the sessions that were
begun, in order, without the ones of the last session that are still to come. A send calls hooks only
if it makes a purchase or calls one off: an event that is rejected, ignored or fails calls none, nor
does the report of a timer. -/
theorem hooks_in_sessions {m : Machine State Kind Event Context (List Hook × W)}
    (hd : display.Returns) (hm : machine clock display.recorded config = .ok m) {world : W}
    {observers : O}
    (hr : Reached m (fun _ _ => True) (m.newRun ([], world) observers) run) :
    (∃ sessions, Sessions run.journal sessions ∧
      sessions.flatten = run.world.1 ++ pending run.state run.context) ∧
    ∀ event next, m.Ends (.send event) run next → next.world.1 = run.world.1 ∨
      ∃ snapshot, next.journal = snapshot :: run.journal ∧
        (event = .purchase ∧ snapshot.outcome = .transitioned .selecting .dispensing ∨
          event = .cancel ∧ snapshot.outcome = .transitioned .selecting .returning) := by
  obtain rfl : assembled clock display.recorded config = m :=
    Except.ok.inj ((machine_eq_ok clock display.recorded config).symm.trans hm)
  have hall : Scripted run ∧ Coherent run.state run.context ∧
      Smooth clock display.recorded config run := by
    refine Reached.keeps (P := fun run => Scripted run ∧ Coherent run.state run.context ∧
      Smooth clock display.recorded config run) hr rfl
      ⟨scripted_newRun world observers, coherent_empty, smooth_newRun _ _⟩ ?_
    rintro run happening next hs - ⟨h, hc, hsmooth⟩
    exact ⟨scripted_step hd hs hsmooth.unstarted hc h, coherent_step hs hc,
      hsmooth.step hd.recorded hs⟩
  obtain ⟨hscripted, -, hsmooth⟩ := hall
  refine ⟨hscripted.sessions, ?_⟩
  intro event next hends
  by_cases hrunning : run.status = .running
  · have hq : run.queue = [] := (hr.settles rfl).1
    obtain rfl := (ends_send hrunning hq event).unique hends
    exact (handled clock display.recorded config run event).calls hd hsmooth.unfired
  · left
    rw [(ends_send_of_not_running hrunning event).unique hends]

/-- An item is bought, with change, and a second purchase is called off with the money put in. -/
theorem hooks_in_sessions_purchase :
    ∃ run : Run State Event Context (List Hook × Unit) Unit, run.state = .returning ∧
      run.world.1 = [.showDispensing (some slipper), .dispenseItem slipper, .showReturning 5000,
        .dispenseChange 5000, .showReturning 10000] ∧
      ∃ sessions, Sessions run.journal sessions ∧
        sessions.flatten = run.world.1 ++ [.dispenseChange 10000] := by
  have hd : (Display.blank : Display Unit).Returns := fun _ _ => rfl
  have hsome : ((assembled standing Display.blank.recorded {}).calls 3
      (purchaseCalls slipper 30000 ++ [.advance (.ofMillis 2000), .send .start,
        .send (.insertMoney 10000), .send .purchase, .send .cancel])
      ((assembled standing Display.blank.recorded {}).newRun ([], ()) ())).isSome := rfl
  exact ⟨_, rfl, rfl, (hooks_in_sessions hd (machine_eq_ok _ _ _)
    (reached_get_calls hsome fun _ _ _ => trivial)).1⟩

end Automat.Vending
