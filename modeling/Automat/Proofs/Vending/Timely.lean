import Automat.Proofs.Machine.Deadlines
import Automat.Proofs.Vending.Payouts
import Automat.Proofs.Vending.Smooth

/-!
How long a sale takes. Nothing that is sent makes the machine dispense or return for a shorter or a
longer time than it is set to, every advance comes to an end (`Smooth.exists_advanceTo`), and the
one that passes a deadline goes on exactly there. So from either state the machine comes back at a
time that is known beforehand (`sales_on_time`).
-/

namespace Automat

/-- By how much a call asks the clock to go on, if it is an advance and not one to the past. -/
def Call.asked? {K E : Type} (call : Call K E) (now : Duration) : Option Nat :=
  match call with
  | .advance elapsed => some elapsed.total
  | .advanceTo time => if now ≤ time then some (time.total - now.total) else none
  | _ => none

namespace Vending

open Machine

variable {W O : Type} {clock : W → Timestamp} {display : Display W} {config : Config}
variable {run next done : Run State Event Context W O} {event : Event}
variable {delay due time : Duration} {target : State} {context : Context}

/-! ## Calls -/

theorem Smooth.ends_send (h : Smooth clock display config run) (hr : run.status = .running)
    (hq : run.queue = []) (hl : Leaving config run delay target context) (event : Event) :
    ∃ next, (assembled clock display config).Ends (.send event) run next ∧ Undisturbed run next ∧
      next.now = run.now := by
  have hh := handled clock display config run event
  exact ⟨_, Vending.ends_send hr hq event, hh.undisturbed h.unfired hl⟩

theorem ends_early {m : Machine State Kind Event Context W} (hn : run.nextDeadline? = some due)
    (ht : time < due) : m.Ends (.advanceTo time) run (run.moveClock time) := by
  have hnot : ¬ due ≤ time := not_le.2 ht
  refine ends_advanceTo_iff.2 ⟨0, advanced_iff.2 (.clear ?_)⟩
  rw [hn, Option.filter_some, if_neg (by simpa using hnot)]

/-- How many timers can still fire before the machine waits for a client. -/
def toCome : State → Nat
  | .dispensing => 2
  | .returning => 1
  | _ => 0

/-- Where there is a deadline, the machine leaves the state by itself. -/
theorem Smooth.exists_leaving (h : Smooth clock display config run)
    (hn : run.nextDeadline? = some due) :
    ∃ delay target context, Leaving config run delay target context ∧
      toCome target < toCome run.state := by
  obtain ⟨hr, timer, ha, -⟩ := Run.nextDeadline?_eq_some_iff.1 hn
  have hsome := h.timed.armed hr
  rw [ha] at hsome
  cases hs : run.state with
  | idle | selecting =>
    rw [hs] at hsome
    cases hsome
  | dispensing => exact ⟨_, _, _, .dispensing hs, by decide⟩
  | returning => exact ⟨_, _, _, .returning hs, by decide⟩

/-- Every advance comes to an end: at most two timers fire one after the other. -/
theorem Smooth.exists_advanceTo (h : Smooth clock display config run) (hd : display.Returns)
    (hq : run.queue = []) (time : Duration) {fuel : Nat} (hf : toCome run.state < fuel) :
    ∃ done, (assembled clock display config).advanceTo fuel time run = some done := by
  induction fuel generalizing run with
  | zero => exact absurd hf (Nat.not_lt_zero _)
  | succ fuel ih =>
    cases hdue : run.nextDeadline?.filter (· ≤ time) with
    | none => exact ⟨_, advanced_iff.2 (.clear hdue)⟩
    | some due =>
      obtain ⟨hn, hle⟩ := Option.filter_eq_some_iff.1 hdue
      obtain ⟨delay, target, context, hl, hlt⟩ := h.exists_leaving hn
      obtain ⟨next, hfire, hsmooth, -, hrest, -, hstate, -⟩ := h.elapse hd hq hl hn
      obtain ⟨done, hdone⟩ := ih hsmooth hrest (by rw [hstate]; omega)
      exact ⟨done, advanced_iff.2 (.fired hn (of_decide_eq_true hle)
        (fire_mono hfire (by omega)) (advanced_iff.1 hdone))⟩

/-- What an advance does that passes the deadline: the machine goes on there, and then the advance
goes on. -/
structure GoesOn (clock : W → Timestamp) (display : Display W) (config : Config)
    (run : Run State Event Context W O)
    (due time : Duration) (target : State) (context : Context)
    (next done : Run State Event Context W O) : Prop where
  smooth : Smooth clock display config next
  status : next.status = .running
  queue : next.queue = []
  now : next.now = due
  state : next.state = target
  context : next.context = context
  journal : ∃ event, next.journal =
    next.shown (some event) (.transitioned run.state target) :: run.journal
  rest : (assembled clock display config).Ends (.advanceTo time) next done
  ends : (assembled clock display config).Ends (.advanceTo time) run done
  later : next.journal <:+ done.journal

theorem Smooth.goesOn (h : Smooth clock display config run) (hd : display.Returns)
    (hq : run.queue = []) (hl : Leaving config run delay target context)
    (hn : run.nextDeadline? = some due) (hle : due ≤ time) :
    ∃ next done, GoesOn clock display config run due time target context next done := by
  obtain ⟨next, hfire, hsmooth, hr, hrest, hnow, hs, hc, hj⟩ := h.elapse hd hq hl hn
  obtain ⟨done, hdone⟩ := hsmooth.exists_advanceTo hd hrest time
    (Nat.lt_succ_self (toCome next.state))
  obtain ⟨steps, ht⟩ := advanceTrace_of_advanceTo hrest hdone
  refine ⟨next, done, hsmooth, hr, hrest, hnow, hs, hc, hj, ends_advanceTo_iff.2 ⟨_, hdone⟩,
    ends_advanceTo_iff.2 ⟨_, advanced_iff.2 (.fired hn hle (fire_mono hfire (by omega))
      (advanced_iff.1 hdone))⟩, (ht.leads (fun _ _ => True) hrest).steps.journal_suffix⟩

/-! ## One state -/

/-- The machine stays in its state until a deadline, whatever is sent, and goes on exactly there. -/
structure LeavesAt (m : Machine State Kind Event Context W) (run : Run State Event Context W O)
    (due : Duration) (target : State) (context : Context) : Prop where
  deadline : run.nextDeadline? = some due
  sends : ∀ event, ∃ next, m.Ends (.send event) run next ∧ Undisturbed run next
  early : ∀ call time, call.reach? run.now = some time → time < due →
    ∃ next, m.Ends call run next ∧ Undisturbed run next
  passes : ∀ call time, call.reach? run.now = some time → due ≤ time →
    ∃ done later snapshot, m.Ends call run done ∧
      done.journal = later ++ snapshot :: run.journal ∧
      snapshot.outcome = .transitioned run.state target ∧ snapshot.state = target ∧
      snapshot.context = context ∧ snapshot.time = due

theorem Smooth.leavesAt (h : Smooth clock display config run) (hd : display.Returns)
    (hr : run.status = .running) (hq : run.queue = [])
    (hl : Leaving config run delay target context) :
    ∃ entry due, run.entry? = some entry ∧ Enters entry run ∧
      due.total = min (entry.time.total + delay.total) Duration.maxTotal ∧
      LeavesAt (assembled clock display config) run due target context := by
  obtain ⟨entry, he, henters, hn⟩ := h.exists_entry hr hl
  refine ⟨entry, _, he, henters, Duration.total_add _ _, hn, ?_, ?_, ?_⟩
  · intro event
    obtain ⟨next, hends, hsame, -⟩ := h.ends_send hr hq hl event
    exact ⟨next, hends, hsame⟩
  · intro call time hreach ht
    exact ⟨_, (ends_iff_of_reach? hreach).2 (ends_early hn ht), rfl, rfl, rfl, rfl⟩
  · intro call time hreach hle
    obtain ⟨next, done, hgo⟩ := h.goesOn hd hq hl hn hle
    obtain ⟨event, hj⟩ := hgo.journal
    obtain ⟨later, hlater⟩ := hgo.later
    rw [hj] at hlater
    exact ⟨done, later, _, (ends_iff_of_reach? hreach).2 hgo.ends, hlater.symm, rfl, hgo.state,
      hgo.context, hgo.now⟩

/-! ## Back to the start -/

/-- The time at which the machine is to be back in its first state. -/
inductive BackAt (config : Config) (run : Run State Event Context W O) : Duration → Prop where
  | returning {due : Duration} : run.state = .returning → run.nextDeadline? = some due →
      BackAt config run due
  | dispensing {due : Duration} : run.state = .dispensing → run.nextDeadline? = some due →
      BackAt config run (due + config.returnDelay)

/-- Since the first run, the machine has come back to its first state at this time, with an empty
context. -/
def Returned (time : Duration) (run done : Run State Event Context W O) : Prop :=
  ∃ later, done.journal = later ++ run.journal ∧ ∃ snapshot ∈ later,
    snapshot.outcome = .transitioned .returning .idle ∧ snapshot.state = .idle ∧
      snapshot.context = .empty ∧ snapshot.time = time

variable {back : Duration}

theorem Returned.mono (h : Returned back next done) (hj : run.journal <:+ next.journal)
    {last : Run State Event Context W O} (hl : done.journal <:+ last.journal) :
    Returned back run last := by
  obtain ⟨later, hlater, snapshot, hmem, hsnapshot⟩ := h
  obtain ⟨between, hbetween⟩ := hj
  obtain ⟨after, hafter⟩ := hl
  refine ⟨after ++ later ++ between, ?_, snapshot, by simp [hmem], hsnapshot⟩
  rw [← hafter, hlater, ← hbetween]
  simp only [List.append_assoc]

theorem BackAt.undisturbed (h : BackAt config run back) (hu : Undisturbed run next) :
    BackAt config next back := by
  cases h with
  | returning hs hn => exact .returning (hu.state.trans hs) (hu.deadline.trans hn)
  | dispensing hs hn => exact .dispensing (hu.state.trans hs) (hu.deadline.trans hn)

theorem BackAt.exists_leaving (h : BackAt config run back) :
    ∃ delay target context, Leaving config run delay target context := by
  cases h with
  | returning hs => exact ⟨_, _, _, .returning hs⟩
  | dispensing hs => exact ⟨_, _, _, .dispensing hs⟩

/-- From the entry into the state it takes no longer than both delays. -/
theorem Smooth.exists_backAt (h : Smooth clock display config run) (hr : run.status = .running)
    (hs : run.state = .dispensing ∨ run.state = .returning) :
    ∃ back, BackAt config run back ∧
      back.total ≤ run.now.total + config.dispenseDelay.total + config.returnDelay.total := by
  rcases hs with hs | hs
  · obtain ⟨entry, -, henters, hn⟩ := h.exists_entry hr (.dispensing hs)
    have htime := Duration.le_def.1 henters.time
    refine ⟨_, .dispensing hs hn, ?_⟩
    simp only [Duration.total_add]
    omega
  · obtain ⟨entry, -, henters, hn⟩ := h.exists_entry hr (.returning hs)
    have htime := Duration.le_def.1 henters.time
    refine ⟨_, .returning hs hn, ?_⟩
    simp only [Duration.total_add]
    omega

/-- While the machine returns, an advance moves the clock only, or it comes back on the way. -/
theorem Smooth.advanceTo_returning (h : Smooth clock display config run) (hd : display.Returns)
    (hq : run.queue = []) (hs : run.state = .returning) (hn : run.nextDeadline? = some due)
    (ha : (assembled clock display config).Ends (.advanceTo time) run done) :
    Returned due run done ∨ time < due ∧ Undisturbed run done := by
  by_cases hle : due ≤ time
  · left
    obtain ⟨next, last, hgo⟩ := h.goesOn hd hq (.returning hs) hn hle
    obtain rfl := hgo.ends.unique ha
    obtain ⟨event, hj⟩ := hgo.journal
    obtain ⟨later, hlater⟩ := hgo.later
    refine ⟨later ++ [next.shown (some event) (.transitioned run.state .idle)], ?_, _,
      List.mem_append_right _ List.mem_cons_self, ?_, hgo.state, hgo.context, hgo.now⟩
    · rw [← hlater, hj, List.append_assoc]
      rfl
    · rw [Run.shown, hs]
  · right
    have ht : time < due := not_le.1 hle
    obtain rfl := (ends_early hn ht).unique ha
    exact ⟨ht, rfl, rfl, rfl, rfl⟩

/-- On its way back the machine is still on its way after an advance, or it has come back. -/
theorem Smooth.advanceTo_cases (h : Smooth clock display config run) (hd : display.Returns)
    (hr : run.status = .running) (hq : run.queue = []) (hb : BackAt config run back)
    (ha : (assembled clock display config).Ends (.advanceTo time) run done) :
    Returned back run done ∨
      time < back ∧ BackAt config done back ∧ done.status = .running := by
  cases hb with
  | returning hs hn =>
    rcases h.advanceTo_returning hd hq hs hn ha with hback | ⟨ht, hu⟩
    · exact .inl hback
    · exact .inr ⟨ht, .returning (hu.state.trans hs) (hu.deadline.trans hn), hu.status.trans hr⟩
  | @dispensing due hs hn =>
    by_cases hle : due ≤ time
    · obtain ⟨next, last, hgo⟩ := h.goesOn hd hq (.dispensing hs) hn hle
      obtain rfl := hgo.ends.unique ha
      obtain ⟨event, hj⟩ := hgo.journal
      have hentry : next.entry? = some (next.shown (some event) _) := Run.entry?_of_enters hj rfl
      obtain ⟨entry, he, -, hdeadline⟩ := hgo.smooth.exists_entry hgo.status (.returning hgo.state)
      cases he.symm.trans hentry
      have hdue : next.nextDeadline? = some (due + config.returnDelay) := by
        rw [hdeadline, ← hgo.now]
        rfl
      have hgrown : run.journal <:+ next.journal := by
        rw [hj]
        exact List.suffix_cons _ _
      rcases hgo.smooth.advanceTo_returning hd hgo.queue hgo.state hdue hgo.rest with
        hback | ⟨ht, hu⟩
      · exact .inl (hback.mono hgrown (List.suffix_refl _))
      · exact .inr ⟨ht, .returning (hu.state.trans hgo.state) (hu.deadline.trans hdue),
          hu.status.trans hgo.status⟩
    · have ht : time < due := not_le.1 hle
      obtain rfl := (ends_early hn ht).unique ha
      exact .inr ⟨lt_of_lt_of_le ht (Duration.le_add _ _), .dispensing hs hn, hr⟩

/-! ## Whole runs -/

def asked (calls : List (Made State Kind Event Context W O)) : List Nat :=
  calls.filterMap fun made => made.call.asked? made.run.now

theorem asked_append (before after : List (Made State Kind Event Context W O)) :
    asked (before ++ after) = asked before ++ asked after := List.filterMap_append

/-- The machine has come back, or it is on its way and the clock has gone on as far as it was asked to
go. -/
def OnItsWay (config : Config) (back : Duration) (first : Run State Event Context W O)
    (calls : List (Made State Kind Event Context W O)) (run : Run State Event Context W O) : Prop :=
  Returned back first run ∨ run.status = .running ∧ BackAt config run back ∧
    (asked calls = [] ∨ run.now < back) ∧
    min (first.now.total + (asked calls).sum) Duration.maxTotal ≤ run.now.total

variable {first : Run State Event Context W O} {calls : List (Made State Kind Event Context W O)}

theorem OnItsWay.of_undisturbed (h : OnItsWay config back first calls run) (hu : Undisturbed run next)
    (hnow : next.now = run.now) (hj : run.journal <:+ next.journal)
    {more : List (Made State Kind Event Context W O)} (hm : asked more = []) :
    OnItsWay config back first (calls ++ more) next := by
  have hsame : asked (calls ++ more) = asked calls := by rw [asked_append, hm, List.append_nil]
  rcases h with hback | ⟨hr, hb, hearly, hfar⟩
  · exact .inl (hback.mono (List.suffix_refl _) hj)
  · right
    rw [hsame, hnow]
    exact ⟨hu.status.trans hr, hb.undisturbed hu, hearly, hfar⟩

/-- An advance asks the clock to go on to the time that it reaches, unless that lies in the past. -/
theorem asked_of_reach? {call : Call Kind Event} {answer : Answer}
    (h : call.reach? run.now = some time) :
    (asked [⟨run, call, answer, next⟩] = [] ∧ time < run.now) ∨
      run.now ≤ time ∧ ∃ amount, asked [⟨run, call, answer, next⟩] = [amount] ∧
        time.total = min (run.now.total + amount) Duration.maxTotal := by
  cases call with
  | advance elapsed =>
    cases h
    exact .inr ⟨Duration.le_add _ _, elapsed.total, rfl, Duration.total_add _ _⟩
  | advanceTo goal =>
    cases h
    by_cases hle : run.now ≤ time
    · refine .inr ⟨hle, time.total - run.now.total, ?_, ?_⟩
      · simp [asked, Call.asked?, hle]
      · have hmax := time.total_le
        rw [Duration.le_def] at hle
        omega
    · refine .inl ⟨?_, not_le.1 hle⟩
      simp [asked, Call.asked?, hle]
  | start | send | stop | can => cases h

theorem OnItsWay.advance (h : OnItsWay config back first calls run) (hd : display.Returns)
    (hs : Smooth clock display config run) (hq : run.queue = [])
    (hj : first.journal <:+ run.journal)
    {call : Call Kind Event} {answer : Answer} (hreach : call.reach? run.now = some time)
    (ha : (assembled clock display config).Ends (.advanceTo time) run next)
    (hgrown : run.journal <:+ next.journal) :
    OnItsWay config back first (calls ++ [⟨run, call, answer, next⟩]) next := by
  rcases h with hback | ⟨hr, hb, hearly, hfar⟩
  · exact .inl (hback.mono (List.suffix_refl _) hgrown)
  rcases hs.advanceTo_cases hd hr hq hb ha with hback | ⟨ht, hb', hr'⟩
  · exact .inl (hback.mono hj (List.suffix_refl _))
  right
  obtain ⟨fuel, hadvance⟩ := ends_advanceTo_iff.1 ha
  have hnow : next.now = max run.now time := now_advanceTo hadvance
  rw [asked_append]
  rcases asked_of_reach? hreach with ⟨hnone, hpast⟩ | ⟨hle, amount, hsome, htime⟩
  · have hsame : next.now = run.now := hnow.trans (max_eq_left (le_of_lt hpast))
    rw [hnone, List.append_nil, hsame]
    exact ⟨hr', hb', hearly, hfar⟩
  · have hat : next.now = time := hnow.trans (max_eq_right hle)
    rw [hsome, List.sum_append, List.sum_singleton, hat]
    refine ⟨hr', hb', .inr ht, ?_⟩
    rw [htime]
    omega

/-- No call but a stop keeps the machine from coming back. -/
theorem OnItsWay.call (h : OnItsWay config back first calls run) (hd : display.Returns)
    (hs : Smooth clock display config run) (hq : run.queue = [])
    (hj : first.journal <:+ run.journal)
    {fuel : Nat} {call : Call Kind Event} {answer : Answer}
    {steps : List (Run State Event Context W O × Happening Kind Event)}
    (hc : (assembled clock display config).call fuel call run = some (next, answer))
    (ht : (assembled clock display config).CallTrace call run steps next answer)
    (hstop : call ≠ .stop) :
    OnItsWay config back first (calls ++ [⟨run, call, answer, next⟩]) next := by
  have hgrown : run.journal <:+ next.journal := (ht.arrives hq).steps.journal_suffix
  have hends : (assembled clock display config).Ends call run next := ⟨fuel, answer, hc⟩
  cases h with
  | inl hback => exact .inl (hback.mono (List.suffix_refl _) hgrown)
  | inr hway =>
    have h : OnItsWay config back first calls run := .inr hway
    obtain ⟨hr, hb, -⟩ := hway
    cases call with
    | start =>
      cases ht with
      | begun hnot | refused hnot => cases hr.symm.trans hnot
      | late => exact h.of_undisturbed (.refl run) rfl hgrown rfl
    | send event =>
      obtain ⟨delay, target, context, hl⟩ := hb.exists_leaving
      obtain ⟨last, hlast, hu, hnow⟩ := hs.ends_send hr hq hl event
      obtain rfl := hlast.unique hends
      exact h.of_undisturbed hu hnow hgrown rfl
    | advance elapsed =>
      exact h.advance hd hs hq hj rfl ((ends_iff_of_reach? rfl).1 hends) hgrown
    | advanceTo goal => exact h.advance hd hs hq hj rfl hends hgrown
    | stop => exact absurd rfl hstop
    | can kind =>
      cases ht
      rw [canTransition_fst] at hgrown ⊢
      exact h.of_undisturbed (.refl run) rfl hgrown rfl

theorem OnItsWay.chronicle {trace : List (Run State Event Context W O × Happening Kind Event)}
    (hfirst : OnItsWay config back first [] first) (hd : display.Returns)
    (hs : Smooth clock display config first) (hq : first.queue = [])
    (h : (assembled clock display config).Chronicle first calls trace run)
    (hstop : ∀ made ∈ calls, made.call ≠ .stop) : OnItsWay config back first calls run := by
  induction h with
  | first => exact hfirst
  | @call calls trace steps run next fuel call answer h hc ht ih =>
    have hl := h.leads hq
    exact (ih fun made hmem => hstop made (List.mem_append_left _ hmem)).call hd
      (hs.steps hd hl.steps) hl.rest hl.steps.journal_suffix hc ht
      (hstop _ (List.mem_append_right _ List.mem_cons_self))
  | @subscribe calls trace run callback _ ih =>
    have hu : Undisturbed run (run.subscribe callback) := ⟨rfl, rfl, rfl, rfl⟩
    have hon : OnItsWay config back first (calls ++ []) (run.subscribe callback) :=
      (ih hstop).of_undisturbed hu rfl (List.suffix_refl _) rfl
    rwa [List.append_nil] at hon
  | @unsubscribe calls trace run id _ ih =>
    have hu : Undisturbed run (run.unsubscribe id) := ⟨rfl, rfl, rfl, rfl⟩
    have hon : OnItsWay config back first (calls ++ []) (run.unsubscribe id) :=
      (ih hstop).of_undisturbed hu rfl (List.suffix_refl _) rfl
    rwa [List.append_nil] at hon

/-- Once the clock was asked to go on for both delays, the machine has come back. -/
theorem Smooth.returned {trace : List (Run State Event Context W O × Happening Kind Event)}
    (hs : Smooth clock display config first) (hd : display.Returns) (hr : first.status = .running)
    (hq : first.queue = []) (hb : BackAt config first back)
    (hback : back.total ≤ first.now.total + config.dispenseDelay.total + config.returnDelay.total)
    (h : (assembled clock display config).Chronicle first calls trace run)
    (hstop : ∀ made ∈ calls, made.call ≠ .stop) (hne : asked calls ≠ [])
    (hsum : config.dispenseDelay.total + config.returnDelay.total ≤ (asked calls).sum) :
    Returned back first run := by
  have hfirst : OnItsWay config back first [] first := by
    refine .inr ⟨hr, hb, .inl rfl, ?_⟩
    exact Nat.min_le_left _ _
  rcases hfirst.chronicle hd hs hq h hstop with hreturned | ⟨-, -, hearly, hfar⟩
  · exact hreturned
  · have hlt := Duration.lt_def.1 (hearly.resolve_left hne)
    have hmax := back.total_le
    omega

/-! ## Sales -/

/-- However long the delays are, as long as the machine is not stopped it dispenses and returns for
exactly as long as it is set to, from the entry on and at most up to the longest duration, whatever
is sent. From a run in which it dispenses or returns it is back in its first state, with an empty
context, at one time for all that can follow, as soon as advances were asked for that make up both
delays together. -/
theorem sales_on_time {m : Machine State Kind Event Context W} (hd : display.Returns)
    (hm : machine clock display config = .ok m) (hr : m.Reachable run)
    (hstop : run.status ≠ .stopped) :
    (run.state = .dispensing → ∃ entry due, run.entry? = some entry ∧ Enters entry run ∧
      due.total = min (entry.time.total + config.dispenseDelay.total) Duration.maxTotal ∧
      LeavesAt m run due .returning
        { run.context with change := run.context.changeAfterPurchase }) ∧
    (run.state = .returning → ∃ entry due, run.entry? = some entry ∧ Enters entry run ∧
      due.total = min (entry.time.total + config.returnDelay.total) Duration.maxTotal ∧
      LeavesAt m run due .idle .empty) ∧
    (run.state = .dispensing ∨ run.state = .returning → ∃ back : Duration,
      back.total ≤ run.now.total + config.dispenseDelay.total + config.returnDelay.total ∧
      ∀ calls trace done, m.Chronicle run calls trace done → (∀ made ∈ calls, made.call ≠ .stop) →
        asked calls ≠ [] →
        config.dispenseDelay.total + config.returnDelay.total ≤ (asked calls).sum →
        Returned back run done) := by
  obtain rfl : assembled clock display config = m :=
    Except.ok.inj ((machine_eq_ok clock display config).symm.trans hm)
  have hs := smooth_of_reachable hd hr
  have hq := hr.queue_eq_nil
  have hrunning : ∀ state, run.state = state → state ≠ .idle → run.status = .running := by
    rintro state rfl hstate
    cases hstatus : run.status with
    | notStarted => exact absurd (hs.unstarted hstatus) hstate
    | running => rfl
    | stopped => exact absurd hstatus hstop
  refine ⟨?_, ?_, ?_⟩
  · intro hdispensing
    exact hs.leavesAt hd (hrunning _ hdispensing (by decide)) hq (.dispensing hdispensing)
  · intro hreturning
    exact hs.leavesAt hd (hrunning _ hreturning (by decide)) hq (.returning hreturning)
  · intro hstate
    have hrun : run.status = .running := by
      rcases hstate with h | h
      · exact hrunning _ h (by decide)
      · exact hrunning _ h (by decide)
    obtain ⟨back, hb, hback⟩ := hs.exists_backAt hrun hstate
    exact ⟨back, hback, fun calls trace done h hstops hne hsum =>
      hs.returned hd hrun hq hb hback h hstops hne hsum⟩

/-- A purchase up to the moment at which the item is on its way. -/
def boughtCalls : List (Call Kind Event) :=
  [.start, .send .start, .send (.selectItem slipper), .send (.insertMoney 30000), .send .purchase]

/-- What a client does who has paid, tries to call it off, and reports a timer that has not run
out. -/
def hastyCalls : List (Call Kind Event) :=
  [.advance (.ofMillis 1500), .send .cancel, .send (.timerElapsed ⟨1⟩), .advance (.ofMillis 2500)]

/-- The item is on its way for two seconds and the change for two more, whatever the client does. -/
theorem sales_on_time_purchase :
    ∃ (run done : Run State Event Context Unit Unit)
      (calls : List (Made State Kind Event Context Unit Unit))
      (trace : List (Run State Event Context Unit Unit × Happening Kind Event)) (due back : Duration),
      run.state = .dispensing ∧ due.total = (Duration.ofMillis 2000).total ∧
      LeavesAt (assembled standing Display.blank {}) run due .returning
        ⟨30000, some slipper, 5000⟩ ∧
      (assembled standing Display.blank {}).Chronicle run calls trace done ∧
      calls.map Made.exchange = hastyCalls.map (·, .done) ∧ Returned back run done := by
  have hd : (Display.blank : Display Unit).Returns := fun _ _ => rfl
  have hbefore : ((assembled standing Display.blank {}).calls 1 boughtCalls
      ((assembled standing Display.blank {}).newRun () ())).map (fun result =>
        (result.1.status, result.1.state, result.1.context,
          (Run.entry? result.1).map (·.time))) =
      some (.running, .dispensing, ⟨30000, some slipper, 0⟩, some .zero) := rfl
  have hafter : (((assembled standing Display.blank {}).calls 1 boughtCalls
      ((assembled standing Display.blank {}).newRun () ())).bind fun result =>
        (assembled standing Display.blank {}).calls 3 hastyCalls result.1).map (·.2) =
      some (hastyCalls.map fun _ => .done) := rfl
  obtain ⟨⟨run, answers⟩, hcalls, hrun⟩ := Option.map_eq_some_iff.1 hbefore
  simp only [Prod.mk.injEq] at hrun
  obtain ⟨hstatus, hstate, hcontext, htime⟩ := hrun
  rw [hcalls, Option.bind_some] at hafter
  obtain ⟨⟨done, rest⟩, hmore, hrest⟩ := Option.map_eq_some_iff.1 hafter
  have hr : Reached (assembled standing Display.blank {}) (fun _ _ => True)
      ((assembled standing Display.blank {}).newRun () ()) run :=
    Reached.first.calls (fun _ _ _ => trivial) hcalls
  obtain ⟨hdispensing, -, hback⟩ := sales_on_time hd (machine_eq_ok standing Display.blank {})
    ⟨(), (), hr⟩ (by rw [hstatus]; decide)
  obtain ⟨entry, due, he, -, hdue, hleaves⟩ := hdispensing hstate
  obtain ⟨back, -, hreturned⟩ := hback (.inl hstate)
  obtain ⟨calls, trace, hmade, h⟩ := exists_chronicle_of_calls (hr.settles rfl).1 hmore
  have hzero : entry.time = .zero := by
    rw [he] at htime
    exact Option.some.inj htime
  rw [hcontext] at hleaves
  rw [hzero] at hdue
  obtain rfl : rest = hastyCalls.map fun _ => .done := hrest
  refine ⟨run, done, calls, trace, due, back, hstate, hdue, hleaves, h, hmade, ?_⟩
  obtain ⟨first, calls, rfl, hfirst, hmade⟩ := List.map_eq_cons_iff.1 hmade
  obtain ⟨second, calls, rfl, hsecond, hmade⟩ := List.map_eq_cons_iff.1 hmade
  obtain ⟨third, calls, rfl, hthird, hmade⟩ := List.map_eq_cons_iff.1 hmade
  obtain ⟨fourth, calls, rfl, hfourth, hmade⟩ := List.map_eq_cons_iff.1 hmade
  obtain rfl := List.map_eq_nil_iff.1 hmade
  simp only [Made.exchange, Prod.mk.injEq] at hfirst hsecond hthird hfourth
  have hasked : asked [first, second, third, fourth] =
      [(Duration.ofMillis 1500).total, (Duration.ofMillis 2500).total] := by
    simp [asked, Call.asked?, hfirst, hsecond, hthird, hfourth]
  refine hreturned _ trace done h ?_ ?_ ?_
  · simp [hfirst, hsecond, hthird, hfourth]
  · rw [hasked]
    exact List.cons_ne_nil _ _
  · rw [hasked]
    decide

end Vending

end Automat
