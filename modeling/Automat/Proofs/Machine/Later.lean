import Automat.Proofs.Machine.Clients
import Automat.Proofs.Machine.Records

/-!
Runs that are alike but for the time. A run may be put off by a duration, with its clock, its
deadline and all that it has recorded (`Run.later`), and everything that a machine does goes the same
way on both, as long as no time is cut off at the longest duration (`call_later`). So a machine goes
by relative times alone (`relative_time`).
-/

namespace Automat

/-! ## Putting off -/

section

variable {S K E C W O : Type} (d : Duration)

def Timer.later (timer : Timer S) : Timer S := { timer with due := timer.due + d }

def Timers.later (timers : Timers S) : Timers S :=
  { timers with armed := timers.armed.map (Timer.later d) }

def Transition.later (transition : Transition S) : Transition S :=
  { transition with time := transition.time + d }

def History.later (history : History S) : History S :=
  { history with transitions := history.transitions.map (Transition.later d) }

def Snapshot.later (snapshot : Snapshot S C E) : Snapshot S C E :=
  { snapshot with time := snapshot.time + d }

/-- The same course, with all times later by a duration. -/
def Course.later (course : Course S E C W) : Course S E C W :=
  { course with
    now := course.now + d
    timers := course.timers.later d
    history := course.history.later d
    journal := course.journal.map (Snapshot.later d) }

/-- The same run, with all times later by a duration, and nobody in the audience. -/
def Run.later (run : Run S E C W O) : Run S E C W Unit :=
  { toCourse := run.toCourse.later d, audience := .empty () }

/-- The same call, with the time later by a duration if it names a point in time. -/
def Call.later : Call K E → Call K E
  | .advanceTo time => .advanceTo (time + d)
  | call => call

variable {d}

/-! ## Parts of a run -/

theorem Timers.arm_later (owner : S) (visit : Nat) (now delay : Duration) (timers : Timers S) :
    (timers.later d).arm owner visit (now + d) delay =
      (timers.arm owner visit now delay).later d := by
  simp only [arm, later, Timer.later, Option.map_some, add_right_comm now d]
  rfl

theorem Timers.isLive_later (id : TimerId) (visit : Nat) (timers : Timers S) :
    (timers.later d).isLive id visit = timers.isLive id visit := by
  unfold isLive later
  cases timers.armed <;> rfl

theorem Timers.nextDue?_later (timers : Timers S) :
    (timers.later d).nextDue? = timers.nextDue?.map (· + d) := by
  unfold nextDue? later
  cases timers.armed with
  | none => rfl
  | some timer =>
    simp only [Option.map_some, Timer.later]
    split <;> rfl

theorem Timers.fire?_later {timers fired : Timers S} {now : Duration} {id : TimerId}
    (h : timers.fire? now = some (id, fired)) :
    (timers.later d).fire? (now + d) = some (id, fired.later d) := by
  obtain ⟨timer, ha, hf, hle, rfl, rfl⟩ := Timers.fire?_eq_some_iff.1 h
  refine Timers.fire?_eq_some_iff.2 ⟨timer.later d, ?_, hf, Duration.add_le_add_right hle d, rfl, rfl⟩
  rw [later, ha]
  rfl

theorem History.record_later (transition : Transition S) (history : History S) :
    (history.later d).record (transition.later d) = (history.record transition).later d := by
  simp only [record, later, List.length_map]
  split
  · rfl
  · simp only [List.map_append, List.map_drop, List.map_cons, List.map_nil]

theorem History.path_later (history : History S) : (history.later d).path = history.path := by
  simp only [path, later, List.head?_map, Option.map_map, List.map_map]
  rfl

theorem Run.moveClock_later (time : Duration) (run : Run S E C W O) :
    (run.later d).moveClock (time + d) = (run.moveClock time).later d := by
  simp only [moveClock, later, Course.later, Duration.max_add]

theorem Run.nextDeadline?_later (run : Run S E C W O) :
    (run.later d).nextDeadline? = run.nextDeadline?.map (· + d) := by
  have hdue : (run.later d).timers.nextDue? = _ := run.timers.nextDue?_later
  have hstatus : (run.later d).status = run.status := rfl
  unfold nextDeadline?
  rw [hdue, hstatus]
  split <;> rfl

theorem Run.dequeue?_later (run : Run S E C W O) :
    (run.later d).dequeue? = run.dequeue?.map fun (event, rest) => (event, rest.later d) := by
  unfold dequeue?
  cases hs : run.status <;> cases hq : run.queue <;> simp [later, Course.later, hs, hq]

theorem Run.stop_later (run : Run S E C W O) : (run.later d).stop = run.stop.later d := by
  have hstatus : (run.later d).status = run.status := rfl
  unfold stop
  rw [hstatus]
  split <;> rfl

end

namespace Machine

variable {S K E C W O : Type} [DecidableEq S] {m : Machine S K E C W} {d : Duration}

/-! ## Processing events -/

theorem arm_later (run : Run S E C W O) : m.arm (run.later d) = (m.arm run).later d := by
  have hstate : (run.later d).state = run.state := rfl
  unfold arm
  rw [hstate]
  cases m.definition.after? run.state with
  | none => rfl
  | some after =>
    have harm : (run.later d).timers.arm run.state run.visit (run.later d).now after.delay = _ :=
      Timers.arm_later run.state run.visit run.now after.delay run.timers
    show (run.later d).withTimers ((run.later d).timers.arm run.state run.visit (run.later d).now
      after.delay) = _
    rw [harm]
    rfl

theorem commit_later [Named K] [EventLike E K] (target : Option S) (event : E)
    (draft : Draft E C W) (run : Run S E C W O) :
    m.commit target event draft (run.later d) = (m.commit target event draft run).later d := by
  cases target with
  | none => rfl
  | some target =>
    have hmove : ((run.later d).adopt draft).moveTo target (name (EventLike.kind event))
        (m.clock draft.world) =
          ((run.adopt draft).moveTo target (name (EventLike.kind event))
            (m.clock draft.world)).later d := by
      have hrecord (record : Transition S) :
          (run.history.later d).record (record.later d) = (run.history.record record).later d :=
        History.record_later record run.history
      simp only [Run.moveTo, Run.adopt, Run.later, Course.later, ← hrecord]
      rfl
    simp only [commit, enter]
    show (((m.arm (((run.later d).adopt draft).moveTo target (name (EventLike.kind event))
      (m.clock draft.world))).publish _ _).enqueue _) = _
    rw [hmove, arm_later]
    rfl

variable [Named S] [Named K] [EventLike E K]

theorem apply_later (target : Option S) (actions : List String) (event : E)
    (run : Run S E C W O) :
    m.apply target actions event (run.later d) = (m.apply target actions event run).later d := by
  have hstate : (run.later d).state = run.state := rfl
  have hperform : m.perform (some event)
      (m.ruleSteps run.state actions (target.filter (· ≠ run.state)))
      ⟨(run.later d).context, [], (run.later d).world⟩ = m.perform (some event)
      (m.ruleSteps run.state actions (target.filter (· ≠ run.state)))
      ⟨run.context, [], run.world⟩ := rfl
  simp only [apply, hstate, hperform]
  cases m.perform (some event) (m.ruleSteps run.state actions (target.filter (· ≠ run.state)))
      ⟨run.context, [], run.world⟩ with
  | mk draft failure? =>
    cases failure? with
    | none => exact commit_later _ event draft run
    | some failure => rfl

theorem applyGuarded_later (rule : Rule S) (event : E) (run : Run S E C W O) :
    m.applyGuarded rule event (run.later d) = (m.applyGuarded rule event run).later d := by
  unfold applyGuarded
  cases rule.guard with
  | none => exact apply_later rule.target rule.actions event run
  | some guard =>
    have hcheck : m.check guard (run.later d).state (some event) (run.later d).context
        (run.later d).world = m.check guard run.state (some event) run.context run.world := rfl
    simp only [hcheck]
    cases m.check guard run.state (some event) run.context run.world with
    | mk world answer =>
      rcases answer with failure | _ | _
      · rfl
      · rfl
      · exact apply_later rule.target rule.actions event (run.withWorld world)

theorem applyDelayed_later (node : Node S K) (timer : TimerId) (event : E) (run : Run S E C W O) :
    m.applyDelayed node timer event (run.later d) =
      (m.applyDelayed node timer event run).later d := by
  unfold applyDelayed
  cases node.after with
  | none => rfl
  | some after =>
    have hlive : (run.later d).timers.isLive timer (run.later d).visit =
        run.timers.isLive timer run.visit := Timers.isLive_later timer run.visit run.timers
    simp only [hlive]
    split
    · exact apply_later (some after.target) after.actions event run
    · rfl

variable [DecidableEq K]

/-- What becomes of an event has nothing to do with the time. -/
theorem process_later (event : E) (run : Run S E C W O) :
    m.process event (run.later d) = (m.process event run).later d := by
  have hstate : (run.later d).state = run.state := rfl
  unfold process
  rw [hstate]
  cases m.definition.node? run.state with
  | none => rfl
  | some node =>
    by_cases hw : EventLike.isWellFormed event = true
    · simp only [if_pos hw]
      cases EventLike.elapsedTimer? event with
      | some timer => exact applyDelayed_later node timer event run
      | none =>
        cases node.rule? (EventLike.kind event) with
        | none => rfl
        | some rule => exact applyGuarded_later rule event run
    · simp only [if_neg hw]
      rfl

theorem drain_later (fuel : Nat) (run : Run S E C W O) :
    m.drain fuel (run.later d) = (m.drain fuel run).map (Run.later d) := by
  induction fuel generalizing run with
  | zero =>
    unfold drain
    rw [Run.dequeue?_later]
    cases run.dequeue? <;> rfl
  | succ fuel ih =>
    unfold drain
    rw [Run.dequeue?_later]
    cases run.dequeue? with
    | none => rfl
    | some next =>
      simp only [Option.map_some, process_later]
      exact ih _

/-! ## Calls -/

/-- The timer that is due fires, at its own time. -/
theorem fire_later (fuel : Nat) {run : Run S E C W O} {due : Duration}
    (hd : run.nextDeadline? = some due) :
    m.fire fuel ((run.later d).moveClock (due + d)) =
      (m.fire fuel (run.moveClock due)).map (Run.later d) := by
  obtain ⟨id, timers, hf⟩ := Run.exists_fire?_of_nextDeadline? hd
  have hlater : ((run.moveClock due).later d).timers.fire? ((run.moveClock due).later d).now =
      some (id, timers.later d) := Timers.fire?_later hf
  rw [Run.moveClock_later]
  unfold fire
  rw [hf, hlater]
  exact drain_later fuel (((run.moveClock due).withTimers timers).enqueue [EventLike.ofTimer id])

end Machine

/-- No time of the course is cut off when it is put off. -/
structure Course.Fits {S E C W : Type} (d : Duration) (course : Course S E C W) : Prop where
  now : course.now.total + d.total ≤ Duration.maxTotal
  due : ∀ timer, course.timers.armed = some timer →
    timer.due.total + d.total ≤ Duration.maxTotal

theorem Course.fits_iff {S E C W : Type} {d : Duration} {course : Course S E C W} :
    (course.now.total + d.total ≤ Duration.maxTotal ∧ course.timers.armed.all
      fun timer => timer.due.total + d.total ≤ Duration.maxTotal) ↔ course.Fits d := by
  rw [Option.all_eq_true]
  constructor
  · rintro ⟨hnow, hdue⟩
    exact ⟨hnow, fun timer ha => of_decide_eq_true (hdue timer ha)⟩
  · rintro ⟨hnow, hdue⟩
    exact ⟨hnow, fun timer ha => decide_eq_true (hdue timer ha)⟩

instance {S E C W : Type} (d : Duration) (course : Course S E C W) : Decidable (course.Fits d) :=
  decidable_of_iff _ Course.fits_iff

namespace Machine

variable {S K E C W O : Type} [DecidableEq S] [DecidableEq K] [Named S] [Named K] [EventLike E K]
variable {m : Machine S K E C W} {d : Duration}

omit [DecidableEq S] [DecidableEq K] [Named S] [Named K] [EventLike E K] in
theorem filter_nextDeadline?_later_of_some {run : Run S E C W O} {time due : Duration}
    (h : run.nextDeadline?.filter (· ≤ time) = some due) :
    (run.later d).nextDeadline?.filter (· ≤ time + d) = some (due + d) := by
  obtain ⟨hdue, hle⟩ := Option.filter_eq_some_iff.1 h
  rw [Run.nextDeadline?_later, hdue, Option.map_some, Option.filter_some,
    if_pos (decide_eq_true (Duration.add_le_add_right (of_decide_eq_true hle) d))]

omit [DecidableEq S] [DecidableEq K] [Named S] [Named K] [EventLike E K] in
/-- A deadline that is not reached is not reached later, unless it is cut off. -/
theorem filter_nextDeadline?_later_of_none {run : Run S E C W O} {time : Duration}
    (h : run.nextDeadline?.filter (· ≤ time) = none) (hfits : (run.moveClock time).Fits d) :
    (run.later d).nextDeadline?.filter (· ≤ time + d) = none := by
  rw [Run.nextDeadline?_later, Option.filter_eq_none_iff]
  intro later hl hle
  obtain ⟨due, hd, rfl⟩ := Option.map_eq_some_iff.1 hl
  have hlt := Run.lt_of_nextDeadline? h hd
  obtain ⟨-, timer, ha, -, rfl⟩ := Run.nextDeadline?_eq_some_iff.1 hd
  have hdue := hfits.due timer ha
  have hshort := of_decide_eq_true hle
  rw [Duration.lt_def] at hlt
  rw [Duration.le_def, Duration.total_add, Duration.total_add] at hshort
  omega

/-- The same timers fire on the way, and the clock comes to rest in front of the same deadline. -/
theorem advanceTo_later (fuel : Nat) {time : Duration} {run : Run S E C W O}
    (hfits : ∀ done, m.advanceTo fuel time run = some done → done.Fits d) :
    m.advanceTo fuel (time + d) (run.later d) =
      (m.advanceTo fuel time run).map (Run.later d) := by
  have hclear (fuel : Nat) (run : Run S E C W O)
      (hfits : ∀ done, m.advanceTo fuel time run = some done → done.Fits d)
      (hd : run.nextDeadline?.filter (· ≤ time) = none) :
      m.advanceTo fuel (time + d) (run.later d) =
        (m.advanceTo fuel time run).map (Run.later d) := by
    have hdone : m.advanceTo fuel time run = some (run.moveClock time) :=
      advanced_iff.2 (.clear hd)
    have hlater := filter_nextDeadline?_later_of_none hd (hfits _ hdone)
    rw [hdone, advanced_iff.2 (.clear hlater), Run.moveClock_later]
    rfl
  induction fuel generalizing run with
  | zero =>
    cases hd : run.nextDeadline?.filter (· ≤ time) with
    | none => exact hclear 0 run hfits hd
    | some due =>
      unfold advanceTo
      rw [filter_nextDeadline?_later_of_some hd, hd]
      rfl
  | succ fuel ih =>
    cases hd : run.nextDeadline?.filter (· ≤ time) with
    | none => exact hclear (fuel + 1) run hfits hd
    | some due =>
      unfold advanceTo at hfits ⊢
      rw [filter_nextDeadline?_later_of_some hd, hd]
      simp only [hd] at hfits
      simp only [fire_later fuel (Option.filter_eq_some_iff.1 hd).1]
      cases hf : m.fire fuel (run.moveClock due) with
      | none => rfl
      | some fired =>
        rw [hf] at hfits
        exact ih hfits

theorem start_later (fuel : Nat) (run : Run S E C W O) :
    m.start fuel (run.later d) =
      (m.start fuel run).map fun (next, result) => (next.later d, result) := by
  have hstatus : (run.later d).status = run.status := rfl
  have hworld : (run.later d).world = run.world := rfl
  simp only [start, hstatus, hworld]
  split
  · cases m.perform none (m.entrySteps m.definition.initial) ⟨m.context, [], run.world⟩ with
    | mk draft failure? =>
      cases failure? with
      | some failure => rfl
      | none =>
        have henter : m.enterInitial draft (run.later d) =
            (m.enterInitial draft run).later d := by
          have harm : m.arm (((run.adopt draft).begin m.definition.initial).later d) = _ :=
            arm_later _
          simp only [enterInitial]
          show ((m.arm (((run.adopt draft).begin m.definition.initial).later d)).publish _ _).enqueue
            _ = _
          rw [harm]
          rfl
        simp only [henter, drain_later]
        cases m.drain fuel (m.enterInitial draft run) <;> rfl
  · rfl

theorem send_later (fuel : Nat) (event : E) (run : Run S E C W O) :
    m.send fuel event (run.later d) = (m.send fuel event run).map (Run.later d) := by
  have hstatus : (run.later d).status = run.status := rfl
  simp only [send, hstatus]
  split
  · exact drain_later fuel (run.enqueue [event])
  · rfl

theorem canTransition_later (kind : K) (run : Run S E C W O) :
    m.canTransition kind (run.later d) = (m.canTransition kind run).map (Run.later d) id := by
  have hstatus : (run.later d).status = run.status := rfl
  have hstate : (run.later d).state = run.state := rfl
  simp only [canTransition, hstatus, hstate]
  split
  · cases m.definition.rule? run.state kind with
    | none => rfl
    | some rule =>
      cases hg : rule.guard with
      | none =>
        simp only [hg]
        rfl
      | some guard =>
        have hcheck : m.check guard run.state none (run.later d).context (run.later d).world =
            m.check guard run.state none run.context run.world := rfl
        simp only [hg, hcheck]
        cases m.check guard run.state none run.context run.world with
        | mk world answer => cases answer <;> rfl
  · rfl

/-- A call goes the same way later, and gives the same answer. -/
theorem call_later (fuel : Nat) {call : Call K E} {run : Run S E C W O}
    (hfits : ∀ next answer, m.call fuel call run = some (next, answer) → next.Fits d) :
    m.call fuel (call.later d) (run.later d) =
      (m.call fuel call run).map fun (next, answer) => (next.later d, answer) := by
  cases call with
  | start =>
    simp only [Machine.call, Call.later, start_later]
    rcases m.start fuel run with _ | ⟨next, _ | _⟩ <;> rfl
  | send event =>
    simp only [Machine.call, Call.later, send_later]
    cases m.send fuel event run <;> rfl
  | advance elapsed =>
    have hclock : (run.later d).now + elapsed = run.now + elapsed + d :=
      add_right_comm run.now d elapsed
    have hdone : ∀ done, m.advanceTo fuel (run.now + elapsed) run = some done → done.Fits d := by
      intro done hdone
      refine hfits done .done ?_
      simp only [Machine.call, advance, hdone, Option.map_some]
    simp only [Machine.call, Call.later, advance, hclock, advanceTo_later fuel hdone]
    cases m.advanceTo fuel (run.now + elapsed) run <;> rfl
  | advanceTo time =>
    have hdone : ∀ done, m.advanceTo fuel time run = some done → done.Fits d := by
      intro done hdone
      refine hfits done .done ?_
      simp only [Machine.call, hdone, Option.map_some]
    simp only [Machine.call, Call.later, advanceTo_later fuel hdone]
    cases m.advanceTo fuel time run <;> rfl
  | stop =>
    simp only [Machine.call, Call.later, Run.stop_later]
    rfl
  | can kind =>
    simp only [Machine.call, Call.later, canTransition_later]
    rfl

/-! ## Sessions -/

/-- A session later goes the same way with the same calls, if no time in it is cut off. -/
theorem courses_session_later (fuel : Nat) {own : List (Interaction S K E C O)}
    {run : Run S E C W O}
    (hfits : ∀ before stages, before <+: own → m.session fuel before run = some stages →
      ∀ entry ∈ courses stages, entry.2.Fits d) :
    (m.session fuel ((own.filterMap Interaction.call?).map fun call => .call (call.later d))
        (run.later d)).map courses =
      ((m.session fuel own run).map courses).map (·.map (Prod.map id (Course.later d))) := by
  induction own generalizing run with
  | nil => rfl
  | cons first rest ih =>
    -- What is put in front of a part of the rest is a part of the whole.
    have hrest {stage : Option Answer × Run S E C W O}
        (hfirst : m.interact fuel first run = some stage) :
        ∀ before stages, before <+: rest → m.session fuel before stage.2 = some stages →
          ∀ entry ∈ courses (stage :: stages), entry.2.Fits d := by
      intro before stages hbefore hs
      refine hfits (first :: before) (stage :: stages) (List.cons_prefix_cons.2 ⟨rfl, hbefore⟩) ?_
      simp only [Machine.session, hfirst, hs, Option.bind_eq_bind, Option.bind_some]
    cases first with
    | call call =>
      have hinteract (next : Run S E C W O) (answer : Answer)
          (hnext : m.call fuel call run = some (next, answer)) :
          m.interact fuel (.call call) run = some (some answer, next) := by
        simp only [interact, hnext, Option.map_some]
      have hdone (next : Run S E C W O) (answer : Answer)
          (hnext : m.call fuel call run = some (next, answer)) : next.Fits d :=
        hrest (hinteract next answer hnext) [] [] List.nil_prefix rfl (answer, next.toCourse)
          List.mem_cons_self
      have hcall : m.call fuel (call.later d) (run.later d) = _ := call_later fuel hdone
      rw [courses_session_call]
      show (m.session fuel (.call (call.later d) :: _) (run.later d)).map courses = _
      rw [courses_session_call, hcall]
      cases hnext : m.call fuel call run with
      | none => rfl
      | some done =>
        obtain ⟨next, answer⟩ := done
        have hlater := ih fun before stages hbefore hs entry hmem =>
          hrest (hinteract next answer hnext) before stages hbefore hs entry
            (List.mem_cons_of_mem _ hmem)
        simp only [Option.map_some, Option.bind_some, hlater]
        cases m.session fuel rest next <;> rfl
    | subscribe callback =>
      rw [courses_session_visit rfl]
      exact ih (hrest rfl)
    | unsubscribe id =>
      rw [courses_session_visit rfl]
      exact ih (hrest rfl)

end Machine

/-! ## Exact times -/

/-- The time from the first record to the last is the same later. -/
theorem History.duration?_later {S : Type} {history : History S} {d : Duration}
    (h : ∀ record ∈ history.transitions, record.time.total + d.total ≤ Duration.maxTotal) :
    (history.later d).duration? = history.duration? := by
  unfold duration? last? later
  rw [List.getLast?_map, List.head?_map]
  cases hl : history.transitions.getLast? with
  | none => rfl
  | some last =>
    cases hf : history.transitions.head? with
    | none => rfl
    | some first =>
      have hlast := h last (List.mem_of_getLast? hl)
      have hfirst := h first (List.mem_of_head? hf)
      simp only [Option.map_some, Option.bind_eq_bind, Option.bind_some, Transition.later]
      refine congrArg some (Duration.ext ?_)
      rw [Duration.total_sub, Duration.total_sub, Duration.total_add_of_le hlast,
        Duration.total_add_of_le hfirst]
      omega

/-- The course can be put off exactly: none of its times is cut off, and what has to do with lengths of
time only is the same. -/
structure Course.Exact {S E C W : Type} (d : Duration) (course : Course S E C W) : Prop where
  now : (course.now + d).total = course.now.total + d.total
  due : ∀ timer, course.timers.armed = some timer →
    (timer.later d).due.total = timer.due.total + d.total
  published : ∀ snapshot ∈ course.journal,
    (snapshot.later d).time.total = snapshot.time.total + d.total
  recorded : ∀ record ∈ course.history.transitions,
    (record.later d).time.total = record.time.total + d.total
  deadline : (course.timers.later d).nextDue? = course.timers.nextDue?.map (· + d)
  path : (course.history.later d).path = course.history.path
  duration : (course.history.later d).duration? = course.history.duration?

namespace Machine

variable {S K E C W O : Type} [DecidableEq S] [DecidableEq K] [Named S] [Named K] [EventLike E K]
variable {m : Machine S K E C W} {d : Duration} {run : Run S E C W O}

theorem Reachable.exact (h : m.Reachable run) (hfits : run.Fits d) : run.Exact d := by
  obtain ⟨world, observers, hreached⟩ := h
  obtain ⟨-, trace, hs, -⟩ := hreached.settles rfl
  have hnow := hfits.now
  have hpublished := hs.consistent.time_le
  have hrecorded := hs.recorded.time_le hs.consistent
  have hfit : ∀ record ∈ run.history.transitions,
      record.time.total + d.total ≤ Duration.maxTotal := by
    intro record hmem
    exact Nat.le_trans (Nat.add_le_add_right (hrecorded record hmem) _) hnow
  refine ⟨Duration.total_add_of_le hnow, ?_, ?_, ?_, Timers.nextDue?_later _, History.path_later _,
    History.duration?_later hfit⟩
  · intro timer ha
    exact Duration.total_add_of_le (hfits.due timer ha)
  · intro snapshot hmem
    refine Duration.total_add_of_le ?_
    exact Nat.le_trans (Nat.add_le_add_right (hpublished snapshot hmem) _) hnow
  · intro record hmem
    exact Duration.total_add_of_le (hfit record hmem)

/-- A machine whose clock was moved before the start does the same as a fresh one. In two sessions with
the same calls, whoever is in the audience, either all calls come to an end in both or in neither, and
then all answers are the same, and after every call one run is the other one later by the time that
the clock was moved: status, states, context, visits, timer ids and all that is published and recorded
are the same, and every time is later by exactly that much. No time may be cut off at the longest
duration for that. -/
theorem relative_time {P : Type} (m : Machine S K E C W) (fuel : Nat) (d : Duration)
    (own : List (Interaction S K E C O)) (other : List (Interaction S K E C P))
    (hcalls : other.filterMap Interaction.call? =
      .advance d :: (own.filterMap Interaction.call?).map (Call.later d))
    (world : W) (observers : O) (others : P)
    (hfits : ∀ before stages, before <+: own →
      m.session fuel before (m.newRun world observers) = some stages →
      ∀ entry ∈ courses stages, entry.2.Fits d) :
    (m.session fuel other (m.newRun world others)).map courses =
      ((m.session fuel own (m.newRun world observers)).map courses).map (fun entries =>
        (.done, (m.newRun world observers).toCourse.later d) ::
          entries.map (Prod.map id (Course.later d))) ∧
    ∀ stages, m.session fuel own (m.newRun world observers) = some stages →
      ∀ entry ∈ courses stages, entry.2.Exact d := by
  constructor
  · have hfirst : m.call fuel (.advance d : Call K E) (m.newRun world ()) =
        some ((m.newRun world observers).later d, .done) := by
      have hclock : (m.newRun world ()).moveClock (.zero + d) =
          (m.newRun world observers).later d := by
        show ({ m.newRun world () with now := max .zero (.zero + d) } : Run S E C W Unit) = _
        rw [max_eq_right (Duration.le_add .zero d)]
        rfl
      have hadvance : m.advanceTo fuel (.zero + d) (m.newRun world ()) = some _ :=
        advanced_iff.2 (.clear rfl)
      show (m.advanceTo fuel (.zero + d) (m.newRun world ())).map _ = _
      rw [hadvance, hclock]
      rfl
    rw [courses_session, hcalls]
    show (m.session fuel (.call (.advance d) :: _) (m.newRun world ())).map courses = _
    rw [courses_session_call, hfirst]
    have hlater := courses_session_later fuel hfits
    simp only [Option.bind_some, List.map_map]
    show Option.map _ ((m.session fuel ((own.filterMap Interaction.call?).map fun call =>
      .call (call.later d)) ((m.newRun world observers).later d)).map courses) = _
    rw [hlater, Option.map_map]
    rfl
  · intro stages hs entry hmem
    obtain ⟨⟨answer?, run⟩, hstage, he⟩ := List.mem_filterMap.1 hmem
    obtain ⟨answer, -, rfl⟩ := Option.map_eq_some_iff.1 he
    have hreached : Reached m (fun _ _ => True) (m.newRun world observers) run :=
      Reached.first.session (fun _ _ => trivial) hs _ hstage
    have hreachable : m.Reachable run := ⟨world, observers, hreached⟩
    exact hreachable.exact (hfits own stages (List.prefix_refl own) hs _ hmem)

section

open Script

def putOff : List (Interaction String String Signal Nat Unit) :=
  .call (.advance (.ofMillis 7)) :: unwatched

/-- The light whose clock was moved switches at the same times after its start as the fresh one, which
is watched. -/
theorem relative_time_blinker : ∃ stages,
    blinker.session 3 watched (blinker.newRun () 0) = some stages ∧
    (blinker.session 3 putOff (blinker.newRun () ())).map courses =
      some ((.done, (blinker.newRun () 0).toCourse.later (.ofMillis 7)) ::
        (courses stages).map (Prod.map id (Course.later (.ofMillis 7)))) ∧
    (courses stages).map (fun (_, course) => course.journal.map (·.time.total)) =
      [[0], [20000000, 10000000, 0], [20000000, 10000000, 0], [20000000, 10000000, 0]] ∧
    (∀ entry ∈ courses stages, entry.2.Exact (.ofMillis 7)) := by
  have hsome : (blinker.session 3 watched (blinker.newRun () 0)).isSome := rfl
  obtain ⟨stages, hstages⟩ := Option.isSome_iff_exists.1 hsome
  have hall : (blinker.session 3 watched (blinker.newRun () 0)).map (fun stages =>
      decide (∀ entry ∈ courses stages, entry.2.Fits (.ofMillis 7))) = some true := rfl
  have htimes : (blinker.session 3 watched (blinker.newRun () 0)).map (fun stages =>
      (courses stages).map fun entry => entry.2.journal.map (·.time.total)) =
        some [[0], [20000000, 10000000, 0], [20000000, 10000000, 0], [20000000, 10000000, 0]] := rfl
  rw [hstages] at hall htimes
  have hfits : ∀ before parts, before <+: watched →
      blinker.session 3 before (blinker.newRun () 0) = some parts →
      ∀ entry ∈ courses parts, entry.2.Fits (.ofMillis 7) := by
    intro before parts hbefore hparts entry hmem
    have hpart := prefix_of_session hbefore hstages hparts
    exact of_decide_eq_true (Option.some.inj hall) entry ((hpart.filterMap _).subset hmem)
  obtain ⟨hsame, hexact⟩ :=
    relative_time blinker 3 (.ofMillis 7) watched putOff rfl () 0 () hfits
  rw [hstages] at hsame
  exact ⟨stages, hstages, hsame, Option.some.inj htimes, hexact stages hstages⟩

end

end Machine

end Automat
