import Automat.Proofs.Audience
import Automat.Proofs.Machine.Clients
import Automat.Proofs.Machine.Journal

/-!
Who is told what in a run. A step tells the audience what it publishes, and a stop sends it home
(`Step.heard`); otherwise only clients come and go. Main statement: every snapshot reaches exactly
those who are registered when its notification begins, and every subscription has a block of
snapshots without gaps and repetitions, from its beginning to its end (`deliveries_exact`).
-/

namespace Automat

/-! ## Subscriptions -/

section

variable {S E C W O : Type}

/-- What befalls the audience from one run to the next: it is told what is published in between, and
sent home if the machine is stopped. -/
def Run.news (run next : Run S E C W O) : List (Affair (Snapshot S C E) O) :=
  (next.published.drop run.published.length).map .tell ++
    if run.status ≠ .stopped ∧ next.status = .stopped then [.close] else []

/-- What a step does to the audience. -/
inductive Heard (run next : Run S E C W O) : Prop where
  | nothing : next.journal = run.journal → next.audience = run.audience →
      (next.status = .stopped ↔ run.status = .stopped) → Heard run next
  | message {snapshot : Snapshot S C E} : next.journal = snapshot :: run.journal →
      next.audience = run.audience.notify snapshot → run.status ≠ .stopped →
      next.status ≠ .stopped → Heard run next
  | home : next.journal = run.journal → next.audience = run.audience.clear →
      run.status ≠ .stopped → next.status = .stopped → Heard run next

variable {run next : Run S E C W O}

theorem published_of_cons {snapshot : Snapshot S C E} (h : next.journal = snapshot :: run.journal) :
    next.published = run.published ++ [snapshot] := by
  rw [Run.published, h, List.reverse_cons]
  rfl

/-- The news account for the audience, for what is published and for the stop. -/
theorem Heard.news (h : Heard run next) :
    next.audience = (run.news next).foldl Audience.undergo run.audience ∧
      next.published = run.published ++ (run.news next).filterMap Affair.message? ∧
      (next.status = .stopped ↔
        run.status = .stopped ∨ (run.news next).any Affair.isClose = true) := by
  cases h with
  | nothing hj ha hs =>
    have hp : next.published = run.published := congrArg List.reverse hj
    have hn : run.news next = [] := by
      rw [Run.news, hp, List.drop_length, if_neg fun h => h.1 (hs.1 h.2)]
      rfl
    rw [hn]
    exact ⟨ha, hp.trans (List.append_nil _).symm, by simpa using hs⟩
  | @message snapshot hj ha hr hs =>
    have hp := published_of_cons hj
    have hn : run.news next = [.tell snapshot] := by
      rw [Run.news, hp, List.drop_left, if_neg fun h => hs h.2]
      rfl
    rw [hn]
    exact ⟨ha, hp, by simp [hr, hs, Affair.isClose]⟩
  | home hj ha hr hs =>
    have hp : next.published = run.published := congrArg List.reverse hj
    have hn : run.news next = [.close] := by
      rw [Run.news, hp, List.drop_length, if_pos ⟨hr, hs⟩]
      rfl
    rw [hn]
    exact ⟨ha, hp.trans (List.append_nil _).symm, by simp [hs, Affair.isClose]⟩

end

/-- What an interaction does to the audience, apart from what the machine does. -/
def Interaction.visit? {S K E C O : Type} :
    Interaction S K E C O → Option (Affair (Snapshot S C E) O)
  | .subscribe callback => some (.join callback)
  | .unsubscribe id => some (.leave id)
  | .call _ => none

namespace Machine

variable {S K E C W O : Type} [DecidableEq S] [DecidableEq K] [Named S] [Named K] [EventLike E K]
variable {m : Machine S K E C W} {run next : Run S E C W O} {happening : Happening K E}

/-! ## Steps -/

omit [DecidableEq S] [DecidableEq K] [Named S] [Named K] [EventLike E K] in
theorem Heard.of_ready (queue : List E) (timers : Timers S)
    (h : Heard { run with queue := queue, timers := timers } next) : Heard run next := by
  cases h with
  | nothing hj ha hs => exact .nothing hj ha hs
  | message hj ha hr hs => exact .message hj ha hr hs
  | home hj ha hr hs => exact .home hj ha hr hs

theorem Processed.heard {event : E} (h : m.Processed event run next)
    (hr : run.status = .running) : Heard run next := by
  have hrun : run.status ≠ .stopped := by
    rw [hr]
    decide
  have hn : next.status ≠ .stopped := by rwa [h.status_eq]
  cases h with
  | dropped => exact .nothing rfl rfl .rfl
  | kept world outcome _ => exact .message rfl rfl hrun hn
  | @committed target actions draft world _ _ =>
    cases hf : target.filter (· ≠ run.state) with
    | none => exact .message rfl rfl hrun (hf ▸ hn)
    | some target =>
      rw [hf] at hn
      rw [commit_some] at hn ⊢
      exact .message rfl rfl hrun hn

/-- Other than by clients the audience is told one message at most, or sent home. -/
theorem Step.heard (hs : Step m run happening next) (hl : happening ≠ .listen) :
    Heard run next := by
  cases hs with
  | @begin draft hr _ =>
    rw [enterInitial, arm_eq]
    refine .message rfl rfl ?_ ?_
    · rw [hr]
      decide
    · intro hstopped
      cases hstopped
  | @take rest event hq =>
    obtain ⟨hr, queue, -, rfl⟩ := Run.dequeue?_eq_some_iff.1 hq
    exact Heard.of_ready queue run.timers ((m.processed event _).heard hr)
  | @elapse timer timers hr _ _ =>
    exact Heard.of_ready run.queue timers ((m.processed _ (run.withTimers timers)).heard hr)
  | ask kind =>
    obtain ⟨world, hw⟩ := m.canTransition_eq kind run
    rw [hw]
    exact .nothing rfl rfl .rfl
  | stop =>
    unfold Run.stop
    split
    · exact .nothing rfl rfl .rfl
    · next hr => exact .home rfl rfl hr rfl
  | refuse | accept | tick => exact .nothing rfl rfl .rfl
  | listen => exact absurd rfl hl

/-! ## Accounts -/

/-- An account of all that has befallen the audience of a run, one thing after the other. -/
inductive Attended (m : Machine S K E C W) (first : Run S E C W O) :
    List (Affair (Snapshot S C E) O) → Run S E C W O → Prop where
  | first : Attended m first [] first
  | subscribe {affairs : List (Affair (Snapshot S C E) O)} {run : Run S E C W O}
      (callback : Snapshot S C E → O → O × Reaction) :
      Attended m first affairs run →
      Attended m first (affairs ++ [.join callback]) (run.subscribe callback)
  | unsubscribe {affairs : List (Affair (Snapshot S C E) O)} {run : Run S E C W O} (id : Nat) :
      Attended m first affairs run →
      Attended m first (affairs ++ [.leave id]) (run.unsubscribe id)
  | step {affairs : List (Affair (Snapshot S C E) O)} {run next : Run S E C W O}
      {happening : Happening K E} :
      Attended m first affairs run → Step m run happening next → happening ≠ .listen →
      Attended m first (affairs ++ run.news next) next

variable {first : Run S E C W O} {affairs : List (Affair (Snapshot S C E) O)}

/-- The account holds all that is published, and a stop; the audience is what has become of it. -/
theorem Attended.audience_eq {world : W} {observers : O}
    (h : m.Attended (m.newRun world observers) affairs run) :
    run.audience = Audience.after observers affairs ∧
      run.published = affairs.filterMap Affair.message? ∧
      (run.status = .stopped ↔ affairs.any Affair.isClose = true) := by
  induction h with
  | first => exact ⟨rfl, rfl, by simp [newRun]⟩
  | subscribe callback _ ih =>
    obtain ⟨haudience, hpublished, hstopped⟩ := ih
    rw [Audience.after, List.foldl_append, List.filterMap_append, List.any_append]
    exact ⟨congrArg (·.add callback) haudience, hpublished.trans (List.append_nil _).symm,
      hstopped.trans (by simp [Affair.isClose])⟩
  | unsubscribe id _ ih =>
    obtain ⟨haudience, hpublished, hstopped⟩ := ih
    rw [Audience.after, List.foldl_append, List.filterMap_append, List.any_append]
    exact ⟨congrArg (·.drop [id]) haudience, hpublished.trans (List.append_nil _).symm,
      hstopped.trans (by simp [Affair.isClose])⟩
  | @step affairs run next happening _ hs hl ih =>
    obtain ⟨haudience, hpublished, hstopped⟩ := (hs.heard hl).news
    rw [Audience.after, List.foldl_append, List.filterMap_append, List.any_append, ← ih.2.1,
      Bool.or_eq_true, ← ih.2.2]
    refine ⟨?_, hpublished, hstopped⟩
    rw [haudience, ih.1]
    rfl

/-! ## Every session has an account -/

theorem DrainTrace.not_listen {steps : List (Run S E C W O × Happening K E)}
    (h : m.DrainTrace run steps next) : ∀ entry ∈ steps, entry.2 ≠ .listen := by
  induction h with
  | rested => simp
  | took _ _ ih => simpa using ih

theorem AdvanceTrace.not_listen {time : Duration} {steps : List (Run S E C W O × Happening K E)}
    (h : m.AdvanceTrace time run steps next) : ∀ entry ∈ steps, entry.2 ≠ .listen := by
  induction h with
  | clear => simp
  | fired _ _ _ hd _ ih =>
    intro entry hmem
    simp only [List.mem_cons, List.mem_append] at hmem
    rcases hmem with rfl | rfl | hmem | hmem
    · simp
    · simp
    · exact hd.not_listen entry hmem
    · exact ih entry hmem

theorem CallTrace.not_listen {call : Call K E} {answer : Answer}
    {steps : List (Run S E C W O × Happening K E)} (h : m.CallTrace call run steps next answer) :
    ∀ entry ∈ steps, entry.2 ≠ .listen := by
  cases h with
  | begun _ _ hd | sent _ hd => simpa using hd.not_listen
  | advanced h | advancedTo h => exact h.not_listen
  | refused | late | dropped | stopped | asked => simp

omit [DecidableEq S] [DecidableEq K] [Named S] [Named K] [EventLike E K] in
theorem filter_isVisit_news (run next : Run S E C W O) :
    (run.news next).filter Affair.isVisit = [] := by
  have htold : ((next.published.drop run.published.length).map
      (.tell : Snapshot S C E → Affair (Snapshot S C E) O)).filter Affair.isVisit = [] := by
    rw [List.filter_map, List.map_eq_nil_iff, List.filter_eq_nil_iff]
    exact fun _ _ => Bool.false_ne_true
  rw [Run.news, List.filter_append, htold]
  split <;> rfl

/-- An account goes on with everything that happens but for clients who come and go. -/
theorem Attended.steps {trace : List (Run S E C W O × Happening K E)}
    (h : m.Attended first affairs run) (hs : Steps m run trace next)
    (hl : ∀ entry ∈ trace, entry.2 ≠ .listen) :
    ∃ more, more.filter Affair.isVisit = [] ∧ m.Attended first (affairs ++ more) next := by
  induction hs with
  | refl => exact ⟨[], rfl, by rwa [List.append_nil]⟩
  | @snoc trace middle last happening _ hstep ih =>
    obtain ⟨more, hmore, hmiddle⟩ := ih fun entry he => hl entry (List.mem_append_left _ he)
    refine ⟨more ++ middle.news last, ?_, ?_⟩
    · rw [List.filter_append, hmore, filter_isVisit_news]
      rfl
    · rw [← List.append_assoc]
      exact hmiddle.step hstep (hl (middle, happening) (by simp))

def lastRun (first : Run S E C W O) (stages : List (Option Answer × Run S E C W O)) :
    Run S E C W O :=
  stages.foldl (fun _ stage => stage.2) first

/-- A session can be parted anywhere. -/
theorem session_append (fuel : Nat) (before later : List (Interaction S K E C O))
    (run : Run S E C W O) :
    m.session fuel (before ++ later) run = (m.session fuel before run).bind fun stages =>
      (m.session fuel later (lastRun run stages)).map (stages ++ ·) := by
  induction before generalizing run with
  | nil => exact Option.map_id'.symm
  | cons first before ih =>
    simp only [List.cons_append, session, Option.bind_eq_bind, ih]
    cases m.interact fuel first run with
    | none => rfl
    | some stage =>
      simp only [Option.bind_some]
      cases m.session fuel before stage.2 with
      | none => rfl
      | some stages =>
        simp only [Option.bind_some]
        show _ = (m.session fuel later (lastRun stage.2 stages)).map (stage :: stages ++ ·)
        cases m.session fuel later (lastRun stage.2 stages) <;> rfl

/-- One interaction is one visit, or a call in which nobody comes or goes. -/
theorem Attended.interact {fuel : Nat} {interaction : Interaction S K E C O}
    {stage : Option Answer × Run S E C W O} (h : m.Attended first affairs run)
    (hq : run.queue = []) (hi : m.interact fuel interaction run = some stage) :
    stage.2.queue = [] ∧ ∃ more, more.filter Affair.isVisit = interaction.visit?.toList ∧
      m.Attended first (affairs ++ more) stage.2 := by
  cases interaction with
  | call call =>
    obtain ⟨⟨next, answer⟩, hcall, rfl⟩ := Option.map_eq_some_iff.1 hi
    obtain ⟨steps, ht⟩ := callTrace_of_call hq hcall
    have hl := ht.arrives hq
    exact ⟨hl.rest, h.steps hl.steps ht.not_listen⟩
  | subscribe callback =>
    cases hi
    exact ⟨hq, _, rfl, h.subscribe callback⟩
  | unsubscribe id =>
    cases hi
    exact ⟨hq, _, rfl, h.unsubscribe id⟩

theorem Attended.session {fuel : Nat} {interactions : List (Interaction S K E C O)}
    {stages : List (Option Answer × Run S E C W O)} (h : m.Attended first affairs run)
    (hq : run.queue = []) (hs : m.session fuel interactions run = some stages) :
    ∃ more, more.filter Affair.isVisit = interactions.filterMap Interaction.visit? ∧
      m.Attended first (affairs ++ more) (lastRun run stages) := by
  induction interactions generalizing affairs run stages with
  | nil =>
    cases hs
    exact ⟨[], rfl, by rwa [List.append_nil]⟩
  | cons interaction interactions ih =>
    obtain ⟨stage, later, hi, hlater, rfl⟩ := session_cons_eq_some_iff.1 hs
    obtain ⟨hrest, more, hmore, hnext⟩ := h.interact hq hi
    obtain ⟨rest, hvisits, hlast⟩ := ih hnext hrest hlater
    refine ⟨more ++ rest, ?_, ?_⟩
    · rw [List.filter_append, hmore, hvisits, List.filterMap_cons]
      cases interaction.visit? <;> rfl
    · rw [← List.append_assoc]
      exact hlast

/-! ## Exact delivery -/

/-- What the log of the audience shows of a run. -/
structure Delivered (log : List (Occurrence (Snapshot S C E))) (run : Run S E C W O) : Prop where
  /-- A notification begins with every publication, and at no other time. -/
  told : log.filterMap (·.told?) = run.published
  /-- All have been sent home if the machine has been stopped, and never else. -/
  closed : log.any (·.isClosed) = true ↔ run.status = .stopped
  /-- Who is called when, and what a subscription receives. -/
  exact : Audience.Exact log run.audience
  /-- Nobody is listed twice, and those who have joined first come first. -/
  ordered : ∀ before later, log = before ++ later →
    (Audience.registered before).Pairwise (· < ·)
  /-- A subscription is active until it is dropped or the machine stopped, whatever else happens. -/
  active : ∀ before id later, log = before ++ .joined id :: later →
    (delivers (some run) id = true ↔ ∀ o ∈ later, o.ends id = false)
  /-- Nothing is active without the machine. -/
  gone : ∀ id, delivers (none : Option (Run S E C W O)) id = false
  count : run.audience.size =
    ((List.range run.audience.nextId).filter (delivers (some run))).length

/-- Every session has an account of what befalls the audience: clients come and go in it as they do
in the session, a message is told for every snapshot, and all are sent home when the machine is
stopped. And at any time of an account, between calls or within them, the audience is what has
become of it, the log that its callbacks keep of it changes nothing else, and it shows that the
snapshots are delivered exactly. -/
theorem deliveries_exact (m : Machine S K E C W) (world : W) (observers : O) :
    (∀ fuel interactions stages,
      m.session fuel interactions (m.newRun world observers) = some stages →
      ∃ affairs, affairs.filter Affair.isVisit = interactions.filterMap Interaction.visit? ∧
        m.Attended (m.newRun world observers) affairs
          (lastRun (m.newRun world observers) stages)) ∧
    ∀ affairs run, m.Attended (m.newRun world observers) affairs run →
      run.audience = Audience.after observers affairs ∧
      Audience.noted observers affairs =
        run.audience.withLog (Audience.log observers affairs) ∧
      Delivered (Audience.log observers affairs) run := by
  constructor
  · intro fuel interactions stages hs
    obtain ⟨affairs, hvisits, h⟩ := Attended.first.session rfl hs
    exact ⟨affairs, hvisits, h⟩
  · intro affairs run h
    obtain ⟨haudience, hpublished, hstopped⟩ := h.audience_eq
    have hlog := Audience.entered_log observers affairs
    have hexact : Audience.Exact (Audience.log observers affairs) run.audience := by
      rw [haudience]
      exact hlog.exact
    have hnoted : Audience.noted observers affairs =
        run.audience.withLog (Audience.log observers affairs) := by
      rw [haudience]
      exact hlog.noted
    exact ⟨haudience, hnoted,
      { told := hlog.told.trans hpublished.symm
        closed := by rw [hlog.closed, hstopped]
        exact := hexact
        ordered := fun _ _ => hexact.pairwise_registered
        active := fun _ _ _ => hexact.isActive_iff
        gone := fun _ => rfl
        count := hexact.size_eq }⟩

section

open Script

/-- A callback that only counts its calls. -/
def modest (_ : Snapshot String Nat Signal) (calls : Nat) : Nat × Reaction := (calls + 1, [])

/-- One that also sends the first two subscribers away, and panics. -/
def jealous (_ : Snapshot String Nat Signal) (calls : Nat) : Nat × Reaction :=
  (calls + 1, [.drop 0, .drop 1, .panic])

/-- The start of the light is seen by three, of whom the second sends away the first and itself; the
third leaves. Its first switch is seen by a fourth one, who stays until the light is stopped, and
then comes a fifth one. In another session everybody is rude. -/
theorem deliveries_exact_blinker : ∃ affairs run stages others,
    blinker.Attended (blinker.newRun () 0) affairs run ∧
    ((Audience.log 0 affairs).filterMap (·.called?)).map (·.1) = [0, 1, 2, 3] ∧
    Audience.registered (Audience.log 0 affairs) = [4] ∧
    run.status = .stopped ∧ delivers (some run) 3 = false ∧ delivers (some run) 4 = true ∧
    Delivered (Audience.log 0 affairs) run ∧
    blinker.session 3 watched (blinker.newRun () 0) = some stages ∧
    blinker.Attended (blinker.newRun () 0) others (lastRun (blinker.newRun () 0) stages) ∧
    Delivered (Audience.log 0 others) (lastRun (blinker.newRun () 0) stages) := by
  obtain ⟨hsessions, hexact⟩ := deliveries_exact blinker () 0
  have hfirst : blinker.Attended (blinker.newRun () 0) [] (blinker.newRun () 0) := .first
  have hstarted := hfirst.subscribe modest |>.subscribe jealous |>.subscribe modest
    |>.step (.begin rfl rfl) (by simp)
  have hdue : Duration.ofMillis 10 ≤ .ofMillis 10 := le_refl _
  have hswitched := hstarted.unsubscribe 2 |>.subscribe modest
    |>.step (.tick (.ofMillis 10) rfl (by rintro _ ⟨⟩; exact hdue)) (by simp)
    |>.step (.elapse rfl rfl rfl) (by simp)
  have hstopped := hswitched.step .stop (by simp) |>.subscribe modest
  have hsome : (blinker.session 3 watched (blinker.newRun () 0)).isSome := rfl
  obtain ⟨stages, hstages⟩ := Option.isSome_iff_exists.1 hsome
  obtain ⟨others, -, hothers⟩ := hsessions 3 watched stages hstages
  exact ⟨_, _, stages, others, hstopped, rfl, rfl, rfl, rfl, rfl, (hexact _ _ hstopped).2.2,
    hstages, hothers, (hexact _ _ hothers).2.2⟩

end

end Machine

end Automat
