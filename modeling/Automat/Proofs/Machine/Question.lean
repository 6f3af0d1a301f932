import Automat.Proofs.Machine.Verdict

/-!
Asking before sending. The question whether an event of some kind would be taken, and what then becomes
of the event, both come down to whether the table admits it (`Admits`), in the one case without the
event and in the other with it. Main statement: if the guard does not mind, the answer says whether the
event is taken (`Accepted.predicts`).
-/

namespace Automat

/-- The event is taken: there is a rule for it, and its guard lets it pass, whatever comes of it. -/
def Outcome.isTaken {S : Type} : Outcome S → Bool
  | .ignored | .guardRejected _ | .failed (.guard _ _ _ _) => false
  | .started | .transitioned _ _ | .handled | .failed _ => true

namespace Machine

section

variable {S K E C W O : Type} [DecidableEq S] [DecidableEq K]

/-- There is a rule for the kind, and its guard says yes if it is asked now, with or without an
event. -/
def Admits (m : Machine S K E C W) (event : Option E) (kind : K) (run : Run S E C W O) : Prop :=
  ∃ rule, m.definition.rule? run.state kind = some rule ∧
    ∀ guard, rule.guard = some guard → ∃ ask, m.guards.find? guard = some ask ∧
      (ask event run.context run.world).2 = .ok true

/-- The guard of the rule for an event, if there is one, says yes to the event in the world if and only
if it says yes now without it. -/
def Indifferent [EventLike E K] (m : Machine S K E C W) (event : E) (world : W)
    (run : Run S E C W O) : Prop :=
  ∀ rule guard ask, m.definition.rule? run.state (EventLike.kind event) = some rule →
    rule.guard = some guard → m.guards.find? guard = some ask →
    ((ask (some event) run.context world).2 = .ok true ↔
      (ask none run.context run.world).2 = .ok true)

variable [Named S] [Named K] [EventLike E K]

/-- If the event is sent, one snapshot is published for it before anything else happens, and the
answer says whether the event is taken. -/
def Predicts (m : Machine S K E C W) (answer : Bool) (event : E) (run : Run S E C W O) : Prop :=
  ∃ snapshot : Snapshot S C E, snapshot.event = some event ∧
    (m.process event run).journal = snapshot :: run.journal ∧
    (∀ fuel, m.send (fuel + 1) event run = m.drain fuel (m.process event run)) ∧
    (∀ fuel done, m.send fuel event run = some done →
      ∃ later, done.journal = later ++ snapshot :: run.journal) ∧
    (answer = true ↔ snapshot.outcome.isTaken = true)

variable {m : Machine S K E C W} {run : Run S E C W O} {event : E} {kind : K}

/-! ## The question -/

theorem canTransition_iff : (m.canTransition kind run).2 = true ↔
    run.status = .running ∧ m.Admits none kind run := by
  unfold canTransition Admits
  by_cases hr : run.status = .running
  · rw [if_pos hr]
    cases hrule : m.definition.rule? run.state kind with
    | none => simp
    | some rule =>
      cases hg : rule.guard with
      | none => simp [hr, hg]
      | some guard =>
        cases hf : m.guards.find? guard with
        | none => simp [check, hg, hf]
        | some ask =>
          cases ha : ask none run.context run.world with
          | mk world answer => cases answer <;> simp [check, hr, hg, hf, ha]
  · rw [if_neg hr]
    simp [hr]

/-! ## The event -/

omit [DecidableEq S] [DecidableEq K] in
/-- What fails in an action fails after the guard. -/
theorem Performs.isTaken {steps : List (S × String)} {draft last : Draft E C W}
    {uses : List (Use E C)} {failure : Failure}
    (h : m.Performs event steps draft uses last (some failure)) :
    (Outcome.failed failure : Outcome S).isTaken = true := by
  generalize hf : some failure = failure? at h
  induction h with
  | done => cases hf
  | next _ _ _ _ ih => exact ih hf
  | fails =>
    cases hf
    rfl

omit [Named S] [Named K] in
theorem Passes.admits {rule : Rule S} {asked : List (Use E C)} {world : W}
    (h : m.Passes event run rule asked world)
    (hr : m.definition.rule? run.state (EventLike.kind event) = some rule) :
    m.Admits (some event) (EventLike.kind event) run := by
  refine ⟨rule, hr, ?_⟩
  intro guard hguard
  cases h with
  | unguarded hg => cases hg.symm.trans hguard
  | @allowed _ ask world hg hf ha =>
    cases hg.symm.trans hguard
    exact ⟨ask, hf, congrArg Prod.snd ha⟩

/-- An event is taken if and only if the table admits it. -/
theorem Verdict.isTaken_iff {uses : List (Use E C)} {outcome : Outcome S} {draft : Draft E C W}
    (h : m.Verdict event run uses outcome draft) :
    outcome.isTaken = true ↔ m.Admits (some event) (EventLike.kind event) run := by
  -- A guard that does not say yes keeps the event out.
  have hbarred {rule : Rule S} {guard : String} {ask : Guard E C W} {world : W}
      {answer : Except Fault Bool}
      (hr : m.definition.rule? run.state (EventLike.kind event) = some rule)
      (hg : rule.guard = some guard) (hf : m.guards.find? guard = some ask)
      (ha : ask (some event) run.context run.world = (world, answer)) (hno : answer ≠ .ok true) :
      ¬m.Admits (some event) (EventLike.kind event) run := by
    rintro ⟨other, hother, hadmits⟩
    cases hr.symm.trans hother
    obtain ⟨same, hsame, hyes⟩ := hadmits guard hg
    cases hf.symm.trans hsame
    rw [ha] at hyes
    exact hno hyes
  cases h with
  | ignored hr =>
    refine iff_of_false Bool.false_ne_true ?_
    rintro ⟨rule, hrule, -⟩
    cases hr.symm.trans hrule
  | rejected hr hg hf ha =>
    exact iff_of_false Bool.false_ne_true (hbarred hr hg hf ha (by simp))
  | unanswered hr hg hf ha =>
    exact iff_of_false Bool.false_ne_true (hbarred hr hg hf ha (by simp))
  | failed hr hpass _ hp => exact iff_of_true hp.isTaken (hpass.admits hr)
  | handled hr hpass | transitioned hr hpass => exact iff_of_true rfl (hpass.admits hr)

/-! ## Both -/

omit [Named S] [Named K] in
theorem Indifferent.admits_iff {world : W} (h : m.Indifferent event world run) :
    m.Admits none (EventLike.kind event) run ↔
      m.Admits (some event) (EventLike.kind event) (run.withWorld world) := by
  refine exists_congr fun rule => and_congr_right fun hr => forall₂_congr fun guard hg => ?_
  refine exists_congr fun ask => and_congr_right fun hf => ?_
  exact (h rule guard ask hr hg hf).symm

/-- In a reachable run of an accepted machine that is running, the answer to the question predicts what
becomes of an event that is well formed and carries no timer, if its guard does not mind whether it is
asked with the event or without it. The world may have changed since the question. -/
theorem Accepted.predicts (hm : m.Accepted) (hr : m.Reachable run) (hs : run.status = .running)
    (hw : EventLike.isWellFormed event = true) (ht : EventLike.elapsedTimer? event = none)
    {world : W} (hu : m.Indifferent event world run) :
    m.Predicts (m.canTransition (EventLike.kind event) run).2 event (run.withWorld world) := by
  obtain ⟨uses, outcome, draft, h⟩ := hm.exists_verdict ht (run.withWorld world)
  have hq : (run.withWorld world).queue = [] := hr.queue_eq_nil
  have hrunning : (run.withWorld world).status = .running := hs
  have hdone := h.concluded
  rw [← h.process_eq hw ht] at hdone
  have hsend (fuel : Nat) := send_succ (m := m) hrunning hq event fuel
  refine ⟨_, rfl, hdone.journal, hsend, ?_, ?_⟩
  · intro fuel done hd
    have hdrain : m.drain fuel (m.process event (run.withWorld world)) = some done := by
      rw [← hsend]
      exact send_mono hd (Nat.le_succ fuel)
    obtain ⟨steps, htrace⟩ := drainTrace_of_drain hdrain
    have hleads := (htrace.leads (fun _ _ => True) (running_process event hrunning)).1
    obtain ⟨later, hlater⟩ := hleads.steps.journal_suffix
    rw [hdone.journal] at hlater
    exact ⟨later, hlater.symm⟩
  · rw [canTransition_iff, hu.admits_iff, ← h.isTaken_iff]
    exact and_iff_right hs

end

end Machine

end Automat
