import Automat.Proofs.Machine.Clock
import Automat.Proofs.Machine.View

/-!
What clients do with a machine: they make calls, and come and go as subscribers. Main statement: who
listens, and what the callbacks do, has no influence on the machine (`subscribers_powerless`).
-/

namespace Automat

/-- What a client does: it makes a call, or comes or goes as a subscriber. -/
inductive Interaction (S K E C O : Type) where
  | call (call : Call K E)
  | subscribe (callback : Snapshot S C E → O → O × Reaction)
  | unsubscribe (id : Nat)

def Interaction.call? {S K E C O : Type} : Interaction S K E C O → Option (Call K E)
  | .call wanted => some wanted
  | .subscribe _ | .unsubscribe _ => none

namespace Machine

variable {S K E C W O : Type} [DecidableEq S] [DecidableEq K] [Named S] [Named K] [EventLike E K]

/-- Lets a client do one thing, within a bound on the steps. There is an answer if it is a call. -/
def interact (m : Machine S K E C W) (fuel : Nat) (interaction : Interaction S K E C O)
    (run : Run S E C W O) : Option (Option Answer × Run S E C W O) :=
  match interaction with
  | .call call => (m.call fuel call run).map fun (next, answer) => (some answer, next)
  | .subscribe callback => some (none, run.subscribe callback)
  | .unsubscribe id => some (none, run.unsubscribe id)

/-- Lets clients do one thing after the other, with a bound on the steps of each call. After each of
them there is a run, and an answer if it was a call. -/
def session (m : Machine S K E C W) (fuel : Nat) :
    List (Interaction S K E C O) → Run S E C W O → Option (List (Option Answer × Run S E C W O))
  | [], _ => some []
  | first :: rest, run => do
    let stage ← m.interact fuel first run
    let later ← m.session fuel rest stage.2
    some (stage :: later)

variable {m n : Machine S K E C W}

theorem session_cons_eq_some_iff {fuel : Nat} {first : Interaction S K E C O}
    {rest : List (Interaction S K E C O)} {run : Run S E C W O}
    {stages : List (Option Answer × Run S E C W O)} :
    m.session fuel (first :: rest) run = some stages ↔
      ∃ stage later, m.interact fuel first run = some stage ∧
        m.session fuel rest stage.2 = some later ∧ stages = stage :: later := by
  simp only [session, Option.bind_eq_bind, Option.bind_eq_some_iff, Option.some.injEq]
  constructor
  · rintro ⟨stage, hstage, later, hlater, rfl⟩
    exact ⟨stage, later, hstage, hlater, rfl⟩
  · rintro ⟨stage, later, hstage, hlater, rfl⟩
    exact ⟨stage, hstage, later, hlater, rfl⟩

/-- Machines that do the same in every call do the same in every session. -/
theorem session_congr {fuel : Nat}
    (h : ∀ call (run : Run S E C W O), n.call fuel call run = m.call fuel call run)
    (interactions : List (Interaction S K E C O)) (run : Run S E C W O) :
    n.session fuel interactions run = m.session fuel interactions run := by
  have hinteract (interaction : Interaction S K E C O) (run : Run S E C W O) :
      n.interact fuel interaction run = m.interact fuel interaction run := by
    cases interaction with
    | call call => simp only [interact, h]
    | subscribe | unsubscribe => rfl
  induction interactions generalizing run with
  | nil => rfl
  | cons first rest ih => simp only [session, hinteract, ih]

/-- After every interaction of a session there is a run that is reached. -/
theorem Reached.session {allowed : Run S E C W O → Call K E → Prop} {first run : Run S E C W O}
    {fuel : Nat} {interactions : List (Interaction S K E C O)}
    {stages : List (Option Answer × Run S E C W O)} (h : Reached m allowed first run)
    (ha : ∀ run call, allowed run call) (hs : m.session fuel interactions run = some stages) :
    ∀ stage ∈ stages, Reached m allowed first stage.2 := by
  induction interactions generalizing run stages with
  | nil =>
    cases hs
    exact List.forall_mem_nil _
  | cons interaction rest ih =>
    obtain ⟨stage, later, hstage, hlater, rfl⟩ := session_cons_eq_some_iff.1 hs
    have hnext : Reached m allowed first stage.2 := by
      cases interaction with
      | call call =>
        obtain ⟨⟨next, answer⟩, hcall, rfl⟩ := Option.map_eq_some_iff.1 hstage
        exact h.call (ha run call) hcall
      | subscribe callback =>
        cases hstage
        exact h.subscribe callback
      | unsubscribe id =>
        cases hstage
        exact h.unsubscribe id
    exact List.forall_mem_cons.2 ⟨hnext, ih hnext hlater⟩

/-- What has been done in a part of a session is the beginning of what is done in all of it. -/
theorem prefix_of_session {fuel : Nat} {before interactions : List (Interaction S K E C O)}
    {run : Run S E C W O} {parts stages : List (Option Answer × Run S E C W O)}
    (h : before <+: interactions) (hs : m.session fuel interactions run = some stages)
    (hp : m.session fuel before run = some parts) : parts <+: stages := by
  induction before generalizing interactions run parts stages with
  | nil =>
    cases hp
    exact List.nil_prefix
  | cons first before ih =>
    obtain ⟨rest, rfl, hrest⟩ := List.cons_prefix_iff.1 h
    obtain ⟨stage, later, hstage, hlater, rfl⟩ := session_cons_eq_some_iff.1 hs
    obtain ⟨other, early, hother, hearly, rfl⟩ := session_cons_eq_some_iff.1 hp
    cases hstage.symm.trans hother
    exact List.cons_prefix_cons.2 ⟨rfl, ih hrest hlater hearly⟩

/-! ## Sessions without an audience -/

def nobody {M : Type} (_ : Audience M O) : Audience M Unit := .empty ()

omit [DecidableEq S] [DecidableEq K] [Named S] [Named K] [EventLike E K] in
theorem hears_nobody {M : Type} : Hears (nobody : Audience M O → Audience M Unit) where
  notify _ _ := rfl
  clear _ := rfl

/-- What the calls of a session come to, apart from the audience: after each of them its answer and
the course of the run. -/
def courses (stages : List (Option Answer × Run S E C W O)) : List (Answer × Course S E C W) :=
  stages.filterMap fun (answer?, run) => answer?.map (·, run.toCourse)

theorem courses_session_call (m : Machine S K E C W) (fuel : Nat) (call : Call K E)
    (rest : List (Interaction S K E C O)) (run : Run S E C W O) :
    (m.session fuel (.call call :: rest) run).map courses =
      (m.call fuel call run).bind fun (next, answer) =>
        ((m.session fuel rest next).map courses).map ((answer, next.toCourse) :: ·) := by
  simp only [session, interact, Option.bind_eq_bind]
  cases m.call fuel call run with
  | none => rfl
  | some done =>
    simp only [Option.map_some, Option.bind_some]
    cases m.session fuel rest done.1 <;> rfl

theorem courses_session_visit {fuel : Nat} {first : Interaction S K E C O}
    {run next : Run S E C W O} (h : m.interact fuel first run = some (none, next))
    (rest : List (Interaction S K E C O)) :
    (m.session fuel (first :: rest) run).map courses = (m.session fuel rest next).map courses := by
  simp only [session, h, Option.bind_eq_bind, Option.bind_some]
  cases m.session fuel rest next <;> rfl

/-- A session comes to the same as its calls in front of an empty room. -/
theorem courses_session (m : Machine S K E C W) (fuel : Nat)
    (interactions : List (Interaction S K E C O)) (run : Run S E C W O) :
    (m.session fuel interactions run).map courses =
      (m.session fuel ((interactions.filterMap Interaction.call?).map (.call ·))
        (run.seen id nobody)).map courses := by
  induction interactions generalizing run with
  | nil => rfl
  | cons first rest ih =>
    cases first with
    | call call =>
      have hcall : m.call fuel call (run.seen id nobody) = _ :=
        (Resembles.refl m).call hears_nobody fuel call run
      rw [courses_session_call]
      show _ = (m.session fuel (.call call :: _) (run.seen id nobody)).map courses
      rw [courses_session_call, hcall]
      cases m.call fuel call run with
      | none => rfl
      | some done =>
        simp only [Option.map_some, Option.bind_some, ih]
        rfl
    | subscribe | unsubscribe =>
      rw [courses_session_visit rfl, ih]
      rfl

/-- Two sessions with the same calls go the same way, whoever comes and goes as a subscriber at what
time, and whatever the callbacks do, panic and drop subscriptions included. Either all calls come to
an end in both, and then each has the same answer, and the machine, all it has published and the
world of its actions and guards are the same after it; or in neither. -/
theorem subscribers_powerless {P : Type} (m : Machine S K E C W) (fuel : Nat)
    (own : List (Interaction S K E C O)) (other : List (Interaction S K E C P))
    (h : own.filterMap Interaction.call? = other.filterMap Interaction.call?)
    (world : W) (observers : O) (others : P) :
    (m.session fuel own (m.newRun world observers)).map courses =
      (m.session fuel other (m.newRun world others)).map courses := by
  rw [courses_session, h, courses_session m fuel other]
  rfl

section

open Script

/-- A callback that counts its calls, sends everybody away, itself included, and panics. -/
def rude (_ : Snapshot String Nat Signal) (calls : Nat) : Nat × Reaction :=
  (calls + 1, (List.range 10).map .drop ++ [.panic])

/-- The light is watched by two who panic, one of whom is gone after the first call of the other,
and by one who comes late. -/
def watched : List (Interaction String String Signal Nat Nat) :=
  [.subscribe rude, .subscribe rude, .call .start, .subscribe rude,
    .call (.advance (.ofMillis 25)), .call (.can "switch"), .unsubscribe 7, .call .stop]

def unwatched : List (Interaction String String Signal Nat Unit) :=
  [.call .start, .call (.advance (.ofMillis 25)), .call (.can "switch"), .call .stop]

/-- The light is switched twice in both sessions. The callbacks have been called three times, and
they have not seen the second switch. -/
theorem subscribers_powerless_blinker :
    watched.filterMap Interaction.call? = unwatched.filterMap Interaction.call? ∧
    (blinker.session 3 watched (blinker.newRun () 0)).map courses =
      (blinker.session 3 unwatched (blinker.newRun () ())).map courses ∧
    (blinker.session 3 watched (blinker.newRun () 0)).map (·.map (·.2.audience.world)) =
      some [0, 0, 2, 2, 3, 3, 3, 3] ∧
    ((blinker.session 3 unwatched (blinker.newRun () ())).map courses).map
      (·.map fun (answer, course) => (answer, course.state, course.context)) =
        some [(.done, "on", 0), (.done, "on", 2), (.can false, "on", 2), (.done, "on", 2)] :=
  ⟨rfl, subscribers_powerless blinker 3 watched unwatched rfl () 0 (), rfl, rfl⟩

end

end Machine

end Automat
