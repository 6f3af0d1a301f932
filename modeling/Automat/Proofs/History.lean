import Automat.Proofs.Json.Reports
import Mathlib.Data.List.DropRight

/-!
What a history retains. A record makes room by dropping the oldest ones, however many there are, so
that after any records the newest are left, as many as the limit says (`recordAll_keeps_newest`). A
history of limit zero does not record at all, and what it was read with it keeps.
-/

namespace Automat.History

/-! ## The newest elements -/

section

variable {A : Type}

theorem rtake_of_length_le {items : List A} {n : Nat} (h : items.length ≤ n) :
    items.rtake n = items := by
  rw [List.rtake, Nat.sub_eq_zero_of_le h, List.drop_zero]

theorem map_rtake {B : Type} (f : A → B) (items : List A) (n : Nat) :
    (items.rtake n).map f = (items.map f).rtake n := by
  rw [List.rtake, List.rtake, List.map_drop, List.length_map]

/-- What has been dropped does not come back when more elements follow. -/
theorem rtake_rtake_append (items more : List A) (n : Nat) :
    (items.rtake n ++ more).rtake n = (items ++ more).rtake n := by
  rw [List.rtake, List.rtake, List.rtake, List.length_append, List.length_append, List.length_drop,
    ← List.drop_append_of_le_length (Nat.sub_le _ _), List.drop_drop]
  congr 1
  omega

end

/-! ## Making room -/

variable {S : Type}

/-- Drops the oldest record as long as there is no room for another one. -/
def evict (limit : Nat) : List (Transition S) → List (Transition S)
  | [] => []
  | oldest :: rest =>
    if limit ≤ (oldest :: rest).length then evict limit rest else oldest :: rest

/-- One by one as many are dropped as there are too many. -/
theorem evict_eq_drop (limit : Nat) (transitions : List (Transition S)) :
    evict limit transitions = transitions.drop (transitions.length + 1 - limit) := by
  induction transitions with
  | nil => rw [evict, List.drop_nil]
  | cons oldest rest ih =>
    unfold evict
    split
    · next hfull =>
      rw [List.length_cons] at hfull ⊢
      rw [ih, Nat.succ_sub hfull, List.drop_succ_cons]
    · next hroom =>
      rw [Nat.sub_eq_zero_of_le (by omega), List.drop_zero]

variable {history : History S} {transition : Transition S}

theorem record_of_zero (h : history.limit.toNat = 0) : history.record transition = history := by
  unfold record
  rw [if_pos h]

theorem transitions_record (hpos : 0 < history.limit.toNat) :
    (history.record transition).transitions =
      evict history.limit.toNat history.transitions ++ [transition] := by
  unfold record
  rw [if_neg (Nat.ne_of_gt hpos), evict_eq_drop]

theorem transitions_record_eq_rtake (hpos : 0 < history.limit.toNat) :
    (history.record transition).transitions =
      (history.transitions ++ [transition]).rtake history.limit.toNat := by
  rw [transitions_record hpos, evict_eq_drop, List.rtake, List.length_append,
    List.length_singleton, List.drop_append_of_le_length (by omega)]

/-! ## Many records -/

def recordAll (transitions : List (Transition S)) (history : History S) : History S :=
  transitions.foldl (fun history transition => history.record transition) history

theorem limit_recordAll (transitions : List (Transition S)) (history : History S) :
    (history.recordAll transitions).limit = history.limit := by
  induction transitions generalizing history with
  | nil => rfl
  | cons transition transitions ih => exact (ih _).trans (limit_record transition history)

theorem recordAll_of_zero (h : history.limit.toNat = 0) (transitions : List (Transition S)) :
    history.recordAll transitions = history := by
  induction transitions with
  | nil => rfl
  | cons transition transitions ih =>
    show (history.record transition).recordAll transitions = history
    rw [record_of_zero h, ih]

/-- With each record the newest ones are the same as if nothing had been dropped so far. -/
theorem rtake_recordAll (hpos : 0 < history.limit.toNat) (transitions : List (Transition S)) :
    (history.recordAll transitions).transitions.rtake history.limit.toNat =
      (history.transitions ++ transitions).rtake history.limit.toNat := by
  induction transitions generalizing history with
  | nil => rw [List.append_nil]; rfl
  | cons transition transitions ih =>
    have hlimit := limit_record transition history
    have hrest : ((history.record transition).recordAll transitions).transitions.rtake
        (history.record transition).limit.toNat = _ := ih (by rwa [hlimit])
    rw [hlimit, transitions_record_eq_rtake hpos, rtake_rtake_append, List.append_assoc] at hrest
    exact hrest

theorem length_recordAll_le (hpos : 0 < history.limit.toNat) {transitions : List (Transition S)}
    (hne : transitions ≠ []) :
    (history.recordAll transitions).transitions.length ≤ history.limit.toNat := by
  rw [← List.dropLast_concat_getLast hne, recordAll, List.foldl_concat]
  have hlimit := limit_recordAll transitions.dropLast history
  rw [← hlimit] at hpos ⊢
  exact length_record_le _ _ (Nat.ne_of_gt hpos)

/-- Whatever a history holds and whatever its limit is, after transitions have been recorded one by
one it retains the newest of all, in order and as many as the limit says. Only a history of limit zero,
which does not record, remains as it is. -/
theorem recordAll_keeps_newest (history : History S) {transitions : List (Transition S)}
    (hne : transitions ≠ []) :
    (history.recordAll transitions).limit = history.limit ∧
    (0 < history.limit.toNat →
      (history.recordAll transitions).transitions =
        (history.transitions ++ transitions).rtake history.limit.toNat ∧
      (history.recordAll transitions).transitions.length ≤ history.limit.toNat) ∧
    (history.limit.toNat = 0 → history.recordAll transitions = history) := by
  refine ⟨limit_recordAll transitions history, ?_, fun hzero => recordAll_of_zero hzero transitions⟩
  intro hpos
  have hlength := length_recordAll_le hpos hne
  refine ⟨?_, hlength⟩
  rw [← rtake_recordAll hpos, rtake_of_length_le hlength]

/-! ## A history with more records than its limit -/

def walk (source target : String) (ms : UInt64) : Transition String :=
  ⟨source, target, "Step", .epoch, .ofMillis ms⟩

def crowded (limit : UInt64) : History String :=
  ⟨[walk "A" "B" 0, walk "B" "C" 1, walk "C" "A" 2], limit⟩

/-- Where there is room for two, a fourth record leaves the last one and itself. -/
theorem recordAll_keeps_newest_crowded :
    ofWritten? (written (crowded 2)) = some (crowded 2) ∧ [walk "A" "B" 3] ≠ [] ∧
    ((crowded 2).recordAll [walk "A" "B" 3]).transitions = [walk "C" "A" 2, walk "A" "B" 3] := by
  have hne : [walk "A" "B" 3] ≠ [] := by decide
  obtain ⟨-, hnewest, -⟩ := recordAll_keeps_newest (crowded 2) hne
  exact ⟨Portable.readBack _ _, hne, (hnewest (by decide)).1⟩

/-- Where there is no room at all, the three that were read remain, and not the last none of four. -/
theorem crowded_zero_remains :
    ofWritten? (written (crowded 0)) = some (crowded 0) ∧
    ((crowded 0).record (walk "A" "B" 3)).transitions ≠
      ((crowded 0).transitions ++ [walk "A" "B" 3]).rtake (crowded 0).limit.toNat ∧
    (crowded 0).limit.toNat < ((crowded 0).record (walk "A" "B" 3)).transitions.length := by
  refine ⟨Portable.readBack _ _, ?_, ?_⟩ <;> decide

end Automat.History
