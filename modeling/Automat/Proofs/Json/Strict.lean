import Automat.Json.Strict
import Automat.Proofs.Json.Coded

/-!
Records that can be held before their meaning is known. A number of 64 bits is finite, so that a
record of texts and such numbers is strict (`isStrict_record`).
-/

namespace Automat.Json

open Automat.Text

theorem le_ofDigitChars (digits : List Char) (n : Nat) : n ≤ Nat.ofDigitChars 10 digits n := by
  induction digits generalizing n with
  | nil => exact Nat.le_of_eq Nat.ofDigitChars_nil.symm
  | cons c digits ih =>
    rw [Nat.ofDigitChars_cons]
    exact Nat.le_trans (by omega) (ih _)

/-- The digits of a number of 64 bits all fit in the significand. -/
theorem takeSignificand_eq (digits : List Char) (n : Nat)
    (h : Nat.ofDigitChars 10 digits n < UInt64.size) :
    takeSignificand n digits = (Nat.ofDigitChars 10 digits n, []) := by
  induction digits generalizing n with
  | nil => rw [takeSignificand, Nat.ofDigitChars_nil]
  | cons c digits ih =>
    rw [Nat.ofDigitChars_cons, Nat.mul_comm] at h ⊢
    have hnext := Nat.lt_of_le_of_lt (le_ofDigitChars digits _) h
    rw [takeSignificand]
    simp only [hnext, if_true]
    exact ih _ h

/-- Rounding adds less than one unit of the last place, and 64 bits lose at most eleven places. -/
theorem roundToDouble_le {n : Nat} (h : n < UInt64.size) : roundToDouble n ≤ n + 2048 := by
  unfold roundToDouble
  split
  · omega
  · next hbig =>
    have hshift : n.log2 - 52 ≤ 11 := by
      have hne : n ≠ 0 := by
        rintro rfl
        exact hbig (by decide)
      have hlog : n.log2 < 64 := (Nat.log2_lt hne).2 h
      omega
    have hunit : 1 <<< (n.log2 - 52) ≤ 2048 := by
      rw [Nat.one_shiftLeft]
      exact Nat.pow_le_pow_right (by decide) hshift
    have hkept : (n >>> (n.log2 - 52) + 1) <<< (n.log2 - 52) ≤ n + 1 <<< (n.log2 - 52) := by
      rw [Nat.shiftLeft_eq, Nat.shiftRight_eq_div_pow, Nat.one_shiftLeft, Nat.add_mul, Nat.one_mul]
      exact Nat.add_le_add_right (Nat.div_mul_le_self _ _) _
    have hmono : n >>> (n.log2 - 52) <<< (n.log2 - 52) ≤ n := by
      rw [Nat.shiftLeft_eq, Nat.shiftRight_eq_div_pow]
      exact Nat.div_mul_le_self _ _
    simp only
    split <;> omega

/-- A number of 64 bits has a finite value. -/
theorem isFinite_nat {n : Nat} (h : n < UInt64.size) :
    (Number.mk false n none none).isFinite = true := by
  have hdigits : Nat.ofDigitChars 10 (Nat.toDigits 10 n) 0 = n := ofDigits_toDigits n
  have htake := takeSignificand_eq (Nat.toDigits 10 n) 0 (by rwa [hdigits])
  rw [hdigits] at htake
  have hround := roundToDouble_le h
  have hscale : roundToDouble (Nat.pow 10 0) = 1 := by decide
  have hlimit : UInt64.size + 2048 ≤ (1 <<< 1024) - (1 <<< 970) := by decide
  unfold Number.isFinite
  simp only [htake, takeSignificand, Option.getD_none, List.length_nil]
  split
  · rfl
  · show decide (roundToDouble n * roundToDouble (Nat.pow 10 0) < _) = true
    rw [hscale, Nat.mul_one, decide_eq_true_eq]
    omega

def Plain (j : Json) : Prop := (∃ s, j = text s) ∨ ∃ n : UInt64, j = encode n

theorem plain_text (s : String) : (text s).Plain := .inl ⟨s, rfl⟩

theorem plain_encode (n : UInt64) : (encode n).Plain := .inr ⟨n, rfl⟩

theorem Plain.isLegible {j : Json} (h : j.Plain) : j.isLegible = true := by
  obtain ⟨s, rfl⟩ | ⟨n, rfl⟩ := h <;> rfl

theorem Plain.depth_eq {j : Json} (h : j.Plain) : j.depth = 0 := by
  obtain ⟨s, rfl⟩ | ⟨n, rfl⟩ := h <;> rfl

theorem Plain.isSound {j : Json} (h : j.Plain) : j.isSound = true := by
  obtain ⟨s, rfl⟩ | ⟨n, rfl⟩ := h
  · rfl
  · exact isFinite_nat n.toNat_lt

/-- A record of texts and numbers can be held. -/
theorem isStrict_record {members : List (String × Json)}
    (h : ∀ member ∈ members, member.2.Plain) : (record members).isStrict = true := by
  have hmembers : depthMembers (known members) = 0 ∧ isSoundMembers (known members) = true := by
    induction members with
    | nil => exact ⟨rfl, rfl⟩
    | cons member members ih =>
      have hplain := h member List.mem_cons_self
      obtain ⟨hdepth, hsound⟩ := ih fun member hmember => h member (List.mem_cons_of_mem _ hmember)
      rw [known, List.map_cons, depthMembers, isSoundMembers, hplain.depth_eq, hplain.isSound]
      exact ⟨(Nat.zero_max _).trans hdepth, hsound⟩
  rw [record_eq, isStrict, depth, isSound, hmembers.1, hmembers.2]
  rfl

end Automat.Json
