import Automat.Proofs.Text.Digits
import Automat.Timestamp.Parser
import Automat.Timestamp.Printer

/-!
The text of a moment is read back. It names universal time, so that reading turns nothing, and its
fraction leaves out only zeros (`parse?_text`).
-/

namespace Automat.Timestamp

open Automat.Timestamp.Parser Automat.Text

/-! ## Numbers and marks -/

/-- Digits that fill the width are read as their number, whatever follows. -/
theorem readNumber_padded {width n : Nat} (h : (Nat.toDigits 10 n).length ≤ width)
    (rest : List Char) : readNumber width (padded width n ++ rest) = some (n, rest) := by
  have hskip : skipBlanks (padded width n ++ rest) = padded width n ++ rest :=
    skipBlanks_digits (padded_ne_nil width n) isDigit_of_mem_padded
  have hlength := length_padded h
  have hdigits : (padded width n).takeWhile Char.isDigit = padded width n := by
    have hnil : NoDigit [] := fun c hc => by cases hc
    have htake : (padded width n ++ []).takeWhile Char.isDigit = padded width n :=
      takeWhile_digits isDigit_of_mem_padded hnil
    rwa [List.append_nil] at htake
  unfold readNumber
  simp only [hskip, List.take_left' hlength, hdigits, ofDigits_padded, List.drop_left]
  rw [if_neg (by simpa using padded_ne_nil width n)]

theorem readPair_padded {n : Nat} (h : n < 100) (rest : List Char) :
    readNumber 2 (padded 2 n ++ rest) = some (n, rest) :=
  readNumber_padded (length_toDigits_le (by decide) h) rest

theorem readMark_cons {mark : Char} (h : isBlank mark = false) (rest : List Char) :
    readMark mark (mark :: rest) = some rest := by
  have hskip : skipBlanks (mark :: rest) = mark :: rest :=
    List.dropWhile_cons_of_neg (by simp [h])
  unfold readMark
  rw [hskip]
  exact if_pos rfl

theorem signed_padded (width n : Nat) {rest : List Char} (hr : NoDigit rest) :
    readYear.signed (padded width n ++ rest) = some (n, rest) := by
  unfold readYear.signed
  simp only [takeWhile_digits isDigit_of_mem_padded hr, ofDigits_padded, List.drop_left]
  rw [if_neg (by simpa using padded_ne_nil width n)]

/-- A year is read from its digits, or from its sign and its digits. -/
theorem readYear_writeYear (year : Int) {rest : List Char} (hr : NoDigit rest) :
    readYear (writeYear year ++ rest) = some (year, rest) := by
  unfold writeYear
  split
  · next hplain =>
    have hskip : skipBlanks (padded 4 year.toNat ++ rest) = padded 4 year.toNat ++ rest :=
      skipBlanks_digits (padded_ne_nil 4 _) isDigit_of_mem_padded
    have hread : readNumber 4 (padded 4 year.toNat ++ rest) = some (year.toNat, rest) :=
      readNumber_padded (length_toDigits_le (by decide) (show year.toNat < 10000 by omega)) rest
    have hyear : (year.toNat : Int) = year := by omega
    obtain ⟨c, digits, hcons⟩ : ∃ c digits, padded 4 year.toNat = c :: digits :=
      List.exists_cons_of_ne_nil (padded_ne_nil 4 _)
    have hc : c.isDigit = true := isDigit_of_mem_padded c (hcons ▸ List.mem_cons_self)
    unfold readYear
    rw [hskip]
    split
    · next heq =>
      rw [hcons] at heq
      cases heq
      cases hc
    · next heq =>
      rw [hcons] at heq
      cases heq
      cases hc
    · rw [hread]
      show some ((year.toNat : Int), rest) = _
      rw [hyear]
  · next hsigned =>
    have hread := signed_padded 4 year.natAbs hr
    split
    · next hneg =>
      have hyear : -(year.natAbs : Int) = year := by omega
      show (readYear.signed (padded 4 year.natAbs ++ rest)).map _ = _
      rw [hread]
      show some (-(year.natAbs : Int), rest) = _
      rw [hyear]
    · next hpos =>
      have hyear : (year.natAbs : Int) = year := by omega
      show (readYear.signed (padded 4 year.natAbs ++ rest)).map _ = _
      rw [hread]
      show some ((year.natAbs : Int), rest) = _
      rw [hyear]

/-! ## Fractions -/

/-- At most nine digits behind the point count fully. -/
theorem readFraction_padded {width n : Nat} (h : (Nat.toDigits 10 n).length ≤ width)
    (hw : width ≤ 9) {rest : List Char} (hr : NoDigit rest) :
    readFraction ('.' :: padded width n ++ rest) =
      some (n * Nat.pow 10 (9 - width), rest) := by
  have hlength := length_padded h
  rw [List.cons_append]
  unfold readFraction
  simp only [takeWhile_digits isDigit_of_mem_padded hr, List.drop_left]
  rw [if_neg (by simpa using padded_ne_nil width n), List.take_of_length_le (by omega),
    ofDigits_padded, hlength]

theorem readFraction_writeFraction {nanos : Nat} (h : nanos < 1000000000) {rest : List Char}
    (hr : NoDigit rest) (hp : rest.head? ≠ some '.') :
    readFraction (writeFraction nanos ++ rest) = some (nanos, rest) := by
  unfold writeFraction
  split
  · next hzero =>
    rw [hzero, List.nil_append]
    unfold readFraction
    split
    · exact absurd rfl hp
    · rfl
  · split
    · next hmillis =>
      have hexact : nanos / 1000000 * Nat.pow 10 (9 - 3) = nanos := by
        show nanos / 1000000 * 1000000 = nanos
        omega
      have hlength : (Nat.toDigits 10 (nanos / 1000000)).length ≤ 3 :=
        length_toDigits_le (by decide) (show nanos / 1000000 < 1000 by omega)
      rw [readFraction_padded hlength (by decide) hr, hexact]
    · split
      · next hmicros =>
        have hexact : nanos / 1000 * Nat.pow 10 (9 - 6) = nanos := by
          show nanos / 1000 * 1000 = nanos
          omega
        have hlength : (Nat.toDigits 10 (nanos / 1000)).length ≤ 6 :=
          length_toDigits_le (by decide) (show nanos / 1000 < 1000000 by omega)
        rw [readFraction_padded hlength (by decide) hr, hexact]
      · have hexact : nanos * Nat.pow 10 (9 - 9) = nanos := Nat.mul_one nanos
        have hlength : (Nat.toDigits 10 nanos).length ≤ 9 := length_toDigits_le (by decide) h
        rw [readFraction_padded hlength (by decide) hr, hexact]

/-! ## Moments -/

theorem readOffset_utc (rest : List Char) : readOffset ('Z' :: rest) = some (0, rest) := rfl

theorem readSeparator_t (rest : List Char) : readSeparator ('T' :: rest) = some rest := rfl

theorem write_eq (t : Timestamp) :
    t.write = writeYear t.date.year ++ '-' :: (padded 2 t.date.month ++
      '-' :: (padded 2 t.date.day ++ 'T' :: (padded 2 t.hour ++ ':' :: (padded 2 t.minute ++
        ':' :: (padded 2 t.second ++ (writeFraction t.nanos ++ ['Z'])))))) := by
  unfold write
  simp only [List.append_assoc, List.cons_append]

theorem read_write (t : Timestamp) : Parser.read t.write = some (t, 0, []) := by
  have hmonth := t.date.month_le
  have hday : t.date.day ≤ 31 := by
    refine Nat.le_trans t.date.day_le ?_
    unfold Date.daysInMonth
    split
    · split <;> decide
    all_goals decide
  have hhour := t.hour_lt
  have hminute := t.minute_lt
  have hsecond := t.second_le
  have hdash : isBlank '-' = false := rfl
  have hcolon : isBlank ':' = false := rfl
  have hyear (rest : List Char) :
      readYear (writeYear t.date.year ++ '-' :: rest) = some (t.date.year, '-' :: rest) :=
    readYear_writeYear t.date.year (by intro c hc; cases hc; rfl)
  have hfraction : readFraction (writeFraction t.nanos ++ ['Z']) = some (t.nanos, ['Z']) :=
    readFraction_writeFraction t.nanos_lt (by intro c hc; cases hc; rfl) (by decide)
  rw [write_eq]
  unfold Parser.read
  refine Option.bind_eq_some_iff.2 ⟨_, hyear _, ?_⟩
  refine Option.bind_eq_some_iff.2 ⟨_, readMark_cons hdash _, ?_⟩
  refine Option.bind_eq_some_iff.2 ⟨_, readPair_padded (by omega) _, ?_⟩
  refine Option.bind_eq_some_iff.2 ⟨_, readMark_cons hdash _, ?_⟩
  refine Option.bind_eq_some_iff.2 ⟨_, readPair_padded (by omega) _, ?_⟩
  refine Option.bind_eq_some_iff.2 ⟨_, readSeparator_t _, ?_⟩
  refine Option.bind_eq_some_iff.2 ⟨_, readPair_padded (by omega) _, ?_⟩
  refine Option.bind_eq_some_iff.2 ⟨_, readMark_cons hcolon _, ?_⟩
  refine Option.bind_eq_some_iff.2 ⟨_, readPair_padded (by omega) _, ?_⟩
  refine Option.bind_eq_some_iff.2 ⟨_, readMark_cons hcolon _, ?_⟩
  refine Option.bind_eq_some_iff.2 ⟨_, readPair_padded (by omega) _, ?_⟩
  refine Option.bind_eq_some_iff.2 ⟨_, hfraction, ?_⟩
  refine Option.bind_eq_some_iff.2 ⟨_, readOffset_utc _, ?_⟩
  refine Option.bind_eq_some_iff.2 ⟨_, Date.of?_self t.date, ?_⟩
  refine Option.bind_eq_some_iff.2 ⟨_, of?_self t, ?_⟩
  rfl

/-- Universal time is not turned. -/
theorem shiftBack?_zero (t : Timestamp) : t.shiftBack? 0 = some t := by
  have hhour := t.hour_lt
  have hminute := t.minute_lt
  have hearly : ¬ ((t.hour : Int) * 60 + t.minute - 0 < 0) := by omega
  have hlate : ¬ (1440 ≤ (t.hour : Int) * 60 + t.minute - 0) := by omega
  have hday : (((t.hour : Int) * 60 + t.minute - 0) % 1440).toNat = t.hour * 60 + t.minute := by
    omega
  have hhours : (t.hour * 60 + t.minute) / 60 = t.hour := by omega
  have hminutes : (t.hour * 60 + t.minute) % 60 = t.minute := by omega
  unfold shiftBack?
  simp only [if_neg hearly, if_neg hlate, hday, hhours, hminutes, Option.bind_eq_bind,
    Option.bind_some, of?_self]

/-- Every moment is read from its text. -/
theorem parse?_text (t : Timestamp) : parse? t.text = some t := by
  unfold parse? text
  simp only [String.toList_ofList, read_write, Option.bind_eq_bind, Option.bind_some,
    shiftBack?_zero]
  exact if_pos (by decide)

end Automat.Timestamp
