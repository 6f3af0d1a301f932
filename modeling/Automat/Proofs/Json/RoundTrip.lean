import Automat.Json.Parser
import Automat.Json.Printer
import Automat.Proofs.Text.Digits

/-!
JSON text that is read back. A value whose numbers have digits behind the point, if there is one, is
read from the text that is written for it (`parse?_render`). A string without text is written as
half of a surrogate pair and read as one.
-/

namespace Automat.Json

open Automat.Json.Parser Automat.Json.Printer
open Automat.Text hiding isBlank skipBlanks isBlank_of_isDigit

/-! ## Legible values -/

/-- A fraction has at least one digit, and nothing else. -/
def Number.isLegible (n : Number) : Bool :=
  match n.fraction with
  | some digits => !digits.isEmpty && digits.all Char.isDigit
  | none => true

mutual

/-- Whether what is written for the value is JSON: its fractions have digits. -/
def isLegible : Json → Bool
  | .number n => n.isLegible
  | .array items => isLegibleItems items
  | .object members => isLegibleMembers members
  | _ => true

def isLegibleItems : List Json → Bool
  | [] => true
  | item :: items => isLegible item && isLegibleItems items

def isLegibleMembers : List (Option String × Json) → Bool
  | [] => true
  | (_, value) :: members => isLegible value && isLegibleMembers members

end

/-- The text behind a value inside of another one, or behind the whole. -/
def Stops (rest : List Char) : Prop := ∀ c ∈ rest.head?, c = ',' ∨ c = ']' ∨ c = '\x7d'

theorem stops_nil : Stops [] := by
  intro c hc
  cases hc

theorem stops_comma (rest : List Char) : Stops (',' :: rest) := by
  intro c hc
  cases hc
  exact .inl rfl

theorem stops_bracket (rest : List Char) : Stops (']' :: rest) := by
  intro c hc
  cases hc
  exact .inr (.inl rfl)

theorem stops_brace (rest : List Char) : Stops ('\x7d' :: rest) := by
  intro c hc
  cases hc
  exact .inr (.inr rfl)

/-! ## Strings -/

theorem hexDigit?_digitChar {d : Nat} (h : d < 16) : hexDigit? (Nat.digitChar d) = some d := by
  have hall : ∀ d < 16, hexDigit? (Nat.digitChar d) = some d := by decide
  exact hall d h

theorem readPieces_short {e c : Char} (hu : e ≠ 'u') (he : shortEscape? e = some c)
    (rest : List Char) :
    readPieces ('\\' :: e :: rest) =
      (readPieces rest).map fun (pieces, rest) => (.char c :: pieces, rest) := by
  rw [readPieces]
  · rw [he]
    cases readPieces rest <;> rfl
  · intro _ _ _ _ _ h
    exact absurd h hu

/-- The escape of a control names its code point. -/
theorem readPieces_unit {n : Nat} (h : n < 0x20) (rest : List Char) :
    readPieces ('\\' :: 'u' :: '0' :: '0' :: Nat.digitChar (n / 16) :: Nat.digitChar (n % 16) ::
        rest) =
      (readPieces rest).map fun (pieces, rest) => (.char (Char.ofNat n) :: pieces, rest) := by
  have hpiece : unitPiece? '0' '0' (Nat.digitChar (n / 16)) (Nat.digitChar (n % 16)) =
      some (.char (Char.ofNat n)) := by
    have hzero : hexDigit? '0' = some 0 := rfl
    have hhigh := hexDigit?_digitChar (show n / 16 < 16 by omega)
    have hlow := hexDigit?_digitChar (show n % 16 < 16 by omega)
    have hunit : (0 * 16 + 0) * 256 + n / 16 * 16 + n % 16 = n := by omega
    simp only [unitPiece?, hzero, hhigh, hlow, Option.bind_eq_bind, Option.bind_some, hunit]
    rw [if_neg (by omega)]
  rw [readPieces, hpiece]
  cases readPieces rest <;> rfl

/-- Any other character stands for itself. -/
theorem readPieces_plain {c : Char} (hq : c ≠ '"') (hb : c ≠ '\\') (hc : ¬ c.toNat < 0x20)
    (rest : List Char) :
    readPieces (c :: rest) =
      (readPieces rest).map fun (pieces, rest) => (.char c :: pieces, rest) := by
  rw [readPieces, if_neg (by simp only [hb, hc, or_self, not_false_eq_true])]
  · cases readPieces rest <;> rfl
  · rintro rfl
    exact hq rfl
  · rintro _ _ _ _ _ rfl _
    exact hb rfl
  · rintro _ _ rfl _
    exact hb rfl

/-- A character is read from its escape. -/
theorem readPieces_escape (c : Char) (rest : List Char) :
    readPieces (escape c ++ rest) =
      (readPieces rest).map fun (pieces, rest) => (.char c :: pieces, rest) := by
  unfold escape
  split
  · exact readPieces_short (by decide) rfl rest
  · exact readPieces_short (by decide) rfl rest
  · exact readPieces_short (by decide) rfl rest
  · exact readPieces_short (by decide) rfl rest
  · exact readPieces_short (by decide) rfl rest
  · exact readPieces_short (by decide) rfl rest
  · exact readPieces_short (by decide) rfl rest
  · next hq hb _ _ _ _ _ =>
    split
    · next hlow =>
      have hunit := readPieces_unit hlow rest
      rwa [Char.ofNat_toNat] at hunit
    · next hhigh => exact readPieces_plain hq hb hhigh rest

theorem readPieces_text (cs rest : List Char) :
    readPieces (cs.flatMap escape ++ '"' :: rest) = some (cs.map .char, rest) := by
  induction cs with
  | nil => rfl
  | cons c cs ih =>
    rw [List.flatMap_cons, List.append_assoc, readPieces_escape, ih]
    rfl

theorem joinPieces_chars (cs : List Char) : joinPieces (cs.map .char) = some cs := by
  induction cs with
  | nil => rfl
  | cons c cs ih =>
    rw [List.map_cons, joinPieces, ih]
    rfl

def literal : Option String → List Char
  | some s => s.toList.flatMap escape ++ ['"']
  | none => ['\\', 'u', 'd', '8', '0', '0', '"']

theorem writeString_eq (s : Option String) : writeString s = '"' :: literal s := by
  cases s <;> rfl

/-- A string is read from its literal, whether it has a text or not. -/
theorem readString_literal (s : Option String) (rest : List Char) :
    readString (literal s ++ rest) = some (s, rest) := by
  cases s with
  | none => rfl
  | some s =>
    rw [literal, List.append_assoc, List.singleton_append, readString, readPieces_text,
      Option.map_some]
    show some ((joinPieces (s.toList.map .char)).map String.ofList, rest) = _
    rw [joinPieces_chars, Option.map_some, String.ofList_toList]

/-! ## Numbers -/

theorem Stops.noDigit {rest : List Char} (h : Stops rest) : NoDigit rest := by
  intro c hc
  rcases h c hc with rfl | rfl | rfl <;> rfl

theorem readDigits_append {digits rest : List Char} (hne : digits ≠ [])
    (h : ∀ c ∈ digits, c.isDigit = true) (hr : NoDigit rest) :
    readDigits (digits ++ rest) = some (digits, rest) := by
  unfold readDigits
  simp only [takeWhile_digits h hr, dropWhile_digits h hr]
  rw [if_neg (by simpa using hne)]

theorem readDigits_toDigits (n : Nat) {rest : List Char} (hr : NoDigit rest) :
    readDigits (Nat.toDigits 10 n ++ rest) = some (Nat.toDigits 10 n, rest) :=
  readDigits_append Nat.toDigits_ne_nil isDigit_of_mem_toDigits hr

/-- How the digits of an exponent, and its sign if it is negative, are written. -/
def exponentText : Option Int → List Char
  | some (.ofNat e) => 'e' :: Nat.toDigits 10 e
  | some (.negSucc e) => 'e' :: '-' :: Nat.toDigits 10 (e + 1)
  | none => []

def fractionText : Option (List Char) → List Char
  | some digits => '.' :: digits
  | none => []

theorem writeNumber_eq (n : Number) :
    writeNumber n = (if n.negative then ['-'] else []) ++ Nat.toDigits 10 n.whole ++
      fractionText n.fraction ++ exponentText n.exponent := by
  unfold writeNumber fractionText exponentText
  rfl

theorem isDigit_of_toDigits_append {n : Nat} {c : Char} {rest cs : List Char}
    (h : Nat.toDigits 10 n ++ rest = c :: cs) : c.isDigit = true := by
  obtain ⟨first, digits, hcons⟩ : ∃ first digits, Nat.toDigits 10 n = first :: digits :=
    List.exists_cons_of_ne_nil Nat.toDigits_ne_nil
  rw [hcons] at h
  cases h
  exact isDigit_of_mem_toDigits c (hcons ▸ List.mem_cons_self)

theorem readExponentDigits_toDigits (n : Nat) {rest : List Char} (hr : NoDigit rest) :
    readExponentDigits (Nat.toDigits 10 n ++ rest) = some ((n : Int), rest) := by
  unfold readExponentDigits
  split
  · next heq => cases isDigit_of_toDigits_append heq
  · next heq => cases isDigit_of_toDigits_append heq
  · rw [readDigits_toDigits n hr, Option.map_some]
    show some ((ofDigits (Nat.toDigits 10 n) : Int), rest) = _
    rw [ofDigits_toDigits]

theorem readExponent_text (exponent : Option Int) {rest : List Char} (hr : Stops rest) :
    readExponent (exponentText exponent ++ rest) = some (exponent, rest) := by
  rcases exponent with _ | e | e
  · show readExponent rest = _
    unfold readExponent
    split
    · rcases hr 'e' rfl with h | h | h <;> cases h
    · rcases hr 'E' rfl with h | h | h <;> cases h
    · rfl
  · show (readExponentDigits (Nat.toDigits 10 e ++ rest)).map _ = _
    rw [readExponentDigits_toDigits e hr.noDigit]
    rfl
  · show ((readDigits (Nat.toDigits 10 (e + 1) ++ rest)).map _).map _ = _
    rw [readDigits_toDigits _ hr.noDigit, Option.map_some]
    show some (some (-(ofDigits (Nat.toDigits 10 (e + 1)) : Int)), rest) = _
    rw [ofDigits_toDigits]
    rfl

theorem readFraction_text {n : Number} (h : n.isLegible = true) {rest : List Char}
    (hr : NoDigit rest) (hp : rest.head? ≠ some '.') :
    readFraction (fractionText n.fraction ++ rest) = some (n.fraction, rest) := by
  unfold Number.isLegible at h
  cases hf : n.fraction with
  | none =>
    show readFraction rest = _
    unfold readFraction
    split
    · exact absurd rfl hp
    · rfl
  | some digits =>
    simp only [hf, Bool.and_eq_true, Bool.not_eq_true', List.isEmpty_eq_false_iff,
      List.all_eq_true] at h
    show (readDigits (digits ++ rest)).map _ = _
    rw [readDigits_append h.1 h.2 hr]
    rfl

/-- What is behind the whole part of a number is no digit, and what is behind the fraction is no
point. -/
theorem noDigit_exponentText (exponent : Option Int) {rest : List Char} (hr : Stops rest) :
    NoDigit (exponentText exponent ++ rest) ∧ (exponentText exponent ++ rest).head? ≠ some '.' := by
  have hmark : ∀ digits : List Char, NoDigit ('e' :: digits) ∧ ('e' :: digits).head? ≠ some '.' := by
    intro digits
    refine ⟨?_, fun h => by cases h⟩
    intro c hc
    cases hc
    rfl
  rcases exponent with _ | e | e
  · refine ⟨hr.noDigit, ?_⟩
    intro hp
    rcases hr '.' hp with h | h | h <;> cases h
  · exact hmark _
  · exact hmark _

theorem noDigit_fractionText (fraction : Option (List Char)) {rest : List Char}
    (hr : NoDigit rest) : NoDigit (fractionText fraction ++ rest) := by
  cases fraction with
  | none => exact hr
  | some digits =>
    intro c hc
    cases hc
    rfl

theorem readMagnitude_text {n : Number} (h : n.isLegible = true) {rest : List Char}
    (hr : Stops rest) :
    readMagnitude n.negative (Nat.toDigits 10 n.whole ++
      (fractionText n.fraction ++ (exponentText n.exponent ++ rest))) = some (n, rest) := by
  obtain ⟨hexponent, hpoint⟩ := noDigit_exponentText n.exponent hr
  have hzero : ¬ ((Nat.toDigits 10 n.whole).length > 1 ∧
      (Nat.toDigits 10 n.whole).head? = some '0') := by
    rintro ⟨hlong, hhead⟩
    by_cases hbig : 10 ≤ n.whole
    · exact head?_toDigits_ne_zero hbig hhead
    · rw [Nat.toDigits_of_lt_base (by omega), List.length_singleton] at hlong
      omega
  unfold readMagnitude
  simp only [readDigits_toDigits n.whole (noDigit_fractionText n.fraction hexponent),
    Option.bind_eq_bind, Option.bind_some, if_neg hzero, readFraction_text h hexponent hpoint,
    readExponent_text n.exponent hr, ofDigits_toDigits]

/-- A number is read from its literal. -/
theorem readNumber_writeNumber {n : Number} (h : n.isLegible = true) {rest : List Char}
    (hr : Stops rest) : readNumber (writeNumber n ++ rest) = some (n, rest) := by
  have hmagnitude := readMagnitude_text h hr
  rw [writeNumber_eq, List.append_assoc, List.append_assoc, List.append_assoc]
  unfold readNumber
  cases hn : n.negative with
  | true =>
    rw [hn] at hmagnitude
    exact hmagnitude
  | false =>
    rw [hn] at hmagnitude
    rw [if_neg Bool.false_ne_true, List.nil_append]
    split
    · next heq => cases isDigit_of_toDigits_append heq
    · exact hmagnitude

/-! ## Values -/

theorem isBlank_of_isDigit {c : Char} (h : c.isDigit = true) : isBlank c = false := by
  rw [← Bool.not_eq_true]
  intro hblank
  simp only [isBlank, Bool.or_eq_true, decide_eq_true_eq] at hblank
  rcases hblank with ((rfl | rfl) | rfl) | rfl <;> cases h

theorem skipBlanks_cons {c : Char} (h : isBlank c = false) (cs : List Char) :
    skipBlanks (c :: cs) = c :: cs :=
  List.dropWhile_cons_of_neg (by simp [h])

/-- A number begins with its sign or with a digit. -/
theorem exists_writeNumber_cons (n : Number) :
    ∃ c cs, writeNumber n = c :: cs ∧ (c = '-' ∨ c.isDigit = true) := by
  rw [writeNumber_eq]
  cases n.negative with
  | true => exact ⟨'-', _, rfl, .inl rfl⟩
  | false =>
    obtain ⟨c, digits, hcons⟩ : ∃ c digits, Nat.toDigits 10 n.whole = c :: digits :=
      List.exists_cons_of_ne_nil Nat.toDigits_ne_nil
    refine ⟨c, digits ++ fractionText n.fraction ++ exponentText n.exponent, ?_,
      .inr (isDigit_of_mem_toDigits c (hcons ▸ List.mem_cons_self))⟩
    rw [hcons]
    rfl

/-- No value begins with a blank or with the bracket that closes an array. -/
theorem exists_write_cons (j : Json) :
    ∃ c cs, write j = c :: cs ∧ isBlank c = false ∧ c ≠ ']' := by
  cases j with
  | null => exact ⟨'n', _, rfl, rfl, by decide⟩
  | bool value => cases value <;> exact ⟨_, _, rfl, rfl, by decide⟩
  | number n =>
    obtain ⟨c, cs, hcons, hc⟩ := exists_writeNumber_cons n
    refine ⟨c, cs, by rw [write, hcons], ?_⟩
    rcases hc with rfl | hc
    · exact ⟨rfl, by decide⟩
    · refine ⟨isBlank_of_isDigit hc, ?_⟩
      rintro rfl
      cases hc
  | string s => cases s <;> exact ⟨'"', _, rfl, rfl, by decide⟩
  | array items => exact ⟨'[', writeItems items, by rw [write], rfl, by decide⟩
  | object members => exact ⟨'\x7b', writeMembers members, by rw [write], rfl, by decide⟩

theorem length_write_pos (j : Json) : 0 < (write j).length := by
  obtain ⟨c, cs, hcons, -⟩ := exists_write_cons j
  rw [hcons]
  exact Nat.succ_pos _

theorem skipBlanks_write (j : Json) (rest : List Char) :
    skipBlanks (write j ++ rest) = write j ++ rest := by
  obtain ⟨c, cs, hcons, hblank, -⟩ := exists_write_cons j
  rw [hcons]
  exact skipBlanks_cons hblank _

theorem writeItems_cons_cons (item next : Json) (items : List Json) :
    writeItems (item :: next :: items) = write item ++ ',' :: writeItems (next :: items) := by
  rw [writeItems]
  intro h
  cases h

theorem writeMembers_cons_cons (name : Option String) (value : Json)
    (next : Option String × Json) (members : List (Option String × Json)) :
    writeMembers ((name, value) :: next :: members) =
      writeString name ++ ':' :: write value ++ ',' :: writeMembers (next :: members) := by
  rw [writeMembers]
  intro h
  cases h

theorem readValue_of_number (fuel : Nat) {c : Char} (h : c = '-' ∨ c.isDigit = true)
    (cs : List Char) :
    readValue (fuel + 1) (c :: cs) =
      (readNumber (c :: cs)).map fun (n, rest) => (.number n, rest) := by
  rw [readValue]
  all_goals
    intro rest heq
    cases heq
    rcases h with h | h <;> cases h

theorem readValue_of_items (fuel : Nat) {cs : List Char} (hblanks : skipBlanks cs = cs)
    (hopen : cs.head? ≠ some ']') :
    readValue (fuel + 1) ('[' :: cs) =
      (readItems fuel cs).map fun (items, rest) => (.array items, rest) := by
  rw [readValue, hblanks]
  split
  · exact absurd rfl hopen
  · rfl

theorem readValue_of_members (fuel : Nat) {cs : List Char} (hblanks : skipBlanks cs = cs)
    (hopen : cs.head? ≠ some '\x7d') :
    readValue (fuel + 1) ('\x7b' :: cs) =
      (readMembers fuel cs).map fun (members, rest) => (.object members, rest) := by
  rw [readValue, hblanks]
  split
  · exact absurd rfl hopen
  · rfl

theorem readItems_last {fuel : Nat} {cs rest : List Char} {item : Json}
    (h : readValue fuel (skipBlanks cs) = some (item, ']' :: rest)) :
    readItems (fuel + 1) cs = some ([item], rest) := by
  rw [readItems, h]
  rfl

theorem readItems_more {fuel : Nat} {cs rest : List Char} {item : Json}
    (h : readValue fuel (skipBlanks cs) = some (item, ',' :: rest)) :
    readItems (fuel + 1) cs =
      (readItems fuel rest).map fun (items, rest) => (item :: items, rest) := by
  rw [readItems, h]
  rfl

theorem readMembers_last {fuel : Nat} {cs rest : List Char} {value : Json}
    (name : Option String) (h : readValue fuel (skipBlanks cs) = some (value, '\x7d' :: rest)) :
    readMembers (fuel + 1) (writeString name ++ ':' :: cs) = some ([(name, value)], rest) := by
  rw [writeString_eq, List.cons_append, readMembers]
  simp [skipBlanks_cons, isBlank, readString_literal, h]

theorem readMembers_more {fuel : Nat} {cs rest : List Char} {value : Json}
    (name : Option String) (h : readValue fuel (skipBlanks cs) = some (value, ',' :: rest)) :
    readMembers (fuel + 1) (writeString name ++ ':' :: cs) =
      (readMembers fuel rest).map fun (members, rest) => ((name, value) :: members, rest) := by
  rw [writeString_eq, List.cons_append, readMembers]
  simp [skipBlanks_cons, isBlank, readString_literal, h]

/-! ## Whole values -/

/-- Every value that is written in no more characters than there are calls is read back. -/
def ReadsValues (fuel : Nat) : Prop :=
  ∀ j rest, isLegible j = true → (write j).length ≤ fuel → Stops rest →
    readValue fuel (write j ++ rest) = some (j, rest)

def ReadsItems (fuel : Nat) : Prop :=
  ∀ item items rest, isLegibleItems (item :: items) = true →
    (writeItems (item :: items)).length ≤ fuel →
    readItems fuel (writeItems (item :: items) ++ rest) = some (item :: items, rest)

def ReadsMembers (fuel : Nat) : Prop :=
  ∀ member members rest, isLegibleMembers (member :: members) = true →
    (writeMembers (member :: members)).length ≤ fuel →
    readMembers fuel (writeMembers (member :: members) ++ rest) = some (member :: members, rest)

theorem readItems_step {fuel : Nat} (hvalues : ReadsValues fuel) (hitems : ReadsItems fuel) :
    ReadsItems (fuel + 1) := by
  intro item items rest hlegible hlong
  rw [isLegibleItems, Bool.and_eq_true] at hlegible
  cases items with
  | nil =>
    rw [writeItems, List.length_append, List.length_singleton] at hlong
    have hitem := hvalues item (']' :: rest) hlegible.1 (by omega) (stops_bracket rest)
    rw [← skipBlanks_write] at hitem
    rw [writeItems, List.append_assoc]
    exact readItems_last hitem
  | cons next items =>
    rw [writeItems_cons_cons, List.length_append, List.length_cons] at hlong
    have hitem := hvalues item (',' :: (writeItems (next :: items) ++ rest)) hlegible.1 (by omega)
      (stops_comma _)
    rw [← skipBlanks_write] at hitem
    rw [writeItems_cons_cons, List.append_assoc, List.cons_append, readItems_more hitem,
      hitems next items rest hlegible.2 (by omega)]
    rfl

theorem readMembers_step {fuel : Nat} (hvalues : ReadsValues fuel)
    (hmembers : ReadsMembers fuel) : ReadsMembers (fuel + 1) := by
  rintro ⟨name, value⟩ members rest hlegible hlong
  rw [isLegibleMembers, Bool.and_eq_true] at hlegible
  obtain ⟨hvalue, hrest⟩ := hlegible
  cases members with
  | nil =>
    rw [writeMembers] at hlong ⊢
    simp only [List.length_append, List.length_cons] at hlong
    have hread := hvalues value ('\x7d' :: rest) hvalue (by omega) (stops_brace rest)
    rw [← skipBlanks_write] at hread
    rw [List.append_assoc, List.append_assoc]
    exact readMembers_last name hread
  | cons next members =>
    rw [writeMembers_cons_cons] at hlong ⊢
    simp only [List.length_append, List.length_cons] at hlong
    have hread := hvalues value (',' :: (writeMembers (next :: members) ++ rest)) hvalue (by omega)
      (stops_comma _)
    rw [← skipBlanks_write] at hread
    rw [List.append_assoc, List.append_assoc, List.cons_append, List.cons_append,
      readMembers_more name hread,
      hmembers next members rest hrest (by omega)]
    rfl

theorem exists_writeItems_cons (item : Json) (items : List Json) :
    ∃ cs, writeItems (item :: items) = write item ++ cs := by
  cases items with
  | nil => exact ⟨_, by rw [writeItems]⟩
  | cons next items => exact ⟨_, writeItems_cons_cons item next items⟩

theorem exists_writeMembers_cons (member : Option String × Json)
    (members : List (Option String × Json)) :
    ∃ cs, writeMembers (member :: members) = '"' :: cs := by
  cases members with
  | nil => exact ⟨_, by rw [writeMembers, writeString_eq, List.append_assoc, List.cons_append]⟩
  | cons next members =>
    exact ⟨_, by rw [writeMembers_cons_cons, writeString_eq, List.append_assoc, List.cons_append]⟩

theorem readValue_step {fuel : Nat} (hitems : ReadsItems fuel) (hmembers : ReadsMembers fuel) :
    ReadsValues (fuel + 1) := by
  intro j rest hlegible hlong hrest
  cases j with
  | null => rfl
  | bool value => cases value <;> rfl
  | number n =>
    rw [isLegible] at hlegible
    obtain ⟨c, cs, hcons, hc⟩ := exists_writeNumber_cons n
    have hread := readNumber_writeNumber hlegible hrest
    rw [hcons] at hread
    rw [write, hcons, List.cons_append, readValue_of_number fuel hc, ← List.cons_append, hread]
    rfl
  | string s =>
    rw [write, writeString_eq, List.cons_append, readValue, readString_literal]
    rfl
  | array items =>
    rw [isLegible] at hlegible
    rw [write] at hlong ⊢
    cases items with
    | nil => rfl
    | cons item items =>
      obtain ⟨cs, hcs⟩ := exists_writeItems_cons item items
      have hblanks : skipBlanks (writeItems (item :: items) ++ rest) =
          writeItems (item :: items) ++ rest := by
        rw [hcs, List.append_assoc, skipBlanks_write]
      have hopen : (writeItems (item :: items) ++ rest).head? ≠ some ']' := by
        obtain ⟨c, tail, hcons, -, hc⟩ := exists_write_cons item
        rw [hcs, hcons]
        exact fun h => hc (Option.some.inj h)
      rw [List.cons_append, readValue_of_items fuel hblanks hopen,
        hitems item items rest hlegible (Nat.le_of_succ_le_succ hlong)]
      rfl
  | object members =>
    rw [isLegible] at hlegible
    rw [write] at hlong ⊢
    cases members with
    | nil => rfl
    | cons member members =>
      obtain ⟨cs, hcs⟩ := exists_writeMembers_cons member members
      have hblanks : skipBlanks (writeMembers (member :: members) ++ rest) =
          writeMembers (member :: members) ++ rest := by
        rw [hcs]
        exact skipBlanks_cons rfl _
      have hopen : (writeMembers (member :: members) ++ rest).head? ≠ some '\x7d' := by
        rw [hcs]
        exact fun h => by cases h
      rw [List.cons_append, readValue_of_members fuel hblanks hopen,
        hmembers member members rest hlegible (Nat.le_of_succ_le_succ hlong)]
      rfl

/-- Reading spends at most one call on each character. -/
theorem reads (fuel : Nat) : ReadsValues fuel ∧ ReadsItems fuel ∧ ReadsMembers fuel := by
  induction fuel with
  | zero =>
    refine ⟨fun j _ _ hlong _ => ?_, fun item items _ _ hlong => ?_,
      fun member members _ _ hlong => ?_⟩
    · have hpos := length_write_pos j
      omega
    · obtain ⟨cs, hcs⟩ := exists_writeItems_cons item items
      have hpos := length_write_pos item
      rw [hcs, List.length_append] at hlong
      omega
    · obtain ⟨cs, hcs⟩ := exists_writeMembers_cons member members
      rw [hcs] at hlong
      exact absurd hlong (Nat.not_succ_le_zero _)
  | succ fuel ih =>
    obtain ⟨hvalues, hitems, hmembers⟩ := ih
    exact ⟨readValue_step hitems hmembers, readItems_step hvalues hitems,
      readMembers_step hvalues hmembers⟩

theorem parse?_render {j : Json} (h : j.isLegible = true) : parse? j.render = some j := by
  have hread : readValue (enough (write j)) (skipBlanks (write j)) = some (j, []) := by
    have hvalue := (reads (enough (write j))).1 j [] h (by unfold enough; omega) stops_nil
    rwa [← skipBlanks_write, List.append_nil] at hvalue
  unfold parse? render
  simp only [String.toList_ofList, hread]
  rfl

end Automat.Json
