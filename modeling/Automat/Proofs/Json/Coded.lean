import Automat.Json.Coded
import Automat.Proofs.Json.RoundTrip

/-!
Types whose JSON text is read back. A value is written and read as text in two steps, and `Portable`
says that nothing is lost in either (`ReadBack`). A record whose fields are written each once and in
order is read field by field (`slots?_record`).
-/

namespace Automat

def written {α : Type} [Coded α] (a : α) : String := (encode a).render

def ofWritten? {α : Type} [Coded α] (s : String) : Option α := Json.parse? s >>= decode

/-- Every value is read from its JSON text. -/
def ReadBack (α : Type) [Coded α] : Prop := ∀ a : α, ofWritten? (written a) = some a

/-- What was written is read back, and it is written as JSON. -/
class Portable (α : Type) [Coded α] : Prop extends LawfulCoded α where
  isLegible_encode (a : α) : (encode a).isLegible = true

export Portable (isLegible_encode)

theorem ofWritten?_render {α : Type} [Coded α] {j : Json} (h : j.isLegible = true) :
    (ofWritten? j.render : Option α) = decode j := by
  unfold ofWritten?
  rw [Json.parse?_render h]
  rfl

theorem Portable.readBack (α : Type) [Coded α] [Portable α] : ReadBack α := by
  intro a
  unfold written
  rw [ofWritten?_render (isLegible_encode a), decode_encode]

/-- Values that are read back have texts of their own. -/
theorem ReadBack.injective {α : Type} [Coded α] (h : ReadBack α) {a b : α}
    (heq : written a = written b) : a = b := by
  have hread := h a
  rw [heq, h b] at hread
  exact (Option.some.inj hread).symm

namespace Json

theorem eq_text_of_toText? {j : Json} {s : String} (h : j.toText? = some s) : j = text s := by
  cases j with
  | string value =>
    cases h
    rfl
  | _ => cases h

/-! ## Records -/

def known (members : List (String × Json)) : List (Option String × Json) :=
  members.map fun member => (some member.1, member.2)

theorem record_eq (members : List (String × Json)) : record members = .object (known members) := rfl

theorem known_append (front back : List (String × Json)) :
    known (front ++ back) = known front ++ known back := List.map_append

theorem mem_known {members : List (String × Json)} {member : Option String × Json}
    (h : member ∈ known members) :
    ∃ source ∈ members, (some source.1, source.2) = member := List.mem_map.1 h

theorem isLegibleItems_iff {items : List Json} :
    isLegibleItems items = true ↔ ∀ item ∈ items, item.isLegible = true := by
  induction items with
  | nil => simp [isLegibleItems]
  | cons item items ih => simp [isLegibleItems, ih]

theorem isLegible_record {members : List (String × Json)}
    (h : ∀ member ∈ members, member.2.isLegible = true) : (record members).isLegible = true := by
  rw [record_eq, isLegible]
  induction members with
  | nil => rfl
  | cons member members ih =>
    rw [known, List.map_cons, isLegibleMembers, h member List.mem_cons_self, Bool.true_and]
    exact ih fun member hmember => h member (List.mem_cons_of_mem _ hmember)

theorem isLegible_variant {value : Json} (name : String) (h : value.isLegible = true) :
    (variant name value).isLegible = true :=
  isLegible_record fun member hmember => by rwa [List.mem_singleton.1 hmember]

namespace Shape

theorem named_cons (name : String) (member : Option String × Json)
    (members : List (Option String × Json)) :
    named name (member :: members) =
      if member.1 = some name then member.2 :: named name members else named name members := by
  unfold named
  rw [List.filterMap_cons]
  by_cases h : member.1 = some name
  · simp only [h, if_true]
  · simp only [h, if_false]

theorem named_append (name : String) (front back : List (Option String × Json)) :
    named name (front ++ back) = named name front ++ named name back := by
  unfold named
  exact List.filterMap_append

theorem named_eq_nil {name : String} {members : List (Option String × Json)}
    (h : ∀ member ∈ members, member.1 ≠ some name) : named name members = [] := by
  induction members with
  | nil => rfl
  | cons member members ih =>
    rw [named_cons, if_neg (h member List.mem_cons_self)]
    exact ih fun member hmember => h member (List.mem_cons_of_mem _ hmember)

theorem named_known_of_not_mem {name : String} {members : List (String × Json)}
    (h : name ∉ members.map Prod.fst) : named name (known members) = [] := by
  refine named_eq_nil fun member hmember heq => ?_
  obtain ⟨source, hsource, rfl⟩ := mem_known hmember
  exact h (List.mem_map.2 ⟨source, hsource, Option.some.inj heq⟩)

theorem named_known_eq_singleton {name : String} {value : Json} {front back : List (String × Json)}
    (hfront : name ∉ front.map Prod.fst) (hback : name ∉ back.map Prod.fst) :
    named name (known (front ++ (name, value) :: back)) = [value] := by
  rw [known_append, named_append, named_known_of_not_mem hfront, List.nil_append, known,
    List.map_cons, named_cons, if_pos rfl]
  exact congrArg (value :: ·) (named_known_of_not_mem hback)

/-- A member whose name no other one has is the value of its field. -/
theorem slot?_of_mem {members : List (String × Json)} (hnames : (members.map Prod.fst).Nodup)
    {member : String × Json} (h : member ∈ members) :
    slot? (known members) member.1 = some (some member.2) := by
  obtain ⟨front, back, rfl⟩ := List.append_of_mem h
  rw [List.map_append, List.map_cons, List.nodup_append, List.nodup_cons] at hnames
  obtain ⟨-, ⟨hback, -⟩, hapart⟩ := hnames
  have hfront : member.1 ∉ front.map Prod.fst := fun h => hapart _ h _ List.mem_cons_self rfl
  have hnamed : named member.1 (known (front ++ member :: back)) = [member.2] :=
    named_known_eq_singleton hfront hback
  unfold slot?
  rw [hnamed]

theorem mapM_slot? {members : List (Option String × Json)} {slots : List (String × Option Json)}
    (h : ∀ slot ∈ slots, slot? members slot.1 = some slot.2) :
    (slots.map Prod.fst).mapM (slot? members) = some (slots.map Prod.snd) := by
  induction slots with
  | nil => rfl
  | cons slot slots ih =>
    rw [List.map_cons, List.mapM_cons, h slot List.mem_cons_self,
      ih fun slot hmem => h slot (List.mem_cons_of_mem _ hmem)]
    rfl

/-- A record that has its fields, each once and in order, holds their values. -/
theorem slots?_record {shape : Shape} {members : List (String × Json)}
    (hfields : shape.fields = members.map Prod.fst) (hnames : shape.fields.Nodup) :
    shape.slots? (record members) = some (members.map fun member => some member.2) := by
  have hadmits : (known members).all (fun member => shape.admits member.1) = true := by
    rw [List.all_eq_true]
    intro member hmember
    obtain ⟨source, hsource, rfl⟩ := mem_known hmember
    have hfield : source.1 ∈ shape.fields := hfields ▸ List.mem_map_of_mem hsource
    simp [admits, hfield]
  have hslots : ((members.map fun member => (member.1, some member.2)).map Prod.fst).mapM
      (slot? (known members)) =
        some ((members.map fun member => (member.1, some member.2)).map Prod.snd) := by
    refine mapM_slot? fun slot hslot => ?_
    obtain ⟨member, hmember, rfl⟩ := List.mem_map.1 hslot
    exact slot?_of_mem (hfields ▸ hnames) hmember
  rw [List.map_map, List.map_map] at hslots
  rw [record_eq, slots?, if_pos hadmits, hfields]
  exact hslots

/-! ## Records that leave fields out -/

def present (slots : List (String × Option Json)) : List (String × Json) :=
  slots.filterMap fun slot => slot.2.map (slot.1, ·)

theorem present_append (front back : List (String × Option Json)) :
    present (front ++ back) = present front ++ present back := List.filterMap_append

theorem present_cons (name : String) (value : Option Json) (slots : List (String × Option Json)) :
    present ((name, value) :: slots) = (value.map (name, ·)).toList ++ present slots := by
  unfold present
  cases value <;> rfl

theorem not_mem_present {name : String} {slots : List (String × Option Json)}
    (h : name ∉ slots.map Prod.fst) : name ∉ (present slots).map Prod.fst := by
  intro hmem
  obtain ⟨member, hmember, rfl⟩ := List.mem_map.1 hmem
  obtain ⟨slot, hslot, hvalue⟩ := List.mem_filterMap.1 hmember
  obtain ⟨value, -, rfl⟩ := Option.map_eq_some_iff.1 hvalue
  exact h (List.mem_map_of_mem hslot)

/-- An object has the given members, in any order, and besides only members that are no fields. -/
def Gives (shape : Shape) (given members : List (String × Json)) : Prop :=
  ∃ others, members.Perm (given ++ others) ∧ ∀ member ∈ others, member.1 ∉ shape.fields

/-- Among the members for fields that are not left out, each field is found that has a value. -/
theorem named_known_present {slots : List (String × Option Json)}
    (hnames : (slots.map Prod.fst).Nodup) {slot : String × Option Json} (h : slot ∈ slots) :
    named slot.1 (known (present slots)) = slot.2.toList := by
  obtain ⟨front, back, rfl⟩ := List.append_of_mem h
  rw [List.map_append, List.map_cons, List.nodup_append, List.nodup_cons] at hnames
  obtain ⟨-, ⟨hback, -⟩, hapart⟩ := hnames
  have hfront : slot.1 ∉ front.map Prod.fst := fun h => hapart _ h _ List.mem_cons_self rfl
  rw [present_append, present_cons, known_append, known_append, named_append, named_append,
    named_known_of_not_mem (not_mem_present hfront), named_known_of_not_mem (not_mem_present hback),
    List.nil_append, List.append_nil]
  cases slot.2 with
  | none => rfl
  | some value =>
    have hnone : slot.1 ∉ ([] : List (String × Json)).map Prod.fst := List.not_mem_nil
    exact named_known_eq_singleton hnone hnone

/-- Order and other members make no difference to what a field holds. -/
theorem slot?_of_gives {shape : Shape} {slots : List (String × Option Json)}
    {members : List (String × Json)} (hnames : (slots.map Prod.fst).Nodup)
    (h : shape.Gives (present slots) members) {slot : String × Option Json} (hslot : slot ∈ slots)
    (hfield : slot.1 ∈ shape.fields) : slot? (known members) slot.1 = some slot.2 := by
  obtain ⟨others, hperm, hothers⟩ := h
  have hnone : named slot.1 (known others) = [] := by
    refine named_known_of_not_mem fun hmem => ?_
    obtain ⟨member, hmember, heq⟩ := List.mem_map.1 hmem
    exact hothers member hmember (heq ▸ hfield)
  have hsame : (named slot.1 (known members)).Perm slot.2.toList := by
    have hnamed : (named slot.1 (known members)).Perm
        (named slot.1 (known (present slots ++ others))) := (hperm.map _).filterMap _
    rwa [known_append, named_append, hnone, List.append_nil, named_known_present hnames hslot]
      at hnamed
  unfold slot?
  cases hvalue : slot.2 with
  | none =>
    rw [hvalue] at hsame
    rw [List.perm_nil.1 hsame]
  | some value =>
    rw [hvalue] at hsame
    rw [List.perm_singleton.1 hsame]

/-- An object that leaves fields out holds the values of the others, wherever they stand. -/
theorem slots?_of_gives {shape : Shape} {slots : List (String × Option Json)}
    {members : List (String × Json)} (hextra : shape.extraMembers = true)
    (hfields : shape.fields = slots.map Prod.fst) (hnames : shape.fields.Nodup)
    (h : shape.Gives (present slots) members) :
    shape.slots? (record members) = some (slots.map Prod.snd) := by
  have hadmits : (known members).all (fun member => shape.admits member.1) = true := by
    rw [List.all_eq_true]
    intro member hmember
    obtain ⟨source, -, rfl⟩ := mem_known hmember
    simp [admits, hextra]
  rw [record_eq, slots?, if_pos hadmits, hfields]
  refine mapM_slot? fun slot hslot => slot?_of_gives (hfields ▸ hnames) h hslot ?_
  exact hfields ▸ List.mem_map_of_mem hslot

end Shape

theorem fieldD_map_encode {α : Type} [Coded α] [LawfulCoded α] (default : α) (value : Option α) :
    fieldD default (value.map encode) = some (value.getD default) := by
  cases value with
  | none => rfl
  | some a => exact decode_encode a

end Json

/-! ## Types of the library -/

instance : Portable String where
  isLegible_encode _ := rfl

instance : Portable UInt64 where
  isLegible_encode _ := rfl

instance {α : Type} [Coded α] [Portable α] : Portable (List α) where
  isLegible_encode items := by
    show Json.isLegible (.array (items.map encode)) = true
    rw [Json.isLegible, Json.isLegibleItems_iff]
    intro item hitem
    obtain ⟨a, -, rfl⟩ := List.mem_map.1 hitem
    exact isLegible_encode a

instance : Portable Duration where
  decode_encode d := by
    have hseconds : (decode (encode d.seconds) : Option UInt64) = some d.seconds := decode_encode _
    have hnanos : (Json.nat d.subsecond).toNatBelow? UInt32.size = some d.subsecond :=
      Json.toNatBelow?_nat (Nat.lt_of_lt_of_le (Nat.mod_lt _ (by decide)) (by decide))
    show (Duration.shape.slots? (.record [("secs", encode d.seconds), ("nanos", .nat d.subsecond)])
      >>= _) = _
    rw [Json.Shape.slots?_record rfl (by decide)]
    show ((decode (encode d.seconds)).bind fun seconds =>
      ((Json.nat d.subsecond).toNatBelow? UInt32.size).bind fun nanos =>
        Duration.ofSeconds? seconds nanos) = some d
    rw [hseconds, hnanos, Option.bind_some, Option.bind_some]
    exact Duration.ofSeconds?_seconds_subsecond d
  isLegible_encode d := by
    refine Json.isLegible_record fun member hmember => ?_
    simp only [List.mem_cons, List.not_mem_nil, or_false] at hmember
    rcases hmember with rfl | rfl <;> rfl

/-- An optional value is read back if none that is present is written as `null`. -/
theorem decode_encode_option {α : Type} [Coded α] [LawfulCoded α]
    (h : ∀ a : α, encode a ≠ Json.null) (value : Option α) : decode (encode value) = some value := by
  cases value with
  | none => rfl
  | some a =>
    have hread : (decode (encode a)).map some = some (some a) := by
      rw [decode_encode, Option.map_some]
    rw [← hread]
    show Coded.decode (encode a) = _
    cases hnull : encode a with
    | null => exact absurd hnull (h a)
    | _ => rfl

end Automat
