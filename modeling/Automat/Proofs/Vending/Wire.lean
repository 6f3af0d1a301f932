import Automat.Proofs.Json.Reports
import Automat.Proofs.Json.Strict
import Automat.Vending.Event

/-!
The vending machine on the wire. States, kinds, items, contexts and events are read back from their
JSON text, whatever texts and numbers they hold. The tag of an event decides its kind wherever it
stands among the members, and the fields of an item lie beside the tag without being taken for it
(`wire_round_trip`).
-/

namespace Automat.Vending

instance : Portable State where
  decode_encode state := by cases state <;> rfl
  isLegible_encode _ := rfl

instance : Portable Kind where
  decode_encode kind := by cases kind <;> rfl
  isLegible_encode _ := rfl

theorem Item.decode_record (item : Item) : decode (Json.record item.members) = some item := by
  show (Item.shape.slots? (.record item.members) >>= _) = _
  rw [Json.Shape.slots?_record rfl (by decide)]
  simp only [Item.members, List.map_cons, List.map_nil, Option.bind_eq_bind, Option.bind_some,
    decode_encode]

instance : Portable Item where
  decode_encode := Item.decode_record
  isLegible_encode item := Json.isLegible_record (by simp [Item.members, isLegible_encode])

instance : Portable Context where
  decode_encode context := by
    have hitem : decode (encode context.selectedItem) = some context.selectedItem :=
      decode_encode_option (fun _ h => by cases h) context.selectedItem
    show (Context.shape.slots? (.record [("inserted_money", encode context.insertedMoney),
      ("selected_item", encode context.selectedItem), ("change", encode context.change)]) >>= _) = _
    rw [Json.Shape.slots?_record rfl (by decide)]
    simp only [List.map_cons, List.map_nil, Option.bind_eq_bind, Option.bind_some, decode_encode,
      Json.field?_some, hitem]
  isLegible_encode context := by
    have hitem : (encode context.selectedItem).isLegible = true := by
      cases context.selectedItem with
      | none => rfl
      | some item => exact isLegible_encode item
    exact Json.isLegible_record (by simp [isLegible_encode, hitem])

/-! ## Events -/

theorem Kind.ofTag?_eq_some {tag : String} {kind : Kind} (h : Kind.ofTag? tag = some kind) :
    kind.tag = tag := by
  have hfound := List.find?_some h
  simpa using hfound

theorem Kind.tag_injective {k k' : Kind} (h : k.tag = k'.tag) : k = k' := by
  have htag := Kind.ofTag?_tag k
  rw [h, Kind.ofTag?_tag k'] at htag
  exact (Option.some.inj htag).symm

namespace Event

/-- No field of an event is called like the tag. -/
theorem type_not_mem_names (event : Event) : "type" ∉ event.members.map Prod.fst := by
  cases event with
  | selectItem item =>
    show "type" ∉ ["id", "name", "price"]
    decide
  | insertMoney amount =>
    show "type" ∉ ["amount"]
    decide
  | timerElapsed timer =>
    show "type" ∉ ["timer"]
    decide
  | start => exact List.not_mem_nil
  | purchase => exact List.not_mem_nil
  | cancel => exact List.not_mem_nil

/-- The fields of an event are texts and numbers. -/
theorem plain_members (event : Event) : ∀ member ∈ event.members, member.2.Plain := by
  intro member hmember
  cases event with
  | selectItem item =>
    simp only [members, Item.members, List.mem_cons, List.not_mem_nil, or_false] at hmember
    rcases hmember with rfl | rfl | rfl
    · exact Json.plain_text item.id
    · exact Json.plain_text item.name
    · exact Json.plain_encode item.price
  | insertMoney amount =>
    rw [List.mem_singleton.1 hmember]
    exact Json.plain_encode amount
  | timerElapsed timer =>
    rw [List.mem_singleton.1 hmember]
    exact Json.plain_encode timer.generation
  | start => cases hmember
  | purchase => cases hmember
  | cancel => cases hmember

/-- The fields of an event are read back once its kind is known. -/
theorem ofFields?_members (event : Event) :
    ofFields? event.kind (.record event.members) = some event := by
  cases event with
  | start => rfl
  | purchase => rfl
  | cancel => rfl
  | selectItem item =>
    show (decode (Json.record item.members)).map selectItem = _
    rw [Item.decode_record]
    rfl
  | insertMoney amount =>
    show (Json.Shape.slots? { fields := ["amount"] } (.record [("amount", encode amount)]) >>= _) = _
    rw [Json.Shape.slots?_record rfl (by decide)]
    simp only [List.map_cons, List.map_nil, Option.bind_eq_bind, Option.bind_some, decode_encode,
      Option.map_some]
  | timerElapsed timer =>
    show (Json.Shape.slots? { fields := ["timer"] } (.record [("timer", encode timer)]) >>= _) = _
    rw [Json.Shape.slots?_record rfl (by decide)]
    simp only [List.map_cons, List.map_nil, Option.bind_eq_bind, Option.bind_some, decode_encode,
      Option.map_some]

theorem eq_of_bare {fields : Json} {event event' : Event}
    (h : ofFields?.bare fields event = some event') : event = event' := by
  unfold ofFields?.bare at h
  split at h
  · exact Option.some.inj h
  · exact Option.some.inj h
  · cases h

/-- An event that is read from fields is of the kind it is read for. -/
theorem kind_of_ofFields? {kind : Kind} {fields : Json} {event : Event}
    (h : ofFields? kind fields = some event) : event.kind = kind := by
  have hvalue : ∀ {α : Type} {make : α → Event} {value : Option α},
      (∀ a, (make a).kind = kind) → value.map make = some event → event.kind = kind := by
    intro α make value hkind hvalue
    obtain ⟨a, -, rfl⟩ := Option.map_eq_some_iff.1 hvalue
    exact hkind a
  cases kind with
  | start => exact eq_of_bare h ▸ rfl
  | purchase => exact eq_of_bare h ▸ rfl
  | cancel => exact eq_of_bare h ▸ rfl
  | selectItem => exact hvalue (fun _ => rfl) h
  | insertMoney =>
    obtain ⟨slots, -, hslots⟩ := Option.bind_eq_some_iff.1 h
    split at hslots
    · exact hvalue (fun _ => rfl) hslots
    · cases hslots
  | timerElapsed =>
    obtain ⟨slots, -, hslots⟩ := Option.bind_eq_some_iff.1 h
    split at hslots
    · exact hvalue (fun _ => rfl) hslots
    · cases hslots

def untagged (members : List (Option String × Json)) : List (Option String × Json) :=
  members.filter fun member => member.1 ≠ some "type"

/-- An object with one tag is untagged to its other members. -/
theorem untag?_object_eq_some {members : List (Option String × Json)} {kind : Kind}
    {fields : Json} :
    untag? (.object members) = some (kind, fields) ↔
      Json.Shape.named "type" members = [.text kind.tag] ∧
        fields = .object (untagged members) := by
  rcases hnamed : Json.Shape.named "type" members with _ | ⟨tag, _ | ⟨next, rest⟩⟩
  · simp [untag?, hnamed]
  · have huntag : untag? (.object members) = tag.toText?.bind fun text =>
        (Kind.ofTag? text).bind fun kind => some (kind, .object (untagged members)) := by
      simp only [untag?, hnamed]
      rfl
    rw [huntag]
    constructor
    · intro h
      obtain ⟨text, htext, h⟩ := Option.bind_eq_some_iff.1 h
      obtain ⟨found, hfound, h⟩ := Option.bind_eq_some_iff.1 h
      obtain ⟨rfl, rfl⟩ := Prod.mk.inj (Option.some.inj h)
      rw [Json.eq_text_of_toText? htext, Kind.ofTag?_eq_some hfound]
      exact ⟨rfl, rfl⟩
    · rintro ⟨htag, rfl⟩
      rw [(List.cons.inj htag).1, Json.toText?_text, Option.bind_some, Kind.ofTag?_tag]
      rfl
  · simp [untag?, hnamed]

/-- The tag is found among other members, which are left over in order. -/
theorem untag?_tagged (kind : Kind) {front back : List (String × Json)}
    (h : "type" ∉ (front ++ back).map Prod.fst) :
    untag? (.record (front ++ ("type", encode kind) :: back)) =
      some (kind, .record (front ++ back)) := by
  rw [List.map_append, List.mem_append, not_or] at h
  have hkeep : ∀ part : List (String × Json), "type" ∉ part.map Prod.fst →
      untagged (Json.known part) = Json.known part := by
    intro part hpart
    refine List.filter_eq_self.2 fun member hmember => decide_eq_true fun heq => ?_
    obtain ⟨source, hsource, rfl⟩ := Json.mem_known hmember
    exact hpart (List.mem_map.2 ⟨source, hsource, Option.some.inj heq⟩)
  rw [Json.record_eq, untag?_object_eq_some]
  refine ⟨Json.Shape.named_known_eq_singleton h.1 h.2, congrArg Json.object ?_⟩
  calc Json.known (front ++ back)
      = untagged (Json.known front) ++ untagged (Json.known back) := by
        rw [hkeep front h.1, hkeep back h.2, Json.known_append]
    _ = untagged (Json.known (front ++ ("type", encode kind) :: back)) := by
        rw [Json.known_append]
        unfold untagged
        rw [List.filter_append, Json.known, Json.known, Json.known, List.map_cons,
          List.filter_cons_of_neg (by simp)]

/-- An event is read from a strict value with a tag whose fields are those of the kind. -/
theorem decode_eq_some_iff {j : Json} {event : Event} :
    decode j = some event ↔
      j.isStrict = true ∧ ∃ fields, untag? j = some (event.kind, fields) ∧
        ofFields? event.kind fields = some event := by
  have hdecode : (decode j : Option Event) =
      if j.isStrict then (untag? j).bind fun tagged => ofFields? tagged.1 tagged.2 else none := rfl
  rw [hdecode]
  constructor
  · intro h
    split at h
    · next hstrict =>
      obtain ⟨⟨kind, fields⟩, htag, hfields⟩ := Option.bind_eq_some_iff.1 h
      obtain rfl := kind_of_ofFields? hfields
      exact ⟨hstrict, fields, htag, hfields⟩
    · cases h
  · rintro ⟨hstrict, fields, htag, hfields⟩
    rw [if_pos hstrict, htag, Option.bind_some]
    exact hfields

theorem plain_tagged {event : Event} {front back : List (String × Json)}
    (h : event.members = front ++ back) :
    ∀ member ∈ front ++ ("type", encode event.kind) :: back, member.2.Plain := by
  have hplain := h ▸ plain_members event
  intro member hmember
  rcases List.mem_append.1 hmember with hmember | hmember
  · exact hplain member (List.mem_append_left _ hmember)
  · rcases List.mem_cons.1 hmember with rfl | hmember
    · exact Json.plain_text _
    · exact hplain member (List.mem_append_right _ hmember)

theorem decode_tagged {event : Event} {front back : List (String × Json)}
    (h : event.members = front ++ back) :
    decode (Json.record (front ++ ("type", encode event.kind) :: back)) = some event := by
  refine decode_eq_some_iff.2 ⟨Json.isStrict_record (plain_tagged h), .record event.members, ?_,
    ofFields?_members event⟩
  rw [untag?_tagged event.kind (h ▸ type_not_mem_names event), h]

theorem isLegible_tagged {event : Event} {front back : List (String × Json)}
    (h : event.members = front ++ back) :
    (Json.record (front ++ ("type", encode event.kind) :: back)).isLegible = true :=
  Json.isLegible_record fun member hmember => (plain_tagged h member hmember).isLegible

instance : Portable Event where
  decode_encode event := decode_tagged (List.nil_append event.members).symm
  isLegible_encode event := isLegible_tagged (List.nil_append event.members).symm

/-- What is read as an event has one tag, which is that of the event: as a member of an object, or in
front of the fields in an array. -/
theorem tag_of_decode {j : Json} {event : Event} (h : decode j = some event) :
    (∃ members, j = .object members ∧
      Json.Shape.named "type" members = [.text event.kind.tag]) ∨
    ∃ fields, j = .array (.text event.kind.tag :: fields) := by
  obtain ⟨-, fields, htag, -⟩ := decode_eq_some_iff.1 h
  cases j with
  | object members => exact .inl ⟨members, rfl, (untag?_object_eq_some.1 htag).1⟩
  | array items =>
    cases items with
    | nil => cases htag
    | cons tag items =>
      obtain ⟨text, htext, htag⟩ := Option.bind_eq_some_iff.1 htag
      obtain ⟨kind, hkind, htag⟩ := Option.bind_eq_some_iff.1 htag
      obtain ⟨rfl, -⟩ := Prod.mk.inj (Option.some.inj htag)
      rw [Json.eq_text_of_toText? htext, Kind.ofTag?_eq_some hkind]
      exact .inr ⟨items, rfl⟩
  | null | bool | number | string => cases htag

/-- The item of an event is read from the members beside the tag. -/
theorem item_of_decode {members : List (Option String × Json)} {item : Item}
    (h : decode (.object members) = some (selectItem item)) :
    decode (.object (untagged members)) = some item := by
  obtain ⟨-, fields, htag, hfields⟩ := decode_eq_some_iff.1 h
  obtain ⟨-, rfl⟩ := untag?_object_eq_some.1 htag
  obtain ⟨found, hfound, heq⟩ := Option.map_eq_some_iff.1 hfields
  cases heq
  exact hfound

end Event

/-! ## The wire -/

/-- All that crosses the wire is read back from its text, and no two events share one. The tag of an
event decides its kind, no two kinds have the same tag, it may stand anywhere among the fields, and an
item is read from what is beside it. -/
theorem wire_round_trip (S : Type) [Coded S] [Portable S] :
    (ReadBack Event ∧ ReadBack Kind ∧ ReadBack State ∧ ReadBack Item ∧ ReadBack Context ∧
      ReadBack TimerId ∧ ReadBack Failure ∧ ReadBack (Outcome S) ∧ ReadBack (Transition S) ∧
      ReadBack (History S)) ∧
    (∀ event event' : Event, written event = written event' → event = event') ∧
    (∀ kind kind' : Kind, kind.tag = kind'.tag → kind = kind') ∧
    (∀ (event : Event) (j : Json), decode j = some event →
      (∃ members, j = .object members ∧
        Json.Shape.named "type" members = [.text event.kind.tag]) ∨
      ∃ fields, j = .array (.text event.kind.tag :: fields)) ∧
    (∀ (item : Item) (members : List (Option String × Json)),
      decode (.object members) = some (Event.selectItem item) →
        decode (.object (Event.untagged members)) = some item) ∧
    ∀ (event : Event) (front back : List (String × Json)), event.members = front ++ back →
      ofWritten? (Json.record (front ++ ("type", encode event.kind) :: back)).render =
        some event := by
  refine ⟨⟨Portable.readBack _, Portable.readBack _, Portable.readBack _, Portable.readBack _,
    Portable.readBack _, Portable.readBack _, Portable.readBack _, Portable.readBack _,
    Portable.readBack _, Portable.readBack _⟩, ?_, ?_, ?_, ?_, ?_⟩
  · exact fun _ _ heq => (Portable.readBack Event).injective heq
  · exact fun _ _ => Kind.tag_injective
  · exact fun _ _ => Event.tag_of_decode
  · exact fun _ _ => Event.item_of_decode
  · intro event front back h
    rw [ofWritten?_render (Event.isLegible_tagged h), Event.decode_tagged h]

/-- What the vending machine reports of itself is read back. -/
theorem wire_round_trip_state :
    ReadBack (Outcome State) ∧ ReadBack (Transition State) ∧ ReadBack (History State) :=
  (wire_round_trip State).1.2.2.2.2.2.2.2

end Automat.Vending
