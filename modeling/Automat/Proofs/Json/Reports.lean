import Automat.Event
import Automat.Failure
import Automat.History
import Automat.Proofs.Json.Coded
import Automat.Proofs.Timestamp
import Automat.Snapshot

/-!
What a machine reports is read back from JSON: failures and outcomes, moments, the records of its
history and the history as a whole, of any length and limit. The states need only be read back
themselves.
-/

namespace Automat

instance : Portable Timestamp where
  decode_encode t := by
    show (Json.text t.text).toText?.bind Timestamp.parse? = some t
    rw [Json.toText?_text, Option.bind_some]
    exact Timestamp.parse?_text t
  isLegible_encode _ := rfl

instance : Portable TimerId where
  isLegible_encode _ := rfl

namespace Failure

theorem readTexts_record {shape : Json.Shape}
    (make : String → String → String → String → Failure) {a b c d : String}
    (hfields : shape.fields = [a, b, c, d]) (hnames : shape.fields.Nodup) (w x y z : String) :
    readTexts shape make
      (.record [(a, .text w), (b, .text x), (c, .text y), (d, .text z)]) = some (make w x y z) := by
  unfold readTexts
  rw [Json.Shape.slots?_record hfields hnames]
  rfl

instance : Portable Failure where
  decode_encode failure := by
    cases failure with
    | guard name state event message =>
      simp only [decode, encode, Json.variant?_variant, Option.bind_eq_bind, Option.bind_some]
      exact readTexts_record .guard rfl (by decide) name state event message
    | action name state event message =>
      simp only [decode, encode, Json.variant?_variant, Option.bind_eq_bind, Option.bind_some]
      exact readTexts_record .action rfl (by decide) name state event message
    | unknownAction name => rfl
    | unknownGuard name => rfl
  isLegible_encode failure := by
    cases failure <;> rfl

end Failure

variable {S : Type} [Coded S] [Portable S]

instance : Portable (Outcome S) where
  decode_encode outcome := by
    cases outcome with
    | started => rfl
    | handled => rfl
    | ignored => rfl
    | transitioned source target =>
      simp only [decode, encode, Json.variant?_variant, Option.bind_eq_bind, Option.bind_some]
      rw [Json.Shape.slots?_record rfl (by decide)]
      simp only [List.map_cons, List.map_nil, Option.bind_some, decode_encode]
    | guardRejected guard =>
      simp only [decode, encode, Json.variant?_variant, Option.bind_eq_bind, Option.bind_some]
      rw [Json.Shape.slots?_record rfl (by decide)]
      rfl
    | failed failure =>
      show (decode (encode failure)).map Outcome.failed = _
      rw [decode_encode]
      rfl
  isLegible_encode outcome := by
    cases outcome with
    | started => rfl
    | handled => rfl
    | ignored => rfl
    | transitioned source target =>
      refine Json.isLegible_variant "Transitioned" (Json.isLegible_record ?_)
      simp [isLegible_encode]
    | guardRejected guard => rfl
    | failed failure => exact Json.isLegible_variant "Failed" (isLegible_encode failure)

instance : Portable (Transition S) where
  decode_encode t := by
    show (Transition.shape.slots? (.record [("from", encode t.source), ("to", encode t.target),
      ("event", encode t.event), ("timestamp", encode t.timestamp), ("at", encode t.time)])
      >>= _) = _
    rw [Json.Shape.slots?_record rfl (by decide)]
    simp only [List.map_cons, List.map_nil, Option.bind_eq_bind, Option.bind_some, decode_encode]
  isLegible_encode t := Json.isLegible_record (by simp [isLegible_encode])

instance : Portable (History S) where
  decode_encode h := by
    show (History.shape.slots? (.record [("transitions", encode h.transitions),
      ("limit", encode h.limit)]) >>= _) = _
    rw [Json.Shape.slots?_record rfl (by decide)]
    simp only [List.map_cons, List.map_nil, Option.bind_eq_bind, Option.bind_some, decode_encode]
  isLegible_encode h := Json.isLegible_record (by simp [isLegible_encode])

end Automat
