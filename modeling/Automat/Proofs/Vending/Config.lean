import Automat.Proofs.Json.Coded
import Automat.Vending.Config

/-!
The text of a configuration. An object may give any of the fields, in any order and among members of
other names, also in the settings of the run inside of it; whatever it leaves out has its default
value. What was read is then checked, so that no delay of an accepted configuration is zero
(`ofText_judged`).
-/

namespace Automat.Vending

/-! ## Fields that are given -/

/-- The fields that are given for the settings of a run. -/
structure RunConfig.Given where
  historyLimit : Option UInt64

namespace RunConfig.Given

def onto (given : Given) (config : RunConfig) : RunConfig where
  historyLimit := given.historyLimit.getD config.historyLimit

/-- An object gives these fields and leaves the others out. -/
def GivenBy (given : Given) (members : List (String × Json)) : Prop :=
  shape.Gives (Json.Shape.present [("history_limit", given.historyLimit.map encode)]) members

theorem decode_of_givenBy {given : Given} {members : List (String × Json)}
    (h : given.GivenBy members) : decode (Json.record members) = some (given.onto {}) := by
  show (shape.slots? (Json.record members) >>= _) = _
  rw [Json.Shape.slots?_of_gives rfl rfl (by decide) h]
  show ((Json.fieldD History.defaultLimit (given.historyLimit.map encode)).bind _) = _
  rw [Json.fieldD_map_encode]
  rfl

theorem fieldD_of_rel {given : Option Given} {members : Option (List (String × Json))}
    (h : Option.Rel GivenBy given members) :
    Json.fieldD ({} : RunConfig) (members.map Json.record) =
      some (given.elim {} fun given => given.onto {}) := by
  cases h with
  | none => rfl
  | some h => exact decode_of_givenBy h

end RunConfig.Given

/-- The fields that are given for a configuration, those of its settings of the run included. -/
structure Config.Given where
  dispenseDelayMs : Option UInt64
  returnDelayMs : Option UInt64
  run : Option RunConfig.Given

def Config.given (config : Config) : Config.Given :=
  ⟨config.dispenseDelayMs, config.returnDelayMs, some ⟨config.run.historyLimit⟩⟩

namespace Config.Given

def onto (given : Given) (config : Config) : Config where
  dispenseDelayMs := given.dispenseDelayMs.getD config.dispenseDelayMs
  returnDelayMs := given.returnDelayMs.getD config.returnDelayMs
  run := given.run.elim config.run fun run => run.onto config.run

theorem onto_given (config other : Config) : config.given.onto other = config := rfl

/-- An object gives these fields and leaves the others out, and so does the object inside of it. -/
def GivenBy (given : Given) (members : List (String × Json)) : Prop :=
  ∃ run, Option.Rel RunConfig.Given.GivenBy given.run run ∧
    shape.Gives (Json.Shape.present
      [("dispense_delay_ms", given.dispenseDelayMs.map encode),
        ("return_delay_ms", given.returnDelayMs.map encode),
        ("interpreter", run.map Json.record)]) members

theorem decode_of_givenBy {given : Given} {members : List (String × Json)}
    (h : given.GivenBy members) : decode (Json.record members) = some (given.onto {}) := by
  obtain ⟨run, hrun, hgives⟩ := h
  show (shape.slots? (Json.record members) >>= _) = _
  rw [Json.Shape.slots?_of_gives rfl rfl (by decide) hgives]
  show ((Json.fieldD 2000 (given.dispenseDelayMs.map encode)).bind fun dispense =>
    (Json.fieldD 2000 (given.returnDelayMs.map encode)).bind fun return_ =>
      (Json.fieldD ({} : RunConfig) (run.map Json.record)).bind fun run =>
        some (⟨dispense, return_, run⟩ : Config)) = _
  rw [Json.fieldD_map_encode, Json.fieldD_map_encode, RunConfig.Given.fieldD_of_rel hrun]
  rfl

end Config.Given

/-! ## Checks -/

namespace Config

/-- A configuration is refused because of the delay in the named field. -/
def Blames (name : String) (result : Except ConfigError Config) : Prop :=
  ∃ error : ConfigError, result = .error error ∧
    error.message? = some ("Invalid config: " ++ name ++ " must be greater than zero")

/-- What comes of a configuration that has been read: it is accepted as it is unless a delay is zero,
and of two such delays the first is blamed. -/
structure Judged (config : Config) (result : Except ConfigError Config) : Prop where
  accepted : result = .ok config ↔ config.dispenseDelayMs ≠ 0 ∧ config.returnDelayMs ≠ 0
  dispense : config.dispenseDelayMs = 0 → Blames "dispense_delay_ms" result
  later : config.dispenseDelayMs ≠ 0 → config.returnDelayMs = 0 →
    Blames "return_delay_ms" result

theorem judged_validate (config : Config) : Judged config config.validate := by
  unfold validate
  by_cases hd : config.dispenseDelayMs = 0
  · rw [if_pos hd]
    exact ⟨iff_of_false (fun h => by cases h) fun h => h.1 hd, fun _ => ⟨_, rfl, rfl⟩,
      fun h => absurd hd h⟩
  · rw [if_neg hd]
    by_cases hr : config.returnDelayMs = 0
    · rw [if_pos hr]
      exact ⟨iff_of_false (fun h => by cases h) fun h => h.2 hr, fun h => absurd h hd,
        fun _ _ => ⟨_, rfl, rfl⟩⟩
    · rw [if_neg hr]
      exact ⟨iff_of_true rfl ⟨hd, hr⟩, fun h => absurd h hd, fun _ h => absurd h hr⟩

/-- Only what has passed the check is accepted. -/
theorem eq_of_validate_eq_ok {config checked : Config} (h : config.validate = .ok checked) :
    checked = config ∧ config.dispenseDelayMs ≠ 0 ∧ config.returnDelayMs ≠ 0 := by
  unfold validate at h
  split at h
  · cases h
  · split at h
    · cases h
    · next hd hr =>
      cases h
      exact ⟨rfl, hd, hr⟩

theorem ofMillis_le {ms : UInt64} (h : ms ≠ 0) : Duration.ofMillis 1 ≤ .ofMillis ms := by
  have hpos : ms.toNat ≠ 0 := fun hzero => h (UInt64.toNat.inj hzero)
  show 1 * 1000000 ≤ ms.toNat * 1000000
  omega

/-! ## Texts -/

theorem ofText_of_parse? {text : String} {j : Json} {config : Config}
    (hp : Json.parse? text = some j) (hd : decode j = some config) :
    ofText text = config.validate := by
  unfold ofText
  rw [hp, Option.bind_eq_bind, Option.bind_some, hd]

theorem validate_of_ofText {text : String} {config : Config} (h : ofText text = .ok config) :
    ∃ read : Config, read.validate = .ok config := by
  unfold ofText at h
  split at h
  · next read _ => exact ⟨read, h⟩
  · cases h

/-- All fields are given by what is written for a configuration. -/
theorem exists_members (config : Config) : ∃ members, encode config = Json.record members ∧
    config.given.GivenBy members ∧ ∀ member ∈ members, member.2.isLegible = true := by
  refine ⟨_, rfl, ⟨some [("history_limit", encode config.run.historyLimit)], .some ?_, ?_⟩, ?_⟩
  · exact ⟨[], .refl _, fun _ h => absurd h List.not_mem_nil⟩
  · exact ⟨[], .refl _, fun _ h => absurd h List.not_mem_nil⟩
  · intro member hmember
    simp only [List.mem_cons, List.not_mem_nil, or_false] at hmember
    rcases hmember with rfl | rfl | rfl
    · exact isLegible_encode config.dispenseDelayMs
    · exact isLegible_encode config.returnDelayMs
    · exact Json.isLegible_record fun member hmember => by
        rw [List.mem_singleton.1 hmember]
        exact isLegible_encode config.run.historyLimit

/-- The text of a configuration is read back and judged. So is every text of an object that gives any
fields, in any order and among others: each field that is left out has its default value. Any text
that is accepted at all has given two delays of a millisecond or more. -/
theorem ofText_judged :
    (∀ config : Config, Judged config (ofText (written config))) ∧
    (∀ (given : Config.Given) (members : List (String × Json)), given.GivenBy members →
      (∀ text, Json.parse? text = some (.record members) → Judged (given.onto {}) (ofText text)) ∧
      ((∀ member ∈ members, member.2.isLegible = true) →
        Judged (given.onto {}) (ofText (Json.record members).render))) ∧
    ∀ text config, ofText text = .ok config →
      Duration.ofMillis 1 ≤ config.dispenseDelay ∧ Duration.ofMillis 1 ≤ config.returnDelay := by
  have hread : ∀ (given : Config.Given) (members : List (String × Json)),
      given.GivenBy members → ∀ text, Json.parse? text = some (.record members) →
        Judged (given.onto {}) (ofText text) := by
    intro given members hgiven text hparse
    rw [ofText_of_parse? hparse (Given.decode_of_givenBy hgiven)]
    exact judged_validate _
  have hrendered : ∀ (given : Config.Given) (members : List (String × Json)),
      given.GivenBy members → (∀ member ∈ members, member.2.isLegible = true) →
        Judged (given.onto {}) (ofText (Json.record members).render) :=
    fun given members hgiven hlegible =>
      hread given members hgiven _ (Json.parse?_render (Json.isLegible_record hlegible))
  refine ⟨?_, fun given members hgiven =>
    ⟨hread given members hgiven, hrendered given members hgiven⟩, ?_⟩
  · intro config
    obtain ⟨members, hencode, hgiven, hlegible⟩ := exists_members config
    have hjudged := hrendered config.given members hgiven hlegible
    rwa [Given.onto_given, ← hencode] at hjudged
  · intro text config h
    obtain ⟨read, hvalidate⟩ := validate_of_ofText h
    obtain ⟨rfl, hdispense, hreturn⟩ := eq_of_validate_eq_ok hvalidate
    exact ⟨ofMillis_le hdispense, ofMillis_le hreturn⟩

/-- A document that gives one delay and the number of records, each behind something else. -/
def sketch : List (String × Json) :=
  [("note", .array [.text "draft"]),
    ("interpreter", .record [("history_limit", encode (8 : UInt64)), ("depth", .null)]),
    ("dispense_delay_ms", encode (500 : UInt64))]

/-- The other delay is that by default, and both are long enough. -/
theorem ofText_judged_sketch : ∃ given : Config.Given, given.GivenBy sketch ∧
    (∀ member ∈ sketch, member.2.isLegible = true) ∧
    ofText (Json.record sketch).render = .ok ⟨500, 2000, ⟨8⟩⟩ ∧
    Duration.ofMillis 1 ≤ .ofMillis 500 ∧ Duration.ofMillis 1 ≤ .ofMillis 2000 := by
  let given : Config.Given := ⟨some 500, none, some ⟨some 8⟩⟩
  have hgiven : given.GivenBy sketch := by
    refine ⟨some [("history_limit", encode (8 : UInt64)), ("depth", .null)], .some ?_, ?_⟩
    · exact ⟨[("depth", .null)], .refl _, by simp [RunConfig.shape]⟩
    · exact ⟨[("note", .array [.text "draft"])], (List.reverse_perm _).symm, by simp [shape]⟩
  have hlegible : ∀ member ∈ sketch, member.2.isLegible = true := by
    intro member hmember
    simp only [sketch, List.mem_cons, List.not_mem_nil, or_false] at hmember
    rcases hmember with rfl | rfl | rfl <;> rfl
  obtain ⟨-, hdocuments, haccepted⟩ := ofText_judged
  have hok : ofText (Json.record sketch).render = .ok ⟨500, 2000, ⟨8⟩⟩ :=
    ((hdocuments given sketch hgiven).2 hlegible).accepted.2 (by decide)
  obtain ⟨hdispense, hreturn⟩ := haccepted _ _ hok
  exact ⟨given, hgiven, hlegible, hok, hdispense, hreturn⟩

end Config

end Automat.Vending
