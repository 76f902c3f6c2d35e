import SpanTags.Proofs.Settings.Document
import SpanTags.Proofs.Settings.Rules
import SpanTags.Proofs.Text.Utf8

namespace SpanTags.Settings

open Yaml (Content)

section Choice

variable (environment : List (Text × Text)) (content : Content)

-- What counts for a field: the text of its variable, an empty one only where it stands for no
-- rules, and else what the document gives.
def chosen? (source field : Text) : Option Given :=
  match environment.lookup source with
  | some text =>
    if text ≠ [] ∨ field = "request" ∨ field = "response" then some (.scalar (.text text))
    else File.value? content field
  | none => File.value? content field

-- The fields that are given anywhere, with what counts for them.
def effective : List (Text × Given) :=
  overrides.filterMap fun (source, field) =>
    (chosen? environment content source field).map (field, ·)

def fromVariable? (source field : Text) : Option Given :=
  (overriding? environment source field).map fun text => .scalar (.text text)

theorem chosen?_eq_or (source field : Text) :
    chosen? environment content source field =
      (fromVariable? environment source field).or (File.value? content field) := by
  unfold chosen? fromVariable? overriding?
  cases environment.lookup source with
  | none => rfl
  | some text =>
      by_cases hempty : text = []
      · by_cases hrequest : field = "request" <;> by_cases hresponse : field = "response" <;>
          simp [hempty, hrequest, hresponse]
      · simp [hempty]

theorem nodup_overrides : (overrides.map Prod.snd).Nodup := by decide

-- The variables set their fields all at once.
theorem override_eq_putAll (given : List (Text × Given)) :
    override environment given =
      Ordered.putAll (overrides.filterMap fun pair =>
        (fromVariable? environment pair.1 pair.2).map (pair.2, ·)) given := by
  unfold override fromVariable?
  generalize overrides = sources
  induction sources generalizing given with
  | nil => rfl
  | cons pair rest ih =>
      obtain ⟨source, field⟩ := pair
      rw [List.foldl_cons, ih]
      cases h : overriding? environment source field with
      | none => simp [h]
      | some text => simp [h, Ordered.putAll]

variable {environment content} {source field : Text} (h : (source, field) ∈ overrides)

include h

theorem get?_effective :
    Ordered.get? field (effective environment content) =
      chosen? environment content source field :=
  Ordered.get?_filterMap (fun pair : Text × Text => chosen? environment content pair.1 pair.2)
    nodup_overrides h

theorem get?_override (given : List (Text × Given)) :
    Ordered.get? field (override environment given) =
      (fromVariable? environment source field).or (Ordered.get? field given) := by
  have hnodup := nodup_overrides.sublist
    (Ordered.map_fst_filterMap_sublist
      fun pair : Text × Text => fromVariable? environment pair.1 pair.2)
  rw [override_eq_putAll, Ordered.get?_putAll hnodup]
  exact congrArg (Option.or · _) (Ordered.get?_filterMap
    (fun pair : Text × Text => fromVariable? environment pair.1 pair.2) nodup_overrides h)

end Choice

section Load

variable {surroundings : Surroundings} {path : Option Text} {text : Text} {content : Content}

theorem validate_override (hcontent : Content.ofText text = .ok content)
    (hregular : File.Regular content) (environment : List (Text × Text)) :
    ∃ values, File.fields content = .ok values ∧
      validate (override environment values) = validate (effective environment content) := by
  obtain ⟨anchors, hmade⟩ := Content.exists_made hcontent
  have htagging : (File.tagging content).Made anchors := by
    refine hmade.resolve ?_
    cases hfound : Ordered.get? (Yaml.Item.text "payload_tagging") content.root.entries with
    | none => exact .inl rfl
    | some item => exact hmade.root.of_get? hfound
  obtain ⟨values, hvalues, hget⟩ := File.exists_fields hregular htagging.ofPairs_entries
  refine ⟨values, hvalues, validate_congr fun pair hpair => ?_⟩
  rw [get?_override hpair, get?_effective hpair, chosen?_eq_or, hget]

theorem load_of_fields {values : List (Text × Given)}
    (hread : readDocument surroundings (choosePath surroundings path) = .ok text)
    (hcontent : Content.ofText text = .ok content) (hvalues : File.fields content = .ok values) :
    (load surroundings path).map Prod.fst =
      (validate (override surroundings.environment values)).mapError .invalid := by
  simp only [load, hread, hcontent, hvalues, Except.mapError, bind, Except.bind]
  cases validate (override surroundings.environment values) <;> rfl

-- An empty text takes the rules of its direction away.
theorem rulesOf_of_nil {given : List (Text × Given)} {settings : Settings}
    {direction : Direction} (h : validate given = .ok settings)
    (hgiven : Ordered.get? direction.name given = some (.scalar (.text []))) :
    settings.rulesOf direction = .ok none := by
  obtain ⟨rules, hfield, hrules⟩ := exists_rulesField_of_validate h direction
  have hnone : none = rules := Except.ok.inj ((congrArg rulesField hgiven).symm.trans hfield)
  rw [hrules, ← hnone]
  rfl

-- Settings are the ones that the values make which count for the fields, each by itself.
-- An issue is one of the value that counts, and an empty variable takes rules away.
theorem load_effective
    (hread : readDocument surroundings (choosePath surroundings path) = .ok text)
    (hcontent : Content.ofText text = .ok content) (hregular : File.Regular content) :
    let environment := surroundings.environment
    let given := effective environment content
    (load surroundings path).map Prod.fst = (validate given).mapError .invalid ∧
    (∀ source field, (source, field) ∈ overrides →
      Ordered.get? field given = chosen? environment content source field) ∧
    (∀ issues, validate given = .error issues → ∀ field issue, (field, issue) ∈ issues ↔
      ∃ source value, (source, field) ∈ overrides ∧
        chosen? environment content source field = some value ∧
        validate [(field, value)] = .error [(field, issue)]) ∧
    ∀ settings, validate given = .ok settings → ∀ direction source,
      (source, direction.name) ∈ overrides → environment.lookup source = some [] →
        settings.rulesOf direction = .ok none := by
  intro environment given
  refine ⟨?_, fun _ _ => get?_effective, ?_, ?_⟩
  · obtain ⟨values, hvalues, hvalidate⟩ := validate_override hcontent hregular environment
    rw [load_of_fields hread hcontent hvalues, hvalidate]
  · intro issues hissues field issue
    rw [mem_issues_iff_exists hissues]
    constructor
    · rintro ⟨hfield, value, hvalue, halone⟩
      obtain ⟨⟨source, _⟩, hmem, rfl⟩ := List.mem_map.mp hfield
      exact ⟨source, value, hmem, get?_effective hmem ▸ hvalue, halone⟩
    · rintro ⟨source, value, hmem, hvalue, halone⟩
      exact ⟨List.mem_map_of_mem hmem, value, (get?_effective hmem).trans hvalue, halone⟩
  · intro settings hsettings direction source hmem hempty
    refine rulesOf_of_nil hsettings ?_
    rw [get?_effective hmem, chosen?, hempty]
    cases direction <;> rfl

-- The file alone would be refused: its depth is no number.
theorem load_effective_overridden :
    let text : Text := "payload_tagging:\n  response: a\n  max_depth: x\n  max_tags: 9\n" ++
      "logging:\n  level: error\n"
    let environment : List (Text × Text) := [("PAYLOAD_TAGGING_RESPONSE", ""),
      ("PAYLOAD_TAGGING_MAX_DEPTH", "7"), ("PAYLOAD_TAGGING_MAX_TAGS", "")]
    let path : Text := "settings.yaml"
    let files : List (Text × List UInt8) := [(path, text.flatMap Encoding.utf8Bytes)]
    let surroundings : Surroundings := ⟨environment, files, "defaults.yaml"⟩
    (load surroundings (some path)).map Prod.fst = .ok ⟨none, none, 7, 9, .error⟩ := by
  intro text environment path files surroundings
  let content : Content := ⟨.dict [
    (.text "payload_tagging", .dict [(.text "response", .text "a"), (.text "max_depth", .text "x"),
      (.text "max_tags", .datum (.scalar (.int 9)))]),
    (.text "logging", .dict [(.text "level", .text "error")])], []⟩
  have hread : readDocument surroundings (choosePath surroundings (some path)) = .ok text := by
    have hpath : choosePath surroundings (some path) = some path := rfl
    have hbytes : readFile surroundings.files path = .ok (text.flatMap Encoding.utf8Bytes) := rfl
    have hformed : text.WellFormed := by decide +kernel
    have hdecode : Encoding.decode .utf8 .strict (text.flatMap Encoding.utf8Bytes) = .ok text :=
      Encoding.decode_of_encode (Encoding.encode_eq_ok_iff.mpr ⟨hformed, rfl⟩)
    have hlines : unifyLines text = text := by decide +kernel
    rw [hpath, readDocument, hbytes]
    simp only [Except.mapError, bind, Except.bind, decodeFile, hdecode, hlines]
  have hcontent : Content.ofText text = .ok content := by
    have htokens : Yaml.Token.ofText text = [.blockMappingStart,
        .key, .scalar "payload_tagging" true, .value, .blockMappingStart,
        .key, .scalar "response" true, .value, .scalar "a" true,
        .key, .scalar "max_depth" true, .value, .scalar "x" true,
        .key, .scalar "max_tags" true, .value, .scalar "9" true, .blockEnd,
        .key, .scalar "logging" true, .value, .blockMappingStart,
        .key, .scalar "level" true, .value, .scalar "error" true, .blockEnd, .blockEnd] := by
      decide +kernel
    rw [Content.ofText, Yaml.Document.ofText, htokens]
    rfl
  have hregular : File.Regular content := by
    refine ⟨.inr ⟨_, rfl⟩, .inr ⟨_, rfl⟩, ?_, .inr ⟨_, rfl⟩⟩
    exact List.forall_mem_cons.mpr ⟨⟨_, rfl⟩, List.forall_mem_cons.mpr ⟨⟨_, rfl⟩,
      List.forall_mem_singleton.mpr ⟨_, rfl⟩⟩⟩
  obtain ⟨hload, -⟩ := load_effective hread hcontent hregular
  let given : List (Text × Given) := [("response", .scalar (.text "")),
    ("max_depth", .scalar (.text "7")), ("max_tags", .scalar (.int 9)),
    ("log_level", .scalar (.text "error"))]
  have hgiven : effective environment content = given := rfl
  have hvalid : validate given = .ok ⟨none, none, 7, 9, .error⟩ := rfl
  rw [hload]
  show (validate (effective environment content)).mapError _ = _
  rw [hgiven, hvalid]
  rfl

end Load

end SpanTags.Settings
