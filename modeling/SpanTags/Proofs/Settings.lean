import SpanTags.Proofs.Log.Writing
import SpanTags.Settings.Load

namespace SpanTags

theorem Field.bounds_of_integerWithin {least most n : Int} {given : Given}
    (h : integerWithin least most given = .ok n) : least ≤ n ∧ n ≤ most := by
  obtain ⟨m, -, h⟩ := exists_of_bind_eq_ok h
  by_cases hleast : m < least
  · simp only [hleast, if_true] at h
    contradiction
  · by_cases hmost : most < m
    · simp only [hleast, hmost, if_true, if_false] at h
      contradiction
    · simp only [hleast, hmost, if_false] at h
      obtain rfl : m = n := Except.ok.inj h
      omega

namespace Settings

-- What all settings have that were checked.
structure Valid (settings : Settings) : Prop where
  maxDepth : 1 ≤ settings.maxDepth ∧ settings.maxDepth ≤ 100
  maxTags : 2 ≤ settings.maxTags ∧ settings.maxTags ≤ 10000
  rules : ∀ source, settings.request = some source ∨ settings.response = some source →
    ∃ set, RuleSet.parse source = .ok set

theorem bounds_of_integerField {default least most n : Int} {given : Option Given}
    (hdefault : least ≤ default ∧ default ≤ most)
    (h : integerField default least most given = .ok n) : least ≤ n ∧ n ≤ most := by
  cases given with
  | none =>
      obtain rfl : default = n := Except.ok.inj h
      exact hdefault
  | some given => exact Field.bounds_of_integerWithin h

theorem exists_parse_of_rulesField {given : Option Given} {rules : Option Text}
    (h : rulesField given = .ok rules) :
    ∀ source, rules = some source → ∃ set, RuleSet.parse source = .ok set := by
  rintro source rfl
  cases given with
  | none =>
      have hnone : none = some source := Except.ok.inj h
      contradiction
  | some given =>
      obtain ⟨text, -, h⟩ := exists_of_bind_eq_ok h
      unfold checkRules at h
      dsimp only at h
      split at h
      · have hnone : none = some source := Except.ok.inj h
        contradiction
      · split at h
        · rename_i set hset
          obtain rfl := Option.some.inj (Except.ok.inj h)
          exact ⟨set, hset⟩
        · contradiction

-- Values are accepted if each field accepts its own.
theorem validate_eq_ok_iff {given : List (Text × Given)} {settings : Settings} :
    validate given = .ok settings ↔
      rulesField (Ordered.get? ("request" : Text) given) = .ok settings.request ∧
      rulesField (Ordered.get? ("response" : Text) given) = .ok settings.response ∧
      integerField Tag.defaultMaxDepth 1 100 (Ordered.get? ("max_depth" : Text) given) =
        .ok settings.maxDepth ∧
      integerField Tag.defaultMaxTags 2 10000 (Ordered.get? ("max_tags" : Text) given) =
        .ok settings.maxTags ∧
      levelField (Ordered.get? ("log_level" : Text) given) = .ok settings.logLevel := by
  unfold validate
  dsimp only
  constructor
  · intro h
    split at h
    · rename_i hrequest hresponse hdepth htags hlevel
      obtain rfl := Except.ok.inj h
      exact ⟨hrequest, hresponse, hdepth, htags, hlevel⟩
    · contradiction
  · rintro ⟨hrequest, hresponse, hdepth, htags, hlevel⟩
    simp only [hrequest, hresponse, hdepth, htags, hlevel]

section Validation

variable {given first second : List (Text × Given)} {field : Text} {issue : Field.Issue}

theorem mem_fieldIssues_iff {α : Type} {name : Text} {result : Except Field.Issue α} :
    (field, issue) ∈ Field.issues name result ↔ field = name ∧ result = .error issue := by
  cases result <;> simp [Field.issues, eq_comm]

-- The issues of all the fields.
def issues (given : List (Text × Given)) : List (Text × Field.Issue) :=
  let get (name : Text) := Ordered.get? name given
  Field.issues "request" (rulesField (get "request")) ++
    Field.issues "response" (rulesField (get "response")) ++
    Field.issues "max_depth" (integerField Tag.defaultMaxDepth 1 100 (get "max_depth")) ++
    Field.issues "max_tags" (integerField Tag.defaultMaxTags 2 10000 (get "max_tags")) ++
    Field.issues "log_level" (levelField (get "log_level"))

theorem validate_eq_error_iff {found : List (Text × Field.Issue)} :
    validate given = .error found ↔ issues given = found ∧ issues given ≠ [] := by
  unfold validate issues
  dsimp only
  generalize rulesField _ = request
  generalize rulesField _ = response
  generalize integerField _ _ _ _ = maxDepth
  generalize integerField _ _ _ _ = maxTags
  generalize levelField _ = logLevel
  cases request <;> cases response <;> cases maxDepth <;> cases maxTags <;> cases logLevel <;>
    simp [Field.issues]

theorem mem_issues_iff :
    (field, issue) ∈ issues given ↔
      field = "request" ∧ rulesField (Ordered.get? ("request" : Text) given) = .error issue ∨
      field = "response" ∧ rulesField (Ordered.get? ("response" : Text) given) = .error issue ∨
      field = "max_depth" ∧ integerField Tag.defaultMaxDepth 1 100
        (Ordered.get? ("max_depth" : Text) given) = .error issue ∨
      field = "max_tags" ∧ integerField Tag.defaultMaxTags 2 10000
        (Ordered.get? ("max_tags" : Text) given) = .error issue ∨
      field = "log_level" ∧ levelField (Ordered.get? ("log_level" : Text) given) =
        .error issue := by
  simp only [issues, List.mem_append, mem_fieldIssues_iff, or_assoc]

-- An issue of a field depends on the value of the field alone.
theorem mem_issues_congr (h : Ordered.get? field first = Ordered.get? field second) :
    (field, issue) ∈ issues first ↔ (field, issue) ∈ issues second := by
  have hvalue (name : Text) (hname : field = name) :
      Ordered.get? name first = Ordered.get? name second := hname ▸ h
  rw [mem_issues_iff, mem_issues_iff]
  refine or_congr ?_ (or_congr ?_ (or_congr ?_ (or_congr ?_ ?_))) <;>
    exact and_congr_right fun hname => by rw [hvalue _ hname]

theorem exists_value_of_mem_issues (h : (field, issue) ∈ issues given) :
    field ∈ overrides.map Prod.snd ∧ ∃ value, Ordered.get? field given = some value := by
  rw [mem_issues_iff] at h
  rcases h with ⟨rfl, h⟩ | ⟨rfl, h⟩ | ⟨rfl, h⟩ | ⟨rfl, h⟩ | ⟨rfl, h⟩ <;>
    refine ⟨by decide, Option.ne_none_iff_exists'.mp fun hnone => ?_⟩ <;>
    · rw [hnone] at h
      contradiction

-- A value that is given alone has one issue at most.
theorem issues_singleton {value : Given} (h : (field, issue) ∈ issues [(field, value)]) :
    issues [(field, value)] = [(field, issue)] := by
  have hfield := mem_issues_iff.mp h
  rcases hfield with ⟨rfl, h⟩ | ⟨rfl, h⟩ | ⟨rfl, h⟩ | ⟨rfl, h⟩ | ⟨rfl, h⟩ <;>
  · unfold issues
    dsimp only
    rw [h]
    rfl

-- The issues are those that the values have each by itself.
theorem mem_issues_iff_exists {found : List (Text × Field.Issue)}
    (h : validate given = .error found) :
    (field, issue) ∈ found ↔ field ∈ overrides.map Prod.snd ∧ ∃ value,
      Ordered.get? field given = some value ∧
        validate [(field, value)] = .error [(field, issue)] := by
  obtain ⟨rfl, -⟩ := validate_eq_error_iff.mp h
  have hsame {value : Given} (hvalue : Ordered.get? field given = some value) :
      (field, issue) ∈ issues given ↔ (field, issue) ∈ issues [(field, value)] :=
    mem_issues_congr (by simp [hvalue, Ordered.get?])
  constructor
  · intro hmem
    obtain ⟨hfield, value, hvalue⟩ := exists_value_of_mem_issues hmem
    have halone := issues_singleton ((hsame hvalue).mp hmem)
    exact ⟨hfield, value, hvalue, validate_eq_error_iff.mpr ⟨halone, by simp [halone]⟩⟩
  · rintro ⟨-, value, hvalue, halone⟩
    obtain ⟨halone, -⟩ := validate_eq_error_iff.mp halone
    rw [hsame hvalue, halone]
    exact List.mem_singleton_self _

-- Only the values of the five fields matter.
theorem validate_congr
    (h : ∀ pair ∈ overrides, Ordered.get? pair.2 first = Ordered.get? pair.2 second) :
    validate first = validate second := by
  simp only [overrides, List.forall_mem_cons] at h
  obtain ⟨hrequest, hresponse, hdepth, htags, hlevel, -⟩ := h
  simp only [validate, hrequest, hresponse, hdepth, htags, hlevel]

end Validation

theorem valid_of_validate {given : List (Text × Given)} {settings : Settings}
    (h : validate given = .ok settings) : settings.Valid := by
  obtain ⟨hrequest, hresponse, hdepth, htags, -⟩ := validate_eq_ok_iff.mp h
  refine ⟨bounds_of_integerField (by decide) hdepth,
    bounds_of_integerField (by decide) htags, ?_⟩
  rintro source (hsource | hsource)
  · exact exists_parse_of_rulesField hrequest source hsource
  · exact exists_parse_of_rulesField hresponse source hsource

section Load

variable {surroundings : Surroundings} {path : Option Text} {settings : Settings} {note : Note}

-- What is loaded are the settings that the fields of a document make, once the variables have
-- set theirs.
theorem load_eq_ok_iff :
    load surroundings path = .ok (settings, note) ↔
      ∃ text content given,
        readDocument surroundings (choosePath surroundings path) = .ok text ∧
        Yaml.Content.ofText text = .ok content ∧ File.fields content = .ok given ∧
        validate (override surroundings.environment given) = .ok settings ∧
        note = .settingsLoaded
          ((choosePath surroundings path).getD surroundings.bundledPath)
          settings.request settings.response settings.maxDepth settings.maxTags := by
  constructor
  · intro h
    obtain ⟨text, htext, h⟩ := exists_of_bind_eq_ok h
    obtain ⟨content, hcontent, h⟩ := exists_of_bind_eq_ok h
    obtain ⟨given, hgiven, h⟩ := exists_of_bind_eq_ok h
    obtain ⟨chosen, hchosen, h⟩ := exists_of_bind_eq_ok h
    obtain ⟨rfl, rfl⟩ := Prod.mk.inj (Except.ok.inj h)
    exact ⟨text, content, given, htext, mapError_eq_ok_iff.mp hcontent,
      mapError_eq_ok_iff.mp hgiven, mapError_eq_ok_iff.mp hchosen, rfl⟩
  · rintro ⟨text, content, given, htext, hcontent, hgiven, hsettings, rfl⟩
    simp only [load, htext, hcontent, hgiven, hsettings, Except.mapError, bind, Except.bind]
    rfl

theorem valid_of_load (h : load surroundings path = .ok (settings, note)) : settings.Valid := by
  obtain ⟨_, _, _, -, -, -, hsettings, -⟩ := load_eq_ok_iff.mp h
  exact valid_of_validate hsettings

-- The numbers in the note are bounded, so it can be written.
theorem natAbs_lt_of_load (h : load surroundings path = .ok (settings, note)) :
    ∀ n ∈ note.numbers, n.natAbs < 10 ^ digitLimit := by
  have hvalid := valid_of_load h
  have hdepth := hvalid.maxDepth
  have htags := hvalid.maxTags
  obtain ⟨_, _, _, -, -, -, -, rfl⟩ := load_eq_ok_iff.mp h
  intro n hn
  have hcases : n = settings.maxDepth ∨ n = settings.maxTags := by
    simpa [Note.numbers] using hn
  exact natAbs_lt_of_bounds (by omega) (by omega)

end Load

end Settings

end SpanTags
