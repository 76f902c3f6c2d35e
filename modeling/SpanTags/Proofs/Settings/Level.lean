import SpanTags.Proofs.Settings.Precedence

namespace SpanTags

theorem CodePoint.asciiLower_of_isSurrogate {c : CodePoint} (h : c.isSurrogate = true) :
    c.asciiLower = c := by
  simp only [isSurrogate, within, Bool.and_eq_true, decide_eq_true_eq] at h
  have hletter : ¬c.within 0x41 0x5A = true := by
    simp only [within, Bool.and_eq_true, decide_eq_true_eq]
    omega
  rw [asciiLower, dif_neg hletter, if_neg (by omega)]

namespace Level

variable {setting : Text} {level : Level}

-- The name that the settings keep of a level is one that the log takes.
theorem ofValue_name (level : Level) : ofValue (.text level.name) = .ok level := by
  cases level <;> rfl

theorem ofName?_eq_some_iff : ofName? setting = some level ↔ setting = level.name := by
  constructor
  · intro h
    have hname := List.find?_some h
    simpa [eq_comm] using hname
  · rintro rfl
    cases level <;> rfl

theorem name_injective : Function.Injective name := by
  intro level other h
  have hother := ofName?_eq_some_iff.mpr h
  exact Option.some.inj ((ofName?_eq_some_iff.mpr rfl).symm.trans hother)

theorem ofAnyCase?_eq_some_iff :
    ofAnyCase? setting = some level ↔ setting.asciiLower = level.name :=
  ofName?_eq_some_iff

theorem asciiLower_name (level : Level) : level.name.asciiLower = level.name := by
  cases level <;> decide

theorem not_isSurrogate_of_ofAnyCase? (h : ofAnyCase? setting = some level) :
    setting.any CodePoint.isSurrogate = false := by
  have hname : ∀ c ∈ level.name, c.isSurrogate = false := by
    cases level <;> decide
  rw [← ofAnyCase?_eq_some_iff.mp h] at hname
  refine List.any_eq_false.mpr fun c hc hsurrogate => ?_
  have hplain := hname _ (List.mem_map_of_mem hc)
  rw [CodePoint.asciiLower_of_isSurrogate hsurrogate, hsurrogate] at hplain
  contradiction

end Level

namespace Settings

section Field

variable {setting : Text} {level : Level}

theorem lookup_levels_eq_some_iff : levels.lookup setting = some level ↔ setting = level.name := by
  constructor
  · intro h
    obtain ⟨front, back, hlevels, -⟩ := List.lookup_eq_some_iff.mp h
    have hmem : (setting, level) ∈ levels := hlevels ▸ by simp
    obtain ⟨_, -, heq⟩ := List.mem_map.mp hmem
    obtain ⟨rfl, rfl⟩ := Prod.mk.inj heq
    rfl
  · rintro rfl
    cases level <;> rfl

-- The field takes the name of a level as it is, where the log takes it in any case.
theorem levelField_of_ofAnyCase? (h : Level.ofAnyCase? setting = some level) :
    levelField (some (.scalar (.text setting))) =
      if setting = level.name then .ok level else .error (.notAmong (levels.map Prod.fst)) := by
  have hplain := Level.not_isSurrogate_of_ofAnyCase? h
  simp only [levelField, Field.choice, hplain, Bool.false_eq_true, if_false]
  split
  · rename_i found hfound
    have hname := lookup_levels_eq_some_iff.mp hfound
    have hlower := Level.ofAnyCase?_eq_some_iff.mp h
    rw [hname, Level.asciiLower_name] at hlower
    rw [if_pos (hname.trans hlower), Level.name_injective hlower]
  · rename_i hnone
    have hname : setting ≠ level.name := fun hname => by
      rw [lookup_levels_eq_some_iff.mpr hname] at hnone
      contradiction
    rw [if_neg hname]

end Field

section Load

variable {files : List (Text × List UInt8)} {environment bare : List (Text × Text)}
  {place : Text} {path : Option Text} {given : List (Text × Given)} {own : Settings} {note : Note}
  {setting : Text} {level : Level}

-- Two environments that differ in the variable for the level alone, which the first one sets.
def SetsLevel (setting : Text) (environment bare : List (Text × Text)) : Prop :=
  ∀ name, environment.lookup name =
    if name = "PAYLOAD_TAGGING_LOG_LEVEL" then some setting else bare.lookup name

-- Among the fields it comes to a level that is given last.
theorem validate_override_of_setsLevel (h : SetsLevel setting environment bare)
    (hne : setting ≠ []) (given : List (Text × Given)) :
    validate (override environment given) =
      validate (Ordered.put "log_level" (.scalar (.text setting)) (override bare given)) := by
  have hlevel : ∀ pair ∈ overrides,
      (pair.1 = "PAYLOAD_TAGGING_LOG_LEVEL" ↔ pair.2 = "log_level") := by decide
  refine validate_congr fun pair hpair => ?_
  rw [Ordered.get?_put, get?_override hpair, get?_override hpair, fromVariable?, fromVariable?,
    overriding?, overriding?, h pair.1]
  by_cases hsource : pair.1 = "PAYLOAD_TAGGING_LOG_LEVEL"
  · simp [hsource, (hlevel pair hpair).mp hsource, hne]
  · have hfield : ("log_level" == pair.2) = false :=
      beq_false_of_ne (Ne.symm (mt (hlevel pair hpair).mpr hsource))
    rw [if_neg hsource, hfield, if_neg Bool.false_ne_true]

-- The level is the only field that changes, and the only one that can be refused.
theorem validate_put_level (value : Given) (hown : validate given = .ok own) :
    validate (Ordered.put "log_level" value given) =
      match levelField (some value) with
      | .ok level => .ok { own with logLevel := level }
      | .error issue => .error [("log_level", issue)] := by
  obtain ⟨hrequest, hresponse, hdepth, htags, -⟩ := validate_eq_ok_iff.mp hown
  have hkeep (field : Text) (hfield : ("log_level" == field) = false) :
      Ordered.get? field (Ordered.put "log_level" value given) = Ordered.get? field given := by
    rw [Ordered.get?_put, hfield, if_neg Bool.false_ne_true]
  have hput : Ordered.get? ("log_level" : Text) (Ordered.put "log_level" value given) =
      some value := by
    rw [Ordered.get?_put, beq_self_eq_true, if_pos rfl]
  rw [← hkeep _ (by decide)] at hrequest hresponse hdepth htags
  cases hfield : levelField (some value) with
  | ok level =>
      exact validate_eq_ok_iff.mpr ⟨hrequest, hresponse, hdepth, htags, hput ▸ hfield⟩
  | error issue =>
      have hissues : issues (Ordered.put "log_level" value given) =
          [(("log_level" : Text), issue)] := by
        unfold issues
        dsimp only
        rw [hrequest, hresponse, hdepth, htags, hput, hfield]
        rfl
      exact validate_eq_error_iff.mpr ⟨hissues, by simp [hissues]⟩

theorem load_of_setsLevel (h : SetsLevel setting environment bare) (hne : setting ≠ [])
    (hown : load ⟨bare, files, place⟩ path = .ok (own, note)) :
    load ⟨environment, files, place⟩ path =
      match levelField (some (.scalar (.text setting))) with
      | .ok level => .ok ({ own with logLevel := level }, note)
      | .error issue => .error (.invalid [("log_level", issue)]) := by
  obtain ⟨text, content, given, htext, hcontent, hgiven, hvalid, rfl⟩ := load_eq_ok_iff.mp hown
  have hpath : choosePath ⟨environment, files, place⟩ path =
      choosePath ⟨bare, files, place⟩ path := by
    rw [choosePath, choosePath, h, if_neg (by decide)]
  have hread : readDocument ⟨environment, files, place⟩
      (choosePath ⟨environment, files, place⟩ path) = .ok text := by
    rw [hpath]
    exact htext
  have hvalidate := validate_override_of_setsLevel h hne given
  rw [validate_put_level _ hvalid] at hvalidate
  cases hfield : levelField (some (.scalar (.text setting))) with
  | ok level =>
      rw [hfield] at hvalidate
      exact load_eq_ok_iff.mpr
        ⟨text, content, given, hread, hcontent, hgiven, hvalidate, by rw [hpath]⟩
  | error issue =>
      rw [hfield] at hvalidate
      simp only [load, hread, hcontent, hgiven, hvalidate, Except.mapError, bind, Except.bind]

theorem setsLevel_cons (setting : Text) (bare : List (Text × Text)) :
    SetsLevel setting (("PAYLOAD_TAGGING_LOG_LEVEL", setting) :: bare) bare := by
  intro name
  rw [List.lookup_cons]
  by_cases hname : name = "PAYLOAD_TAGGING_LOG_LEVEL"
  · simp [hname]
  · simp [hname, beq_false_of_ne hname]

theorem ne_nil_of_ofAnyCase? (h : Level.ofAnyCase? setting = some level) : setting ≠ [] := by
  rintro rfl
  contradiction

-- The settings that come along are those that count where none are given.
theorem load_bundled (files : List (Text × List UInt8)) (place : Text) :
    load ⟨[], files, place⟩ none =
      .ok (⟨none, none, 10, 758, .info⟩, .settingsLoaded place none none 10 758) := by
  let content : Yaml.Content := ⟨.dict [
    (.text "payload_tagging", .dict [(.text "request", .null), (.text "response", .null),
      (.text "max_depth", .datum (.scalar (.int 10))),
      (.text "max_tags", .datum (.scalar (.int 758)))]),
    (.text "logging", .dict [(.text "level", .text "info")])], []⟩
  let given : List (Text × Given) := [("request", .scalar .null), ("response", .scalar .null),
    ("max_depth", .scalar (.int 10)), ("max_tags", .scalar (.int 758)),
    ("log_level", .scalar (.text "info"))]
  have hcontent : Yaml.Content.ofText bundled = .ok content := by
    have htokens : Yaml.Token.ofText bundled = [.blockMappingStart,
        .key, .scalar "payload_tagging" true, .value, .blockMappingStart,
        .key, .scalar "request" true, .value, .scalar "null" true,
        .key, .scalar "response" true, .value, .scalar "null" true,
        .key, .scalar "max_depth" true, .value, .scalar "10" true,
        .key, .scalar "max_tags" true, .value, .scalar "758" true, .blockEnd,
        .key, .scalar "logging" true, .value, .blockMappingStart,
        .key, .scalar "level" true, .value, .scalar "info" true, .blockEnd, .blockEnd] := by
      decide +kernel
    rw [Yaml.Content.ofText, Yaml.Document.ofText, htokens]
    rfl
  have hgiven : File.fields content = .ok given := rfl
  have hvalid : validate (override [] given) = .ok ⟨none, none, 10, 758, .info⟩ := rfl
  exact load_eq_ok_iff.mpr ⟨bundled, content, given, rfl, hcontent, hgiven, hvalid, rfl⟩

-- The log and the settings read one variable. For a level in its own letters they agree, and
-- all else is as it would be without the variable. A level with a capital letter sets the log
-- going, but the settings refuse it.
theorem load_level (hset : SetsLevel setting environment bare)
    (hown : load ⟨bare, files, place⟩ path = .ok (own, note))
    (hlevel : Level.ofAnyCase? setting = some level) :
    let started := Level.initial (environment.lookup ("PAYLOAD_TAGGING_LOG_LEVEL" : Text))
    started = level ∧
    (setting = level.name → ∃ loaded,
      load ⟨environment, files, place⟩ path = .ok (loaded, note) ∧
      loaded = { own with logLevel := level } ∧
      Level.ofValue (.text loaded.logLevel.name) = .ok started ∧
      ∀ time threshold, ∃ lines, note.lines time threshold = .ok lines) ∧
    (setting ≠ level.name → load ⟨environment, files, place⟩ path =
      .error (.invalid [("log_level", .notAmong ["debug", "info", "warning", "error"])])) := by
  intro started
  have hstarted : started = level := by
    show Level.initial (environment.lookup _) = level
    rw [hset, if_pos rfl, Level.initial, Option.bind_some, hlevel, Option.getD_some]
  have hload := load_of_setsLevel hset (ne_nil_of_ofAnyCase? hlevel) hown
  rw [levelField_of_ofAnyCase? hlevel] at hload
  refine ⟨hstarted, fun hname => ?_, fun hname => ?_⟩
  · rw [if_pos hname] at hload
    refine ⟨_, hload, rfl, hstarted ▸ Level.ofValue_name level, fun time threshold => ?_⟩
    exact Note.exists_lines time threshold fun _ => natAbs_lt_of_load hown
  · rw [if_neg hname] at hload
    exact hload

theorem load_level_warning :
    let source := ("PAYLOAD_TAGGING_LOG_LEVEL" : Text)
    load ⟨[(source, "warning")], [], "d"⟩ none =
        .ok (⟨none, none, 10, 758, .warning⟩, .settingsLoaded "d" none none 10 758) ∧
      Level.initial (some "Warning") = .warning ∧
      load ⟨[(source, "Warning")], [], "d"⟩ none =
        .error (.invalid [("log_level", .notAmong ["debug", "info", "warning", "error"])]) := by
  intro source
  have hlower : Level.ofAnyCase? "warning" = some .warning := rfl
  have hupper : Level.ofAnyCase? "Warning" = some .warning := rfl
  obtain ⟨-, hloaded, -⟩ := load_level (setsLevel_cons "warning" []) (load_bundled [] _) hlower
  obtain ⟨hstarted, -, hrefused⟩ :=
    load_level (setsLevel_cons "Warning" []) (load_bundled [] _) hupper
  obtain ⟨loaded, hload, rfl, -⟩ := hloaded rfl
  exact ⟨hload, hstarted, hrefused (by decide)⟩

-- The log starts, and the settings are refused.
theorem load_level_upperCase :
    Level.ofAnyCase? "DEBUG" = some .debug ∧ (∃ own, load ⟨[], [], "d"⟩ none = .ok own) ∧
      ¬∃ loaded, load ⟨[("PAYLOAD_TAGGING_LOG_LEVEL", "DEBUG")], [], "d"⟩ none = .ok loaded := by
  have hlevel : Level.ofAnyCase? "DEBUG" = some .debug := rfl
  refine ⟨hlevel, ⟨_, load_bundled [] _⟩, ?_⟩
  rintro ⟨loaded, hload⟩
  have hfield := levelField_of_ofAnyCase? hlevel
  rw [load_of_setsLevel (setsLevel_cons "DEBUG" []) (ne_nil_of_ofAnyCase? hlevel)
    (load_bundled [] _), hfield, if_neg (by decide)] at hload
  contradiction

end Load

end Settings

end SpanTags
