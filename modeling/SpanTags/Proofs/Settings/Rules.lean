import SpanTags.Proofs.Rule.Grammar
import SpanTags.Proofs.Rule.Splitting
import SpanTags.Proofs.Settings
import SpanTags.Service.Preview.Basic

namespace SpanTags.Settings

-- The rules that the settings have for a direction.
def rulesOf (settings : Settings) : Direction → Except RuleFault (Option RuleSet)
  | .request => settings.requestRules
  | .response => settings.responseRules

section Field

variable {source : Text} {set : RuleSet}

-- Rules that can be read are taken over without the blanks around them.
theorem rulesField_of_parse (hblank : source.strip ≠ []) (h : RuleSet.parse source = .ok set) :
    rulesField (some (.scalar (.text source))) = .ok (some source.strip) := by
  have hstripped : RuleSet.parse source.strip = .ok set := RuleSet.parse_strip_eq_ok_iff.mpr h
  have hcheck : checkRules (some source) = .ok (some source.strip) := by
    simp only [checkRules, Option.getD_some, if_neg hblank, hstripped]
  rw [← hcheck]
  rfl

-- The text of a field is accepted if it can be read as rules. What is stored has the same
-- rules, and a text of blanks has none.
theorem rulesField_text_eq_ok_iff {rules : Option Text} :
    rulesField (some (.scalar (.text source))) = .ok rules ↔
      rules = (if source.strip = [] then none else some source.strip) ∧
        ∃ set, RuleSet.parse source = .ok set := by
  by_cases hblank : source.strip = []
  · have hfield : rulesField (some (.scalar (.text source))) = .ok none := by
      have hcheck : checkRules (some source) = .ok none := by
        simp only [checkRules, Option.getD_some, if_pos hblank]
      rw [← hcheck]
      rfl
    rw [hfield, if_pos hblank, RuleSet.parse, if_pos hblank, Except.ok.injEq, eq_comm]
    exact (and_iff_left ⟨_, rfl⟩).symm
  · rw [if_neg hblank]
    constructor
    · intro h
      obtain ⟨text, htext, hcheck⟩ := exists_of_bind_eq_ok (x := Field.textOrNull _) h
      obtain rfl : some source = text := Except.ok.inj htext
      simp only [checkRules, Option.getD_some, if_neg hblank] at hcheck
      split at hcheck
      · rename_i set hset
        exact ⟨(Except.ok.inj hcheck).symm, set, RuleSet.parse_strip_eq_ok_iff.mp hset⟩
      · contradiction
    · rintro ⟨rfl, set, hset⟩
      exact rulesField_of_parse hblank hset

theorem ruleSet?_of_parse (h : RuleSet.parse source = .ok set) :
    ruleSet? (if source.strip = [] then none else some source.strip) =
      .ok (if source.strip = [] then none else some set) := by
  split
  · rfl
  · rw [ruleSet?, RuleSet.parse_strip_eq_ok_iff.mpr h]
    rfl

end Field

section Direction

variable {direction : Direction} {source : Text}

theorem exists_rulesField_of_validate {given : List (Text × Given)} {settings : Settings}
    (h : validate given = .ok settings) (direction : Direction) :
    ∃ rules, rulesField (Ordered.get? direction.name given) = .ok rules ∧
      settings.rulesOf direction = ruleSet? rules := by
  obtain ⟨hrequest, hresponse, -⟩ := validate_eq_ok_iff.mp h
  cases direction with
  | request => exact ⟨_, hrequest, rfl⟩
  | response => exact ⟨_, hresponse, rfl⟩

-- Settings with a text for one direction alone have its rules and all the defaults.
theorem validate_rules_eq_ok_iff {settings : Settings} :
    validate [(direction.name, .scalar (.text source))] = .ok settings ↔
      ∃ rules, rulesField (some (.scalar (.text source))) = .ok rules ∧
        settings = match direction with
          | .request => ⟨rules, none, 10, 758, .info⟩
          | .response => ⟨none, rules, 10, 758, .info⟩ := by
  obtain ⟨request, response, maxDepth, maxTags, logLevel⟩ := settings
  constructor
  · intro h
    obtain ⟨hrequest, hresponse, hdepth, htags, hlevel⟩ := validate_eq_ok_iff.mp h
    obtain rfl : 10 = maxDepth := by cases direction <;> exact Except.ok.inj hdepth
    obtain rfl : 758 = maxTags := by cases direction <;> exact Except.ok.inj htags
    obtain rfl : .info = logLevel := by cases direction <;> exact Except.ok.inj hlevel
    cases direction with
    | request =>
        obtain rfl : none = response := Except.ok.inj hresponse
        exact ⟨request, hrequest, rfl⟩
    | response =>
        obtain rfl : none = request := Except.ok.inj hrequest
        exact ⟨response, hresponse, rfl⟩
  · rintro ⟨rules, hrules, hsettings⟩
    rw [validate_eq_ok_iff, hsettings]
    cases direction with
    | request => exact ⟨hrules, rfl, rfl, rfl, rfl⟩
    | response => exact ⟨rfl, hrules, rfl, rfl, rfl⟩

-- The text of a direction is accepted if it can be read as rules, and the rules of the
-- settings are the ones that it is read as. Only a text of blanks stands for none.
theorem rulesOf_validate (direction : Direction) (source : Text) :
    let validated := validate [(direction.name, .scalar (.text source))]
    ((∃ settings, validated = .ok settings) ↔ ∃ set, RuleSet.ofOption (some source) = .ok set) ∧
    ∀ settings, validated = .ok settings →
      ∃ rules, settings.rulesOf direction = .ok rules ∧
        (rules = none ↔ ∀ c ∈ source, c.isBlank = true) ∧
        ∀ set, rules = some set → RuleSet.ofOption (some source) = .ok set := by
  intro validated
  have hvalidated (settings : Settings) : validated = .ok settings ↔ _ := validate_rules_eq_ok_iff
  simp only [hvalidated, rulesField_text_eq_ok_iff]
  refine ⟨⟨?_, ?_⟩, ?_⟩
  · rintro ⟨settings, rules, ⟨-, hset⟩, -⟩
    exact hset
  · intro hset
    exact ⟨_, _, ⟨rfl, hset⟩, rfl⟩
  · rintro settings ⟨rules, ⟨rfl, set, hset⟩, rfl⟩
    refine ⟨if source.strip = [] then none else some set, ?_, ?_, ?_⟩
    · cases direction <;> exact ruleSet?_of_parse hset
    · rw [← Text.strip_eq_nil_iff]
      split <;> simp [*]
    · intro other hother
      split at hother
      · contradiction
      · rw [← Option.some.inj hother]
        exact hset

theorem rulesOf_validate_blanks :
    let set : RuleSet := ⟨["a.*", "\\,b"], [[.literal "a", .wildcard], [.literal ",b"]]⟩
    let settings : Settings := ⟨none, some "a.* ,\\,b", 10, 758, .info⟩
    validate [("response", .scalar (.text "\t a.* ,\\,b \n"))] = .ok settings ∧
      RuleSet.ofOption (some "\t a.* ,\\,b \n") = .ok set ∧
      settings.rulesOf .response = .ok (some set) := by
  intro set settings
  have hvalidated : validate [("response", .scalar (.text "\t a.* ,\\,b \n"))] = .ok settings := rfl
  have hparse : RuleSet.ofOption (some "\t a.* ,\\,b \n") = .ok set := rfl
  obtain ⟨-, hrules⟩ := rulesOf_validate .response "\t a.* ,\\,b \n"
  obtain ⟨rules, hrules, hnone, hsame⟩ := hrules settings hvalidated
  refine ⟨hvalidated, hparse, ?_⟩
  cases rules with
  | none => exact absurd (hnone.mp rfl) (by decide)
  | some other =>
      rw [hrules, ← Except.ok.inj ((hsame other rfl).symm.trans hparse)]

end Direction

end SpanTags.Settings
