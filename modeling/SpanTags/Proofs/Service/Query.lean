import SpanTags.Proofs.Service.Grouping
import SpanTags.Proofs.Walk.Secrecy
import SpanTags.Service.Exchange
import Mathlib.Data.List.Forall2

namespace SpanTags

namespace Params

-- The value of a parameter is hidden if its name is a secret key and no other parameter
-- has the name.
def Hides (params : Params) (name : Text) : Prop :=
  name ∈ Redaction.keys ∧ (params.map Prod.fst).count name = 1

instance (params : Params) (name : Text) : Decidable (params.Hides name) :=
  inferInstanceAs (Decidable (_ ∧ _))

-- The two have the same name and, unless the name is one of the free ones, the same value.
def SameUnless (free : Text → Prop) (param param' : Text × Text) : Prop :=
  param.1 = param'.1 ∧ (param.2 = param'.2 ∨ free param.1)

instance (free : Text → Prop) [DecidablePred free] (param param' : Text × Text) :
    Decidable (SameUnless free param param') :=
  inferInstanceAs (Decidable (_ ∧ _))

-- The names are the same, and the values are except where they are hidden.
def Alike (params params' : Params) : Prop :=
  List.Forall₂ (SameUnless params.Hides) params params'

instance (params params' : Params) : Decidable (params.Alike params') :=
  inferInstanceAs (Decidable (List.Forall₂ _ _ _))

section Values

variable {params params' : Params} {free : Text → Prop} {name : Text}

theorem map_fst_eq_of_forall₂ (h : List.Forall₂ (SameUnless free) params params') :
    params.map Prod.fst = params'.map Prod.fst := by
  induction h with
  | nil => rfl
  | cons hparam _ ih => rw [List.map_cons, List.map_cons, hparam.1, ih]

theorem valuesOf_eq_of_forall₂ (h : List.Forall₂ (SameUnless free) params params')
    (hname : ¬free name) : params.valuesOf name = params'.valuesOf name := by
  induction h with
  | nil => rfl
  | @cons param param' _ _ hparam _ ih =>
      obtain ⟨hsame, hvalue⟩ := hparam
      rw [valuesOf_cons, valuesOf_cons, ih, ← hsame]
      by_cases hp : param.1 = name
      · have hvalues : param.2 = param'.2 := hvalue.resolve_right (hp ▸ hname)
        rw [hvalues]
      · rw [if_neg hp, if_neg hp]

theorem Hides.exists_valuesOf_eq (h : params.Hides name) :
    ∃ value, params.valuesOf name = [value] :=
  List.length_eq_one_iff.mp ((length_valuesOf params name).trans h.2)

end Values

namespace Alike

variable {params params' : Params}

theorem map_fst_eq (h : params.Alike params') : params.map Prod.fst = params'.map Prod.fst :=
  map_fst_eq_of_forall₂ h

-- The values of one name are the same list, or one hidden text each.
theorem grouped_alike (h : params.Alike params') (name : Text) :
    Value.Alike (Redaction.isRedacted name) (grouped (params.valuesOf name))
      (grouped (params'.valuesOf name)) := by
  by_cases hhides : params.Hides name
  · have hhides' : params'.Hides name := by rwa [Hides, ← h.map_fst_eq]
    have hsecret : Redaction.isRedacted name = true := decide_eq_true hhides.1
    obtain ⟨value, hvalue⟩ := hhides.exists_valuesOf_eq
    obtain ⟨value', hvalue'⟩ := hhides'.exists_valuesOf_eq
    rw [hvalue, hvalue', hsecret]
    exact .secret value value'
  · rw [valuesOf_eq_of_forall₂ h hhides]
    exact Value.alike_refl _ _

theorem object_alike (h : params.Alike params') (secret : Bool) :
    Value.Alike secret params.object params'.object := by
  have hnames : params.names = params'.names := by rw [names, names, h.map_fst_eq]
  rw [object, object, ← hnames]
  exact Value.alike_object fun name _ => h.grouped_alike name

end Alike

end Params

namespace App

variable (app : App) (rules : RuleSet) {params params' : Params}

theorem queryTags_alike (h : params.Alike params') :
    app.queryTags rules params = app.queryTags rules params' :=
  Tagging.ofValue_alike (h.object_alike _)

-- Neither the tags of a query nor what is logged depends on the value of a secret
-- parameter that occurs once, and so the span does not.
theorem queryTags_eq_of_alike (h : params.Alike params') :
    (app.queryTags rules params).tags = (app.queryTags rules params').tags ∧
      (app.queryTags rules params).notes = (app.queryTags rules params').notes ∧
      ∀ request request' visit, Params.ofBytes request.query = params →
        Params.ofBytes request'.query = params' →
          app.tagQuery rules request visit = app.tagQuery rules request' visit := by
  have htags := app.queryTags_alike rules h
  refine ⟨by rw [htags], by rw [htags], ?_⟩
  rintro request request' visit rfl rfl
  have hempty :
      (Params.ofBytes request.query).isEmpty = (Params.ofBytes request'.query).isEmpty := by
    rw [← List.isEmpty_map, h.map_fst_eq, List.isEmpty_map]
  simp only [tagQuery, hempty, htags]

-- Two different secrets that occur once, among parameters that occur twice.
theorem queryTags_eq_of_alike_two_secrets :
    let app : App := ⟨none, none, ⟨10, 758⟩, .recording none⟩
    let rules : RuleSet := ⟨["*"], [[.wildcard]]⟩
    let params : Params :=
      [("q", "a"), ("token", "s1"), ("q", "b"), ("password", "p1"), ("Token", "t")]
    let params' : Params :=
      [("q", "a"), ("token", "s2"), ("q", "b"), ("password", ""), ("Token", "t")]
    RuleSet.parse "*" = .ok rules ∧ params.Alike params' ∧
      (app.queryTags rules params).tags = (app.queryTags rules params').tags ∧
      (app.queryTags rules params').tags = .ok
        [("http.payload.request.query.q.0", .text "a"),
          ("http.payload.request.query.q.1", .text "b"),
          ("http.payload.request.query.token", .text "redacted"),
          ("http.payload.request.query.password", .text "redacted"),
          ("http.payload.request.query.Token", .text "t")] := by
  intro app rules params params'
  have halike : params.Alike params' := by decide +kernel
  exact ⟨rfl, halike, (app.queryTags_eq_of_alike rules halike).1, by decide +kernel⟩

-- The values of a parameter that occurs twice are items of a list, and an item's own key
-- is its place: nothing is hidden.
theorem queryTags_repeated_secret :
    let app : App := ⟨none, none, ⟨10, 758⟩, .recording none⟩
    let rules : RuleSet := ⟨["*"], [[.wildcard]]⟩
    let params : Params := [("token", "s1"), ("token", "s2")]
    let params' : Params := [("token", "s1"), ("token", "another")]
    RuleSet.parse "*" = .ok rules ∧ params.map Prod.fst = params'.map Prod.fst ∧
      (∀ name ∈ params.map Prod.fst, name ∈ Redaction.keys) ∧
      (app.queryTags rules params).tags = .ok
        [("http.payload.request.query.token.0", .text "s1"),
          ("http.payload.request.query.token.1", .text "s2")] ∧
      (app.queryTags rules params').tags = .ok
        [("http.payload.request.query.token.0", .text "s1"),
          ("http.payload.request.query.token.1", .text "another")] := by
  intro app rules params params'
  exact ⟨rfl, rfl, by decide, by decide +kernel, by decide +kernel⟩

end App

end SpanTags
