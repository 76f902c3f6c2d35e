import SpanTags.Proofs.Settings
import SpanTags.Service.App
import Mathlib.Logic.Relation

namespace SpanTags

namespace Tracing

variable {environment : List (Text × Text)} {service : Text} {maxTags : Int}
  {tracing other : Tracing} {notes : List Note}

-- The first time gives a span the room that was asked for.
theorem limits_of_init_none (h : init environment service maxTags none = .ok (tracing, notes)) :
    tracing.maxTags = maxTags ∧ spanLimit? (wantedLimit maxTags) = .ok tracing.spanLimit := by
  obtain ⟨created, hcreated, h⟩ := exists_of_bind_eq_ok h
  obtain ⟨rfl, -⟩ := Prod.mk.inj (Except.ok.inj h)
  obtain ⟨limit, hlimit, hcreated⟩ := exists_of_bind_eq_ok hcreated
  obtain rfl := Except.ok.inj hcreated
  exact ⟨rfl, hlimit⟩

theorem eq_of_init_some (h : init environment service maxTags (some other) = .ok (tracing, notes)) :
    tracing = other :=
  (Prod.mk.inj (Except.ok.inj h)).1.symm

theorem spanLimit?_of_nonneg {limit : Int} (h : 0 ≤ limit) :
    spanLimit? limit = .ok (some limit.toNat) := by
  unfold spanLimit?
  rw [if_neg (by omega), if_neg (by omega)]

end Tracing

namespace App

variable {surroundings : Surroundings} {settings : Option Settings} {tracer : Option Tracer}
  {session : Session}

theorem chooseTracer_cases {maxTags : Int} {tracing later : Option Tracing} {chosen : Tracer}
    {notes : List Note}
    (h : chooseTracer surroundings maxTags tracing tracer = .ok (later, chosen, notes)) :
    (tracer = some chosen ∧ later = tracing) ∨
      tracer = none ∧ ∃ set, later = some set ∧ chosen = .ofTracing set ∧
        Tracing.init surroundings.environment Tracing.defaultService maxTags tracing =
          .ok (set, notes) := by
  cases tracer with
  | some given =>
      obtain ⟨rfl, rfl, -⟩ : tracing = later ∧ given = chosen ∧ _ := by
        simpa only [chooseTracer, Except.ok.injEq, Prod.mk.injEq] using h
      exact .inl ⟨rfl, rfl⟩
  | none =>
      obtain ⟨⟨set, repeated⟩, hset, h⟩ := exists_of_bind_eq_ok h
      simp only [pure, Except.pure, Except.ok.injEq, Prod.mk.injEq] at h
      obtain ⟨rfl, rfl, rfl⟩ := h
      exact .inr ⟨rfl, set, rfl, rfl, hset⟩

-- How far creating an application comes: not to its settings, not to its tracer, or to its
-- rules.
theorem create_cases (surroundings : Surroundings) (settings : Option Settings)
    (tracer : Option Tracer) (session : Session) :
    (∃ fault, chooseSettings surroundings settings = .error fault ∧
      create surroundings settings tracer session = ⟨session, [], .error (.settings fault)⟩) ∨
    ∃ chosen loaded, chooseSettings surroundings settings = .ok (chosen, loaded) ∧
      ((∃ fault,
        chooseTracer surroundings chosen.maxTags session.tracing tracer = .error fault ∧
        (create surroundings settings tracer session).session =
          { session with threshold := chosen.logLevel } ∧
        (create surroundings settings tracer session).outcome = .error (.limit fault)) ∨
      ∃ tracing own repeated,
        chooseTracer surroundings chosen.maxTags session.tracing tracer =
          .ok (tracing, own, repeated) ∧
        (create surroundings settings tracer session).session =
          { session with threshold := chosen.logLevel, tracing } ∧
        (create surroundings settings tracer session).outcome =
          (ofSettings chosen own).mapError Fault.rules) := by
  unfold create
  cases hsettings : chooseSettings surroundings settings with
  | error fault => exact .inl ⟨fault, rfl, rfl⟩
  | ok found =>
      obtain ⟨chosen, loaded⟩ := found
      refine .inr ⟨chosen, loaded, rfl, ?_⟩
      dsimp only
      cases htracer : chooseTracer surroundings chosen.maxTags session.tracing tracer with
      | error fault => exact .inl ⟨fault, rfl, rfl, rfl⟩
      | ok found =>
          obtain ⟨tracing, own, repeated⟩ := found
          refine .inr ⟨tracing, own, repeated, rfl, ?_⟩
          dsimp only
          cases ofSettings chosen own with
          | error fault => exact ⟨rfl, rfl⟩
          | ok app => exact ⟨rfl, rfl⟩

theorem of_ofSettings {chosen : Settings} {own : Tracer} {app : App}
    (h : ofSettings chosen own = .ok app) : app.limits = chosen.limits ∧ app.tracer = own := by
  obtain ⟨request, -, h⟩ := exists_of_bind_eq_ok h
  obtain ⟨response, -, h⟩ := exists_of_bind_eq_ok h
  obtain rfl := Except.ok.inj h
  exact ⟨rfl, rfl⟩

-- An application is made of what its settings say as soon as their rules can be read.
theorem ofSettings_eq_ok_iff {chosen : Settings} {own : Tracer} {app : App} :
    ofSettings chosen own = .ok app ↔
      chosen.requestRules = .ok app.request ∧ chosen.responseRules = .ok app.response ∧
        app.limits = chosen.limits ∧ app.tracer = own := by
  constructor
  · intro h
    have hkept := of_ofSettings h
    obtain ⟨request, hrequest, h⟩ := exists_of_bind_eq_ok h
    obtain ⟨response, hresponse, h⟩ := exists_of_bind_eq_ok h
    obtain rfl := Except.ok.inj h
    exact ⟨hrequest, hresponse, hkept⟩
  · rintro ⟨hrequest, hresponse, hlimits, hown⟩
    unfold ofSettings
    rw [hrequest, hresponse, ← hlimits, ← hown]
    rfl

-- An application without a tracer of its own takes the tracing of its session.
theorem of_create_none {app : App}
    (h : (create surroundings settings none session).outcome = .ok app) :
    ∃ chosen loaded tracing notes, chooseSettings surroundings settings = .ok (chosen, loaded) ∧
      Tracing.init surroundings.environment Tracing.defaultService chosen.maxTags
        session.tracing = .ok (tracing, notes) ∧
      (create surroundings settings none session).session =
        { session with threshold := chosen.logLevel, tracing := some tracing } ∧
      app.limits = chosen.limits ∧ app.tracer = .ofTracing tracing := by
  rcases create_cases surroundings settings none session with
    ⟨fault, -, hcreate⟩ | ⟨chosen, loaded, hchosen, hreached⟩
  · rw [hcreate] at h
    contradiction
  · rcases hreached with
      ⟨fault, -, -, houtcome⟩ | ⟨later, own, notes, htracer, hsession, houtcome⟩
    · rw [houtcome] at h
      contradiction
    · rw [houtcome, mapError_eq_ok_iff] at h
      obtain ⟨hlimits, hown⟩ := of_ofSettings h
      rcases chooseTracer_cases htracer with ⟨hnone, -⟩ | ⟨-, tracing, rfl, rfl, hinit⟩
      · contradiction
      · exact ⟨chosen, loaded, tracing, notes, hchosen, hinit, hsession, hlimits, hown⟩

-- Settings that are given count as checked; those that are loaded are.
theorem valid_of_chooseSettings {chosen : Settings} {loaded : List Note}
    (hsettings : ∀ given, settings = some given → given.Valid)
    (h : chooseSettings surroundings settings = .ok (chosen, loaded)) : chosen.Valid := by
  cases settings with
  | some given =>
      obtain ⟨rfl, -⟩ := Prod.mk.inj (Except.ok.inj h)
      exact hsettings given rfl
  | none =>
      obtain ⟨⟨found, note⟩, hload, h⟩ := exists_of_bind_eq_ok h
      obtain ⟨rfl, -⟩ := Prod.mk.inj (Except.ok.inj h)
      exact Settings.valid_of_load hload

end App

namespace Session

variable {session later : Session} {tracing : Tracing}

-- What can happen next to a session: the tracing is set up, or asked for once more, an
-- application is created, or the threshold or the span at hand is another.
inductive Step : Session → Session → Prop
  | traced {session : Session} {tracing : Tracing} {notes : List Note}
      (environment : List (Text × Text)) (service : Text) (maxTags : Int)
      (h : Tracing.init environment service maxTags session.tracing = .ok (tracing, notes)) :
      Step session { session with tracing := some tracing }
  | created {session : Session} (surroundings : Surroundings) (settings : Option Settings)
      (tracer : Option Tracer) :
      Step session (App.create surroundings settings tracer session).session
  | changed {session : Session} (threshold : Level) (span : Span) :
      Step session { session with threshold, span }

def Steps : Session → Session → Prop :=
  Relation.ReflTransGen Step

-- Once set up, the tracing stays as it is.
theorem Step.tracing_eq (h : Step session later) (hset : session.tracing = some tracing) :
    later.tracing = some tracing := by
  cases h with
  | traced environment service maxTags h =>
      rw [hset] at h
      rw [Tracing.eq_of_init_some h]
  | created surroundings settings tracer =>
      rcases App.create_cases surroundings settings tracer session with
        ⟨fault, -, hcreate⟩ | ⟨chosen, loaded, -, hreached⟩
      · rw [hcreate]
        exact hset
      · rcases hreached with ⟨fault, -, hsession, -⟩ | ⟨own, _, _, htracer, hsession, -⟩
        · rw [hsession]
          exact hset
        · rw [hsession]
          rcases App.chooseTracer_cases htracer with ⟨-, hown⟩ | ⟨-, first, hown, -, hinit⟩
          · exact hown.trans hset
          · rw [hset] at hinit
            rw [hown, Tracing.eq_of_init_some hinit]
  | changed threshold span => exact hset

theorem Steps.tracing_eq (h : Steps session later) (hset : session.tracing = some tracing) :
    later.tracing = some tracing := by
  induction h with
  | refl => exact hset
  | tail _ step ih => exact step.tracing_eq ih

-- The tracing of the session was set up for so many tags, and anything may have followed.
def TracedFor (maxTags : Int) (session : Session) : Prop :=
  ∃ (before : Session) (environment : List (Text × Text)) (service : Text) (tracing : Tracing)
    (notes : List Note), before.tracing = none ∧
      Tracing.init environment service maxTags none = .ok (tracing, notes) ∧
      Steps { before with tracing := some tracing } session

theorem TracedFor.exists_tracing {maxTags : Int} (h : TracedFor maxTags session) :
    ∃ tracing, session.tracing = some tracing ∧ tracing.maxTags = maxTags ∧
      Tracing.spanLimit? (Tracing.wantedLimit maxTags) = .ok tracing.spanLimit := by
  obtain ⟨before, environment, service, tracing, notes, -, hinit, hsteps⟩ := h
  exact ⟨tracing, hsteps.tracing_eq rfl, Tracing.limits_of_init_none hinit⟩

theorem TracedFor.step {maxTags : Int} (h : TracedFor maxTags session)
    (step : Step session later) : TracedFor maxTags later := by
  obtain ⟨before, environment, service, tracing, notes, hnone, hinit, hsteps⟩ := h
  exact ⟨before, environment, service, tracing, notes, hnone, hinit, hsteps.tail step⟩

-- The first application sets the tracing up for its own tags.
theorem tracedFor_create {surroundings : Surroundings} {settings : Option Settings} {app : App}
    (hnone : session.tracing = none)
    (happ : (App.create surroundings settings none session).outcome = .ok app) :
    TracedFor app.limits.maxTags (App.create surroundings settings none session).session := by
  obtain ⟨chosen, loaded, tracing, notes, -, hinit, hsession, hlimits, -⟩ :=
    App.of_create_none happ
  rw [hnone] at hinit
  rw [hsession, hlimits]
  exact ⟨{ session with threshold := chosen.logLevel }, _, _, tracing, notes, hnone, hinit, .refl⟩

end Session

end SpanTags
