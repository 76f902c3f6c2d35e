import SpanTags.Proofs.Session
import SpanTags.Proofs.Settings.Level

namespace SpanTags

namespace Tracing

variable {environment : List (Text × Text)} {service : Text} {maxTags : Int} {set : Tracing}
  {notes : List Note}

-- The least number of tags that tracing is ever set up for makes up for the other attributes
-- of a span.
theorem le_maxTags_of_create (h : create environment service maxTags = .ok set) :
    -11 ≤ set.maxTags := by
  obtain ⟨limit, hlimit, h⟩ := exists_of_bind_eq_ok h
  obtain rfl := Except.ok.inj h
  show -11 ≤ maxTags
  by_contra hfew
  have hnegative : wantedLimit maxTags < -1 := by
    unfold wantedLimit
    omega
  unfold spanLimit? at hlimit
  rw [if_neg (by omega), if_pos (by omega)] at hlimit
  contradiction

theorem exists_init (hmaxTags : 0 ≤ maxTags) (environment : List (Text × Text)) (service : Text)
    (tracing : Option Tracing) :
    ∃ set notes, init environment service maxTags tracing = .ok (set, notes) := by
  cases tracing with
  | some other => exact ⟨_, _, rfl⟩
  | none =>
      have hwanted : 0 ≤ wantedLimit maxTags := by
        unfold wantedLimit
        omega
      have hcreate : ∃ set, create environment service maxTags = .ok set := by
        rw [create, spanLimit?_of_nonneg hwanted]
        exact ⟨_, rfl⟩
      obtain ⟨set, hset⟩ := hcreate
      refine ⟨set, [], ?_⟩
      rw [init, hset]
      rfl

theorem numbers_init {tracing : Option Tracing} (hmaxTags : -11 ≤ maxTags)
    (htracing : ∀ other, tracing = some other → -11 ≤ other.maxTags)
    (h : init environment service maxTags tracing = .ok (set, notes)) :
    ∀ note ∈ notes, ∀ n ∈ note.numbers, -11 ≤ n ∧ n ≤ maxTags := by
  cases tracing with
  | none =>
      obtain ⟨created, -, h⟩ := exists_of_bind_eq_ok h
      obtain ⟨-, rfl⟩ := Prod.mk.inj (Except.ok.inj h)
      exact List.forall_mem_nil _
  | some other =>
      obtain ⟨-, rfl⟩ := Prod.mk.inj (Except.ok.inj h)
      have hother := htracing other rfl
      split
      · intro note hnote n hn
        obtain rfl := List.mem_singleton.mp hnote
        have hcases : n = other.maxTags ∨ n = maxTags := by simpa [Note.numbers] using hn
        omega
      · exact List.forall_mem_nil _

end Tracing

namespace App

variable {surroundings : Surroundings} {settings : Option Settings} {chosen : Settings}
  {loaded : List Note}

theorem chooseSettings_eq_error_iff {fault : Settings.LoadFault} :
    chooseSettings surroundings settings = .error fault ↔
      settings = none ∧ Settings.load surroundings none = .error fault := by
  cases settings with
  | some given => simp [chooseSettings]
  | none =>
      cases hload : Settings.load surroundings none with
      | error other => simp [chooseSettings, hload, bind, Except.bind]
      | ok found => simp [chooseSettings, hload, bind, Except.bind, pure, Except.pure]

-- Settings that are given are taken as they are; without any they are loaded.
theorem exists_chooseSettings_iff :
    (∃ loaded, chooseSettings surroundings settings = .ok (chosen, loaded)) ↔
      settings = some chosen ∨
        settings = none ∧ ∃ note, Settings.load surroundings none = .ok (chosen, note) := by
  cases settings with
  | some given => simp [chooseSettings]
  | none =>
      cases hload : Settings.load surroundings none with
      | error fault => simp [chooseSettings, hload, bind, Except.bind]
      | ok found =>
          obtain ⟨other, note⟩ := found
          simp [chooseSettings, hload, bind, Except.bind, pure, Except.pure]

theorem exists_ofSettings (hvalid : chosen.Valid) (own : Tracer) :
    ∃ app, ofSettings chosen own = .ok app := by
  have hrules : ∀ rules : Option Text, (rules = chosen.request ∨ rules = chosen.response) →
      ∃ set, Settings.ruleSet? rules = .ok set := by
    intro rules hchosen
    cases rules with
    | none => exact ⟨none, rfl⟩
    | some source =>
        obtain ⟨set, hset⟩ := hvalid.rules source (hchosen.imp Eq.symm Eq.symm)
        refine ⟨some set, ?_⟩
        rw [Settings.ruleSet?, hset]
        rfl
  obtain ⟨request, hrequest⟩ := hrules _ (.inl rfl)
  obtain ⟨response, hresponse⟩ := hrules _ (.inr rfl)
  exact ⟨⟨request, response, chosen.limits, own⟩,
    ofSettings_eq_ok_iff.mpr ⟨hrequest, hresponse, rfl, rfl⟩⟩

theorem exists_chooseTracer {maxTags : Int} (hmaxTags : 0 ≤ maxTags) (surroundings : Surroundings)
    (tracing : Option Tracing) (tracer : Option Tracer) :
    ∃ later own repeated,
      chooseTracer surroundings maxTags tracing tracer = .ok (later, own, repeated) := by
  cases tracer with
  | some given => exact ⟨tracing, given, [], rfl⟩
  | none =>
      obtain ⟨set, notes, hinit⟩ := Tracing.exists_init hmaxTags surroundings.environment
        Tracing.defaultService tracing
      refine ⟨some set, .ofTracing set, notes, ?_⟩
      rw [chooseTracer, hinit]
      rfl

-- With valid settings all steps of the creation succeed.
theorem exists_create (hvalid : chosen.Valid)
    (h : chooseSettings surroundings settings = .ok (chosen, loaded)) (tracer : Option Tracer)
    (session : Session) :
    ∃ later own repeated app,
      chooseTracer surroundings chosen.maxTags session.tracing tracer = .ok (later, own, repeated) ∧
      ofSettings chosen own = .ok app ∧
      create surroundings settings tracer session =
        ⟨{ session with threshold := chosen.logLevel, tracing := later },
          loaded.map (session.threshold, ·) ++ repeated.map (chosen.logLevel, ·) ++
            [(chosen.logLevel, .appCreated app.request.isSome app.response.isSome)], .ok app⟩ := by
  have hmaxTags : 0 ≤ chosen.maxTags := by
    have hbounds := hvalid.maxTags
    omega
  obtain ⟨later, own, repeated, htracer⟩ :=
    exists_chooseTracer hmaxTags surroundings session.tracing tracer
  obtain ⟨app, happ⟩ := exists_ofSettings hvalid own
  refine ⟨later, own, repeated, app, htracer, happ, ?_⟩
  unfold create
  rw [h]
  dsimp only
  rw [htracer]
  dsimp only
  rw [happ]

theorem numbers_chooseSettings
    (h : chooseSettings surroundings settings = .ok (chosen, loaded)) :
    ∀ note ∈ loaded, ∀ n ∈ note.numbers, n.natAbs < 10 ^ digitLimit := by
  cases settings with
  | some given =>
      obtain ⟨-, rfl⟩ := Prod.mk.inj (Except.ok.inj h)
      exact List.forall_mem_nil _
  | none =>
      obtain ⟨⟨found, note⟩, hload, h⟩ := exists_of_bind_eq_ok h
      obtain ⟨rfl, rfl⟩ := Prod.mk.inj (Except.ok.inj h)
      exact List.forall_mem_singleton.mpr (Settings.natAbs_lt_of_load hload)

theorem numbers_chooseTracer {maxTags : Int} (hmaxTags : 2 ≤ maxTags ∧ maxTags ≤ 10000)
    {tracing later : Option Tracing} {tracer : Option Tracer} {own : Tracer} {repeated : List Note}
    (htracing : ∀ set, tracing = some set → -11 ≤ set.maxTags)
    (h : chooseTracer surroundings maxTags tracing tracer = .ok (later, own, repeated)) :
    ∀ note ∈ repeated, ∀ n ∈ note.numbers, n.natAbs < 10 ^ digitLimit := by
  cases tracer with
  | some given =>
      obtain rfl : [] = repeated := (Prod.mk.inj (Prod.mk.inj (Except.ok.inj h)).2).2
      exact List.forall_mem_nil _
  | none =>
      obtain ⟨⟨set, notes⟩, hinit, h⟩ := exists_of_bind_eq_ok h
      obtain rfl : notes = repeated := (Prod.mk.inj (Prod.mk.inj (Except.ok.inj h)).2).2
      intro note hnote n hn
      have hbounds := Tracing.numbers_init (by omega) htracing hinit note hnote n hn
      exact natAbs_lt_of_bounds (by omega) (by omega)

-- An application comes about with all that belongs to it, or nothing comes of it: the settings
-- could not be loaded, and the session is as it was before. What is logged can be written either
-- way.
theorem create_all_or_nothing (surroundings : Surroundings) {settings : Option Settings}
    (hsettings : ∀ given, settings = some given → given.Valid) (tracer : Option Tracer)
    {session : Session}
    (htracing : ∀ set, session.tracing = some set → ∃ environment service maxTags,
      Tracing.create environment service maxTags = .ok set) :
    let creation := create surroundings settings tracer session
    (∀ clock, ∃ lines, creation.lines clock = .ok lines) ∧
    (∀ fault, creation.outcome = .error fault →
      ∃ cause, fault = .settings cause ∧ settings = none ∧
        Settings.load surroundings none = .error cause ∧
        creation.session = session ∧ creation.notes = []) ∧
    ∀ chosen, settings = some chosen ∨
        settings = none ∧ (∃ note, Settings.load surroundings none = .ok (chosen, note)) →
      ∃ app, creation.outcome = .ok app ∧
        chosen.requestRules = .ok app.request ∧ chosen.responseRules = .ok app.response ∧
        Level.ofValue (.text chosen.logLevel.name) = .ok chosen.logLevel ∧
        creation.session.threshold = chosen.logLevel := by
  intro creation
  cases hchosen : chooseSettings surroundings settings with
  | error cause =>
      have hcreation : creation = ⟨session, [], .error (.settings cause)⟩ := by
        show create surroundings settings tracer session = _
        rw [create, hchosen]
      obtain ⟨hnone, hload⟩ := chooseSettings_eq_error_iff.mp hchosen
      rw [hcreation]
      refine ⟨fun clock => ⟨[], rfl⟩, fun fault hfault => ?_, ?_⟩
      · exact ⟨cause, (Except.error.inj hfault).symm, hnone, hload, rfl, rfl⟩
      · intro chosen hgiven
        obtain ⟨loaded, hother⟩ := exists_chooseSettings_iff.mpr hgiven
        rw [hchosen] at hother
        contradiction
  | ok found =>
      obtain ⟨chosen, loaded⟩ := found
      have hvalid : chosen.Valid := valid_of_chooseSettings hsettings hchosen
      obtain ⟨later, own, repeated, app, htracer, happ, hcreate⟩ :=
        exists_create hvalid hchosen tracer session
      have hcreation : creation = _ := hcreate
      have hset : ∀ set, session.tracing = some set → -11 ≤ set.maxTags := by
        intro set hset
        obtain ⟨environment, service, maxTags, hmade⟩ := htracing set hset
        exact Tracing.le_maxTags_of_create hmade
      rw [hcreation]
      refine ⟨?_, ?_, ?_⟩
      · intro clock
        apply Note.exists_linesOf
        dsimp only
        rw [List.forall_mem_append, List.forall_mem_append, List.forall_mem_map,
          List.forall_mem_map, List.forall_mem_singleton]
        exact ⟨⟨fun note hnote _ => numbers_chooseSettings hchosen note hnote,
          fun note hnote _ => numbers_chooseTracer hvalid.maxTags hset htracer note hnote⟩,
          fun _ => List.forall_mem_nil _⟩
      · intro fault hfault
        contradiction
      · intro other hother
        obtain ⟨_, hgiven⟩ := exists_chooseSettings_iff.mpr hother
        obtain rfl : chosen = other :=
          (Prod.mk.inj (Except.ok.inj (hchosen.symm.trans hgiven))).1
        obtain ⟨hrequest, hresponse, -⟩ := ofSettings_eq_ok_iff.mp happ
        exact ⟨app, rfl, hrequest, hresponse, Level.ofValue_name _, rfl⟩

-- Tracing that was set up for fewer tags is worth a warning, and the application is there.
theorem create_all_or_nothing_second_app :
    let validated := Settings.validate [
      ("request", .scalar (.text " a,b.* ")), ("log_level", .scalar (.text "debug"))]
    let settings : Settings := ⟨some "a,b.*", none, 10, 758, .debug⟩
    let tracing : Tracing :=
      ⟨5, "payload-tagger", "http://localhost:4318/v1/traces", some 47⟩
    let session : Session := ⟨.error, some tracing, .invalid⟩
    let surroundings : Surroundings := ⟨[], [], "defaults.yaml"⟩
    let creation := create surroundings (some settings) none session
    validated = .ok settings ∧ Tracing.create [] "payload-tagger" 5 = .ok tracing ∧
      creation.notes = [(.debug, .limitsAlreadySet 5 758), (.debug, .appCreated true false)] ∧
      (∀ clock, ∃ lines, creation.lines clock = .ok lines) ∧
      ∃ app, creation.outcome = .ok app ∧ app.request.isSome ∧ app.response = none ∧
        creation.session.threshold = .debug := by
  intro validated settings tracing session surroundings creation
  have hvalidated : validated = .ok settings := rfl
  have hvalid : settings.Valid := Settings.valid_of_validate hvalidated
  have htracing : Tracing.create [] "payload-tagger" 5 = .ok tracing := rfl
  have hset : ∀ set, session.tracing = some set → ∃ environment service maxTags,
      Tracing.create environment service maxTags = .ok set :=
    fun set hset => ⟨[], "payload-tagger", 5, Option.some.inj hset ▸ htracing⟩
  obtain ⟨hlines, -, hcreated⟩ := create_all_or_nothing surroundings
    (fun given (hgiven : some settings = some given) => Option.some.inj hgiven ▸ hvalid) none hset
  obtain ⟨app, happ, hrequest, hresponse, -, hthreshold⟩ := hcreated settings (.inl rfl)
  refine ⟨hvalidated, htracing, rfl, hlines, app, happ, ?_, ?_, hthreshold⟩
  · have hrules : settings.requestRules.map Option.isSome = .ok true := rfl
    rw [hrequest] at hrules
    exact Except.ok.inj hrules
  · exact (Except.ok.inj hresponse).symm

end App

end SpanTags
