import SpanTags.Proofs.Service.Assignments
import SpanTags.Proofs.Session

namespace SpanTags.App

variable (app : App) (server : Server) (routes : List Route) (request : Request) (target : Text)

-- Three sets of tags, and the method, the target and the status beside them.
theorem length_assignments_le :
    ((app.assignments server routes request target).length : Int) ≤
      3 * max 1 app.limits.maxTags + 3 := by
  have hquery := (app.tagSet_querySet request).length_le
  have hmessage (direction : Direction) (body : List UInt8) (headers : List (Text × Text)) :=
    (app.tagSet_messageSet server direction body headers).length_le
  have harrival := hmessage .request request.body request.headers
  have hanswer :
      ((app.answerAssignments server (Route.answer server routes request).outcome).length : Int) ≤
        max 1 app.limits.maxTags + 1 := by
    cases (Route.answer server routes request).outcome with
    | error crash =>
        simp only [answerAssignments, List.length_nil]
        omega
    | ok response =>
        have hresponse := hmessage .response response.body response.headers
        simp only [answerAssignments, Tag.attributes, List.length_cons, List.length_map]
        omega
  simp only [assignments, arrivalAssignments, Request.attributes, Tag.attributes,
    List.length_append, List.length_map, List.length_cons, List.length_nil]
  omega

-- With the tracing set up for at least as many tags as the application takes, a span has room
-- for all that is set on it, and so nothing is driven out at any time: the names that were set
-- so far are all there.
theorem nameCount_assignments_le {surroundings : Surroundings} {settings : Option Settings}
    {session : Session} {app : App} {maxTags : Int}
    (hsettings : ∀ given, settings = some given → given.Valid)
    (happ : (create surroundings settings none session).outcome = .ok app)
    (htraced : (create surroundings settings none session).session.TracedFor maxTags)
    (htags : app.limits.maxTags ≤ maxTags) :
    ∃ tracing, (create surroundings settings none session).session.tracing = some tracing ∧
      tracing.spanLimit = some (3 * maxTags + 32).toNat ∧
      ∀ server routes request target,
        (∀ count, let assigned := (app.assignments server routes request target).take count
          (Span.nameCount assigned : Int) ≤ 3 * maxTags + 32 ∧
          ∀ name, name ∈ ((Span.start tracing.spanLimit).setAll assigned).attributes.map Prod.fst ↔
            name ∈ assigned.map Prod.fst) ∧
        (server.target request = .ok target →
          (app.serve server routes request).spans = [(request.method ++ " " ++ target,
            ((Span.start tracing.spanLimit).setAll
              (app.assignments server routes request target)).finish)]) := by
  obtain ⟨chosen, loaded, tracing, notes, hchosen, -, hsession, hlimits, htracer⟩ :=
    of_create_none happ
  have hset : (create surroundings settings none session).session.tracing = some tracing := by
    rw [hsession]
  have hleast : 2 ≤ app.limits.maxTags := by
    rw [hlimits]
    exact (valid_of_chooseSettings hsettings hchosen).maxTags.1
  have hspan : tracing.spanLimit = some (3 * maxTags + 32).toNat := by
    obtain ⟨first, hfirst, -, hlimit⟩ := htraced.exists_tracing
    obtain rfl : tracing = first := Option.some.inj (hset.symm.trans hfirst)
    rw [Tracing.wantedLimit, Tracing.spanLimit?_of_nonneg (by omega)] at hlimit
    exact (Except.ok.inj hlimit).symm
  refine ⟨tracing, hset, hspan, fun server routes request target => ⟨fun count => ?_, ?_⟩⟩
  · intro assigned
    have hcount : (Span.nameCount assigned : Int) ≤ 3 * maxTags + 32 := by
      have hnames := Span.nameCount_le_length assigned
      have htaken : assigned.length ≤ (app.assignments server routes request target).length :=
        (List.take_sublist _ _).length_le
      have hall := app.length_assignments_le server routes request target
      omega
    have hroom : Span.HasRoom tracing.spanLimit assigned := by
      intro most hmost
      rw [hspan] at hmost
      obtain rfl := Option.some.inj hmost
      omega
    have hsettable : ∀ pair ∈ assigned, Span.Settable pair := fun pair hpair =>
      app.settable_assignments server request routes target pair (List.mem_of_mem_take hpair)
    exact ⟨hcount, (Span.holds_setAll_start hsettable hroom).mem_names_iff⟩
  · exact spans_serve routes request htracer

-- An application for five tags after one for ten: both bodies are trimmed, and the span has
-- room for all.
theorem nameCount_assignments_le_second_app :
    let bytes (t : String) : List UInt8 := (Text.ofString t).flatMap Encoding.utf8Bytes
    let rules : RuleSet := ⟨["*"], [[.wildcard]]⟩
    let first : Settings := ⟨none, none, 10, 10, .info⟩
    let settings : Settings := ⟨some "*", some "*", 10, 5, .warning⟩
    let surroundings : Surroundings := ⟨[], [], "defaults.yaml"⟩
    let session := (create surroundings (some first) none Session.start).session
    let app : App := ⟨some rules, some rules, ⟨10, 5⟩, .recording (some 62)⟩
    let headers : List (Text × Text) := [("content-type", "application/json")]
    let route : Route := ⟨"/echo", ["POST"], fun request =>
      .silently (.ok (.whole 200 headers request.body))⟩
    let request : Request := ⟨"POST", "/echo", bytes "a=1", headers, [bytes "[1,2,3,4,5,6]"]⟩
    let server : Server := .standard "http://localhost" ⟨1700000000125⟩ 990
    let assigned := app.assignments server [route] request "/echo"
    settings.Valid ∧ (create surroundings (some settings) none session).outcome = .ok app ∧
      session.TracedFor 10 ∧ Span.nameCount assigned = 13 ∧
      ∀ count, (Span.nameCount (assigned.take count) : Int) ≤ 62 ∧
        ∀ name, name ∈ ((Span.start (some 62)).setAll (assigned.take count)).attributes.map
            Prod.fst ↔ name ∈ (assigned.take count).map Prod.fst := by
  intro bytes rules first settings surroundings session app headers route request server assigned
  let given : List (Text × Given) := [("request", .scalar (.text "*")),
    ("response", .scalar (.text "*")), ("max_tags", .scalar (.int 5)),
    ("log_level", .scalar (.text "warning"))]
  have hchecked : Settings.validate given = .ok settings := rfl
  have hvalid : settings.Valid := Settings.valid_of_validate hchecked
  have hother : (create surroundings (some first) none Session.start).outcome =
      .ok ⟨none, none, ⟨10, 10⟩, .recording (some 62)⟩ := rfl
  have happ : (create surroundings (some settings) none session).outcome = .ok app := rfl
  have hfirst : session.TracedFor 10 := Session.tracedFor_create rfl hother
  have htraced := hfirst.step (.created surroundings (some settings) none)
  obtain ⟨tracing, -, hlimit, hserve⟩ := nameCount_assignments_le
    (fun given hgiven => Option.some.inj hgiven ▸ hvalid) happ htraced (by decide)
  have hspan : tracing.spanLimit = some 62 := hlimit
  refine ⟨hvalid, happ, hfirst, by decide +kernel, ?_⟩
  rw [← hspan]
  exact (hserve server [route] request "/echo").1

end SpanTags.App
