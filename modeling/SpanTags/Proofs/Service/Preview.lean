import SpanTags.Proofs.Json.Writing
import SpanTags.Proofs.Service.Transparency
import SpanTags.Proofs.Session
import SpanTags.Proofs.Text.Utf8
import SpanTags.Proofs.Walk.Bounds
import SpanTags.Proofs.Walk.WellFormed

namespace SpanTags

deriving instance DecidableEq for Preview
deriving instance DecidableEq for Response

instance decidableEqOk {ε α : Type} [DecidableEq α] (a : α) :
    (x : Except ε α) → Decidable (x = .ok a)
  | .ok b => decidable_of_iff (b = a) ⟨congrArg Except.ok, Except.ok.inj⟩
  | .error _ => .isFalse nofun

section Document

variable {v : Value} {condition : Prop} {t : Text} {body : List UInt8} {crash : Crash}

namespace Response

theorem document_of_write (ht : Json.write .compact v = .ok t) :
    document v = (Encoding.encode t).mapError Crash.surrogates := by
  rw [document, ht]
  rfl

-- The document has its bytes exactly under the condition. Else it is given up at a surrogate.
theorem document_of_encodes (h : Json.Encodes v condition) (hcondition : condition) :
    ∃ body, document v = .ok body := by
  obtain ⟨t, ht, hwell⟩ := h
  have hencode := Encoding.encode_eq_ok_iff.mpr ⟨hwell.mpr hcondition, rfl⟩
  refine ⟨t.flatMap Encoding.utf8Bytes, ?_⟩
  rw [document_of_write ht, hencode]
  rfl

theorem document_of_encodes_not (h : Json.Encodes v condition) (hcondition : ¬condition) :
    ∃ run, document v = .error (.surrogates run) := by
  obtain ⟨t, ht, hwell⟩ := h
  cases hencode : Encoding.encode t with
  | ok bytes =>
      have ht := (Encoding.encode_eq_ok_iff.mp hencode).1
      exact absurd (hwell.mp ht) hcondition
  | error run =>
      refine ⟨run, ?_⟩
      rw [document_of_write ht, hencode]
      rfl

theorem json_of_document (status : Nat) (h : document v = .ok body) :
    json status v = .ok (whole status [("content-type", "application/json")] body) := by
  rw [json, h]
  rfl

theorem json_of_document_error (status : Nat) (h : document v = .error crash) :
    json status v = .error crash := by
  rw [json, h]
  rfl

end Response

-- The tags of an answer have bytes exactly if all of them can be encoded.
theorem App.encodes_tagsDocument (tags : Tags) :
    Json.Encodes (tagsDocument tags) tags.WellFormed := by
  apply Json.encodes_member (Text.wellFormed_ofString "tags")
  apply Json.encodes_object Prod.fst
  rintro ⟨path, value⟩ -
  cases value with
  | text t => exact Json.encodes_text t
  | marker => exact Json.encodes_bool true

end Document

section Notes

variable {P : Note → Prop}

theorem Visit.notes_tag {tracer : Tracer} {source : Text} {tagging : Tagging Empty} {visit : Visit}
    (hfailed : ∀ error, P (.taggingFailed source error)) (htagging : ∀ note ∈ tagging.notes, P note)
    (hvisit : ∀ note ∈ visit.notes, P note) :
    ∀ note ∈ (visit.tag tracer source tagging).notes, P note := by
  have hnoted : ∀ note ∈ (visit.note tagging.notes).notes, P note :=
    List.forall_mem_append.mpr ⟨hvisit, htagging⟩
  have hmore : ∀ error,
      ∀ note ∈ ((visit.note tagging.notes).note [.taggingFailed source error]).notes, P note :=
    fun error => List.forall_mem_append.mpr
      ⟨hnoted, List.forall_mem_singleton.mpr (hfailed error)⟩
  unfold tag
  dsimp only
  split
  · exact hmore _
  · split
    · exact hnoted
    · split
      · exact hnoted
      · exact hmore _

variable {app : App} {server : Server} {request : Request} {visit : Visit}

theorem App.notes_tagRequest (hfailed : ∀ source error, P (.taggingFailed source error))
    (htags : ∀ note, note.IsDetail app.limits.maxTags → P note)
    (hvisit : ∀ note ∈ visit.notes, P note) :
    ∀ note ∈ (app.tagRequest server request visit).notes, P note := by
  unfold tagRequest
  split
  · exact hvisit
  · rename_i rules _
    have hbody : ∀ note ∈
        (app.messageTags server .request rules request.body request.headers).notes, P note :=
      fun note hnote => htags note (Body.notes_tag _ _ _ _ _ _ note hnote)
    have hquery : ∀ note ∈ (app.tagQuery rules request visit).notes, P note := by
      unfold tagQuery
      dsimp only
      split
      · exact hvisit
      · refine Visit.notes_tag (hfailed _) (fun note hnote => ?_) hvisit
        exact htags note (Tagging.notes_ofValue _ _ _ _ note hnote)
    exact Visit.notes_tag (hfailed _) hbody hquery

theorem App.notes_tagResponse (hfailed : ∀ source error, P (.taggingFailed source error))
    (htags : ∀ note, note.IsDetail app.limits.maxTags → P note)
    (hvisit : ∀ note ∈ visit.notes, P note) (response : Response) :
    ∀ note ∈ (app.tagResponse server response visit).2.notes, P note := by
  unfold tagResponse
  dsimp only
  split
  · exact hvisit
  · refine Visit.notes_tag (hfailed _) (fun note hnote => ?_) hvisit
    exact htags note (Body.notes_tag _ _ _ _ _ _ note hnote)

-- What holds of the notes on tags, on their failures and of the route holds of all notes.
theorem App.notes_serve {routes : List Route}
    (hfailed : ∀ source error, P (.taggingFailed source error))
    (htags : ∀ note, note.IsDetail app.limits.maxTags → P note)
    (hroute : ∀ note ∈ (Route.answer server routes request).notes, P note) :
    ∀ note ∈ (app.serve server routes request).notes, P note := by
  unfold serve
  split
  · exact List.forall_mem_nil _
  · rename_i target _
    have harrived : ∀ note ∈ (app.tagRequest server request (app.arrive request target)).notes,
        P note :=
      notes_tagRequest hfailed htags (List.forall_mem_nil _)
    have hanswered : ∀ note ∈ ((app.tagRequest server request (app.arrive request target)).note
        (Route.answer server routes request).notes).notes, P note :=
      List.forall_mem_append.mpr ⟨harrived, hroute⟩
    unfold respond
    dsimp only
    split
    · exact hanswered
    · exact notes_tagResponse hfailed htags hanswered _

end Notes

namespace App

variable (app : App) (server : Server)

-- What is asked of the preview reaches it, and no other route.
theorem answer_preview (added : List Route) {request : Request}
    (hmethod : request.method = "POST") (hpath : request.path = "/preview") :
    Route.answer server (app.routes server added) request =
      (app.preview server).handle request := by
  have hhealth : (health server).accepts request = false := by
    simp only [Route.accepts, hpath, Bool.and_eq_false_iff, decide_eq_false_iff_not]
    exact .inl (show ("/health" : Text) ≠ "/preview" by decide)
  have hpreview : (app.preview server).accepts request = true := by
    simp only [Route.accepts, hpath, hmethod]
    rfl
  have hfind : (app.routes server added).find? (·.accepts request) = some (app.preview server) := by
    simp only [routes, List.find?_cons, hhealth, hpreview]
  simp only [Route.answer, hfind]

theorem answer_preview_of_ofRequest (added : List Route) {request : Request}
    (hmethod : request.method = "POST") (hpath : request.path = "/preview") {preview : Preview}
    (hpreview : Preview.ofRequest server.nestingLimit request = .ok preview) :
    Route.answer server (app.routes server added) request = app.answerPreview server preview := by
  rw [app.answer_preview server added hmethod hpath, App.preview]
  dsimp only
  rw [hpreview]

theorem previewRules_eq_error_iff {preview : Preview} {detail : Text} :
    app.previewRules preview = .error detail ↔
      (∃ source fault, preview.rules = some source ∧ RuleSet.parse source = .error fault ∧
        detail = fault.message) ∨
      preview.rules = none ∧ app.rules preview.direction = none ∧
        detail = preview.direction.name ++ " payload tagging is disabled" := by
  unfold previewRules
  cases preview.rules with
  | some source =>
      cases hparse : RuleSet.parse source with
      | error fault => simp [hparse, Except.mapError, eq_comm]
      | ok rules => simp [hparse, Except.mapError]
  | none =>
      cases hrules : app.rules preview.direction with
      | none => simp [eq_comm]
      | some rules => simp

-- What is wrong with a rule is told with the rule in quotes.
theorem wellFormed_of_previewRules {preview : Preview} {detail : Text}
    (h : app.previewRules preview = .error detail) : detail.WellFormed := by
  rcases app.previewRules_eq_error_iff.mp h with ⟨source, fault, -, -, rfl⟩ | ⟨-, -, rfl⟩
  · cases fault <;> simp [RuleFault.message]
  · cases preview.direction <;> decide

theorem exists_tags_previewTags (preview : Preview) (rules : RuleSet) :
    ∃ tags, (app.previewTags server preview rules).tags = .ok tags :=
  Body.exists_tags_tag rules.mask_total _ _ _ _

theorem wellFormed_previewTags {preview : Preview} {rules : RuleSet} {tags : Tags}
    (h : ∀ v, Body.decode server.nestingLimit (.text preview.body) = .ok v → v.WellFormed)
    (htags : (app.previewTags server preview rules).tags = .ok tags) : tags.WellFormed := by
  have hroot : preview.direction.root.WellFormed := by
    cases preview.direction <;> decide
  exact Body.wellFormed_tags_tag rules.mask_total h hroot htags

variable {app} {server} {preview : Preview}

theorem answerPreview_of_error (server : Server) {detail : Text}
    (h : app.previewRules preview = .error detail) :
    ∃ body, Response.document (.object [("detail", .text detail)]) = .ok body ∧
      app.answerPreview server preview =
        .silently (.ok (.whole 400 [("content-type", "application/json")] body)) := by
  have hdetail : detail.WellFormed := app.wellFormed_of_previewRules h
  have hencodes :=
    Json.encodes_member (Text.wellFormed_ofString "detail") (Json.encodes_text detail)
  obtain ⟨body, hbody⟩ := Response.document_of_encodes hencodes hdetail
  refine ⟨body, hbody, ?_⟩
  rw [answerPreview, h]
  dsimp only
  rw [Response.refusal, Response.json_of_document 400 hbody]

theorem answerPreview_of_ok {rules : RuleSet} {tags : Tags}
    (h : app.previewRules preview = .ok rules)
    (htags : (app.previewTags server preview rules).tags = .ok tags) :
    app.answerPreview server preview =
      ⟨Response.json 200 (tagsDocument tags), (app.previewTags server preview rules).notes⟩ := by
  rw [answerPreview, h]
  dsimp only
  rw [htags]

theorem isDetail_answerPreview (app : App) (server : Server) (preview : Preview) :
    ∀ note ∈ (app.answerPreview server preview).notes, note.IsDetail app.limits.maxTags := by
  unfold answerPreview
  cases app.previewRules preview with
  | error detail => exact List.forall_mem_nil _
  | ok rules =>
      obtain ⟨tags, htags⟩ := app.exists_tags_previewTags server preview rules
      dsimp only
      rw [htags]
      exact Body.notes_tag _ _ _ _ _ _

-- What a preview and the tagging of its answer note can be written with any checked settings.
theorem exists_write_serve_preview {settings : Settings} (hvalid : settings.Valid)
    {tracer : Tracer} (happ : ofSettings settings tracer = .ok app) (added : List Route)
    {request : Request} (hmethod : request.method = "POST") (hpath : request.path = "/preview")
    (hpreview : Preview.ofRequest server.nestingLimit request = .ok preview) (session : Session)
    (clock : Clock) :
    ∃ lines, session.write clock (app.serve server (app.routes server added) request).notes =
      .ok lines := by
  have hlimits : app.limits = settings.limits := (of_ofSettings happ).1
  have hbound : app.limits.maxTags.natAbs < 10 ^ digitLimit := by
    have hmaxTags := hvalid.maxTags
    rw [hlimits]
    exact natAbs_lt_of_bounds (by show -10000 ≤ settings.maxTags; omega) hmaxTags.2
  have hnotes : ∀ note ∈ (app.serve server (app.routes server added) request).notes,
      ∀ n ∈ note.numbers, n = app.limits.maxTags := by
    apply notes_serve
    · exact fun source error => List.forall_mem_nil _
    · exact fun note hnote => hnote.2
    · rw [app.answer_preview_of_ofRequest server added hmethod hpath hpreview]
      exact fun note hnote => (isDetail_answerPreview app server preview note hnote).2
  apply Session.exists_write
  intro note hnote _ n hn
  rw [hnotes note hnote n hn]
  exact hbound

-- A preview is answered with its tags, or with the reason why there are none: its rules are
-- no rules, or tagging of its direction is disabled. Tags that have no bytes crash it, which
-- those of a document without unpaired surrogates never do. A URL without a path that can be
-- read crashes it before it is looked at. All that is noted on the way can be written.
theorem received_serve_preview {settings : Settings} (hvalid : settings.Valid) {tracer : Tracer}
    (happ : ofSettings settings tracer = .ok app) (server : Server) (added : List Route)
    {request : Request} (hmethod : request.method = "POST") (hpath : request.path = "/preview")
    (hpreview : Preview.ofRequest server.nestingLimit request = .ok preview) :
    let exchange := app.serve server (app.routes server added) request
    let answer := exchange.outcome.map Response.received
    let page (status : Nat) (body : List UInt8) :=
      (Response.whole status [("content-type", "application/json")] body).received
    (∀ crash, server.target request = .error crash → answer = .error crash) ∧
    (∀ target, server.target request = .ok target →
      (∀ detail, app.previewRules preview = .error detail →
        ((∃ source fault, preview.rules = some source ∧ RuleSet.parse source = .error fault ∧
            detail = fault.message) ∨
          preview.rules = none ∧ app.rules preview.direction = none ∧
            detail = preview.direction.name ++ " payload tagging is disabled") ∧
        ∃ body, Response.document (.object [("detail", .text detail)]) = .ok body ∧
          answer = .ok (page 400 body)) ∧
      ∀ rules, app.previewRules preview = .ok rules →
        ∃ tags, (app.previewTags server preview rules).tags = .ok tags ∧
          (tags.WellFormed → ∃ body, Response.document (tagsDocument tags) = .ok body ∧
            answer = .ok (page 200 body)) ∧
          (¬tags.WellFormed → ∃ run, answer = .error (.surrogates run)) ∧
          ((∀ v, Body.decode server.nestingLimit (.text preview.body) = .ok v → v.WellFormed) →
            tags.WellFormed)) ∧
    ∀ (session : Session) (clock : Clock),
      ∃ lines, session.write clock exchange.notes = .ok lines := by
  intro exchange answer page
  refine ⟨fun crash hcrash => ?_, fun target htarget => ?_,
    exists_write_serve_preview hvalid happ added hmethod hpath hpreview⟩
  · have houtcome : exchange.outcome = .error crash := app.outcome_serve_of_error _ _ _ hcrash
    show exchange.outcome.map Response.received = _
    rw [houtcome]
    rfl
  · have hanswer : answer = (app.answerPreview server preview).outcome.map Response.received := by
      rw [← app.answer_preview_of_ofRequest server added hmethod hpath hpreview]
      exact app.received_serve_of_target server _ request htarget
    refine ⟨fun detail hdetail => ⟨app.previewRules_eq_error_iff.mp hdetail, ?_⟩,
      fun rules hrules => ?_⟩
    · obtain ⟨body, hbody, hhandled⟩ := answerPreview_of_error server hdetail
      refine ⟨body, hbody, ?_⟩
      rw [hanswer, hhandled]
      rfl
    · obtain ⟨tags, htags⟩ := app.exists_tags_previewTags server preview rules
      have hhandled := answerPreview_of_ok hrules htags
      refine ⟨tags, htags, fun hwell => ?_, fun hwell => ?_, fun hwell => ?_⟩
      · obtain ⟨body, hbody⟩ := Response.document_of_encodes (encodes_tagsDocument tags) hwell
        refine ⟨body, hbody, ?_⟩
        rw [hanswer, hhandled, Response.json_of_document 200 hbody]
        rfl
      · obtain ⟨run, hrun⟩ := Response.document_of_encodes_not (encodes_tagsDocument tags) hwell
        refine ⟨run, ?_⟩
        rw [hanswer, hhandled, Response.json_of_document_error 200 hrun]
        rfl
      · exact app.wellFormed_previewTags server hwell htags

-- A preview by rules of its own, of a text outside of ASCII.
theorem received_serve_preview_filter :
    let bytes (t : String) : List UInt8 := (Text.ofString t).flatMap Encoding.utf8Bytes
    let settings : Settings := ⟨none, some "*", 10, 758, .info⟩
    let app : App := ⟨none, some ⟨["*"], [[.wildcard]]⟩, ⟨10, 758⟩, .recording none⟩
    let request : Request := ⟨"POST", "/preview", [], [("content-type", "application/json")],
      [bytes ("\x7b\"body\": \"\x7b\\\"a\\\": \\\"\u00e9\\\", \\\"b\\\": 1\x7d\", " ++
        "\"filter\": \"a\"\x7d")]⟩
    let preview : Preview :=
      ⟨"\x7b\"a\": \"\u00e9\", \"b\": 1\x7d", some "application/json", .request, some "a"⟩
    let server : Server := .standard "http://localhost" ⟨1700000000125⟩ 990
    settings.Valid ∧ ofSettings settings (.recording none) = .ok app ∧
      Preview.ofRequest server.nestingLimit request = .ok preview ∧
      server.target request = .ok "/preview" ∧
      ∃ body, Response.document (tagsDocument [("http.payload.request.a", .text "\u00e9")]) =
          .ok body ∧
        (app.serve server (app.routes server []) request).outcome.map Response.received =
          .ok (Response.whole 200 [("content-type", "application/json")] body).received := by
  intro bytes settings app request preview server
  have hvalid : settings.Valid := by
    refine ⟨by decide, by decide, ?_⟩
    rintro source (hsource | hsource)
    · contradiction
    · obtain rfl := Option.some.inj hsource
      exact ⟨_, rfl⟩
  have happ : ofSettings settings (.recording none) = .ok app := rfl
  have htarget : server.target request = .ok "/preview" := by decide +kernel
  have hpreview : Preview.ofRequest server.nestingLimit request = .ok preview := by
    decide +kernel
  have hrules : app.previewRules preview = .ok ⟨["a"], [[.literal "a"]]⟩ := rfl
  have hrun : (app.previewTags server preview ⟨["a"], [[.literal "a"]]⟩).tags =
      .ok [("http.payload.request.a", .text "\u00e9")] := by
    decide +kernel
  obtain ⟨-, hserved, -⟩ := received_serve_preview hvalid happ server [] rfl rfl hpreview
  obtain ⟨tags, htags, hanswer, -⟩ := (hserved _ htarget).2 _ hrules
  obtain rfl := Except.ok.inj (hrun.symm.trans htags)
  exact ⟨hvalid, happ, hpreview, htarget, hanswer (by decide)⟩

-- An escape may write half of a surrogate pair, and the preview of it has no bytes.
theorem received_serve_preview_surrogate :
    let bytes (t : String) : List UInt8 := (Text.ofString t).flatMap Encoding.utf8Bytes
    let settings : Settings := ⟨none, none, 10, 758, .info⟩
    let app : App := ⟨none, none, ⟨10, 758⟩, .recording none⟩
    let request : Request := ⟨"POST", "/preview", [], [("content-type", "application/json")],
      [bytes "\x7b\"body\": \"\\\"\\\\ud800\\\"\", \"filter\": \"*\"\x7d"]⟩
    let server : Server := .standard "http://localhost" ⟨1700000000125⟩ 990
    ofSettings settings (.recording none) = .ok app ∧
      Preview.ofRequest server.nestingLimit request =
        .ok ⟨"\"\\ud800\"", some "application/json", .request, some "*"⟩ ∧
      (app.serve server (app.routes server []) request).outcome.map Response.received =
        .error (.surrogates ⟨⟨0xD800, by decide⟩, 33, 1⟩) := by
  intro bytes settings app request server
  exact ⟨rfl, by decide +kernel, by decide +kernel⟩

end App

end SpanTags
