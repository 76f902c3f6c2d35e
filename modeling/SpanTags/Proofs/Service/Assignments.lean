import SpanTags.Proofs.Span
import SpanTags.Proofs.Walk.TagSet
import SpanTags.Service.Exchange

namespace SpanTags

-- The attributes that tags are set as.
def Tag.attributes (tags : Tags) : List (Text × Scalar) :=
  tags.map fun tag => (tag.1, tag.2.scalar)

-- What is set of a request besides its tags.
def Request.attributes (request : Request) (target : Text) : List (Text × Scalar) :=
  [("http.method", .text request.method), ("http.target", .text target)]

namespace Tag

theorem map_fst_attributes (tags : Tags) : (attributes tags).map Prod.fst = tags.map Prod.fst := by
  rw [attributes, List.map_map]
  rfl

theorem mem_attributes_of_mem {tags : Tags} {tag : Text × TagValue} (h : tag ∈ tags) :
    (tag.1, tag.2.scalar) ∈ attributes tags :=
  List.mem_map_of_mem h

end Tag

theorem TagSet.settable {limits : Limits} {root : Text} {tags : Tags} (h : TagSet limits root tags)
    (hroot : root ≠ []) : ∀ pair ∈ Tag.attributes tags, Span.Settable pair := by
  intro pair hpair
  obtain ⟨tag, htag, rfl⟩ := List.mem_map.mp hpair
  refine ⟨h.name_ne_nil hroot tag htag, ?_⟩
  cases tag.2 with
  | text t => rfl
  | marker => rfl

namespace Visit

variable {visit : Visit} {limit : Option Nat}

-- A span that does not record loses nothing by being passed over.
theorem span_tag (source : Text) (tagging : Tagging Empty) :
    (visit.tag (.recording limit) source tagging).span =
      visit.span.setAll (Tag.attributes tagging.tagSet) := by
  unfold tag Tagging.tagSet
  cases tagging.tags with
  | error fault =>
      cases fault with
      | number fault => rfl
      | mask fault => exact fault.elim
  | ok tags =>
      by_cases hskip : (tags.isEmpty || !visit.span.isRecording) = true
      · simp only [Visit.note, hskip, if_true]
        rw [Bool.or_eq_true, List.isEmpty_iff, Bool.not_eq_true'] at hskip
        rcases hskip with rfl | hstill
        · rfl
        · rw [Span.setAll_of_not_recording hstill]
      · simp only [Visit.note, hskip, Bool.false_eq_true, if_false]
        rfl

theorem spans_close (h : visit.span.isRecording = true) (name : Text)
    (outcome : Except Crash Response) :
    (visit.close name outcome).spans = [(name, visit.span.finish)] :=
  if_pos h

end Visit

namespace App

variable (app : App) (server : Server)

-- The tags of a body; a direction without rules has none.
def messageSet (direction : Direction) (body : List UInt8) (headers : List (Text × Text)) : Tags :=
  match app.rules direction with
  | none => []
  | some rules => (app.messageTags server direction rules body headers).tagSet

-- The tags of a query, which is looked at if it has parameters.
def querySet (request : Request) : Tags :=
  match app.request with
  | none => []
  | some rules =>
    let params := Params.ofBytes request.query
    if params.isEmpty then [] else (app.queryTags rules params).tagSet

-- What is set before the routes are asked.
def arrivalAssignments (request : Request) (target : Text) : List (Text × Scalar) :=
  request.attributes target ++ Tag.attributes (app.querySet request) ++
    Tag.attributes (app.messageSet server .request request.body request.headers)

-- What is set for an answer; a crash sets nothing.
def answerAssignments : Except Crash Response → List (Text × Scalar)
  | .error _ => []
  | .ok response =>
    ("http.status_code", .int response.status) ::
      Tag.attributes (app.messageSet server .response response.body response.headers)

-- All that is set on the span of a request for such a path, in order.
def assignments (routes : List Route) (request : Request) (target : Text) :
    List (Text × Scalar) :=
  app.arrivalAssignments server request target ++
    app.answerAssignments server (Route.answer server routes request).outcome

section Sets

variable (request : Request)

theorem tagSet_messageSet (direction : Direction) (body : List UInt8)
    (headers : List (Text × Text)) :
    TagSet app.limits direction.root (app.messageSet server direction body headers) := by
  unfold messageSet
  cases app.rules direction with
  | none => exact .nil _ _
  | some rules => exact Body.tagSet_tag _ _ _ _ _ _

theorem tagSet_querySet : TagSet app.limits Tag.queryPath (app.querySet request) := by
  unfold querySet
  cases app.request with
  | none => exact .nil _ _
  | some rules =>
      dsimp only
      split
      · exact .nil _ _
      · exact Tagging.tagSet_ofValue _ _ _ _

theorem settable_messageSet (direction : Direction) (body : List UInt8)
    (headers : List (Text × Text)) :
    ∀ pair ∈ Tag.attributes (app.messageSet server direction body headers), Span.Settable pair :=
  (app.tagSet_messageSet server direction body headers).settable (by cases direction <;> decide)

theorem settable_assignments (routes : List Route) (target : Text) :
    ∀ pair ∈ app.assignments server routes request target, Span.Settable pair := by
  have hanswer : ∀ pair ∈
      app.answerAssignments server (Route.answer server routes request).outcome,
      Span.Settable pair := by
    cases (Route.answer server routes request).outcome with
    | error crash => exact List.forall_mem_nil _
    | ok response =>
        rw [answerAssignments, List.forall_mem_cons]
        exact ⟨⟨List.cons_ne_nil _ _, rfl⟩, app.settable_messageSet _ _ _ _⟩
  have hquery := (app.tagSet_querySet request).settable (by decide)
  rw [assignments, List.forall_mem_append]
  refine ⟨?_, hanswer⟩
  have hfixed : ∀ pair ∈ request.attributes target, Span.Settable pair := by
    rw [Request.attributes, List.forall_mem_cons, List.forall_mem_singleton]
    exact ⟨⟨List.cons_ne_nil _ _, rfl⟩, ⟨List.cons_ne_nil _ _, rfl⟩⟩
  rw [arrivalAssignments, List.forall_mem_append, List.forall_mem_append]
  exact ⟨⟨hfixed, hquery⟩, app.settable_messageSet _ _ _ _⟩

end Sets

section Serving

variable {app} {server} {limit : Option Nat} (routes : List Route) (request : Request)
  {target : Text}

theorem span_tagRequest (h : app.tracer = .recording limit) (visit : Visit) :
    (app.tagRequest server request visit).span =
      visit.span.setAll (Tag.attributes (app.querySet request) ++
        Tag.attributes (app.messageSet server .request request.body request.headers)) := by
  have hrules : app.rules .request = app.request := rfl
  unfold tagRequest tagQuery querySet messageSet
  rw [hrules, h]
  cases app.request with
  | none => rfl
  | some rules =>
      dsimp only
      rw [Visit.span_tag, Span.setAll_append]
      split
      · rfl
      · rw [Visit.span_tag]

theorem span_arrive (server : Server) (target : Text) (h : app.tracer = .recording limit) :
    (app.tagRequest server request (app.arrive request target)).span =
      (Span.start limit).setAll (app.arrivalAssignments server request target) := by
  have harrive : (app.arrive request target).span =
      (Span.start limit).setAll (request.attributes target) := by
    rw [arrive, h]
    rfl
  rw [span_tagRequest request h, harrive, arrivalAssignments, List.append_assoc,
    ← Span.setAll_append]

theorem span_tagResponse (server : Server) (h : app.tracer = .recording limit)
    (response : Response) (visit : Visit) :
    (app.tagResponse server response visit).2.span =
      visit.span.setAll (app.answerAssignments server (.ok response)) := by
  have hrules : app.rules .response = app.response := rfl
  unfold tagResponse answerAssignments messageSet
  rw [hrules, h]
  cases app.response with
  | none => rfl
  | some rules =>
      dsimp only
      rw [Visit.span_tag]
      rfl

-- The answer adds its own assignments to those that a visit has made.
theorem spans_respond (h : app.tracer = .recording limit) {visit : Visit}
    (hvisit : visit.span.isRecording = true) :
    (app.respond server routes request target visit).spans =
      [(request.method ++ " " ++ target, (visit.span.setAll
        (app.answerAssignments server (Route.answer server routes request).outcome)).finish)] := by
  unfold respond
  dsimp only
  cases (Route.answer server routes request).outcome with
  | error crash => exact Visit.spans_close hvisit _ (.error crash)
  | ok response =>
      have hspan := span_tagResponse server h response
        (visit.note (Route.answer server routes request).notes)
      have hrecording : (app.tagResponse server response
          (visit.note (Route.answer server routes request).notes)).2.span.isRecording = true := by
        rw [hspan, Span.isRecording_setAll]
        exact hvisit
      dsimp only
      rw [Visit.spans_close hrecording, hspan]
      rfl

-- A request has one span, and all that is set on it are the assignments.
theorem spans_serve (h : app.tracer = .recording limit)
    (htarget : server.target request = .ok target) :
    (app.serve server routes request).spans =
      [(request.method ++ " " ++ target,
        ((Span.start limit).setAll (app.assignments server routes request target)).finish)] := by
  have hspan := span_arrive request server target h
  have hrecording : (app.tagRequest server request (app.arrive request target)).span.isRecording =
      true := by
    rw [hspan, Span.isRecording_setAll]
    rfl
  rw [serve, htarget]
  dsimp only
  rw [spans_respond routes request h hrecording, hspan, assignments, Span.setAll_append]

theorem spans_serve_of_error {crash : Crash} (htarget : server.target request = .error crash) :
    (app.serve server routes request).spans = [] := by
  rw [serve, htarget]

-- Where there is a span, its path could be read.
theorem lookup_of_mem_spans (h : app.tracer = .recording limit)
    (hroom : ∀ target, server.target request = .ok target →
      Span.HasRoom limit (app.assignments server routes request target)) {name : Text}
    {span : Span} (hspan : (name, span) ∈ (app.serve server routes request).spans) :
    ∃ target, server.target request = .ok target ∧ ∀ key, span.attributes.lookup key =
      Span.latest? key (app.assignments server routes request target) := by
  cases htarget : server.target request with
  | error crash =>
      rw [spans_serve_of_error routes request htarget] at hspan
      contradiction
  | ok target =>
      rw [spans_serve routes request h htarget, List.mem_singleton, Prod.mk.injEq] at hspan
      obtain ⟨-, rfl⟩ := hspan
      refine ⟨target, rfl, fun key => ?_⟩
      exact (Span.holds_setAll_start (app.settable_assignments server request routes target)
        (hroom target htarget)).lookup key

end Serving

end App

end SpanTags
