import SpanTags.Proofs.Service.Assignments
import SpanTags.Proofs.Walk.Inclusion

namespace SpanTags

-- The span has each of the tags with its value.
def Span.Shows (span : Span) (tags : Tags) : Prop :=
  ∀ tag ∈ tags, span.attributes.lookup tag.1 = some tag.2.scalar

instance (span : Span) (tags : Tags) : Decidable (span.Shows tags) :=
  inferInstanceAs (Decidable (∀ tag ∈ tags, _))

theorem TagSet.latest?_attributes {limits : Limits} {root : Text} {tags : Tags}
    (h : TagSet limits root tags) {tag : Text × TagValue} (htag : tag ∈ tags) :
    Span.latest? tag.1 (Tag.attributes tags) = some tag.2.scalar :=
  Span.latest?_of_mem (by rw [Tag.map_fst_attributes]; exact h.nodup)
    (Tag.mem_attributes_of_mem htag)

-- Only a member under the key `query` has its tags where those of a query are.
theorem Body.exists_query_of_mem_tagSet {ε : Type} {mask : Mask ε} (hmask : mask.Total)
    {nestingLimit : Nat} {limits : Limits} {body contentType : Value} {tag : Text × TagValue}
    (htag : tag ∈ (Body.tag nestingLimit mask limits Tag.requestPath body contentType).tagSet)
    (hmarker : tag.2 ≠ .marker) {keys : List Text} (hpath : tag.1 = Tag.path Tag.queryPath keys) :
    ∃ v child, decode nestingLimit body = .ok v ∧ (("query" : Text), child) ∈ v.children := by
  unfold Body.tag at htag
  split at htag
  · split at htag
    · rename_i v hbody
      have hv : v.Plain := (Json.decoded_of_readBody hbody).plain
      rcases Tagging.tagSet_eq_nil_or (Tagging.ofValue mask limits Tag.requestPath v)
        with hnil | hset
      · rw [hnil] at htag
        contradiction
      · rw [hset] at htag
        obtain ⟨node, hn, hnode⟩ := Walk.exists_place_of_mem_tags hmask hv htag hmarker
        rw [hpath, Tag.path_queryPath] at hnode
        have hkeys : node.keys.head? = some ("query" : Text) :=
          Tag.head?_eq_of_path_eq (by decide) (by decide) hnode.symm
        rw [Node.keys, List.head?_map, Option.map_eq_some_iff] at hkeys
        obtain ⟨entry, hentry, hname⟩ := hkeys
        have hn : node ∈ v.nodes := (Walk.places_sublist mask limits v).subset hn
        exact ⟨v, entry.2, hbody, hname ▸ hv.mem_children_of_head?_way hn hentry⟩
    · contradiction
  · contradiction

namespace App

variable {app : App} {server : Server} {limit : Option Nat} (routes : List Route)
  (request : Request)

-- What is set for an answer does not touch the tags of the request, nor those of its query.
theorem answerAssignments_agree {limits : Limits} {root : Text} {tags : Tags}
    (h : TagSet limits root tags) (hresponse : Tag.Unrelated root Tag.responsePath)
    (hmarker : Tag.Unrelated root Tag.trimmedName) (hstatus : Tag.Unrelated root "http.status_code")
    (outcome : Except Crash Response) :
    ∀ tag ∈ tags, ∀ pair ∈ app.answerAssignments server outcome, pair.1 = tag.1 →
      pair.2 = tag.2.scalar := by
  intro tag htag pair hpair hname
  cases outcome with
  | error crash => contradiction
  | ok response =>
      rcases List.mem_cons.mp hpair with rfl | hpair
      · rcases h.below tag htag with rfl | ⟨keys, text, rfl⟩
        · have hne : ("http.status_code" : Text) ≠ Tag.trimmedName := by decide
          exact absurd hname hne
        · exact absurd hname.symm (hstatus.ne (Tag.prefix_path root keys) (List.prefix_refl _))
      · obtain ⟨tag', htag', rfl⟩ := List.mem_map.mp hpair
        have hset := app.tagSet_messageSet server .response response.body response.headers
        rw [h.agree hset hresponse hmarker (by decide) tag htag tag' htag' hname]

-- The markers agree, so two tags of one name that do not are below the query's root.
theorem exists_query_of_conflict {tag other : Text × TagValue} (htag : tag ∈ app.querySet request)
    (hother : other ∈ app.messageSet server .request request.body request.headers)
    (hname : other.1 = tag.1) (hvalue : other.2 ≠ tag.2) :
    ∃ v child, Body.decode server.nestingLimit (.text (Encoding.decodeLossy request.body)) = .ok v ∧
      (("query" : Text), child) ∈ v.children := by
  have hquery : Tag.Unrelated Tag.queryPath Tag.trimmedName := by decide
  have hrequest : Tag.Unrelated Tag.requestPath Tag.trimmedName := by decide
  rcases (app.tagSet_querySet request).below tag htag with rfl | ⟨keys, text, rfl⟩
  · rcases (app.tagSet_messageSet _ _ _ _).below other hother with rfl | ⟨keys, text, rfl⟩
    · contradiction
    · exact absurd hname (hrequest.ne (Tag.prefix_path _ keys) (List.prefix_refl _))
  · have hmarker : other.2 ≠ .marker := by
      rcases (app.tagSet_messageSet _ _ _ _).below other hother with rfl | ⟨keys', text', rfl⟩
      · exact absurd hname.symm (hquery.ne (Tag.prefix_path _ keys) (List.prefix_refl _))
      · exact nofun
    unfold messageSet at hother
    split at hother
    · contradiction
    · exact Body.exists_query_of_mem_tagSet (RuleSet.mask_total _) hother hmarker hname

section Latest

variable {target : Text} {tag : Text × TagValue}

theorem latest?_arrivalAssignments_message
    (htag : tag ∈ app.messageSet server .request request.body request.headers) :
    Span.latest? tag.1 (app.arrivalAssignments server request target) = some tag.2.scalar := by
  rw [arrivalAssignments, Span.latest?_append,
    (app.tagSet_messageSet _ _ _ _).latest?_attributes htag, Option.some_or]

-- What a body leaves of the query's tags.
theorem latest?_arrivalAssignments_query (htag : tag ∈ app.querySet request)
    (hfree : ∀ other ∈ app.messageSet server .request request.body request.headers,
      other.1 = tag.1 → other.2 = tag.2) :
    Span.latest? tag.1 (app.arrivalAssignments server request target) = some tag.2.scalar := by
  have hquery := (app.tagSet_querySet request).latest?_attributes htag
  refine Span.latest?_append_of_agree ?_ (by rw [Span.latest?_append, hquery, Option.some_or])
  intro pair hpair hname
  obtain ⟨other, hother, rfl⟩ := List.mem_map.mp hpair
  rw [hfree other hother hname]

end Latest

-- The tags of a body and of a response keep their values whatever is set beside them. A tag
-- of the query gives way to the body's if the two have one name, which takes a document with a
-- member `query`.
theorem shows_serve (h : app.tracer = .recording limit)
    (hroom : ∀ target, server.target request = .ok target →
      Span.HasRoom limit (app.assignments server routes request target)) :
    (∀ target, server.target request = .ok target →
      (app.serve server routes request).spans.length = 1) ∧
    ∀ name span, (name, span) ∈ (app.serve server routes request).spans →
      span.Shows (app.messageSet server .request request.body request.headers) ∧
      (∀ response, (Route.answer server routes request).outcome = .ok response →
        span.Shows (app.messageSet server .response response.body response.headers)) ∧
      ∀ tag ∈ app.querySet request, span.attributes.lookup tag.1 = some tag.2.scalar ∨
        (∃ other ∈ app.messageSet server .request request.body request.headers,
          other.1 = tag.1 ∧ other.2 ≠ tag.2) ∧
          ∃ v child, Body.decode server.nestingLimit
              (.text (Encoding.decodeLossy request.body)) = .ok v ∧
            (("query" : Text), child) ∈ v.children := by
  refine ⟨fun target htarget => by rw [spans_serve routes request h htarget]; rfl, ?_⟩
  intro name span hspan
  obtain ⟨target, -, hlookup⟩ := lookup_of_mem_spans routes request h hroom hspan
  have hmessage := app.tagSet_messageSet server .request request.body request.headers
  have hquery := app.tagSet_querySet request
  refine ⟨fun tag htag => ?_, fun response hresponse tag htag => ?_, fun tag htag => ?_⟩
  · rw [hlookup]
    exact Span.latest?_append_of_agree
      (answerAssignments_agree hmessage (by decide) (by decide) (by decide) _ tag htag)
      (latest?_arrivalAssignments_message request htag)
  · rw [hlookup, assignments, hresponse, answerAssignments, Span.latest?_append,
      ← List.singleton_append, Span.latest?_append,
      (app.tagSet_messageSet _ _ _ _).latest?_attributes htag, Option.some_or, Option.some_or]
  · by_cases hfree : ∀ other ∈ app.messageSet server .request request.body request.headers,
        other.1 = tag.1 → other.2 = tag.2
    · refine .inl ?_
      rw [hlookup]
      exact Span.latest?_append_of_agree
        (answerAssignments_agree hquery (by decide) (by decide) (by decide) _ tag htag)
        (latest?_arrivalAssignments_query request htag hfree)
    · simp only [not_forall] at hfree
      obtain ⟨other, hother, hname, hvalue⟩ := hfree
      refine .inr ⟨⟨other, hother, hname, hvalue⟩, ?_⟩
      exact exists_query_of_conflict request htag hother hname hvalue

-- A document with a member `query` that takes the name of one parameter and not of the other.
theorem shows_serve_member_query :
    let bytes (t : String) : List UInt8 := (Text.ofString t).flatMap Encoding.utf8Bytes
    let rules : RuleSet := ⟨["*"], [[.wildcard]]⟩
    let app : App := ⟨some rules, some rules, ⟨10, 758⟩, .recording (some 2306)⟩
    let headers : List (Text × Text) := [("content-type", "application/json")]
    let route : Route := ⟨"/echo", ["POST"], fun request =>
      .silently (.ok (.whole 200 headers request.body))⟩
    let request : Request := ⟨"POST", "/echo", bytes "a=1&b=x", headers,
      [bytes "\x7b\"query\": \x7b\"b\": \"y\"\x7d, \"c\": [true]\x7d"]⟩
    let server : Server := .standard "http://localhost" ⟨1700000000125⟩ 990
    RuleSet.parse "*" = .ok rules ∧ server.target request = .ok "/echo" ∧
      Span.HasRoom (some 2306) (app.assignments server [route] request "/echo") ∧
      app.querySet request = ([("http.payload.request.query.a", .text "1"),
        ("http.payload.request.query.b", .text "x")] : Tags) ∧
      ∃ name span, (app.serve server [route] request).spans = [(name, span)] ∧
        span.Shows [("http.payload.request.query.a", .text "1")] ∧
        span.Shows [("http.payload.request.query.b", .text "y"),
          ("http.payload.request.c.0", .text "true")] ∧
        span.Shows [("http.payload.response.query.b", .text "y"),
          ("http.payload.response.c.0", .text "true")] := by
  intro bytes rules app headers route request server
  have htarget : server.target request = .ok "/echo" := by decide +kernel
  have hroom : Span.HasRoom (some 2306) (app.assignments server [route] request "/echo") := by
    decide +kernel
  have hquery : app.querySet request = ([("http.payload.request.query.a", .text "1"),
      ("http.payload.request.query.b", .text "x")] : Tags) := by
    decide +kernel
  have hmessage : app.messageSet server .request request.body request.headers =
      ([("http.payload.request.query.b", .text "y"),
        ("http.payload.request.c.0", .text "true")] : Tags) := by
    decide +kernel
  have hanswer : app.messageSet server .response (Response.whole 200 headers request.body).body
      (Response.whole 200 headers request.body).headers =
        ([("http.payload.response.query.b", .text "y"),
          ("http.payload.response.c.0", .text "true")] : Tags) := by
    decide +kernel
  have hfree : ∀ other ∈ app.messageSet server .request request.body request.headers,
      other.1 ≠ "http.payload.request.query.a" := by
    rw [hmessage]
    decide
  obtain ⟨hone, hspans⟩ := shows_serve [route] request rfl
    fun target h => Except.ok.inj (htarget.symm.trans h) ▸ hroom
  obtain ⟨⟨name, span⟩, hspan⟩ := List.length_eq_one_iff.mp (hone _ htarget)
  obtain ⟨hbody, hresponse, hparams⟩ := hspans name span (hspan ▸ List.mem_singleton_self _)
  have hparam := (hparams _ (hquery ▸ List.mem_cons_self)).resolve_right
    fun ⟨⟨other, hother, hname, _⟩, _⟩ => hfree other hother hname
  exact ⟨rfl, htarget, hroom, hquery, name, span, hspan, List.forall_mem_singleton.mpr hparam,
    hmessage ▸ hbody, hanswer ▸ hresponse _ rfl⟩

-- The body's tag takes the place of the parameter's.
theorem shows_serve_overwritten :
    let bytes (t : String) : List UInt8 := (Text.ofString t).flatMap Encoding.utf8Bytes
    let rules : RuleSet := ⟨["*"], [[.wildcard]]⟩
    let app : App := ⟨some rules, none, ⟨10, 758⟩, .recording (some 2306)⟩
    let headers : List (Text × Text) := [("content-type", "application/json")]
    let route : Route := ⟨"/echo", ["POST"], fun request =>
      .silently (.ok (.whole 200 headers request.body))⟩
    let request : Request := ⟨"POST", "/echo", bytes "a=1", headers,
      [bytes "\x7b\"query\": \x7b\"a\": 2\x7d\x7d"]⟩
    let server : Server := .standard "http://localhost" ⟨1700000000125⟩ 990
    RuleSet.parse "*" = .ok rules ∧ server.target request = .ok "/echo" ∧
      Span.HasRoom (some 2306) (app.assignments server [route] request "/echo") ∧
      app.querySet request = ([("http.payload.request.query.a", .text "1")] : Tags) ∧
      app.messageSet server .request request.body request.headers =
        ([("http.payload.request.query.a", .text "2")] : Tags) ∧
      (app.serve server [route] request).spans.map (fun named =>
        named.2.attributes.lookup ("http.payload.request.query.a" : Text)) =
          [some (.text "2")] := by
  intro bytes rules app headers route request server
  exact ⟨rfl, by decide +kernel, by decide +kernel, by decide +kernel, by decide +kernel,
    by decide +kernel⟩

end App

end SpanTags
