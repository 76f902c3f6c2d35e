import SpanTags.Service.Exchange
import Mathlib.Data.List.Basic

namespace SpanTags

-- What a client gets of a response. Into how many pieces its body was cut does not show.
def Response.received (response : Response) : Nat × List (Text × Text) × List UInt8 :=
  (response.status, response.headers, response.body)

namespace App

variable (app : App) (server : Server) (routes : List Route) (request : Request)

@[simp] theorem received_tagResponse (response : Response) (visit : Visit) :
    (app.tagResponse server response visit).1.received = response.received := by
  unfold tagResponse
  split
  · rfl
  · simp [Response.received, Response.body]

theorem outcome_serve_of_error {crash : Crash} (h : server.target request = .error crash) :
    (app.serve server routes request).outcome = .error crash := by
  simp only [serve, h]

-- The answer is that of the routes, whatever becomes of the tags on the way.
theorem received_serve_of_target {target : Text} (h : server.target request = .ok target) :
    (app.serve server routes request).outcome.map Response.received =
      (Route.answer server routes request).outcome.map Response.received := by
  simp only [serve, h, respond]
  cases houtcome : (Route.answer server routes request).outcome with
  | error crash => rfl
  | ok response =>
      simp only [Visit.close, Except.map]
      rw [received_tagResponse]

-- No client can tell from an answer which directions are tagged, by what rules, or whether
-- the tags could be set: it gets the status, the headers in their order and the body that the
-- route gave, and the same crash if the route crashed. Only the path of the URL has to be
-- readable, whatever the server makes of its host and its query, before any route is asked.
theorem received_serve (other : App) :
    (app.serve server routes request).outcome.map Response.received =
        (other.serve server routes request).outcome.map Response.received ∧
      (∀ target, server.target request = .ok target →
        (app.serve server routes request).outcome.map Response.received =
          (Route.answer server routes request).outcome.map Response.received) ∧
      ∀ crash, server.target request = .error crash →
        (app.serve server routes request).outcome = .error crash := by
  refine ⟨?_, fun _ h => app.received_serve_of_target server routes request h,
    fun _ h => app.outcome_serve_of_error server routes request h⟩
  cases h : server.target request with
  | error crash =>
      rw [app.outcome_serve_of_error server routes request h,
        other.outcome_serve_of_error server routes request h]
  | ok target =>
      rw [app.received_serve_of_target server routes request h,
        other.received_serve_of_target server routes request h]

end App

-- The spans of this tracer take no tags.
def Tracer.refusing : Tracer :=
  ⟨.start none, fun _ tags => .error ("span refused " ++ Text.ofNat tags.length ++ " tags")⟩

namespace App

-- A span that refuses the tags of the query, of a body sent in two pieces, and of a
-- streamed answer with a repeated header.
theorem received_serve_refused :
    let bytes (t : String) : List UInt8 := (Text.ofString t).flatMap Encoding.utf8Bytes
    let rules : RuleSet := ⟨["*"], [[.wildcard]]⟩
    let app : App := ⟨some rules, some rules, ⟨10, 758⟩, .refusing⟩
    let headers : List (Text × Text) :=
      [("set-cookie", "one=1"), ("set-cookie", "two=2"), ("content-type", "application/json")]
    let route : Route := ⟨"/stream", ["POST"], fun _ =>
      .silently (.ok (.streamed 201 headers [bytes "[1,", [], bytes "2]"]))⟩
    let request : Request := ⟨"POST", "/stream", bytes "q=1",
      [("host", "[::1]:8000"), ("content-type", "application/json")],
      [bytes "\x7b\"a\":", bytes " 1\x7d"]⟩
    let server : Server := .standard "http://localhost" ⟨1700000000125⟩ 990
    RuleSet.parse "*" = .ok rules ∧ server.target request = .ok "/stream" ∧
      (app.serve server [route] request).outcome.map Response.received =
        .ok (201, headers, bytes "[1,2]") ∧
      (app.serve server [route] request).notes.map (fun note => (note.title, note.details.length)) =
        ([("payload_tagging_failed", 2), ("payload_tagging_failed", 2),
          ("payload_tagging_failed", 2)] : List (Text × Nat)) := by
  intro bytes rules app headers route request server
  have htarget : server.target request = .ok "/stream" := by decide +kernel
  obtain ⟨-, hreceived, -⟩ := received_serve app server [route] request app
  have hanswer : (Route.answer server [route] request).outcome.map Response.received =
      .ok (201, headers, bytes "[1,2]") := by
    decide +kernel
  exact ⟨rfl, htarget, (hreceived _ htarget).trans hanswer, by decide +kernel⟩

-- A byte of the query that is no text keeps the route from being asked, tagging or not, and so
-- does a bracket in the place of a host.
theorem received_serve_unreadable_url :
    let app : App := ⟨none, none, ⟨10, 758⟩, .recording none⟩
    let route : Route := ⟨"/echo", ["GET"], fun request =>
      .silently (.ok (.whole 200 [] request.body))⟩
    let bytes : Request := ⟨"GET", "/echo", [0x78, 0x3D, 0xFF], [], []⟩
    let bracket : Request := ⟨"GET", "/echo", [], [("host", "[")], []⟩
    let server : Server := .standard "http://localhost" ⟨1700000000125⟩ 990
    (∀ request ∈ [bytes, bracket],
        (Route.answer server [route] request).outcome.map Response.received =
          .ok (200, [("content-length", "0")], [])) ∧
      (app.serve server [route] bytes).outcome.map Response.received =
        .error (.undecodable ⟨.utf8, 2, 1, 0xFF, .invalidStart⟩) ∧
      (app.serve server [route] bracket).outcome.map Response.received =
        .error (.malformed .bracket) := by
  intro app route bytes bracket server
  have hbytes : (Route.answer server [route] bytes).outcome.map Response.received =
      .ok (200, [("content-length", "0")], []) := by
    decide +kernel
  have hbracket : (Route.answer server [route] bracket).outcome.map Response.received =
      .ok (200, [("content-length", "0")], []) := by
    decide +kernel
  exact ⟨List.forall_mem_cons.mpr ⟨hbytes, List.forall_mem_singleton.mpr hbracket⟩,
    by decide +kernel, by decide +kernel⟩

end App

end SpanTags
