import SpanTags.Proofs.Service.Transparency
import Mathlib.Data.List.TakeDrop

namespace SpanTags

namespace Url

-- A host without signs that divide a URL or enclose an address.
def IsPlainHost (host : Text) : Prop :=
  ∀ c ∈ host, c ∉ ("/?#[]\t\r\n" : Text) ∧ c.val ∉ delimiters

def IsPlainPath (path : Text) : Prop :=
  path.head? = some ('/' : CodePoint) ∧ ∀ c ∈ path, c ∉ ("?#\t\r\n" : Text)

variable {host path asked : Text}

theorem IsPlainHost.notMem (hhost : IsPlainHost host) {signs : Text}
    (hsigns : signs ⊆ ("/?#[]\t\r\n" : Text)) : ∀ c ∈ host, c ∉ signs :=
  fun c hc hsign => (hhost c hc).1 (hsigns hsign)

theorem IsPlainPath.notMem (hpath : IsPlainPath path) {signs : Text}
    (hsigns : signs ⊆ ("?#\t\r\n" : Text)) : ∀ c ∈ path, c ∉ signs :=
  fun c hc hsign => hpath.2 c hc (hsigns hsign)

theorem span_append {p : CodePoint → Bool} {t rest : Text} (ht : ∀ c ∈ t, p c = true)
    (hrest : ∀ c, rest.head? = some c → p c = false) : (t ++ rest).span p = (t, rest) := by
  rw [List.span_eq_takeWhile_dropWhile, List.takeWhile_append_of_pos ht,
    List.dropWhile_append_of_pos ht]
  cases rest with
  | nil => simp
  | cons c rest => simp [hrest c rfl]

theorem clean_http (hhost : IsPlainHost host) (hpath : IsPlainPath path) :
    clean ("http://" ++ (host ++ (path ++ asked))) =
      "http://" ++ (host ++ (path ++ asked.filter fun c => c ∉ ("\t\r\n" : Text))) := by
  have htrim : Text.trimLeft (·.val ≤ 0x20) ("http://" ++ (host ++ (path ++ asked))) =
      "http://" ++ (host ++ (path ++ asked)) := rfl
  have hkept {t : Text} (h : ∀ c ∈ t, c ∉ ("\t\r\n" : Text)) :
      t.filter (fun c => c ∉ ("\t\r\n" : Text)) = t :=
    List.filter_eq_self.mpr fun c hc => decide_eq_true (h c hc)
  rw [clean, htrim, List.filter_append, List.filter_append, List.filter_append,
    hkept (hhost.notMem (by decide)), hkept (hpath.notMem (by decide))]
  rfl

theorem afterScheme_http (rest : Text) : afterScheme ("http://" ++ rest) = "//" ++ rest := by
  have hscheme : List.takeWhile (fun c : CodePoint => c ≠ ':') ("http://" ++ rest) =
      ("http" : Text) := rfl
  have hlength : ("http" : Text).length < (Text.ofString "http://" ++ rest).length := by
    rw [List.length_append]
    exact Nat.lt_add_right _ (by decide)
  unfold afterScheme
  dsimp only
  rw [hscheme, if_pos (by rw [decide_eq_true hlength]; rfl)]
  rfl

theorem checkAuthority_of_isPlainHost (hhost : IsPlainHost host) :
    checkAuthority host = .ok () := by
  have hopened : host.contains ('[' : CodePoint) = false := by
    rw [List.contains_eq_mem, decide_eq_false_iff_not]
    exact fun h => (hhost _ h).1 (by decide)
  have hclosed : host.contains (']' : CodePoint) = false := by
    rw [List.contains_eq_mem, decide_eq_false_iff_not]
    exact fun h => (hhost _ h).1 (by decide)
  have hdelimiters : host.any (·.val ∈ delimiters) = false := by
    rw [List.any_eq_false]
    exact fun c hc => mt of_decide_eq_true (hhost c hc).2
  simp only [checkAuthority, hopened, hclosed, hdelimiters]
  rfl

theorem splitAuthority_slashes {rest : Text} (hhost : IsPlainHost host)
    (hrest : ∀ c, rest.head? = some c → c ∈ ("/?#" : Text)) :
    splitAuthority (Text.ofString "//" ++ (host ++ rest)) = (host, rest) := by
  have hslashes : ("//" : Text).isPrefixOf (Text.ofString "//" ++ (host ++ rest)) = true := rfl
  have hdrop : List.drop 2 (Text.ofString "//" ++ (host ++ rest)) = host ++ rest := rfl
  rw [splitAuthority, if_pos hslashes, hdrop]
  exact span_append (fun c hc => decide_eq_true (hhost.notMem (by decide) c hc))
    fun c hc => decide_eq_false (not_not_intro (hrest c hc))

-- Of a URL with a plain host the path is what stands before the query.
theorem path_http (hhost : IsPlainHost host) (hpath : IsPlainPath path)
    (hasked : ∀ c, asked.head? = some c → c = '?') :
    Url.path ("http://" ++ (host ++ (path ++ asked))) = .ok path := by
  have hstart : ∀ c, (asked.filter fun c => c ∉ ("\t\r\n" : Text)).head? = some c →
      c ∈ ("?#" : Text) := by
    cases asked with
    | nil => exact fun c hc => nomatch hc
    | cons d rest =>
        obtain rfl := hasked d rfl
        rintro c hc
        obtain rfl := Option.some.inj hc
        decide
  have hrest : ∀ c, (path ++ asked.filter fun c => c ∉ ("\t\r\n" : Text)).head? = some c →
      c ∈ ("/?#" : Text) := by
    rw [List.head?_append, hpath.1]
    rintro c hc
    obtain rfl := Option.some.inj hc
    decide
  have hshown := span_append (p := fun c => c ∉ ("?#" : Text))
    (fun c hc => decide_eq_true (hpath.notMem (by decide) c hc))
    fun c hc => decide_eq_false (not_not_intro (hstart c hc))
  rw [List.span_eq_takeWhile_dropWhile] at hshown
  rw [Url.path, clean_http hhost hpath, afterScheme_http, splitAuthority_slashes hhost hrest]
  simp only [checkAuthority_of_isPlainHost hhost]
  exact congrArg (Except.ok ·.1) hshown

end Url

-- A query that is text and a plain host cannot keep a server from reading the path.
theorem Server.target_standard {origin host query : Text} (time : Time) (nestingLimit : Nat)
    {request : Request} (horigin : origin = "http://" ++ host)
    (hhost : Url.IsPlainHost ((request.headers.lookup ("host" : Text)).getD host))
    (hpath : Url.IsPlainPath request.path)
    (hquery : Encoding.decode .utf8 .strict request.query = .ok query) :
    (standard origin time nestingLimit).target request = .ok request.path := by
  let asked : Text := if query.isEmpty then [] else ('?' : CodePoint) :: query
  have hasked : ∀ c, asked.head? = some c → c = '?' := by
    intro c hc
    cases query with
    | nil => cases hc
    | cons d rest => exact (Option.some.inj hc).symm
  have hurl : request.url origin = .ok ("http://" ++
      ((request.headers.lookup ("host" : Text)).getD host ++ (request.path ++ asked))) := by
    rw [Request.url, hquery, horigin]
    cases request.headers.lookup ("host" : Text) with
    | none => simp [bind, Except.bind, pure, Except.pure, asked]
    | some named => simp [bind, Except.bind, pure, Except.pure, asked]
  have htarget : (standard origin time nestingLimit).target request =
      (Url.path ("http://" ++ ((request.headers.lookup ("host" : Text)).getD host ++
        (request.path ++ asked)))).mapError Crash.malformed := by
    simp only [target, standard, hurl]
    rfl
  rw [htarget, Url.path_http hhost hpath hasked]
  rfl

-- So such a request is answered by the routes, whatever becomes of its tags.
theorem App.received_serve_standard (app : App) {origin host query : Text} (time : Time)
    (nestingLimit : Nat) (routes : List Route) {request : Request}
    (horigin : origin = "http://" ++ host)
    (hhost : Url.IsPlainHost ((request.headers.lookup ("host" : Text)).getD host))
    (hpath : Url.IsPlainPath request.path)
    (hquery : Encoding.decode .utf8 .strict request.query = .ok query) :
    let server := Server.standard origin time nestingLimit
    (app.serve server routes request).outcome.map Response.received =
      (Route.answer server routes request).outcome.map Response.received :=
  app.received_serve_of_target _ routes request
    (Server.target_standard time nestingLimit horigin hhost hpath hquery)

end SpanTags
