import CoroHttp.Response

/-!
# Redirect traversal

`HttpClient::execute_with_redirects` (`http_client.hpp:44-82`) and
`CoroHttpClient::co_execute_with_redirects` (`coro_http_client.hpp:45-83`) are the same
function but for `co_await`: parse the URL, run one exchange (`execute_https` or
`execute_http`), and on a 3xx with a nonempty `Location` while `redirect_count <
max_redirects`, record the `Location` in the response, build a `GET` for it carrying the
request's headers, recurse with `redirect_count + 1`, and append the recorded chain to the
deeper response's. Here it is one function of the exchange `hop`; it also returns the
requests it ran an exchange for, in order. A `Location` lookup that reaches undefined
behaviour (`std::tolower` on a negative `char`, see `toLowerC`) ends the run in
`HttpError.undefinedBehaviour`.

`http_request.hpp`, `url_parser.hpp` and `client_config.hpp` are not in the sources. Their
types are modelled from the spec, with the fields the traversal reads; `parse_url` is a
parameter.
-/

namespace CoroHttp

/-- `HttpMethod`. -/
inductive HttpMethod
  | GET | POST | PUT | DELETE | HEAD | PATCH | OPTIONS
  deriving DecidableEq, Repr

/-- Modelled from the spec: `HttpRequest` (`http_request.hpp`): a method, an absolute URL,
headers in a `std::map` like `HttpResponse`'s, and a body. -/
structure HttpRequest where
  method : HttpMethod
  url : List Char
  headers : StdMap (List Char)
  body : List Char

/-- Modelled from the spec: `HttpRequest(method, url)`, with no header and no body. -/
def HttpRequest.make (method : HttpMethod) (url : List Char) : HttpRequest :=
  ⟨method, url, .empty, []⟩

/-- Modelled from the spec: `HttpRequest::add_header(key, value)`. -/
def HttpRequest.addHeader (r : HttpRequest) (key value : List Char) : HttpRequest :=
  { r with headers := r.headers.insert key value }

/-- Modelled from the spec: the fields of `UrlInfo` (`url_parser.hpp`) the traversal reads. -/
structure UrlInfo where
  scheme : List Char
  host : List Char
  port : List Char
  isHttps : Bool

/-- Modelled from the spec: the fields of `ClientConfig` (`client_config.hpp`) the traversal
reads; `max_redirects` is a signed `int`. -/
structure ClientConfig where
  followRedirects : Bool
  maxRedirects : Int

/-- An `asio` error code, as the executors tell them apart. -/
inductive ErrorCode
  /-- `asio::error::eof`. -/
  | eof
  /-- `asio::ssl::error::stream_truncated`. -/
  | streamTruncated
  /-- `asio::error::operation_aborted`. -/
  | operationAborted
  /-- Any other error. -/
  | other (code : Nat)
  deriving DecidableEq, Repr

/-- An exception an executor lets out. -/
inductive HttpError
  /-- `std::runtime_error(what)`. -/
  | runtimeError (what : List Char)
  /-- `std::system_error(ec)`. -/
  | systemError (ec : ErrorCode)
  /-- An exception of `parse_url` or `parse_response`, which are not in the sources. -/
  | parseError (what : List Char)
  /-- Not an exception: the run reached a call with undefined behaviour (`std::tolower` on a
  negative `char` in `get_header`), after which it has no defined outcome. -/
  | undefinedBehaviour
  deriving DecidableEq, Repr

/-- A path-only `Location` resolved against the current origin, the port written only when
it is not the scheme's default (`http_client.hpp:62-66`). -/
def resolveLocation (urlInfo : UrlInfo) (location : List Char) : List Char :=
  if location.head? = some '/' then
    urlInfo.scheme ++ "://".toList ++ urlInfo.host ++
      (if urlInfo.port ≠ (if urlInfo.isHttps then "443".toList else "80".toList) then
        ':' :: urlInfo.port else []) ++ location
  else location

/-- The follow-up request: a `GET` for `location` carrying `request`'s headers
(`http_client.hpp:68-71`). -/
def redirectRequest (request : HttpRequest) (location : List Char) : HttpRequest :=
  request.headers.entries.foldl (fun r e => r.addHeader e.1 e.2) (.make .GET location)

theorem HttpRequest.foldl_addHeader (es : List (List Char × List Char)) (r : HttpRequest) :
    es.foldl (fun r e => r.addHeader e.1 e.2) r = { r with headers := r.headers.insertAll es } := by
  induction es generalizing r with
  | nil => rfl
  | cons e es ih => exact ih (r.addHeader e.1 e.2)

/-- Copying the headers one by one in the map's order rebuilds the same map: the follow-up
request is a `GET` with the request's headers and no body. -/
theorem redirectRequest_eq (request : HttpRequest) (location : List Char) :
    redirectRequest request location = ⟨.GET, location, request.headers, []⟩ := by
  rw [redirectRequest, HttpRequest.foldl_addHeader]
  exact congrArg (HttpRequest.mk _ _ · _) (StdMap.empty_insertAll_entries _)

/-- Whether a response is followed: redirects on, budget left, status in `[300, 400)`
(`http_client.hpp:54-56`). -/
def Follows (config : ClientConfig) (redirectCount : Int) (response : HttpResponse) : Prop :=
  config.followRedirects ∧ redirectCount < config.maxRedirects ∧
    300 ≤ response.statusCode ∧ response.statusCode < 400

instance (config : ClientConfig) (redirectCount : Int) (response : HttpResponse) :
    Decidable (Follows config redirectCount response) :=
  inferInstanceAs (Decidable (_ ∧ _))

/-- A redirect the traversal would follow with budget left: a status in `[300, 400)` and a
`Location` that is defined and nonempty. -/
def IsRedirect (response : HttpResponse) : Prop :=
  300 ≤ response.statusCode ∧ response.statusCode < 400 ∧
    ∃ location ∈ response.getHeader "Location".toList, location ≠ []

instance (response : HttpResponse) : Decidable (IsRedirect response) :=
  inferInstanceAs (Decidable (_ ∧ _ ∧ _))

theorem IsRedirect.foldl_addRedirect {r : HttpResponse} (h : IsRedirect r)
    (urls : List (List Char)) : IsRedirect (urls.foldl HttpResponse.addRedirect r) := by
  rw [CoroHttp.foldl_addRedirect]
  exact h

/-- Two outcomes agree: the same response, or both an exception (not necessarily the same
one). -/
def Agree : Except HttpError HttpResponse → Except HttpError HttpResponse → Prop
  | .ok a, .ok b => a = b
  | .error _, .error _ => True
  | _, _ => False

@[simp] theorem agree_ok {a : HttpResponse} {b : Except HttpError HttpResponse} :
    Agree (.ok a) b ↔ b = .ok a := by
  cases b <;> simp [Agree, eq_comm]

@[simp] theorem agree_error {e : HttpError} {b : Except HttpError HttpResponse} :
    Agree (.error e) b ↔ ∃ e', b = .error e' := by
  cases b <;> simp [Agree]

@[simp] theorem agree_refl (a : Except HttpError HttpResponse) : Agree a a := by
  cases a <;> simp [Agree]

theorem Agree.map {a b : Except HttpError HttpResponse} (h : Agree a b)
    (f : HttpResponse → HttpResponse) : Agree (a.map f) (b.map f) := by
  cases a <;> cases b <;> simp_all [Agree, Except.map]

section Traversal

variable (config : ClientConfig) (parseUrl : List Char → Except HttpError UrlInfo)
  (hop : Int → HttpRequest → UrlInfo → Except HttpError HttpResponse)

/-- `execute_with_redirects(request, redirect_count)`: the requests an exchange was run for,
in order, and the outcome. -/
def executeWithRedirects (request : HttpRequest) (redirectCount : Int) :
    List HttpRequest × Except HttpError HttpResponse :=
  match parseUrl request.url with
  | .error e => ([], .error e)
  | .ok urlInfo =>
    match hop redirectCount request urlInfo with
    | .error e => ([request], .error e)
    | .ok response =>
      if _h : Follows config redirectCount response then
        match response.getHeader "Location".toList with
        | none => ([request], .error .undefinedBehaviour)
        | some location =>
          if location = [] then ([request], .ok response)
          else
            let response := response.addRedirect location
            let redirectReq := redirectRequest request (resolveLocation urlInfo location)
            let deeper := executeWithRedirects redirectReq (redirectCount + 1)
            (request :: deeper.1,
              deeper.2.map fun r => response.redirectChain.foldl HttpResponse.addRedirect r)
      else ([request], .ok response)
termination_by (config.maxRedirects - redirectCount).toNat
decreasing_by have := _h.2.1; omega

/-! The five ways one level of `execute_with_redirects` ends; callers cite these and never
unfold the recursion. -/

theorem executeWithRedirects_of_parseUrl_error {request : HttpRequest} {redirectCount : Int}
    {e : HttpError} (hurl : parseUrl request.url = .error e) :
    executeWithRedirects config parseUrl hop request redirectCount = ([], .error e) := by
  rw [executeWithRedirects, hurl]

theorem executeWithRedirects_of_hop_error {request : HttpRequest} {redirectCount : Int}
    {urlInfo : UrlInfo} {e : HttpError} (hurl : parseUrl request.url = .ok urlInfo)
    (hhop : hop redirectCount request urlInfo = .error e) :
    executeWithRedirects config parseUrl hop request redirectCount = ([request], .error e) := by
  rw [executeWithRedirects, hurl]
  simp only [hhop]

/-- A followed response whose `Location` lookup is undefined ends the run there. -/
theorem executeWithRedirects_of_undefined {request : HttpRequest} {redirectCount : Int}
    {urlInfo : UrlInfo} {response : HttpResponse} (hurl : parseUrl request.url = .ok urlInfo)
    (hhop : hop redirectCount request urlInfo = .ok response)
    (hf : Follows config redirectCount response)
    (hloc : response.getHeader "Location".toList = none) :
    executeWithRedirects config parseUrl hop request redirectCount =
      ([request], .error .undefinedBehaviour) := by
  rw [executeWithRedirects, hurl]
  simp only [hhop, dif_pos hf, hloc]

/-- A response that is not followed, or whose `Location` is empty, is returned as it is. -/
theorem executeWithRedirects_of_stop {request : HttpRequest} {redirectCount : Int}
    {urlInfo : UrlInfo} {response : HttpResponse} (hurl : parseUrl request.url = .ok urlInfo)
    (hhop : hop redirectCount request urlInfo = .ok response)
    (hstop : Follows config redirectCount response →
      response.getHeader "Location".toList = some []) :
    executeWithRedirects config parseUrl hop request redirectCount =
      ([request], .ok response) := by
  rw [executeWithRedirects, hurl]
  simp only [hhop]
  split_ifs with hf
  · simp only [hstop hf, if_pos]
  · rfl

/-- A followed redirect: the deeper run, preceded by this request; the deeper response gets
this response's chain, with this `Location` last, appended to its own. -/
theorem executeWithRedirects_of_follow {request : HttpRequest} {redirectCount : Int}
    {urlInfo : UrlInfo} {response : HttpResponse} {location : List Char}
    {deeper : List HttpRequest × Except HttpError HttpResponse}
    (hurl : parseUrl request.url = .ok urlInfo)
    (hhop : hop redirectCount request urlInfo = .ok response)
    (hf : Follows config redirectCount response)
    (hloc : response.getHeader "Location".toList = some location) (hne : location ≠ [])
    (hdeeper : executeWithRedirects config parseUrl hop
      (redirectRequest request (resolveLocation urlInfo location)) (redirectCount + 1) = deeper) :
    executeWithRedirects config parseUrl hop request redirectCount =
      (request :: deeper.1, deeper.2.map fun r =>
        (response.redirectChain ++ [location]).foldl HttpResponse.addRedirect r) := by
  subst hdeeper
  rw [executeWithRedirects, hurl]
  simp only [hhop, dif_pos hf, hloc, if_neg hne]
  rfl

/-- Every response `hop` returns is fresh: `parse_response` builds a new `HttpResponse`, whose
`redirect_chain` is empty. -/
def FreshHops : Prop :=
  ∀ redirectCount request urlInfo response,
    hop redirectCount request urlInfo = .ok response → response.redirectChain = []

/-- Redirect traversal is bounded whatever the exchanges return: from `redirect_count = c` it
runs at most `max_redirects - c` follow-up requests past the first, and a returned response
has one `redirect_chain` entry per follow-up request. -/
theorem executeWithRedirects_bounded (hfresh : FreshHops hop) (request : HttpRequest)
    (redirectCount : Int) :
    (executeWithRedirects config parseUrl hop request redirectCount).1.length ≤
        (config.maxRedirects - redirectCount).toNat + 1 ∧
      ∀ r, (executeWithRedirects config parseUrl hop request redirectCount).2 = .ok r →
        r.redirectChain.length + 1 =
          (executeWithRedirects config parseUrl hop request redirectCount).1.length := by
  induction request, redirectCount using executeWithRedirects.induct config parseUrl hop with
  | case1 request c e hurl =>
    simp [executeWithRedirects_of_parseUrl_error config parseUrl hop hurl]
  | case2 request c urlInfo hurl e hhop =>
    simp [executeWithRedirects_of_hop_error config parseUrl hop hurl hhop]
  | case3 request c urlInfo hurl response hhop hf hloc =>
    simp [executeWithRedirects_of_undefined config parseUrl hop hurl hhop hf hloc]
  | case4 request c urlInfo hurl response hhop _ hloc =>
    simp [executeWithRedirects_of_stop config parseUrl hop hurl hhop fun _ => hloc,
      hfresh c request urlInfo response hhop]
  | case5 request c urlInfo hurl response hhop hf location hloc hne redirectReq ih =>
    generalize hd : executeWithRedirects config parseUrl hop redirectReq (c + 1) = deeper at ih
    rw [executeWithRedirects_of_follow config parseUrl hop hurl hhop hf hloc hne hd]
    have hc := hf.2.1
    refine ⟨by simp only [List.length_cons]; omega, fun r hr => ?_⟩
    rcases hdeep : deeper.2 with e | r'
    · simp [hdeep, Except.map] at hr
    · simp only [hdeep, Except.map, Except.ok.injEq] at hr
      subst hr
      simp [HttpResponse.addRedirect, hfresh c request urlInfo response hhop, ih.2 r' hdeep]
  | case6 request c urlInfo hurl response hhop hf =>
    simp [executeWithRedirects_of_stop config parseUrl hop hurl hhop fun h => absurd h hf,
      hfresh c request urlInfo response hhop]

/-- Runs over two exchanges that agree at every depth agree: the same requests, in the same
order, and agreeing outcomes. -/
theorem executeWithRedirects_agree (hop' : Int → HttpRequest → UrlInfo → Except HttpError HttpResponse)
    (hagree : ∀ redirectCount request urlInfo,
      Agree (hop redirectCount request urlInfo) (hop' redirectCount request urlInfo))
    (request : HttpRequest) (redirectCount : Int) :
    (executeWithRedirects config parseUrl hop request redirectCount).1 =
        (executeWithRedirects config parseUrl hop' request redirectCount).1 ∧
      Agree (executeWithRedirects config parseUrl hop request redirectCount).2
        (executeWithRedirects config parseUrl hop' request redirectCount).2 := by
  induction request, redirectCount using executeWithRedirects.induct config parseUrl hop with
  | case1 request c e hurl =>
    simp [executeWithRedirects_of_parseUrl_error config parseUrl _ hurl]
  | case2 request c urlInfo hurl e hhop =>
    have := hagree c request urlInfo
    rw [hhop, agree_error] at this
    obtain ⟨e', hhop'⟩ := this
    simp [executeWithRedirects_of_hop_error config parseUrl _ hurl hhop,
      executeWithRedirects_of_hop_error config parseUrl _ hurl hhop']
  | case3 request c urlInfo hurl response hhop hf hloc =>
    have hhop' := agree_ok.mp (hhop ▸ hagree c request urlInfo)
    simp [executeWithRedirects_of_undefined config parseUrl _ hurl hhop hf hloc,
      executeWithRedirects_of_undefined config parseUrl _ hurl hhop' hf hloc]
  | case4 request c urlInfo hurl response hhop _ hloc =>
    have hhop' := agree_ok.mp (hhop ▸ hagree c request urlInfo)
    simp [executeWithRedirects_of_stop config parseUrl _ hurl hhop fun _ => hloc,
      executeWithRedirects_of_stop config parseUrl _ hurl hhop' fun _ => hloc]
  | case5 request c urlInfo hurl response hhop hf location hloc hne redirectReq ih =>
    have hhop' := agree_ok.mp (hhop ▸ hagree c request urlInfo)
    generalize hd : executeWithRedirects config parseUrl hop redirectReq (c + 1) = deeper at ih
    generalize hd' : executeWithRedirects config parseUrl hop' redirectReq (c + 1) = deeper' at ih
    rw [executeWithRedirects_of_follow config parseUrl _ hurl hhop hf hloc hne hd,
      executeWithRedirects_of_follow config parseUrl _ hurl hhop' hf hloc hne hd']
    exact ⟨by rw [ih.1], ih.2.map _⟩
  | case6 request c urlInfo hurl response hhop hf =>
    have hhop' := agree_ok.mp (hhop ▸ hagree c request urlInfo)
    simp [executeWithRedirects_of_stop config parseUrl _ hurl hhop fun h => absurd h hf,
      executeWithRedirects_of_stop config parseUrl _ hurl hhop' fun h => absurd h hf]

/-- When every exchange answers with a redirect, the traversal follows them until the budget is
spent and then returns the last one as it is: `max_redirects - redirect_count` follow-up
requests, and a response that is itself a redirect. -/
theorem executeWithRedirects_of_redirects (hfollow : config.followRedirects = true)
    (hurl : ∀ request : HttpRequest, ∃ urlInfo, parseUrl request.url = .ok urlInfo)
    (hredirect : ∀ redirectCount request urlInfo,
      ∃ response, hop redirectCount request urlInfo = .ok response ∧ IsRedirect response)
    (request : HttpRequest) (redirectCount : Int) :
    (executeWithRedirects config parseUrl hop request redirectCount).1.length =
        (config.maxRedirects - redirectCount).toNat + 1 ∧
      ∃ r, (executeWithRedirects config parseUrl hop request redirectCount).2 = .ok r ∧
        IsRedirect r := by
  induction request, redirectCount using executeWithRedirects.induct config parseUrl hop with
  | case1 request c e hurl' =>
    obtain ⟨urlInfo, h⟩ := hurl request
    cases h.symm.trans hurl'
  | case2 request c urlInfo _ e hhop =>
    obtain ⟨response, h, -⟩ := hredirect c request urlInfo
    cases h.symm.trans hhop
  | case3 request c urlInfo _ response hhop _ hloc =>
    obtain ⟨response', h, -, -, location, hl, -⟩ := hredirect c request urlInfo
    cases h.symm.trans hhop
    cases hloc ▸ hl
  | case4 request c urlInfo _ response hhop _ hloc =>
    obtain ⟨response', h, -, -, location, hl, hne⟩ := hredirect c request urlInfo
    cases h.symm.trans hhop
    exact absurd (Option.some.inj (hloc.symm.trans hl)).symm hne
  | case5 request c urlInfo hurl' response hhop hf location hloc hne redirectReq ih =>
    generalize hd : executeWithRedirects config parseUrl hop redirectReq (c + 1) = deeper at ih
    rw [executeWithRedirects_of_follow config parseUrl hop hurl' hhop hf hloc hne hd]
    obtain ⟨hlen, r, hr, hred⟩ := ih
    have hc := hf.2.1
    refine ⟨by rw [List.length_cons, hlen]; omega, _, by rw [hr]; rfl, hred.foldl_addRedirect _⟩
  | case6 request c urlInfo hurl' response hhop hf =>
    obtain ⟨response', h, hr⟩ := hredirect c request urlInfo
    cases h.symm.trans hhop
    have hc : ¬ c < config.maxRedirects := fun hc => hf ⟨hfollow, hc, hr.1, hr.2.1⟩
    rw [executeWithRedirects_of_stop config parseUrl hop hurl' hhop fun h => absurd h hf]
    exact ⟨by simp only [List.length_singleton]; omega, _, rfl, hr⟩

end Traversal

end CoroHttp
