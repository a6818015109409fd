import CoroHttp.Client.Clients

/-!
# What a redirect run sends

Each request `execute_with_redirects` sends after the first is built from the one before:
`HttpRequest redirect_req(HttpMethod::GET, location)` and the headers of `request` copied one
by one (`http_client.hpp:62-73`, `coro_http_client.hpp:63-74`). Over a whole run, whatever
the network answers, every follow-up request is a `GET` with the first request's headers and
no body (`executeWithRedirects_followUps`), and a returned response's `redirect_chain` is the
list of `Location`s that produced the follow-up requests, deepest first, each linking a
request to the next (`executeWithRedirects_links`). Where a `Location` leads is stated on its
own, from the spec's words: a path-only `Location` stays on the current origin, any other is
absolute (`UrlInfo.redirectTarget`); `resolveLocation_eq` shows the executors' rewriting
is that. Raising `max_redirects` only extends
the runs that stopped at the budget (`executeWithRedirects_maxRedirects_mono`).
-/

namespace CoroHttp

section Runs

variable (config : ClientConfig) (parseUrl : List Char → Except HttpError UrlInfo)
  (hop : Int → HttpRequest → UrlInfo → Except HttpError HttpResponse)

/-- A `UrlInfo`'s origin as the front of a URL: `scheme://host`, then `:port` unless the port
is the scheme's default, 443 for HTTPS and 80 for HTTP. -/
def UrlInfo.origin (u : UrlInfo) : List Char :=
  u.scheme ++ "://".toList ++ u.host ++
    (if u.isHttps ∧ u.port = "443".toList ∨ ¬ u.isHttps ∧ u.port = "80".toList then []
      else ':' :: u.port)

/-- Where a `Location` received from `u` leads: a path-only `Location`, beginning with `/`, is
on `u`'s origin, with its scheme, host and port; any other is an absolute URL. -/
def UrlInfo.redirectTarget (u : UrlInfo) : List Char → List Char
  | '/' :: path => u.origin ++ '/' :: path
  | location => location

/-- The executors' rewriting of a `Location` is `redirectTarget`. -/
theorem resolveLocation_eq (u : UrlInfo) (location : List Char) :
    resolveLocation u location = u.redirectTarget location := by
  rcases location with _ | ⟨c, path⟩
  · rfl
  by_cases hc : c = '/'
  · subst hc
    simp only [resolveLocation, UrlInfo.redirectTarget, UrlInfo.origin, List.head?_cons,
      if_true, List.append_assoc]
    cases u.isHttps <;> simp [ite_not]
  · simp [resolveLocation, UrlInfo.redirectTarget, hc]

/-- The requests of a redirect run from depth `c` and the `Location`s that linked them: each
request after the first is the `GET`, with the previous request's headers, for the URL the
`Location` of the response the previous request got at its depth leads to from the previous
request's URL. -/
def RedirectLinks : Int → List HttpRequest → List (List Char) → Prop
  | _, [_], [] => True
  | c, r :: r' :: rs, location :: locations =>
    (∃ urlInfo response, parseUrl r.url = .ok urlInfo ∧ hop c r urlInfo = .ok response ∧
      response.getHeader "Location".toList = some location ∧
      r' = ⟨.GET, urlInfo.redirectTarget location, r.headers, []⟩) ∧
    RedirectLinks (c + 1) (r' :: rs) locations
  | _, _, _ => False

theorem except_map_eq_ok {α β ε : Type} {x : Except ε α} {f : α → β} {b : β}
    (h : x.map f = .ok b) : ∃ a, x = .ok a ∧ f a = b := by
  cases x with
  | error e => cases h
  | ok a => exact ⟨a, rfl, Except.ok.inj h⟩

/-- A run starts with its own request, unless the URL did not parse. -/
theorem executeWithRedirects_head? (request : HttpRequest) (redirectCount : Int) :
    ∀ r ∈ (executeWithRedirects config parseUrl hop request redirectCount).1.head?,
      r = request := by
  induction request, redirectCount using executeWithRedirects.induct config parseUrl hop with
  | case1 request c e hurl =>
    simp [executeWithRedirects_of_parseUrl_error config parseUrl hop hurl]
  | case2 request c urlInfo hurl e hhop =>
    simp [executeWithRedirects_of_hop_error config parseUrl hop hurl hhop]
  | case3 request c urlInfo hurl response hhop hf hloc =>
    simp [executeWithRedirects_of_undefined config parseUrl hop hurl hhop hf hloc]
  | case4 request c urlInfo hurl response hhop _ hloc =>
    simp [executeWithRedirects_of_stop config parseUrl hop hurl hhop fun _ => hloc]
  | case5 request c urlInfo hurl response hhop hf location hloc hne redirectReq ih =>
    simp [executeWithRedirects_of_follow config parseUrl hop hurl hhop hf hloc hne rfl]
  | case6 request c urlInfo hurl response hhop hf =>
    simp [executeWithRedirects_of_stop config parseUrl hop hurl hhop fun h => absurd h hf]

/-- Every request a run sends after the first is a `GET` with the first request's headers
and no body, whatever the method and the body of the first. -/
theorem executeWithRedirects_followUps (request : HttpRequest) (redirectCount : Int) :
    ∃ urls : List (List Char),
      (executeWithRedirects config parseUrl hop request redirectCount).1.tail =
        urls.map fun url => ⟨.GET, url, request.headers, []⟩ := by
  induction request, redirectCount using executeWithRedirects.induct config parseUrl hop with
  | case1 request c e hurl =>
    exact ⟨[], by rw [executeWithRedirects_of_parseUrl_error config parseUrl hop hurl]; rfl⟩
  | case2 request c urlInfo hurl e hhop =>
    exact ⟨[], by rw [executeWithRedirects_of_hop_error config parseUrl hop hurl hhop]; rfl⟩
  | case3 request c urlInfo hurl response hhop hf hloc =>
    exact ⟨[], by
      rw [executeWithRedirects_of_undefined config parseUrl hop hurl hhop hf hloc]; rfl⟩
  | case4 request c urlInfo hurl response hhop _ hloc =>
    exact ⟨[], by
      rw [executeWithRedirects_of_stop config parseUrl hop hurl hhop fun _ => hloc]; rfl⟩
  | case5 request c urlInfo hurl response hhop hf location hloc hne redirectReq ih =>
    rw [executeWithRedirects_of_follow config parseUrl hop hurl hhop hf hloc hne rfl,
      List.tail_cons]
    have hhead := executeWithRedirects_head? config parseUrl hop redirectReq (c + 1)
    generalize executeWithRedirects config parseUrl hop redirectReq (c + 1) = deeper at ih hhead
    obtain ⟨urls, hurls⟩ := ih
    rcases deeper with ⟨_ | ⟨a, rest⟩, outcome⟩
    · exact ⟨[], rfl⟩
    obtain rfl : a = redirectReq := hhead a rfl
    have hreq : redirectReq = ⟨.GET, resolveLocation urlInfo location, request.headers, []⟩ :=
      redirectRequest_eq _ _
    refine ⟨resolveLocation urlInfo location :: urls, ?_⟩
    rw [hreq] at hurls ⊢
    exact congrArg _ hurls
  | case6 request c urlInfo hurl response hhop hf =>
    exact ⟨[], by
      rw [executeWithRedirects_of_stop config parseUrl hop hurl hhop fun h => absurd h hf]; rfl⟩

/-- A returned response's `redirect_chain` holds, deepest first, the `Location` of every
response the run followed, each linking a request to the next. -/
theorem executeWithRedirects_links (hfresh : FreshHops hop) (request : HttpRequest)
    (redirectCount : Int) {r : HttpResponse}
    (h : (executeWithRedirects config parseUrl hop request redirectCount).2 = .ok r) :
    RedirectLinks parseUrl hop redirectCount
      (executeWithRedirects config parseUrl hop request redirectCount).1
      r.redirectChain.reverse := by
  revert r
  induction request, redirectCount using executeWithRedirects.induct config parseUrl hop with
  | case1 request c e hurl =>
    intro r h
    rw [executeWithRedirects_of_parseUrl_error config parseUrl hop hurl] at h
    cases h
  | case2 request c urlInfo hurl e hhop =>
    intro r h
    rw [executeWithRedirects_of_hop_error config parseUrl hop hurl hhop] at h
    cases h
  | case3 request c urlInfo hurl response hhop hf hloc =>
    intro r h
    rw [executeWithRedirects_of_undefined config parseUrl hop hurl hhop hf hloc] at h
    cases h
  | case4 request c urlInfo hurl response hhop _ hloc =>
    intro r h
    rw [executeWithRedirects_of_stop config parseUrl hop hurl hhop fun _ => hloc] at h ⊢
    cases h
    rw [hfresh c request urlInfo _ hhop]
    trivial
  | case5 request c urlInfo hurl response hhop hf location hloc hne redirectReq =>
    rename_i ih
    intro r h
    rw [executeWithRedirects_of_follow config parseUrl hop hurl hhop hf hloc hne rfl] at h ⊢
    have hhead := executeWithRedirects_head? config parseUrl hop redirectReq (c + 1)
    generalize executeWithRedirects config parseUrl hop redirectReq (c + 1) = deeper at ih hhead h
    obtain ⟨r', hr', rfl⟩ := except_map_eq_ok h
    have hlinks := ih hr'
    rw [foldl_addRedirect, hfresh c request urlInfo _ hhop]
    rcases deeper with ⟨_ | ⟨a, rest⟩, outcome⟩
    · exact hlinks.elim
    obtain rfl : a = redirectReq := hhead a rfl
    simp only [List.nil_append, List.reverse_append, List.reverse_singleton, List.singleton_append]
    exact ⟨⟨urlInfo, response, hurl, hhop, hloc, (redirectRequest_eq _ _).trans
      (congrArg (HttpRequest.mk _ · _ _) (resolveLocation_eq _ _))⟩, hlinks⟩
  | case6 request c urlInfo hurl response hhop hf =>
    intro r h
    rw [executeWithRedirects_of_stop config parseUrl hop hurl hhop fun h => absurd h hf] at h ⊢
    cases h
    rw [hfresh c request urlInfo _ hhop]
    trivial

end Runs

/-- The two-hop chain `/a`, `/b`: the run's three requests are linked by `/a` and `/b`. -/
theorem executeWithRedirects_links_twoRedirects :
    FreshHops (HttpClient.exchange redirectTo (answering twoRedirects) fun _ => .silent) ∧
      ∃ r, (HttpClient.execute followTen hostH redirectTo (answering twoRedirects)
          (fun _ => .silent) getRoot).2 = .ok r ∧
        RedirectLinks hostH
          (HttpClient.exchange redirectTo (answering twoRedirects) fun _ => .silent) 0
          (HttpClient.execute followTen hostH redirectTo (answering twoRedirects)
            (fun _ => .silent) getRoot).1
          r.redirectChain.reverse := by
  have hfresh := HttpClient.freshHops_exchange redirectTo (answering twoRedirects) fun _ => .silent
  obtain ⟨r, hr, -⟩ := except_map_eq_ok (@executeWithRedirects_twoRedirects
    (HttpClient.exchange redirectTo (answering twoRedirects) fun _ => .silent)
    (fun c _ _ => by unfold HttpClient.exchange; split <;> rfl)).2
  exact ⟨hfresh, r, hr, executeWithRedirects_links followTen hostH _ hfresh getRoot 0 hr⟩

/-! ### A larger `max_redirects`

Raising `max_redirects` only lets a run go on where it stopped at the budget: the requests
it sent are sent again, first (`executeWithRedirects_requests_extend`), and a run that did
not end on a response it would pass on with budget left (`PassedOn`: a redirect it could
follow, or a `3xx` whose `Location` lookup is undefined) is the same run
(`executeWithRedirects_eq_of_not_passedOn`). -/

section Budget

variable (parseUrl : List Char → Except HttpError UrlInfo)
  (hop : Int → HttpRequest → UrlInfo → Except HttpError HttpResponse)

/-- A response that a run with budget left does not return as it is: a status in
`[300, 400)` and a `Location` lookup that does not give `""`, so that the run follows it or
reaches undefined behaviour. Every `IsRedirect` response is one. -/
def PassedOn (response : HttpResponse) : Prop :=
  300 ≤ response.statusCode ∧ response.statusCode < 400 ∧
    response.getHeader "Location".toList ≠ some []

instance (response : HttpResponse) : Decidable (PassedOn response) :=
  inferInstanceAs (Decidable (_ ∧ _ ∧ _))

theorem passedOn_foldl_addRedirect_iff (r : HttpResponse) (urls : List (List Char)) :
    PassedOn (urls.foldl HttpResponse.addRedirect r) ↔ PassedOn r := by
  rw [foldl_addRedirect]
  rfl

/-- A run whose URL parses starts with its request. -/
theorem executeWithRedirects_fst_of_parseUrl (config : ClientConfig) (redirectCount : Int)
    {request : HttpRequest} {urlInfo : UrlInfo} (hurl : parseUrl request.url = .ok urlInfo) :
    ∃ rest,
      (executeWithRedirects config parseUrl hop request redirectCount).1 = request :: rest := by
  rcases hhop : hop redirectCount request urlInfo with e | response
  · exact ⟨[], by rw [executeWithRedirects_of_hop_error config parseUrl hop hurl hhop]⟩
  by_cases hf : Follows config redirectCount response
  · rcases hloc : response.getHeader "Location".toList with _ | location
    · exact ⟨[], by
        rw [executeWithRedirects_of_undefined config parseUrl hop hurl hhop hf hloc]⟩
    by_cases hne : location = []
    · subst hne
      exact ⟨[], by
        rw [executeWithRedirects_of_stop config parseUrl hop hurl hhop fun _ => hloc]⟩
    · exact ⟨_, by
        rw [executeWithRedirects_of_follow config parseUrl hop hurl hhop hf hloc hne rfl]⟩
  · exact ⟨[], by
      rw [executeWithRedirects_of_stop config parseUrl hop hurl hhop fun h => absurd h hf]⟩

variable {config config' : ClientConfig}
  (hfollow : config.followRedirects = config'.followRedirects)
  (hle : config.maxRedirects ≤ config'.maxRedirects)
include hfollow hle

theorem Follows.of_maxRedirects_le {c : Int} {response : HttpResponse}
    (h : Follows config c response) : Follows config' c response :=
  ⟨hfollow ▸ h.1, lt_of_lt_of_le h.2.1 hle, h.2.2⟩

/-- With a larger `max_redirects`, a run sends the same requests first. -/
theorem executeWithRedirects_requests_extend (request : HttpRequest) (redirectCount : Int) :
    (executeWithRedirects config parseUrl hop request redirectCount).1 <+:
      (executeWithRedirects config' parseUrl hop request redirectCount).1 := by
  induction request, redirectCount using executeWithRedirects.induct config parseUrl hop with
  | case1 request c e hurl =>
    rw [executeWithRedirects_of_parseUrl_error config parseUrl hop hurl]
    exact List.nil_prefix
  | case2 request c urlInfo hurl e hhop =>
    simp only [executeWithRedirects_of_hop_error config parseUrl hop hurl hhop,
      executeWithRedirects_of_hop_error config' parseUrl hop hurl hhop, List.prefix_refl]
  | case3 request c urlInfo hurl response hhop hf hloc =>
    simp only [executeWithRedirects_of_undefined config parseUrl hop hurl hhop hf hloc,
      executeWithRedirects_of_undefined config' parseUrl hop hurl hhop
        (hf.of_maxRedirects_le hfollow hle) hloc, List.prefix_refl]
  | case4 request c urlInfo hurl response hhop _ hloc =>
    obtain ⟨rest, h⟩ := executeWithRedirects_fst_of_parseUrl parseUrl hop config' c hurl
    rw [executeWithRedirects_of_stop config parseUrl hop hurl hhop fun _ => hloc, h]
    exact List.cons_prefix_cons.mpr ⟨rfl, List.nil_prefix⟩
  | case5 request c urlInfo hurl response hhop hf location hloc hne redirectReq ih =>
    rw [executeWithRedirects_of_follow config parseUrl hop hurl hhop hf hloc hne rfl,
      executeWithRedirects_of_follow config' parseUrl hop hurl hhop
        (hf.of_maxRedirects_le hfollow hle) hloc hne rfl]
    exact List.cons_prefix_cons.mpr ⟨rfl, ih⟩
  | case6 request c urlInfo hurl response hhop hf =>
    obtain ⟨rest, h⟩ := executeWithRedirects_fst_of_parseUrl parseUrl hop config' c hurl
    rw [executeWithRedirects_of_stop config parseUrl hop hurl hhop fun h => absurd h hf, h]
    exact List.cons_prefix_cons.mpr ⟨rfl, List.nil_prefix⟩

/-- With a larger `max_redirects`, a run that did not end on a response it would pass on with
budget left is the same run. -/
theorem executeWithRedirects_eq_of_not_passedOn (request : HttpRequest) (redirectCount : Int) :
    (∀ r, (executeWithRedirects config parseUrl hop request redirectCount).2 = .ok r →
      ¬ PassedOn r) →
    executeWithRedirects config parseUrl hop request redirectCount =
      executeWithRedirects config' parseUrl hop request redirectCount := by
  induction request, redirectCount using executeWithRedirects.induct config parseUrl hop with
  | case1 request c e hurl =>
    rw [executeWithRedirects_of_parseUrl_error config parseUrl hop hurl,
      executeWithRedirects_of_parseUrl_error config' parseUrl hop hurl]
    exact fun _ => rfl
  | case2 request c urlInfo hurl e hhop =>
    rw [executeWithRedirects_of_hop_error config parseUrl hop hurl hhop,
      executeWithRedirects_of_hop_error config' parseUrl hop hurl hhop]
    exact fun _ => rfl
  | case3 request c urlInfo hurl response hhop hf hloc =>
    rw [executeWithRedirects_of_undefined config parseUrl hop hurl hhop hf hloc,
      executeWithRedirects_of_undefined config' parseUrl hop hurl hhop
        (hf.of_maxRedirects_le hfollow hle) hloc]
    exact fun _ => rfl
  | case4 request c urlInfo hurl response hhop _ hloc =>
    rw [executeWithRedirects_of_stop config parseUrl hop hurl hhop fun _ => hloc,
      executeWithRedirects_of_stop config' parseUrl hop hurl hhop fun _ => hloc]
    exact fun _ => rfl
  | case5 request c urlInfo hurl response hhop hf location hloc hne redirectReq ih =>
    rw [executeWithRedirects_of_follow config parseUrl hop hurl hhop hf hloc hne rfl,
      executeWithRedirects_of_follow config' parseUrl hop hurl hhop
        (hf.of_maxRedirects_le hfollow hle) hloc hne rfl]
    intro h
    have hdeeper :
        ∀ r, (executeWithRedirects config parseUrl hop redirectReq (c + 1)).2 = .ok r →
          ¬ PassedOn r := fun r hr hred =>
      h _ (by rw [hr]; rfl) ((passedOn_foldl_addRedirect_iff _ _).mpr hred)
    rw [ih hdeeper]
  | case6 request c urlInfo hurl response hhop hf =>
    rw [executeWithRedirects_of_stop config parseUrl hop hurl hhop fun h => absurd h hf]
    intro h
    rw [executeWithRedirects_of_stop config' parseUrl hop hurl hhop fun hf' => by
      by_contra hloc
      exact h response rfl ⟨hf'.2.2.1, hf'.2.2.2, hloc⟩]

/-- Raising `max_redirects` keeps the requests a run sent, in front, and changes nothing for
a run that did not stop at a response it would pass on with budget left: a redirect it
could have followed, or a `3xx` whose `Location` lookup is undefined. -/
theorem executeWithRedirects_maxRedirects_mono (request : HttpRequest) (redirectCount : Int) :
    (executeWithRedirects config parseUrl hop request redirectCount).1 <+:
        (executeWithRedirects config' parseUrl hop request redirectCount).1 ∧
      ((∀ r, (executeWithRedirects config parseUrl hop request redirectCount).2 = .ok r →
        ¬ PassedOn r) →
        executeWithRedirects config parseUrl hop request redirectCount =
          executeWithRedirects config' parseUrl hop request redirectCount) :=
  ⟨executeWithRedirects_requests_extend parseUrl hop hfollow hle request redirectCount,
    executeWithRedirects_eq_of_not_passedOn parseUrl hop hfollow hle request redirectCount⟩

end Budget

/-- Over the two-hop chain, the run with `max_redirects = 1`, which stops at the second
redirect, and the run with 10. -/
theorem executeWithRedirects_maxRedirects_mono_twoRedirects :
    (⟨true, 1⟩ : ClientConfig).followRedirects = followTen.followRedirects ∧
      (⟨true, 1⟩ : ClientConfig).maxRedirects ≤ followTen.maxRedirects ∧
      (executeWithRedirects ⟨true, 1⟩ hostH
          (HttpClient.exchange redirectTo (answering twoRedirects) fun _ => .silent)
          getRoot 0).1 <+:
        (executeWithRedirects followTen hostH
          (HttpClient.exchange redirectTo (answering twoRedirects) fun _ => .silent)
          getRoot 0).1 ∧
      ((∀ r, (executeWithRedirects ⟨true, 1⟩ hostH
          (HttpClient.exchange redirectTo (answering twoRedirects) fun _ => .silent) getRoot 0).2 =
            .ok r → ¬ PassedOn r) →
        executeWithRedirects ⟨true, 1⟩ hostH
            (HttpClient.exchange redirectTo (answering twoRedirects) fun _ => .silent) getRoot 0 =
          executeWithRedirects followTen hostH
            (HttpClient.exchange redirectTo (answering twoRedirects) fun _ => .silent) getRoot 0) :=
  ⟨rfl, by decide, @executeWithRedirects_maxRedirects_mono hostH
    (HttpClient.exchange redirectTo (answering twoRedirects) fun _ => .silent)
    ⟨true, 1⟩ followTen rfl (by decide) getRoot 0⟩

end CoroHttp
