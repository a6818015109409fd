import CoroHttp.Client.Executors

/-!
# The two clients

`HttpClient::execute` and `CoroHttpClient::co_execute` run `execute_with_redirects(request, 0)`
over their own executors, picked by `url_info.is_https` (`http_client.hpp:39-53`,
`coro_http_client.hpp:40-54`). The network is an input: `server c request urlInfo` is how it
completes the exchange for `request` sent to `urlInfo` at redirect depth `c`. Depths grow
along a run, so this covers a network whose answers change from one exchange to the next.

Both clients stay within the redirect budget whatever the network does
(`execute_within_redirect_budget`), and with no timer firing they send the same requests and
agree on the outcome (`execute_agrees_coExecute`). A returned `redirect_chain` lists the
`Location`s deepest first (`execute_redirectChain_reversed`), and a chain longer than the
budget ends in its last redirect being returned, not in an error
(`execute_returns_redirect_past_budget`).
-/

namespace CoroHttp

section Clients

variable (config : ClientConfig) (parseUrl : List Char → Except HttpError UrlInfo)
  (parseResponse : List Char → Except HttpError WireResponse)
  (server : Int → HttpRequest → UrlInfo → Exchange)

/-- The blocking client's exchange at depth `redirectCount`: `execute_https` or
`execute_http` (`http_client.hpp:47-53`). -/
def HttpClient.exchange (timers : Int → TimerEvents) (redirectCount : Int)
    (request : HttpRequest) (urlInfo : UrlInfo) : Except HttpError HttpResponse :=
  if urlInfo.isHttps then
    executeHttps parseResponse (timers redirectCount) (server redirectCount request urlInfo)
  else executeHttp parseResponse (timers redirectCount) (server redirectCount request urlInfo)

/-- `HttpClient::execute(request)` (`http_client.hpp:39-41`). -/
def HttpClient.execute (timers : Int → TimerEvents) (request : HttpRequest) :
    List HttpRequest × Except HttpError HttpResponse :=
  executeWithRedirects config parseUrl (HttpClient.exchange parseResponse server timers) request 0

/-- The coroutine client's exchange at depth `redirectCount`: `co_execute_https` or
`co_execute_http` (`coro_http_client.hpp:48-54`). -/
def CoroHttpClient.exchange (redirectCount : Int) (request : HttpRequest) (urlInfo : UrlInfo) :
    Except HttpError HttpResponse :=
  if urlInfo.isHttps then coExecuteHttps parseResponse (server redirectCount request urlInfo)
  else coExecuteHttp parseResponse (server redirectCount request urlInfo)

/-- `CoroHttpClient::co_execute(request)` (`coro_http_client.hpp:40-42`). -/
def CoroHttpClient.coExecute (request : HttpRequest) :
    List HttpRequest × Except HttpError HttpResponse :=
  executeWithRedirects config parseUrl (CoroHttpClient.exchange parseResponse server) request 0

theorem HttpClient.freshHops_exchange (timers : Int → TimerEvents) :
    FreshHops (HttpClient.exchange parseResponse server timers) := by
  intro c request urlInfo r h
  unfold HttpClient.exchange at h
  split at h
  · exact redirectChain_of_executeHttps parseResponse h
  · exact redirectChain_of_executeHttp parseResponse h

theorem CoroHttpClient.freshHops_exchange :
    FreshHops (CoroHttpClient.exchange parseResponse server) := by
  intro c request urlInfo r h
  unfold CoroHttpClient.exchange at h
  split at h
  · exact redirectChain_of_coExecuteHttps parseResponse h
  · exact redirectChain_of_coExecuteHttp parseResponse h

/-- A run from `redirect_count = 0` within the budget `max_redirects = m`: at most
`max(m, 0) + 1` requests sent, and a returned response has one `redirect_chain` entry per
follow-up request, so at most `max(m, 0)`. -/
def WithinRedirectBudget (m : Int) (run : List HttpRequest × Except HttpError HttpResponse) :
    Prop :=
  (run.1.length : Int) ≤ max m 0 + 1 ∧
    ∀ r, run.2 = .ok r →
      r.redirectChain.length + 1 = run.1.length ∧ (r.redirectChain.length : Int) ≤ max m 0

theorem withinRedirectBudget_of_freshHops
    {hop : Int → HttpRequest → UrlInfo → Except HttpError HttpResponse} (hfresh : FreshHops hop)
    (request : HttpRequest) :
    WithinRedirectBudget config.maxRedirects (executeWithRedirects config parseUrl hop request 0) := by
  obtain ⟨hlen, hchain⟩ := executeWithRedirects_bounded config parseUrl hop hfresh request 0
  have hm : ((config.maxRedirects - 0).toNat : Int) = max config.maxRedirects 0 := by
    rw [Int.sub_zero, Int.toNat_eq_max]
  refine ⟨by omega, fun r hr => ⟨hchain r hr, ?_⟩⟩
  have := hchain r hr
  omega

/-- Both clients stay within the redirect budget, whatever the network does. -/
theorem execute_within_redirect_budget (timers : Int → TimerEvents) (request : HttpRequest) :
    WithinRedirectBudget config.maxRedirects
        (HttpClient.execute config parseUrl parseResponse server timers request) ∧
      WithinRedirectBudget config.maxRedirects
        (CoroHttpClient.coExecute config parseUrl parseResponse server request) :=
  ⟨withinRedirectBudget_of_freshHops config parseUrl
      (HttpClient.freshHops_exchange parseResponse server timers) request,
    withinRedirectBudget_of_freshHops config parseUrl
      (CoroHttpClient.freshHops_exchange parseResponse server) request⟩

/-- With no timer firing, the blocking and the coroutine client send the same requests, in the
same order, and return the same response or both end in an exception. -/
theorem execute_agrees_coExecute (request : HttpRequest) :
    (HttpClient.execute config parseUrl parseResponse server (fun _ => .silent) request).1 =
        (CoroHttpClient.coExecute config parseUrl parseResponse server request).1 ∧
      Agree (HttpClient.execute config parseUrl parseResponse server (fun _ => .silent) request).2
        (CoroHttpClient.coExecute config parseUrl parseResponse server request).2 := by
  refine executeWithRedirects_agree config parseUrl _ _ (fun c request urlInfo => ?_) request 0
  unfold HttpClient.exchange CoroHttpClient.exchange
  split
  · exact executeHttps_agree parseResponse _
  · exact executeHttp_agree parseResponse _

end Clients

/-! ### Runs on a small network -/

/-- A URL parser that puts every URL on `http://h/`. -/
def hostH : List Char → Except HttpError UrlInfo :=
  fun _ => .ok ⟨"http".toList, "h".toList, "80".toList, false⟩

/-- A response parser for a network that sends a bare path: a `302 Found` to it, or
`200 OK` when nothing is sent. -/
def redirectTo (data : List Char) : Except HttpError WireResponse :=
  .ok (if data = [] then ⟨200, "OK".toList, [], []⟩
    else ⟨302, "Found".toList, [("Location".toList, data)], []⟩)

/-- A network on which every exchange succeeds and the response at depth `c` is `data c`. -/
def answering (data : Int → List Char) : Int → HttpRequest → UrlInfo → Exchange :=
  fun c _ _ => ⟨none, none, none, none, [], (data c, .eof)⟩

/-- Redirects followed, up to 10. -/
def followTen : ClientConfig := ⟨true, 10⟩

/-- `GET http://h/`. -/
def getRoot : HttpRequest := .make .GET "http://h/".toList

/-- With `max_redirects = -1` the first response is returned as it is: its empty
`redirect_chain` is longer than `max_redirects`. -/
theorem execute_chain_above_negative_maxRedirects :
    ∃ r, (HttpClient.execute ⟨true, -1⟩ hostH redirectTo (answering fun _ => [])
        (fun _ => .silent) getRoot).2 = .ok r ∧
      ¬ (r.redirectChain.length : Int) ≤ -1 :=
  ⟨_, congrArg Prod.snd (executeWithRedirects_of_stop _ _ _ rfl rfl fun h => absurd h.2.1 (by decide)),
    by decide⟩

/-- The network of a two-hop redirect chain: `/a`, then `/b`, then `200 OK`. -/
def twoRedirects : Int → List Char :=
  fun c => if c = 0 then "/a".toList else if c = 1 then "/b".toList else []

/-- A run of `execute_with_redirects` over `twoRedirects`, for any exchange that answers like
it at each depth. -/
theorem executeWithRedirects_twoRedirects
    {hop : Int → HttpRequest → UrlInfo → Except HttpError HttpResponse}
    (hop_eq : ∀ c request urlInfo,
      hop c request urlInfo = (redirectTo (twoRedirects c)).map WireResponse.toResponse) :
    (executeWithRedirects followTen hostH hop getRoot 0).1.map HttpRequest.url =
        ["http://h/".toList, "http://h/a".toList, "http://h/b".toList] ∧
      (executeWithRedirects followTen hostH hop getRoot 0).2.map HttpResponse.redirectChain =
        .ok ["/b".toList, "/a".toList] := by
  rw [@executeWithRedirects_of_follow _ hostH hop _ 0 _ _ _ _ rfl ((hop_eq _ _ _).trans rfl)
    (by decide) rfl (by decide) (@executeWithRedirects_of_follow _ hostH hop _ (0 + 1) _ _ _ _ rfl
      ((hop_eq _ _ _).trans rfl) (by decide) rfl (by decide)
      (@executeWithRedirects_of_stop _ hostH hop _ (0 + 1 + 1) _ _ rfl ((hop_eq _ _ _).trans rfl)
        fun _ => by decide))]
  exact ⟨rfl, rfl⟩

/-- Over a two-hop chain whose `Location`s arrive as `/a` then `/b`, both clients send their
requests in that order and return the `redirect_chain` `[/b, /a]`. -/
theorem execute_redirectChain_reversed :
    (HttpClient.execute followTen hostH redirectTo (answering twoRedirects) (fun _ => .silent)
        getRoot).1.map HttpRequest.url =
        ["http://h/".toList, "http://h/a".toList, "http://h/b".toList] ∧
      (HttpClient.execute followTen hostH redirectTo (answering twoRedirects) (fun _ => .silent)
        getRoot).2.map HttpResponse.redirectChain = .ok ["/b".toList, "/a".toList] ∧
      (CoroHttpClient.coExecute followTen hostH redirectTo (answering twoRedirects)
        getRoot).1.map HttpRequest.url =
        ["http://h/".toList, "http://h/a".toList, "http://h/b".toList] ∧
      (CoroHttpClient.coExecute followTen hostH redirectTo (answering twoRedirects)
        getRoot).2.map HttpResponse.redirectChain = .ok ["/b".toList, "/a".toList] := by
  have hsync := @executeWithRedirects_twoRedirects
    (HttpClient.exchange redirectTo (answering twoRedirects) fun _ => .silent)
    fun c _ _ => by unfold HttpClient.exchange; split <;> rfl
  have hcoro := @executeWithRedirects_twoRedirects
    (CoroHttpClient.exchange redirectTo (answering twoRedirects))
    fun c _ _ => by unfold CoroHttpClient.exchange; split <;> rfl
  exact ⟨hsync.1, hsync.2, hcoro.1, hcoro.2⟩

/-- A network that answers every request with `302 Found` to `/loop`. -/
def redirectLoop : Int → HttpRequest → UrlInfo → Exchange :=
  answering fun _ => "/loop".toList

/-- A run of `execute_with_redirects` over `redirectLoop` with `max_redirects = m`, for any
exchange that answers like it. -/
theorem executeWithRedirects_redirectLoop
    {hop : Int → HttpRequest → UrlInfo → Except HttpError HttpResponse}
    (hop_eq : ∀ c request urlInfo,
      hop c request urlInfo = (redirectTo "/loop".toList).map WireResponse.toResponse)
    (m : Int) :
    ((executeWithRedirects ⟨true, m⟩ hostH hop getRoot 0).1.length : Int) =
        max m 0 + 1 ∧
      ∃ r, (executeWithRedirects ⟨true, m⟩ hostH hop getRoot 0).2 = .ok r ∧
        IsRedirect r := by
  obtain ⟨hlen, hr⟩ := executeWithRedirects_of_redirects ⟨true, m⟩ hostH hop rfl
    (fun _ => ⟨_, rfl⟩) (fun c request urlInfo => ⟨_, (hop_eq c request urlInfo).trans rfl,
      by decide⟩) getRoot 0
  refine ⟨?_, hr⟩
  rw [hlen]
  simp [Int.toNat_eq_max]

/-- Past its budget the traversal returns the last redirect instead of failing: against a
network that answers every request with `302 Found` to `/loop`, both clients send
`max(m, 0) + 1` requests, each answered by a redirect, and return a `302` with a nonempty
`Location`, for every `max_redirects = m`. -/
theorem execute_returns_redirect_past_budget (m : Int) :
    ((HttpClient.execute ⟨true, m⟩ hostH redirectTo redirectLoop (fun _ => .silent)
        getRoot).1.length : Int) = max m 0 + 1 ∧
      (∃ r, (HttpClient.execute ⟨true, m⟩ hostH redirectTo redirectLoop
        (fun _ => .silent) getRoot).2 = .ok r ∧ IsRedirect r) ∧
      ((CoroHttpClient.coExecute ⟨true, m⟩ hostH redirectTo redirectLoop
        getRoot).1.length : Int) = max m 0 + 1 ∧
      ∃ r, (CoroHttpClient.coExecute ⟨true, m⟩ hostH redirectTo redirectLoop
        getRoot).2 = .ok r ∧ IsRedirect r := by
  have hsync := @executeWithRedirects_redirectLoop
    (HttpClient.exchange redirectTo redirectLoop fun _ => .silent)
    (fun c _ _ => by unfold HttpClient.exchange; split <;> rfl) m
  have hcoro := @executeWithRedirects_redirectLoop
    (CoroHttpClient.exchange redirectTo redirectLoop)
    (fun c _ _ => by unfold CoroHttpClient.exchange; split <;> rfl) m
  exact ⟨hsync.1, hsync.2, hcoro.1, hcoro.2⟩

end CoroHttp
