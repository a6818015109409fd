import CoroHttp.Client.Redirects

/-!
# One exchange: the blocking and the coroutine executors

`execute_http`, `execute_https` and `read_with_timeout` (`http_client.hpp:84-200`) run one
exchange with blocking calls, a `steady_timer` closing the socket when the connect or the read
takes too long; `co_execute_http`, `co_execute_https` and `co_read_response`
(`coro_http_client.hpp:85-152`) run it with `co_await` and no timer. Time and the network are
inputs: an `Exchange` says how each call completes, a `TimerEvents` whether each timer fired.

`build_request` and `parse_response` (`http_parser.hpp`) are not in the sources. The request
and the `UrlInfo` reach the network only through `build_request` and the resolver, so the
network's behaviour is taken as a function of them (`Clients.lean`); `parse_response` is a
parameter that reads a `WireResponse`, from which a fresh `HttpResponse` is built.

With no timer firing the two executors agree (`executeHttp_agree`, `executeHttps_agree`):
equal responses, or an exception from both. The exceptions can differ: a connect ending in
`operation_aborted` is a `"Connection timeout"` for the blocking client even when its timer
did not fire, and a `std::system_error` for the coroutine one. Each executor returns a
response exactly when every call of its exchange succeeds, and that response is
`parse_response` of every byte received, in order (`executors_eq_ok_iff`).
-/

namespace CoroHttp

/-- How the network completes the calls of one exchange: the error, if any, of the resolve,
the connect, the TLS handshake and the write; then the data of each `read_some` that completes
without error, and the data and error of the `read_some` that ends the read loop. -/
structure Exchange where
  resolve : Option ErrorCode
  connect : Option ErrorCode
  handshake : Option ErrorCode
  write : Option ErrorCode
  reads : List (List Char)
  lastRead : List Char × ErrorCode

/-- Whether the blocking client's timers fire: the connect timer before it is cancelled, the
read timer before the read loop ends. -/
structure TimerEvents where
  connectTimeout : Bool
  readTimeout : Bool

/-- No timer fires. -/
def TimerEvents.silent : TimerEvents := ⟨false, false⟩

/-- Modelled from the spec: what `parse_response` reads off the wire. -/
structure WireResponse where
  statusCode : Int
  reason : List Char
  headers : List (List Char × List Char)
  body : List Char

/-- Modelled from the spec: the `HttpResponse` `parse_response` returns, built fresh with the
setters. -/
def WireResponse.toResponse (w : WireResponse) : HttpResponse :=
  ((HttpResponse.init.setStatusCode w.statusCode).setReason w.reason |>.addHeaders
    w.headers).setBody w.body

@[simp] theorem WireResponse.redirectChain_toResponse (w : WireResponse) :
    w.toResponse.redirectChain = [] := by
  simp [toResponse, HttpResponse.setBody, HttpResponse.setReason, HttpResponse.setStatusCode,
    HttpResponse.init]

section Executors

variable (parseResponse : List Char → Except HttpError WireResponse)

/-- `parse_response(response_data)`. -/
def parseResponseData (responseData : List Char) : Except HttpError HttpResponse :=
  (parseResponse responseData).map WireResponse.toResponse

theorem redirectChain_of_parseResponseData {responseData : List Char} {r : HttpResponse}
    (h : parseResponseData parseResponse responseData = .ok r) : r.redirectChain = [] := by
  rcases hp : parseResponse responseData with e | w <;>
    simp only [parseResponseData, hp, Except.map, Except.ok.injEq, reduceCtorEq] at h
  rw [← h, WireResponse.redirectChain_toResponse]

/-- `read_with_timeout(stream)` (`http_client.hpp:165-200`): append each `read_some`'s data;
stop at `eof` or `stream_truncated`; an `operation_aborted` once the timer has fired is a
`"Read timeout"`, any other error a `std::system_error`. -/
def readWithTimeout (timeoutOccurred : Bool) (lastRead : List Char × ErrorCode) :
    List (List Char) → List Char → Except HttpError (List Char)
  | chunk :: reads, responseData =>
    readWithTimeout timeoutOccurred lastRead reads (responseData ++ chunk)
  | [], responseData =>
    let responseData := responseData ++ lastRead.1
    let ec := lastRead.2
    if ec = .eof ∨ ec = .streamTruncated then .ok responseData
    else if ec = .operationAborted ∧ timeoutOccurred then
      .error (.runtimeError "Read timeout".toList)
    else .error (.systemError ec)

/-- `co_read_response(stream)` (`coro_http_client.hpp:129-152`): the same loop with no timer. -/
def coReadResponse (lastRead : List Char × ErrorCode) :
    List (List Char) → List Char → Except HttpError (List Char)
  | chunk :: reads, responseData => coReadResponse lastRead reads (responseData ++ chunk)
  | [], responseData =>
    let responseData := responseData ++ lastRead.1
    let ec := lastRead.2
    if ec = .eof ∨ ec = .streamTruncated then .ok responseData
    else .error (.systemError ec)

/-- With no timer firing, the two read loops are the same loop. -/
theorem readWithTimeout_false : readWithTimeout false = coReadResponse := by
  funext lastRead reads responseData
  induction reads generalizing responseData with
  | nil => simp [readWithTimeout, coReadResponse]
  | cons chunk reads ih => exact ih _

/-- What every executor does once connected (`http_client.hpp:112-117`, `157-162`,
`coro_http_client.hpp:96-101`, `121-126`): write the request, run the read loop, parse what it
read. -/
def writeAndRead
    (readLoop : List Char × ErrorCode → List (List Char) → List Char → Except HttpError (List Char))
    (net : Exchange) : Except HttpError HttpResponse :=
  match net.write with
  | some ec => .error (.systemError ec)
  | none => (readLoop net.lastRead net.reads []).bind (parseResponseData parseResponse)

theorem redirectChain_of_writeAndRead {readLoop} {net : Exchange} {r : HttpResponse}
    (h : writeAndRead parseResponse readLoop net = .ok r) : r.redirectChain = [] := by
  unfold writeAndRead at h
  split at h
  · cases h
  · rcases hd : readLoop net.lastRead net.reads [] with e | d <;> rw [hd] at h
    · cases h
    · exact redirectChain_of_parseResponseData parseResponse h

/-- `execute_http(request, url_info)` (`http_client.hpp:84-118`): a connect that the timer cut
short or that ended in `operation_aborted` is a `"Connection timeout"`. -/
def executeHttp (timers : TimerEvents) (net : Exchange) : Except HttpError HttpResponse :=
  match net.resolve with
  | some ec => .error (.systemError ec)
  | none =>
    let connectEc := net.connect
    if timers.connectTimeout ∨ connectEc = some .operationAborted then
      .error (.runtimeError "Connection timeout".toList)
    else
      match connectEc with
      | some ec => .error (.systemError ec)
      | none => writeAndRead parseResponse (readWithTimeout timers.readTimeout) net

/-- `execute_https(request, url_info)` (`http_client.hpp:120-163`): the handshake runs only if
the timer has not fired and the connect succeeded, and reports into the same error code. -/
def executeHttps (timers : TimerEvents) (net : Exchange) : Except HttpError HttpResponse :=
  match net.resolve with
  | some ec => .error (.systemError ec)
  | none =>
    let connectEc :=
      if !timers.connectTimeout && net.connect.isNone then net.handshake else net.connect
    if timers.connectTimeout ∨ connectEc = some .operationAborted then
      .error (.runtimeError "Connection timeout".toList)
    else
      match connectEc with
      | some ec => .error (.systemError ec)
      | none => writeAndRead parseResponse (readWithTimeout timers.readTimeout) net

/-- `co_execute_http(request, url_info)` (`coro_http_client.hpp:85-102`): each awaited call
throws its error. -/
def coExecuteHttp (net : Exchange) : Except HttpError HttpResponse :=
  match net.resolve, net.connect with
  | some ec, _ => .error (.systemError ec)
  | none, some ec => .error (.systemError ec)
  | none, none => writeAndRead parseResponse coReadResponse net

/-- `co_execute_https(request, url_info)` (`coro_http_client.hpp:104-127`). -/
def coExecuteHttps (net : Exchange) : Except HttpError HttpResponse :=
  match net.resolve, net.connect, net.handshake with
  | some ec, _, _ => .error (.systemError ec)
  | none, some ec, _ => .error (.systemError ec)
  | none, none, some ec => .error (.systemError ec)
  | none, none, none => writeAndRead parseResponse coReadResponse net

/-! Every response an executor returns is fresh. -/

theorem redirectChain_of_executeHttp {timers : TimerEvents} {net : Exchange} {r : HttpResponse}
    (h : executeHttp parseResponse timers net = .ok r) : r.redirectChain = [] := by
  unfold executeHttp at h
  dsimp only at h
  split at h
  · cases h
  split_ifs at h
  split at h
  · cases h
  · exact redirectChain_of_writeAndRead parseResponse h

theorem redirectChain_of_executeHttps {timers : TimerEvents} {net : Exchange} {r : HttpResponse}
    (h : executeHttps parseResponse timers net = .ok r) : r.redirectChain = [] := by
  unfold executeHttps at h
  dsimp only at h
  split at h
  · cases h
  split_ifs at h <;> split at h <;>
    first | cases h | exact redirectChain_of_writeAndRead parseResponse h

theorem redirectChain_of_coExecuteHttp {net : Exchange} {r : HttpResponse}
    (h : coExecuteHttp parseResponse net = .ok r) : r.redirectChain = [] := by
  unfold coExecuteHttp at h
  split at h <;> first | cases h | exact redirectChain_of_writeAndRead parseResponse h

theorem redirectChain_of_coExecuteHttps {net : Exchange} {r : HttpResponse}
    (h : coExecuteHttps parseResponse net = .ok r) : r.redirectChain = [] := by
  unfold coExecuteHttps at h
  split at h <;> first | cases h | exact redirectChain_of_writeAndRead parseResponse h

/-! With no timer firing, each blocking executor ends in an exception exactly when its
coroutine twin does, and otherwise returns the same response. -/

theorem executeHttp_agree (net : Exchange) :
    Agree (executeHttp parseResponse .silent net) (coExecuteHttp parseResponse net) := by
  rcases net with ⟨_ | _, _ | _, _, _, _, _⟩ <;>
    simp [executeHttp, coExecuteHttp, TimerEvents.silent, readWithTimeout_false]
  split_ifs <;> simp [Agree]

theorem executeHttps_agree (net : Exchange) :
    Agree (executeHttps parseResponse .silent net) (coExecuteHttps parseResponse net) := by
  rcases net with ⟨_ | _, _ | _, _ | _, _, _, _⟩ <;>
    simp [executeHttps, coExecuteHttps, TimerEvents.silent, readWithTimeout_false] <;>
    split_ifs <;> simp [Agree]

/-- Where the two differ with no timer firing: a connect that ends in `operation_aborted` is a
`"Connection timeout"` for the blocking executor, whatever its timers did, and a
`std::system_error` for the coroutine one. -/
theorem executeHttp_aborted_connect (timers : TimerEvents) {net : Exchange}
    (hresolve : net.resolve = none) (hconnect : net.connect = some .operationAborted) :
    executeHttp parseResponse timers net = .error (.runtimeError "Connection timeout".toList) ∧
      coExecuteHttp parseResponse net = .error (.systemError .operationAborted) := by
  simp [executeHttp, coExecuteHttp, hresolve, hconnect]

/-! ### What an exchange returns

An executor returns a response exactly when every call of its exchange succeeds and the read
loop ends at `eof` or `stream_truncated`; the response is `parse_response` of every byte
received, in order. The read timer plays no part once the loop has ended cleanly. -/

/-- Every byte the read loop receives, in order: the data of each `read_some`. -/
def Exchange.received (net : Exchange) : List Char := net.reads.flatten ++ net.lastRead.1

/-- The read loop ends without an exception: its last `read_some` reports `eof` or
`stream_truncated`. -/
def Exchange.EndsCleanly (net : Exchange) : Prop :=
  net.lastRead.2 = .eof ∨ net.lastRead.2 = .streamTruncated

/-- Once connected, the exchange returns `r`: the write succeeds, the read loop ends cleanly,
and `parse_response` reads `r` off everything received. -/
def Exchange.Delivers (net : Exchange) (r : HttpResponse) : Prop :=
  net.write = none ∧ net.EndsCleanly ∧ parseResponseData parseResponse net.received = .ok r

/-- The read loop returns everything it received, in order, exactly when it ends at `eof` or
`stream_truncated`, whether or not the timer fired. -/
theorem readWithTimeout_eq_ok_iff (timeoutOccurred : Bool) (lastRead : List Char × ErrorCode)
    (reads : List (List Char)) (responseData d : List Char) :
    readWithTimeout timeoutOccurred lastRead reads responseData = .ok d ↔
      (lastRead.2 = .eof ∨ lastRead.2 = .streamTruncated) ∧
        d = responseData ++ reads.flatten ++ lastRead.1 := by
  induction reads generalizing responseData with
  | nil =>
    simp only [readWithTimeout, List.flatten_nil, List.append_nil]
    split_ifs with hend
    · exact ⟨fun h => ⟨hend, (Except.ok.inj h).symm⟩, fun h => congrArg _ h.2.symm⟩
    · exact ⟨nofun, fun h => absurd h.1 hend⟩
    · exact ⟨nofun, fun h => absurd h.1 hend⟩
  | cons chunk reads ih =>
    rw [readWithTimeout, ih, List.flatten_cons, List.append_assoc responseData]

theorem writeAndRead_eq_ok_iff (timeoutOccurred : Bool) (net : Exchange) (r : HttpResponse) :
    writeAndRead parseResponse (readWithTimeout timeoutOccurred) net = .ok r ↔
      net.Delivers parseResponse r := by
  rcases hw : net.write with _ | ec
  · have hread := readWithTimeout_eq_ok_iff timeoutOccurred net.lastRead net.reads []
    rcases hd : readWithTimeout timeoutOccurred net.lastRead net.reads [] with e | d
    · have hend : ¬ net.EndsCleanly := fun hend => nomatch hd ▸ (hread _).mpr ⟨hend, rfl⟩
      simp only [writeAndRead, hw, hd]
      exact ⟨nofun, fun h => absurd h.2.1 hend⟩
    · obtain ⟨hend, rfl⟩ := (hread d).mp hd
      simp only [writeAndRead, hw, hd]
      exact ⟨fun h => ⟨hw, hend, h⟩, fun h => h.2.2⟩
  · simp only [writeAndRead, hw]
    exact ⟨nofun, fun h => nomatch hw.symm.trans h.1⟩

theorem executeHttp_eq_ok_iff (timers : TimerEvents) (net : Exchange) (r : HttpResponse) :
    executeHttp parseResponse timers net = .ok r ↔
      net.resolve = none ∧ timers.connectTimeout = false ∧ net.connect = none ∧
        net.Delivers parseResponse r := by
  unfold executeHttp
  rcases net.resolve with _ | ec
  · cases timers.connectTimeout <;> rcases net.connect with _ | ec <;>
      simp [writeAndRead_eq_ok_iff, ite_eq_iff]
  · simp

theorem executeHttps_eq_ok_iff (timers : TimerEvents) (net : Exchange) (r : HttpResponse) :
    executeHttps parseResponse timers net = .ok r ↔
      net.resolve = none ∧ timers.connectTimeout = false ∧ net.connect = none ∧
        net.handshake = none ∧ net.Delivers parseResponse r := by
  unfold executeHttps
  rcases net.resolve with _ | ec
  · cases timers.connectTimeout <;> rcases net.connect with _ | ec <;>
      rcases net.handshake with _ | ec' <;> simp [writeAndRead_eq_ok_iff, ite_eq_iff]
  · simp

theorem coExecuteHttp_eq_ok_iff (net : Exchange) (r : HttpResponse) :
    coExecuteHttp parseResponse net = .ok r ↔
      net.resolve = none ∧ net.connect = none ∧ net.Delivers parseResponse r := by
  unfold coExecuteHttp
  rcases net.resolve with _ | ec <;> rcases net.connect with _ | ec' <;>
    simp [← readWithTimeout_false, writeAndRead_eq_ok_iff]

theorem coExecuteHttps_eq_ok_iff (net : Exchange) (r : HttpResponse) :
    coExecuteHttps parseResponse net = .ok r ↔
      net.resolve = none ∧ net.connect = none ∧ net.handshake = none ∧
        net.Delivers parseResponse r := by
  unfold coExecuteHttps
  rcases net.resolve with _ | ec <;> rcases net.connect with _ | ec' <;>
    rcases net.handshake with _ | ec'' <;> simp [← readWithTimeout_false, writeAndRead_eq_ok_iff]

/-- Each of the four executors returns a response exactly when its resolve, connect,
handshake (for HTTPS) and write succeed, no connect timer fired, and the read loop ended at
`eof` or `stream_truncated`; the response is `parse_response` of every byte received. -/
theorem executors_eq_ok_iff (timers : TimerEvents) (net : Exchange) (r : HttpResponse) :
    (executeHttp parseResponse timers net = .ok r ↔
      net.resolve = none ∧ timers.connectTimeout = false ∧ net.connect = none ∧
        net.Delivers parseResponse r) ∧
    (executeHttps parseResponse timers net = .ok r ↔
      net.resolve = none ∧ timers.connectTimeout = false ∧ net.connect = none ∧
        net.handshake = none ∧ net.Delivers parseResponse r) ∧
    (coExecuteHttp parseResponse net = .ok r ↔
      net.resolve = none ∧ net.connect = none ∧ net.Delivers parseResponse r) ∧
    (coExecuteHttps parseResponse net = .ok r ↔
      net.resolve = none ∧ net.connect = none ∧ net.handshake = none ∧
        net.Delivers parseResponse r) :=
  ⟨executeHttp_eq_ok_iff parseResponse timers net r,
    executeHttps_eq_ok_iff parseResponse timers net r,
    coExecuteHttp_eq_ok_iff parseResponse net r, coExecuteHttps_eq_ok_iff parseResponse net r⟩

end Executors

end CoroHttp
