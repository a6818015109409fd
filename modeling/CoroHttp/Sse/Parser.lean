import CoroHttp.Std.Stream
import CoroHttp.Std.Map

/-!
# The SSE parser

`SseEvent` and the two SSE entry points of `compression.hpp`: `parse_sse_line`
(`compression.hpp:319-385`), which threads `current_event`, `data_lines` and `events` through
reference arguments, and `parse_sse_stream` (`compression.hpp:228-315`), which runs
`std::getline` over the whole input. The body of `parse_sse_stream`'s loop
(`compression.hpp:237-298`) is `parse_sse_line`'s body verbatim, `continue` in place of
`return`, so `parseSseStream` folds `parseSseLine` over `lines` and then makes the
end-of-stream dispatch (`compression.hpp:302-312`), which is the blank-line dispatch without
its reset.
-/

namespace CoroHttp

/-- `SseEvent` (`compression.hpp:205-210`). -/
structure SseEvent where
  type : List Char
  data : List Char
  id : List Char
  retry : List Char
  fields : StdMap (List Char)
  deriving DecidableEq

namespace SseEvent

/-- `SseEvent{}`. -/
def init : SseEvent := ⟨[], [], [], [], .empty⟩

/-- `SseEvent::empty()` (`compression.hpp:212-214`): `retry` and `fields` are not consulted. -/
def empty (e : SseEvent) : Bool := e.data.isEmpty && e.type.isEmpty && e.id.isEmpty

/-- `SseEvent::to_string()` (`compression.hpp:216-223`). -/
def toString (e : SseEvent) : List Char :=
  (if e.type.isEmpty then [] else "event: ".toList ++ e.type ++ ['\n']) ++
  (if e.id.isEmpty then [] else "id: ".toList ++ e.id ++ ['\n']) ++
  (if e.retry.isEmpty then [] else "retry: ".toList ++ e.retry ++ ['\n']) ++
  (if e.data.isEmpty then [] else "data: ".toList ++ e.data ++ ['\n'])

end SseEvent

/-- What `parse_sse_line` takes by reference: `current_event`, `data_lines`, `events`. -/
structure SseParser where
  currentEvent : SseEvent
  dataLines : List (List Char)
  events : List SseEvent

namespace SseParser

/-- Empty `current_event`, `data_lines` and `events`. -/
def init : SseParser := ⟨.init, [], []⟩

/-- The dispatch condition `!data_lines.empty() || !current_event.type.empty() ||
!current_event.id.empty() || !current_event.retry.empty()`. -/
def pending (p : SseParser) : Bool :=
  !p.dataLines.isEmpty || !p.currentEvent.type.isEmpty || !p.currentEvent.id.isEmpty ||
    !p.currentEvent.retry.isEmpty

/-- `current_event` once the loop over `data_lines` has appended them to its `data`,
separated by `"\n"`. -/
def joined (p : SseParser) : SseEvent :=
  { p.currentEvent with data := p.currentEvent.data ++ "\n".toList.intercalate p.dataLines }

/-- `events` after `if (!current_event.empty()) events.push_back(current_event)`. -/
def dispatched (p : SseParser) : List SseEvent :=
  if p.joined.empty then p.events else p.events ++ [p.joined]

/-- The dispatch at the end of the stream (`compression.hpp:302-312`), which has no reset. -/
def endOfStream (p : SseParser) : List SseEvent :=
  if p.pending then p.dispatched else p.events

end SseParser

/-- `line` without one trailing `'\r'`. -/
def dropCR (line : List Char) : List Char :=
  if line.getLast? = some '\r' then line.dropLast else line

/-- `value` without one leading space. -/
def dropSpace : List Char → List Char
  | ' ' :: value => value
  | value => value

/-- The field and value of a line split at its first `:`; a line without `:` is a field
with an empty value (`compression.hpp:268-284`). -/
def splitField (line : List Char) : List Char × List Char :=
  match line.span (· ≠ ':') with
  | (field, []) => (field, [])
  | (field, _ :: value) => (field, dropSpace value)

theorem splitField_eq_takeWhile (l : List Char) :
    splitField l = (l.takeWhile (· ≠ ':'), dropSpace ((l.dropWhile (· ≠ ':')).drop 1)) := by
  rw [splitField, List.span_eq_take_drop]
  rcases l.dropWhile (· ≠ ':') with _ | ⟨x, v⟩ <;> rfl

/-- A line `name: value` with no `:` in `name` splits into `name` and `value`. -/
theorem splitField_fieldLine {name : List Char} (hname : ':' ∉ name) (value : List Char) :
    splitField (name ++ ':' :: ' ' :: value) = (name, value) := by
  have hp : ∀ c ∈ name, decide (c ≠ ':') = true := fun c hc => by
    simpa using fun h : c = ':' => hname (h ▸ hc)
  rw [splitField, List.span_eq_take_drop, List.takeWhile_append_of_pos hp,
    List.dropWhile_append_of_pos hp]
  simp [dropSpace]

/-- Only the last character of a line decides whether a `'\r'` is dropped. -/
theorem dropCR_append {pre : List Char} (hpre : pre.getLast? ≠ some '\r') (v : List Char) :
    dropCR (pre ++ v) = pre ++ dropCR v := by
  by_cases hv : v = []
  · subst hv
    simp [dropCR, hpre]
  · obtain ⟨c, hc⟩ := Option.ne_none_iff_exists'.mp (mt List.getLast?_eq_none_iff.mp hv)
    simp only [dropCR, List.getLast?_append, hc, Option.or_some,
      List.dropLast_append_of_ne_nil _ hv]
    split_ifs <;> rfl

/-- `parse_sse_line`'s work on a line once its trailing `'\r'` is gone
(`compression.hpp:329-384`). -/
def processLine (line : List Char) (p : SseParser) : SseParser :=
  if line = [] then
    if p.pending then ⟨.init, [], p.dispatched⟩ else p
  else if line.head? = some ':' then p
  else
    let (field, value) := splitField line
    if field = "event".toList then { p with currentEvent := { p.currentEvent with type := value } }
    else if field = "data".toList then { p with dataLines := p.dataLines ++ [value] }
    else if field = "id".toList then { p with currentEvent := { p.currentEvent with id := value } }
    else if field = "retry".toList then
      { p with currentEvent := { p.currentEvent with retry := value } }
    else
      { p with currentEvent :=
          { p.currentEvent with fields := p.currentEvent.fields.insert field value } }

/-- `parse_sse_line(line, current_event, data_lines, events)` (`compression.hpp:319-385`). -/
def parseSseLine (line : List Char) (p : SseParser) : SseParser :=
  processLine (dropCR line) p

/-- `parse_sse_stream(stream_data)` (`compression.hpp:228-315`). -/
def parseSseStream (streamData : List Char) : List SseEvent :=
  ((lines streamData).foldl (fun p line => parseSseLine line p) SseParser.init).endOfStream

/-- Feeding `parse_sse_line` the lines `std::getline` extracts from `s` and then one empty
line leaves the events `parse_sse_stream(s)` returns. -/
theorem parseSseLine_lines_agree (s : List Char) :
    ((lines s ++ [[]]).foldl (fun p line => parseSseLine line p) SseParser.init).events =
      parseSseStream s := by
  rw [List.foldl_append, parseSseStream]
  generalize List.foldl (fun p line => parseSseLine line p) SseParser.init (lines s) = q
  show (processLine [] q).events = q.endOfStream
  rw [processLine, if_pos rfl, SseParser.endOfStream]
  split <;> rfl

end CoroHttp
