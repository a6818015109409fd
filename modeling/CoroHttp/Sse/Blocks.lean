import CoroHttp.Sse.Parser

/-!
# SSE block semantics

The SSE format read as the WHATWG text describes it: the input cut into lines at `'\n'`,
one trailing `'\r'` dropped from each, the lines cut into blocks at empty lines, and each
block read on its own. A block's `event`, `id` and `retry` are its last line of that field,
its data its `data` lines joined by `"\n"`, and it yields an event when data, type or id is
nonempty. The dropping of `'\r'` and the split of a line at its first `:` are written here
from the format's words (`removeTrailingCR`, `splitAtColon`), and `dropCR_eq_removeTrailingCR`
and `splitField_eq_splitAtColon` show the parser's own helpers do the same.

`parseSseStream_view` says `parse_sse_stream` gives exactly these events, compared on type,
id, retry and data. The proof runs the parser over the lines with an invariant, `Tracks`,
tying its state to the block read so far. The state is reset only when a blank line
dispatches, so custom fields of a block that dispatches nothing stay in `current_event`:
`parseSseStream_append_view` is the concatenation law on the four compared fields, and
`parseSseStream_not_self_contained` shows the fields map breaking it.

The guard that decides whether a blank line dispatches counts `retry`, but the test before
`push_back` does not: a block that sets only `retry` is reset and yields nothing
(`parseSseStream_drops_retry_hint`).
-/

namespace CoroHttp

/-- A line without one trailing `'\r'`, as the format reads it. -/
def removeTrailingCR : List Char → List Char
  | [] => []
  | [c] => if c = '\r' then [] else [c]
  | c :: d :: cs => c :: removeTrailingCR (d :: cs)

/-- A line split at its first `:` into a field name and a value that loses one leading space;
a line without `:` is a field with an empty value. -/
def splitAtColon : List Char → List Char × List Char
  | [] => ([], [])
  | ':' :: ' ' :: value => ([], value)
  | ':' :: value => ([], value)
  | c :: rest => (c :: (splitAtColon rest).1, (splitAtColon rest).2)

/-- The lines cut into blocks at empty lines, `cur` being the block read so far; the last
block needs no empty line after it. -/
def blocksFrom (cur : List (List Char)) : List (List Char) → List (List (List Char))
  | [] => [cur]
  | l :: ls => if l = [] then cur :: blocksFrom [] ls else blocksFrom (cur ++ [l]) ls

/-- The fields of a block: its lines other than comments, split at their first `:`. -/
def blockFields (block : List (List Char)) : List (List Char × List Char) :=
  (block.filter fun l => l.head? ≠ some ':').map splitAtColon

/-- The values of the fields named `name`, in order. -/
def fieldValues (fs : List (List Char × List Char)) (name : List Char) : List (List Char) :=
  (fs.filter fun f => f.1 = name).map Prod.snd

/-- The value of the last field named `name`, `""` when there is none. -/
def lastValue (fs : List (List Char × List Char)) (name : List Char) : List Char :=
  ((fieldValues fs name).getLast?).getD []

/-- The event a block stands for, as `(type, id, retry, data)`: none unless its data, type
or id is nonempty. -/
def blockEvent (block : List (List Char)) :
    Option (List Char × List Char × List Char × List Char) :=
  let fs := blockFields block
  let type := lastValue fs "event".toList
  let id := lastValue fs "id".toList
  let retry := lastValue fs "retry".toList
  let data := "\n".toList.intercalate (fieldValues fs "data".toList)
  if data = [] ∧ type = [] ∧ id = [] then none else some (type, id, retry, data)

/-- The events of `s` under the block semantics. -/
def sseBlockEvents (s : List Char) : List (List Char × List Char × List Char × List Char) :=
  (blocksFrom [] ((splitLines s).map removeTrailingCR)).filterMap blockEvent

/-- An event as `(type, id, retry, data)`. -/
def SseEvent.view (e : SseEvent) : List Char × List Char × List Char × List Char :=
  (e.type, e.id, e.retry, e.data)

/-! `parse_sse_line`'s own `'\r'` dropping and field split are the format's. -/

theorem dropCR_eq_removeTrailingCR : ∀ l, dropCR l = removeTrailingCR l
  | [] => rfl
  | [c] => by by_cases h : c = '\r' <;> simp [dropCR, removeTrailingCR, h]
  | c :: d :: cs => by
    rw [removeTrailingCR, ← dropCR_eq_removeTrailingCR (d :: cs)]
    simp only [dropCR, List.getLast?_cons_cons, List.dropLast_cons₂]
    split_ifs <;> rfl

theorem splitField_eq_splitAtColon (l : List Char) : splitField l = splitAtColon l := by
  rw [splitField_eq_takeWhile]
  induction l with
  | nil => rfl
  | cons c rest ih =>
    by_cases hc : c = ':'
    · subst hc
      rcases rest with _ | ⟨d, v⟩
      · rfl
      · by_cases hd : d = ' '
        · subst hd
          rfl
        · simp [splitAtColon, dropSpace, hd]
    · simp [splitAtColon, hc, ← ih]

@[simp] theorem intercalate_nil_right (sep : List Char) : sep.intercalate [] = [] := rfl

theorem blockFields_append (block : List (List Char)) (l : List Char) :
    blockFields (block ++ [l]) =
      blockFields block ++ if l.head? = some ':' then [] else [splitAtColon l] := by
  by_cases h : l.head? = some ':' <;> simp [blockFields, h]

@[simp] theorem fieldValues_append (fs : List (List Char × List Char)) (f : List Char × List Char)
    (name : List Char) :
    fieldValues (fs ++ [f]) name = fieldValues fs name ++ if f.1 = name then [f.2] else [] := by
  by_cases h : f.1 = name <;> simp [fieldValues, h]

@[simp] theorem lastValue_append (fs : List (List Char × List Char)) (f : List Char × List Char)
    (name : List Char) :
    lastValue (fs ++ [f]) name = if f.1 = name then f.2 else lastValue fs name := by
  by_cases h : f.1 = name <;> simp [lastValue, h]

/-- The parser's state stands for the block read so far: `current_event` holds that block's
last `event`, `id` and `retry` and an empty `data`, and `data_lines` its `data` values. -/
structure SseParser.Tracks (p : SseParser) (block : List (List Char)) : Prop where
  data : p.currentEvent.data = []
  type : p.currentEvent.type = lastValue (blockFields block) "event".toList
  id : p.currentEvent.id = lastValue (blockFields block) "id".toList
  retry : p.currentEvent.retry = lastValue (blockFields block) "retry".toList
  dataLines : p.dataLines = fieldValues (blockFields block) "data".toList

namespace SseParser.Tracks

variable {p : SseParser} {block : List (List Char)}

theorem init : Tracks SseParser.init [] := ⟨rfl, rfl, rfl, rfl, rfl⟩

/-- The events a dispatch adds are the block's event, if it has one. -/
theorem endOfStream_view (h : Tracks p block) :
    p.endOfStream.map SseEvent.view = p.events.map SseEvent.view ++ (blockEvent block).toList := by
  simp only [endOfStream, dispatched, pending, joined, SseEvent.empty, blockEvent, h.data, h.type,
    h.id, h.retry, h.dataLines, List.nil_append]
  generalize fieldValues (blockFields block) "data".toList = ds
  generalize lastValue (blockFields block) "event".toList = t
  generalize lastValue (blockFields block) "id".toList = i
  generalize lastValue (blockFields block) "retry".toList = r
  by_cases hc : "\n".toList.intercalate ds = [] ∧ t = [] ∧ i = []
  · obtain ⟨hd, rfl, rfl⟩ := hc
    rw [hd]
    simp
  · have hpend : (!ds.isEmpty || !t.isEmpty || !i.isEmpty || !r.isEmpty) = true := by
      cases ds <;> cases t <;> cases i <;> simp_all
    rw [if_pos hpend, if_neg (by simpa [List.isEmpty_iff] using hc), if_neg hc]
    simp [SseEvent.view]

/-- A blank line dispatches the block read so far and starts an empty one. -/
theorem blank (h : Tracks p block) :
    (processLine [] p).events = p.endOfStream ∧ Tracks (processLine [] p) [] := by
  cases hp : p.pending
  · have hstep : processLine [] p = p := by simp [processLine, hp]
    simp only [pending, Bool.or_eq_false_iff, Bool.not_eq_false', List.isEmpty_iff] at hp
    obtain ⟨⟨⟨hd, ht⟩, hi⟩, hr⟩ := hp
    rw [hstep, endOfStream, if_neg (by simp [pending, hd, ht, hi, hr])]
    exact ⟨rfl, h.data, ht, hi, hr, hd⟩
  · have hstep : processLine [] p = ⟨.init, [], p.dispatched⟩ := by simp [processLine, hp]
    rw [hstep, endOfStream, hp, if_pos rfl]
    exact ⟨rfl, rfl, rfl, rfl, rfl, rfl⟩

/-- A nonblank line extends the block read so far and dispatches nothing. -/
theorem line {l : List Char} (hl : l ≠ []) (h : Tracks p block) :
    (processLine l p).events = p.events ∧ Tracks (processLine l p) (block ++ [l]) := by
  obtain ⟨hd, ht, hi, hr, hdl⟩ := h
  rw [processLine, if_neg hl]
  by_cases hc : l.head? = some ':'
  · have hb : blockFields (block ++ [l]) = blockFields block := by
      rw [blockFields_append, if_pos hc, List.append_nil]
    rw [if_pos hc]
    exact ⟨rfl, hd, hb ▸ ht, hb ▸ hi, hb ▸ hr, hb ▸ hdl⟩
  · rcases hs : splitField l with ⟨field, value⟩
    have hb : blockFields (block ++ [l]) = blockFields block ++ [(field, value)] := by
      rw [blockFields_append, if_neg hc, ← splitField_eq_splitAtColon, hs]
    rw [if_neg hc]
    dsimp only
    split_ifs <;> refine ⟨rfl, ?_⟩ <;> constructor <;>
      simp +decide only [hb, lastValue_append, fieldValues_append, hd, ht, hi, hr, hdl, *, ite_true,
        ite_false, List.append_nil]

end SseParser.Tracks

/-- The parser run over the lines of a stream from a state that stands for `block` adds the
events of the blocks those lines complete, and the end-of-stream dispatch the last one's. -/
theorem foldl_processLine_view : ∀ (ls : List (List Char)) (p : SseParser)
    (block : List (List Char)), p.Tracks block →
    ((ls.foldl (fun p l => processLine l p) p).endOfStream).map SseEvent.view =
      p.events.map SseEvent.view ++ (blocksFrom block ls).filterMap blockEvent
  | [], p, block, h => by simpa [blocksFrom] using h.endOfStream_view
  | l :: ls, p, block, h => by
    by_cases hl : l = []
    · subst hl
      obtain ⟨he, h'⟩ := h.blank
      rw [List.foldl_cons, foldl_processLine_view ls _ [] h', he, h.endOfStream_view]
      cases hb : blockEvent block <;> simp [blocksFrom, List.filterMap_cons, hb]
    · obtain ⟨he, h'⟩ := h.line hl
      rw [List.foldl_cons, foldl_processLine_view ls _ _ h', he]
      simp [blocksFrom, hl]

theorem parseSseStream_map_view (s : List Char) :
    (parseSseStream s).map SseEvent.view =
      (blocksFrom [] ((lines s).map dropCR)).filterMap blockEvent := by
  simpa [parseSseStream, parseSseLine, List.foldl_map, SseParser.init] using
    foldl_processLine_view ((lines s).map dropCR) _ _ SseParser.Tracks.init

/-- `parse_sse_stream` follows the block semantics of SSE on every input: its events,
compared on type, id, retry and data, are those of the blocks of the input's lines. -/
theorem parseSseStream_view (s : List Char) :
    (parseSseStream s).map SseEvent.view = sseBlockEvents s := by
  rw [parseSseStream_map_view, lines_eq_splitLines, sseBlockEvents,
    funext dropCR_eq_removeTrailingCR]

/-- A block whose only line is `retry: v` passes the dispatch guard, which counts `retry`, but
`SseEvent::empty()` does not count it: the event is dropped and the hint with it. -/
theorem parseSseStream_drops_retry_hint (v : List Char) (hv : '\n' ∉ v) :
    parseSseStream ("retry: ".toList ++ v ++ "\n\n".toList) = [] := by
  have hlines : lines ("retry: ".toList ++ v ++ "\n\n".toList) = ["retry: ".toList ++ v, []] := by
    rw [lines_eq_splitLines, show "retry: ".toList ++ v ++ "\n\n".toList =
      ("retry: ".toList ++ v) ++ '\n' :: ['\n'] by simp, splitLines_line (by simpa using hv)]
    rfl
  have hevent : blockEvent ["retry".toList ++ ':' :: ' ' :: dropCR v] = none := by
    rw [blockEvent, blockFields, List.filter_cons_of_pos (by simp), List.filter_nil,
      List.map_singleton, ← splitField_eq_splitAtColon, splitField_fieldLine (by decide)]
    simp [fieldValues, lastValue]
  apply List.map_eq_nil_iff.mp
  rw [parseSseStream_map_view, hlines, List.map_cons, dropCR_append (by decide) v]
  show [["retry".toList ++ ':' :: ' ' :: dropCR v], []].filterMap blockEvent = []
  rw [List.filterMap_cons, hevent]
  rfl

theorem parseSseStream_drops_retry_3000 :
    '\n' ∉ "3000".toList ∧ parseSseStream ("retry: ".toList ++ "3000".toList ++ "\n\n".toList) = [] :=
  ⟨by decide, parseSseStream_drops_retry_hint _ (by decide)⟩

theorem blocksFrom_append_blank (cur : List (List Char)) (ls ms : List (List Char)) :
    blocksFrom cur (ls ++ [] :: ms) = blocksFrom cur ls ++ blocksFrom [] ms := by
  induction ls generalizing cur with
  | nil => simp [blocksFrom]
  | cons l ls ih => by_cases hl : l = [] <;> simp [blocksFrom, hl, ih]

/-- After a stream whose last line is blank, the parser's events on a second stream are
that stream's own, on type, id, retry and data: a blank line ends every block. -/
theorem parseSseStream_append_view (a b : List Char) (hnl : a.getLast? = some '\n')
    (hblank : (lines a).getLast?.map dropCR = some []) :
    (parseSseStream (a ++ b)).map SseEvent.view =
      (parseSseStream a ++ parseSseStream b).map SseEvent.view := by
  rw [List.map_append, parseSseStream_map_view, parseSseStream_map_view, parseSseStream_map_view]
  obtain ⟨l, hl, hlast⟩ := Option.map_eq_some'.mp hblank
  obtain ⟨ls, hls⟩ : ∃ ls, lines a = ls ++ [l] :=
    ⟨(lines a).dropLast, (List.dropLast_append_getLast? l hl).symm⟩
  have hab : lines (a ++ b) = lines a ++ lines b := by
    simp only [lines_eq_splitLines]
    exact splitLines_append hnl b
  have hempty : blockEvent [] = none := rfl
  rw [hab, hls]
  simp only [List.map_append, List.map_cons, List.map_nil, hlast, List.append_assoc,
    List.singleton_append, blocksFrom_append_blank, List.filterMap_append]
  simp [blocksFrom, hempty]

theorem parseSseStream_append_view_two_events :
    "data: a\n\n".toList.getLast? = some '\n' ∧
      (lines "data: a\n\n".toList).getLast?.map dropCR = some [] ∧
      (parseSseStream ("data: a\n\n".toList ++ "data: b\n\n".toList)).map SseEvent.view =
        (parseSseStream "data: a\n\n".toList ++ parseSseStream "data: b\n\n".toList).map
          SseEvent.view :=
  ⟨by decide, by decide, parseSseStream_append_view _ _ (by decide) (by decide)⟩

/-- Two ways the events of a concatenation are not the concatenated events: custom fields of
a block that dispatches nothing survive its blank line into the next event, and a last line
`"\r"` without `'\n'` joins the next stream's first line. -/
theorem parseSseStream_not_self_contained :
    ((lines "x: 1\n\n".toList).getLast?.map dropCR = some [] ∧
      parseSseStream ("x: 1\n\n" ++ "data: d\n\n").toList ≠
        parseSseStream "x: 1\n\n".toList ++ parseSseStream "data: d\n\n".toList) ∧
    ((lines "x\n\r".toList).getLast?.map dropCR = some [] ∧
      (parseSseStream ("x\n\r" ++ "data: d\n").toList).map SseEvent.view ≠
        (parseSseStream "x\n\r".toList ++ parseSseStream "data: d\n".toList).map SseEvent.view) := by
  decide

end CoroHttp
