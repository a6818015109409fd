import CoroHttp.Sse.Blocks

/-!
# `SseEvent::to_string` read back by `parse_sse_stream`

`to_string` (`compression.hpp:216-223`) writes each nonempty field of an event as one line
`name: value`, in the order event, id, retry, data, with no blank line after them, so that
`parse_sse_stream` dispatches the event at the end of the stream. Each line is read back as
the field it was written from when its value is a single line that does not end in `'\r'`
(`SingleLine`), and then `parse_sse_stream` gives back the event (`parseSseStream_toString`).

Events the parser emits can break this: a `data` joined from several `data` lines is written
on one `data:` line whose continuation is read as a field of its own, and a value ending in
`'\r'` loses it as a CRLF ending (`parseSseStream_toString_lossy`).
-/

namespace CoroHttp

/-- A value that `to_string` writes on a line of its own and `parse_sse_stream` reads back
whole: no `'\n'` in it and no `'\r'` at its end. -/
def SingleLine (v : List Char) : Prop := '\n' ∉ v ∧ v.getLast? ≠ some '\r'

instance (v : List Char) : Decidable (SingleLine v) := inferInstanceAs (Decidable (_ ∧ _))

/-- The line `to_string` writes for one field is one line for `std::getline`. -/
theorem lines_fieldLine (pre : List Char) {v : List Char} (hpre : '\n' ∉ pre) (hv : '\n' ∉ v)
    (r : List Char) :
    lines ((if v.isEmpty then [] else pre ++ (v ++ ['\n'])) ++ r) =
      (if v.isEmpty then [] else [pre ++ v]) ++ lines r := by
  split
  · rfl
  · rw [lines_eq_splitLines, lines_eq_splitLines, List.append_assoc, List.append_assoc,
      List.singleton_append, ← List.append_assoc, splitLines_line (by simp [hpre, hv])]
    rfl

/-- What a line `name: v` does to the parser: the branch of `parse_sse_line` for field `name`
with value `v`. -/
theorem parseSseLine_fieldLine (name : List Char) {v : List Char} (hname : ':' ∉ name)
    (hne : name ≠ []) (hv : v.getLast? ≠ some '\r') (p : SseParser) :
    parseSseLine (name ++ ':' :: ' ' :: v) p =
      if name = "event".toList then { p with currentEvent := { p.currentEvent with type := v } }
      else if name = "data".toList then { p with dataLines := p.dataLines ++ [v] }
      else if name = "id".toList then { p with currentEvent := { p.currentEvent with id := v } }
      else if name = "retry".toList then
        { p with currentEvent := { p.currentEvent with retry := v } }
      else
        { p with currentEvent :=
            { p.currentEvent with fields := p.currentEvent.fields.insert name v } } := by
  have hcr : dropCR (name ++ ':' :: ' ' :: v) = name ++ ':' :: ' ' :: v := by
    rw [show name ++ ':' :: ' ' :: v = (name ++ [':', ' ']) ++ v by simp,
      dropCR_append (by simp), dropCR, if_neg hv]
  obtain ⟨c, cs, rfl⟩ := List.exists_cons_of_ne_nil hne
  have hc : c ≠ ':' := fun h => hname (h ▸ List.mem_cons_self _ _)
  rw [parseSseLine, hcr, processLine, if_neg (by simp), if_neg (by simpa using hc),
    splitField_fieldLine hname]

theorem foldl_optLine (c : Bool) (l : List Char) (p : SseParser) :
    (if c then [] else [l]).foldl (fun p l => parseSseLine l p) p =
      if c then p else parseSseLine l p := by
  split <;> rfl

/-- A line `name: v` that `to_string` writes for a field of the current event (`event`, `id`
or `retry`, which `set` writes), read from a state in which that field is still empty: the
field becomes `v`, also when `v` is empty and no line was written. -/
theorem foldl_eventFieldLine (pre : List Char) (set : SseEvent → List Char → SseEvent)
    {v : List Char} {p : SseParser}
    (hline : parseSseLine (pre ++ v) p = { p with currentEvent := set p.currentEvent v })
    (hp : set p.currentEvent [] = p.currentEvent) :
    (if v.isEmpty then [] else [pre ++ v]).foldl (fun p l => parseSseLine l p) p =
      { p with currentEvent := set p.currentEvent v } := by
  rw [foldl_optLine]
  split_ifs with h
  · rw [List.isEmpty_iff.mp h, hp]
  · exact hline

theorem foldl_dataLine {v : List Char} (hv : v.getLast? ≠ some '\r') (p : SseParser) :
    (if v.isEmpty then [] else ["data: ".toList ++ v]).foldl (fun p l => parseSseLine l p) p =
      { p with dataLines := p.dataLines ++ if v.isEmpty then [] else [v] } := by
  rw [foldl_optLine]
  split_ifs with h
  · rw [List.append_nil]
  · exact parseSseLine_fieldLine "data".toList (by decide) (by decide) hv p

/-- `parse_sse_stream` reads back what `to_string` wrote, for every event it could dispatch
(data, type or id nonempty) with no custom fields and single-line values. -/
theorem parseSseStream_toString (e : SseEvent) (hfields : e.fields = .empty)
    (hne : e.empty = false) (htype : SingleLine e.type) (hid : SingleLine e.id)
    (hretry : SingleLine e.retry) (hdata : SingleLine e.data) :
    parseSseStream e.toString = [e] := by
  have hlines : lines e.toString =
      (if e.type.isEmpty then [] else ["event: ".toList ++ e.type]) ++
      (if e.id.isEmpty then [] else ["id: ".toList ++ e.id]) ++
      (if e.retry.isEmpty then [] else ["retry: ".toList ++ e.retry]) ++
      (if e.data.isEmpty then [] else ["data: ".toList ++ e.data]) := by
    rw [← List.append_nil e.toString, SseEvent.toString]
    simp only [List.append_assoc]
    rw [lines_fieldLine "event: ".toList (by decide) htype.1,
      lines_fieldLine "id: ".toList (by decide) hid.1,
      lines_fieldLine "retry: ".toList (by decide) hretry.1,
      lines_fieldLine "data: ".toList (by decide) hdata.1, lines_nil, List.append_nil]
  rw [parseSseStream, hlines, List.foldl_append, List.foldl_append, List.foldl_append,
    @foldl_eventFieldLine "event: ".toList (fun e v => { e with type := v }) e.type _
      (parseSseLine_fieldLine "event".toList (by decide) (by decide) htype.2 _),
    @foldl_eventFieldLine "id: ".toList (fun e v => { e with id := v }) e.id _
      (parseSseLine_fieldLine "id".toList (by decide) (by decide) hid.2 _),
    @foldl_eventFieldLine "retry: ".toList (fun e v => { e with retry := v }) e.retry _
      (parseSseLine_fieldLine "retry".toList (by decide) (by decide) hretry.2 _),
    foldl_dataLine hdata.2]
  -- `event`, `id` and `retry` are still empty when their lines are read
  rotate_left
  iterate 3 rfl
  rcases e with ⟨type, data, id, retry, fields⟩
  subst hfields
  simp only [SseEvent.empty] at hne
  rcases data with _ | ⟨c, cs⟩
  · cases ht : type.isEmpty <;> cases hi : id.isEmpty <;>
      simp_all [SseParser.endOfStream, SseParser.pending, SseParser.dispatched, SseParser.joined,
        SseParser.init, SseEvent.init, SseEvent.empty]
  · simp [SseParser.endOfStream, SseParser.pending, SseParser.dispatched, SseParser.joined,
      SseParser.init, SseEvent.init, SseEvent.empty, List.intercalate]

theorem parseSseStream_toString_message :
    (SseEvent.mk "update".toList "hello".toList "7".toList "3000".toList .empty).fields = .empty ∧
      (SseEvent.mk "update".toList "hello".toList "7".toList "3000".toList .empty).empty = false ∧
      SingleLine "update".toList ∧ SingleLine "7".toList ∧ SingleLine "3000".toList ∧
      SingleLine "hello".toList ∧
      parseSseStream (SseEvent.mk "update".toList "hello".toList "7".toList "3000".toList
        .empty).toString =
        [SseEvent.mk "update".toList "hello".toList "7".toList "3000".toList .empty] :=
  ⟨rfl, rfl, by decide, by decide, by decide, by decide,
    parseSseStream_toString _ rfl rfl (by decide) (by decide) (by decide) (by decide)⟩

/-- Two events `parse_sse_stream` emits that `to_string` does not preserve: data `"a\nb"`,
joined from two `data` lines, comes back as data `"a"` and a field `b`; data `"a\r"` comes back
as `"a"`. -/
theorem parseSseStream_toString_lossy :
    (parseSseStream "data: a\ndata: b\n\n".toList = [⟨[], "a\nb".toList, [], [], .empty⟩] ∧
      parseSseStream (SseEvent.toString ⟨[], "a\nb".toList, [], [], .empty⟩) ≠
        [⟨[], "a\nb".toList, [], [], .empty⟩]) ∧
    (parseSseStream "data: a\r\r\n\n".toList = [⟨[], "a\r".toList, [], [], .empty⟩] ∧
      parseSseStream (SseEvent.toString ⟨[], "a\r".toList, [], [], .empty⟩) ≠
        [⟨[], "a\r".toList, [], [], .empty⟩]) := by
  decide

end CoroHttp
