import CoroHttp.Sse.Parser

/-!
# What the SSE parser emits

`parse_sse_line` (`compression.hpp:319-385`) pushes `current_event` only behind
`if (!current_event.empty())`, and stores in `fields` only a field name that is none of
`event`, `data`, `id`, `retry`, cut at the line's first `:`. So over every sequence of lines
fed to it from empty state, and over every input of `parse_sse_stream`, each event emitted
has data, a type or an id, and custom fields with nonempty names that contain no `:` and
shadow no standard field (`parseSse_events_emittable`). Events are only ever appended, so
once a blank line has been read the events returned so far stay the first ones, whatever
follows (`parseSseStream_events_final`).
-/

namespace CoroHttp

/-- A name `parse_sse_line` stores in `fields`: nonempty, without `:`, and none of the four
fields it handles itself. -/
def CustomFieldName (k : List Char) : Prop :=
  k ≠ [] ∧ ':' ∉ k ∧ k ≠ "event".toList ∧ k ≠ "data".toList ∧ k ≠ "id".toList ∧
    k ≠ "retry".toList

/-- An event the parser can emit: it has data, a type or an id, and its custom fields have
custom names. -/
structure SseEvent.Emittable (e : SseEvent) : Prop where
  nonempty : e.empty = false
  customFields : ∀ k ∈ e.fields.entries.map Prod.fst, CustomFieldName k

/-- The parser state's invariant: every event in `events` is emittable, and `current_event`
holds custom fields with custom names only. -/
structure SseParser.Inv (p : SseParser) : Prop where
  events : ∀ e ∈ p.events, e.Emittable
  customFields : ∀ k ∈ p.currentEvent.fields.entries.map Prod.fst, CustomFieldName k

theorem splitField_fst (line : List Char) :
    (splitField line).1 = line.takeWhile (· ≠ ':') := by
  rw [splitField_eq_takeWhile]

theorem customFieldName_splitField {line : List Char} (hl : line ≠ [])
    (hc : line.head? ≠ some ':') (h1 : (splitField line).1 ≠ "event".toList)
    (h2 : (splitField line).1 ≠ "data".toList) (h3 : (splitField line).1 ≠ "id".toList)
    (h4 : (splitField line).1 ≠ "retry".toList) : CustomFieldName (splitField line).1 := by
  obtain ⟨c, cs, rfl⟩ := List.exists_cons_of_ne_nil hl
  refine ⟨?_, ?_, h1, h2, h3, h4⟩
  · rw [splitField_fst, List.takeWhile_cons_of_pos (by simpa using hc)]
    exact List.cons_ne_nil _ _
  · rw [splitField_fst]
    intro hmem
    simpa using List.mem_takeWhile_imp hmem

/-- `parse_sse_line` on a line that is neither blank nor a comment: the branch of the field
before the line's first `:`. -/
theorem processLine_field {l : List Char} (hl : l ≠ []) (hc : ¬ l.head? = some ':')
    (p : SseParser) :
    processLine l p =
      if (splitField l).1 = "event".toList then
        { p with currentEvent := { p.currentEvent with type := (splitField l).2 } }
      else if (splitField l).1 = "data".toList then
        { p with dataLines := p.dataLines ++ [(splitField l).2] }
      else if (splitField l).1 = "id".toList then
        { p with currentEvent := { p.currentEvent with id := (splitField l).2 } }
      else if (splitField l).1 = "retry".toList then
        { p with currentEvent := { p.currentEvent with retry := (splitField l).2 } }
      else
        { p with currentEvent := { p.currentEvent with
            fields := p.currentEvent.fields.insert (splitField l).1 (splitField l).2 } } := by
  rw [processLine, if_neg hl, if_neg hc]

/-- Only a blank line touches `events`. -/
theorem events_processLine_of_ne_nil {l : List Char} (hl : l ≠ []) (p : SseParser) :
    (processLine l p).events = p.events := by
  by_cases hc : l.head? = some ':'
  · rw [processLine, if_neg hl, if_pos hc]
  · rw [processLine_field hl hc]
    simp only [apply_ite SseParser.events, ite_self]

namespace SseParser.Inv

variable {p : SseParser}

theorem init : Inv SseParser.init :=
  ⟨fun _ h => absurd h (List.not_mem_nil _), fun _ h => absurd h (List.not_mem_nil _)⟩

theorem dispatched (h : Inv p) : ∀ e ∈ p.dispatched, e.Emittable := by
  unfold SseParser.dispatched
  split_ifs with hj
  · exact h.events
  · intro e he
    rcases List.mem_append.mp he with he | he
    · exact h.events e he
    · obtain rfl := List.mem_singleton.mp he
      exact ⟨Bool.eq_false_iff.mpr hj, h.customFields⟩

theorem endOfStream (h : Inv p) : ∀ e ∈ p.endOfStream, e.Emittable := by
  unfold SseParser.endOfStream
  split
  · exact h.dispatched
  · exact h.events

/-- Every line keeps the invariant: a blank line dispatches an emittable event or none and
starts an empty one, and a line of an unknown field stores a custom name. -/
theorem processLine (l : List Char) (h : Inv p) : Inv (processLine l p) := by
  by_cases hl : l = []
  · subst hl
    rw [CoroHttp.processLine, if_pos rfl]
    split
    · exact ⟨h.dispatched, fun _ hk => absurd hk (List.not_mem_nil _)⟩
    · exact h
  refine ⟨by rw [events_processLine_of_ne_nil hl]; exact h.events, fun k hk => ?_⟩
  by_cases hc : l.head? = some ':'
  · rw [CoroHttp.processLine, if_neg hl, if_pos hc] at hk
    exact h.customFields k hk
  rw [processLine_field hl hc] at hk
  by_cases h1 : (splitField l).1 = "event".toList
  · rw [if_pos h1] at hk
    exact h.customFields k hk
  rw [if_neg h1] at hk
  by_cases h2 : (splitField l).1 = "data".toList
  · rw [if_pos h2] at hk
    exact h.customFields k hk
  rw [if_neg h2] at hk
  by_cases h3 : (splitField l).1 = "id".toList
  · rw [if_pos h3] at hk
    exact h.customFields k hk
  rw [if_neg h3] at hk
  by_cases h4 : (splitField l).1 = "retry".toList
  · rw [if_pos h4] at hk
    exact h.customFields k hk
  rw [if_neg h4] at hk
  rcases StdMap.mem_keys_insertEntry.mp hk with rfl | hk
  · exact customFieldName_splitField hl hc h1 h2 h3 h4
  · exact h.customFields k hk

/-- Feeding lines keeps the invariant. -/
theorem foldl_parseSseLine (ls : List (List Char)) (h : Inv p) :
    Inv (ls.foldl (fun p l => parseSseLine l p) p) := by
  induction ls generalizing p with
  | nil => exact h
  | cons l ls ih => exact ih (h.processLine (dropCR l))

end SseParser.Inv

/-- Every event `parse_sse_line` emits from empty state, whatever lines it is fed, and every
event `parse_sse_stream` returns, has data, a type or an id, and custom fields with custom
names only. -/
theorem parseSse_events_emittable :
    (∀ (ls : List (List Char)),
      ∀ e ∈ (ls.foldl (fun p l => parseSseLine l p) SseParser.init).events, e.Emittable) ∧
    ∀ (s : List Char), ∀ e ∈ parseSseStream s, e.Emittable :=
  ⟨fun ls => (SseParser.Inv.foldl_parseSseLine ls SseParser.Inv.init).events,
    fun s => (SseParser.Inv.foldl_parseSseLine (lines s) SseParser.Inv.init).endOfStream⟩


/-! ### Emitted events are final

`parse_sse_line` only ever appends to `events`, and after a blank line nothing is pending for
the end of the stream to dispatch. -/

namespace SseParser

theorem events_dispatched (p : SseParser) : p.events <+: p.dispatched := by
  unfold dispatched
  split_ifs
  · exact List.prefix_refl _
  · exact List.prefix_append _ _

theorem events_endOfStream (p : SseParser) : p.events <+: p.endOfStream := by
  unfold endOfStream
  split_ifs
  · exact p.events_dispatched
  · exact List.prefix_refl _

/-- No line takes back an event: `events` only grows. -/
theorem events_processLine (l : List Char) (p : SseParser) :
    p.events <+: (processLine l p).events := by
  by_cases hl : l = []
  · subst hl
    rw [processLine, if_pos rfl]
    split
    · exact p.events_dispatched
    · exact List.prefix_refl _
  · simp only [events_processLine_of_ne_nil hl, List.prefix_refl]

theorem events_foldl_parseSseLine (ls : List (List Char)) (p : SseParser) :
    p.events <+: (ls.foldl (fun p l => parseSseLine l p) p).events := by
  induction ls generalizing p with
  | nil => exact List.prefix_refl _
  | cons l ls ih => exact (events_processLine (dropCR l) p).trans (ih _)

/-- After a blank line nothing is pending, so the end of the stream dispatches nothing. -/
theorem endOfStream_processLine_nil (p : SseParser) :
    (processLine [] p).endOfStream = (processLine [] p).events := by
  rw [processLine, if_pos rfl]
  split_ifs with h
  · rfl
  · rw [endOfStream, if_neg h]

end SseParser

/-- Once a blank line has been read, the events returned so far are final: `parse_sse_stream`
of a longer input starts with them, whatever follows. -/
theorem parseSseStream_events_final (a b : List Char) (hnl : a.getLast? = some '\n')
    (hblank : (lines a).getLast?.map dropCR = some []) :
    parseSseStream a <+: parseSseStream (a ++ b) := by
  obtain ⟨l, hl, hlast⟩ := Option.map_eq_some'.mp hblank
  obtain ⟨ls, hls⟩ : ∃ ls, lines a = ls ++ [l] :=
    ⟨(lines a).dropLast, (List.dropLast_append_getLast? l hl).symm⟩
  have hstep : ∀ q, [l].foldl (fun p l => parseSseLine l p) q = processLine [] q := fun q => by
    show processLine (dropCR l) q = _
    rw [hlast]
  rw [parseSseStream, parseSseStream, lines_append (.inr hnl), hls]
  simp only [List.foldl_append, hstep, SseParser.endOfStream_processLine_nil]
  exact (SseParser.events_foldl_parseSseLine _ _).trans (SseParser.events_endOfStream _)

/-- The event of `data: a` stays first when a second block follows. -/
theorem parseSseStream_events_final_two_blocks :
    "data: a\n\n".toList.getLast? = some '\n' ∧
      (lines "data: a\n\n".toList).getLast?.map dropCR = some [] ∧
      parseSseStream "data: a\n\n".toList <+:
        parseSseStream ("data: a\n\n".toList ++ "data: b\n".toList) :=
  ⟨by decide, by decide, parseSseStream_events_final _ _ (by decide) (by decide)⟩

end CoroHttp
