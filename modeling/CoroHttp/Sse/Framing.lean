import CoroHttp.Sse.Parser

/-!
# Line framing of an SSE stream

`parse_sse_stream` (`compression.hpp:228-315`) cuts its input with `std::getline`, drops one
trailing `'\r'` from each line, and skips a line that starts with `:` before looking at it
any further. So a comment line inserted at any line boundary, inside a block or between
blocks, changes no event (`parseSseStream_comment`), and CRLF line endings read as LF ones
for every text that has no `'\r'` of its own (`parseSseStream_toCRLF`).
-/

namespace CoroHttp

/-- A comment line stays a comment line once its `'\r'` is dropped. -/
theorem dropCR_comment (c : List Char) : ∃ c', dropCR (':' :: c) = ':' :: c' := by
  unfold dropCR
  split_ifs with h
  · rcases c with _ | ⟨d, ds⟩
    · simp at h
    · exact ⟨(d :: ds).dropLast, List.dropLast_cons₂⟩
  · exact ⟨c, rfl⟩

/-- `parse_sse_line` skips a comment line. -/
theorem parseSseLine_comment (c : List Char) (p : SseParser) : parseSseLine (':' :: c) p = p := by
  obtain ⟨c', hc'⟩ := dropCR_comment c
  rw [parseSseLine, hc', processLine, if_neg (List.cons_ne_nil _ _)]
  exact if_pos rfl

/-- `parse_sse_stream` is `parse_sse_line`'s work over the lines with their `'\r'` dropped. -/
theorem parseSseStream_eq (s : List Char) :
    parseSseStream s =
      (((lines s).map dropCR).foldl (fun p l => processLine l p) SseParser.init).endOfStream := by
  rw [parseSseStream, List.foldl_map]
  rfl

/-- A comment line inserted at a line boundary changes nothing. -/
theorem parseSseStream_comment (a b c : List Char) (ha : a = [] ∨ a.getLast? = some '\n')
    (hc : '\n' ∉ c) :
    parseSseStream (a ++ (':' :: c ++ ['\n']) ++ b) = parseSseStream (a ++ b) := by
  have hline : lines ((':' :: c ++ ['\n']) ++ b) = (':' :: c) :: lines b := by
    rw [lines_eq_splitLines, lines_eq_splitLines, List.append_assoc, List.singleton_append,
      splitLines_line (by simpa using hc)]
  rw [List.append_assoc, parseSseStream, parseSseStream, lines_append ha, lines_append ha, hline,
    List.foldl_append, List.foldl_append, List.foldl_cons, parseSseLine_comment]

theorem parseSseStream_comment_keepAlive :
    ("data: a\n".toList = [] ∨ "data: a\n".toList.getLast? = some '\n') ∧
      '\n' ∉ " keep-alive".toList ∧
      parseSseStream ("data: a\n".toList ++ (':' :: " keep-alive".toList ++ ['\n']) ++
        "data: b\n\n".toList) = parseSseStream ("data: a\n".toList ++ "data: b\n\n".toList) :=
  ⟨.inr rfl, by decide, parseSseStream_comment _ _ _ (.inr rfl) (by decide)⟩

/-- The same text with each `'\n'` written as `"\r\n"`. -/
def toCRLF (s : List Char) : List Char :=
  s.flatMap fun c => if c = '\n' then ['\r', '\n'] else [c]

theorem toCRLF_of_not_mem {s : List Char} (hs : '\n' ∉ s) : toCRLF s = s := by
  induction s with
  | nil => rfl
  | cons c cs ih =>
    simp only [List.mem_cons, not_or] at hs
    rw [toCRLF, List.flatMap_cons, if_neg (Ne.symm hs.1)]
    exact congrArg (c :: ·) (ih hs.2)

theorem toCRLF_append (s t : List Char) : toCRLF (s ++ t) = toCRLF s ++ toCRLF t :=
  List.flatMap_append _ _ _

theorem dropCR_of_not_mem {l : List Char} (hl : '\r' ∉ l) : dropCR l = l :=
  if_neg fun h => hl (List.mem_of_getLast?_eq_some h)

/-- Read with their `'\r'` dropped, the lines of the CRLF form are those of the text. -/
theorem map_dropCR_splitLines_toCRLF (s : List Char) (hs : '\r' ∉ s) :
    (splitLines (toCRLF s)).map dropCR = (splitLines s).map dropCR := by
  obtain ⟨n, h⟩ : ∃ n, s.length = n := ⟨_, rfl⟩
  induction n using Nat.strong_induction_on generalizing s with
  | _ n ih =>
    rcases eq_line_or_not_mem s with hn | ⟨l, r, hl, rfl⟩
    · rw [toCRLF_of_not_mem hn]
    · have hlr : '\r' ∉ l ∧ '\r' ∉ r := by simpa [not_or] using hs
      have hcrlf : toCRLF (l ++ '\n' :: r) = (l ++ ['\r']) ++ '\n' :: toCRLF r := by
        rw [toCRLF_append, toCRLF_of_not_mem hl]
        simp [toCRLF]
      rw [hcrlf, splitLines_line (by simpa using hl), splitLines_line hl, List.map_cons,
        List.map_cons, ih r.length (by simp at h ⊢; omega) r hlr.2 rfl, dropCR_of_not_mem hlr.1]
      simp [dropCR]

/-- CRLF and LF line endings give the same events, for every text with no `'\r'` of its own. -/
theorem parseSseStream_toCRLF (s : List Char) (hs : '\r' ∉ s) :
    parseSseStream (toCRLF s) = parseSseStream s := by
  rw [parseSseStream_eq, parseSseStream_eq, lines_eq_splitLines, lines_eq_splitLines,
    map_dropCR_splitLines_toCRLF s hs]

theorem parseSseStream_toCRLF_twoEvents :
    '\r' ∉ "data: a\n\nid: 7\ndata: b\n".toList ∧
      parseSseStream (toCRLF "data: a\n\nid: 7\ndata: b\n".toList) =
        parseSseStream "data: a\n\nid: 7\ndata: b\n".toList :=
  ⟨by decide, parseSseStream_toCRLF _ (by decide)⟩

end CoroHttp
