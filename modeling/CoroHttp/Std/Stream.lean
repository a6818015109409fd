import Mathlib.Data.List.Basic

/-!
# `std::istringstream` extraction

The two ways `coro_http`'s decoders take text out of an `std::istringstream` built over a
whole string: `std::getline`, which extracts up to the next `'\n'` and consumes it without
storing it, and `istream::read` of a fixed count. A stream is the text not yet extracted and
whether it is still `good()`. Once `eofbit` or `failbit` is set, the sentry of every later
extraction fails, so the two flags are one flag here.

`lines` is what a loop `while (std::getline(stream, line))` visits; `lines_eq_splitLines`
says it is the text cut at every `'\n'`, a last piece after the final `'\n'` counting only
when it is nonempty.
-/

namespace CoroHttp

/-- An `std::istringstream` over a string: the text left to extract, and `good()`. -/
structure IStringStream where
  rest : List Char
  good : Bool
  deriving DecidableEq, Repr

/-- The characters before the first `'\n'`, and what follows that `'\n'` if there is one. -/
def breakLine : List Char → List Char × Option (List Char)
  | [] => ([], none)
  | c :: cs =>
    if c = '\n' then ([], some cs)
    else
      let r := breakLine cs
      (c :: r.1, r.2)

namespace IStringStream

/-- `std::istringstream stream(data)`. -/
def ofString (data : List Char) : IStringStream := ⟨data, true⟩

/-- `std::getline(stream, line)`: the line stored (`none` when the call fails) and the stream
after it. A last line without `'\n'` is extracted and sets `eofbit`; with nothing left to
extract the call fails. -/
def getline (s : IStringStream) : Option (List Char) × IStringStream :=
  if s.good then
    match breakLine s.rest with
    | (line, some rest) => (some line, ⟨rest, true⟩)
    | ([], none) => (none, ⟨[], false⟩)
    | (line, none) => (some line, ⟨[], false⟩)
  else (none, s)

/-- `stream.read(buf, n)`: the characters stored into `buf`, and the stream after it. When
fewer than `n` are left it stores those and sets `eofbit` and `failbit`. -/
def read (s : IStringStream) (n : Nat) : List Char × IStringStream :=
  if s.good then
    if n ≤ s.rest.length then (s.rest.take n, ⟨s.rest.drop n, true⟩)
    else (s.rest, ⟨[], false⟩)
  else ([], s)

/-- The lines visited by `while (std::getline(stream, line))`, with `fuel` bounding the
number of calls. -/
def getlines : Nat → IStringStream → List (List Char)
  | 0, _ => []
  | fuel + 1, s =>
    match s.getline with
    | (some line, s') => line :: getlines fuel s'
    | (none, _) => []

end IStringStream

/-- The lines `std::getline` extracts from `std::istringstream stream(data)` until it fails.
Every successful call consumes a character, so `data.length + 1` calls are enough. -/
def lines (data : List Char) : List (List Char) :=
  IStringStream.getlines (data.length + 1) (.ofString data)

/-- `data` cut at every `'\n'`, the piece after the last `'\n'` kept only when nonempty. -/
def splitLines (data : List Char) : List (List Char) :=
  let pieces := data.splitOn '\n'
  if pieces.getLast? = some [] then pieces.dropLast else pieces

theorem breakLine_of_not_mem {l : List Char} (h : '\n' ∉ l) : breakLine l = (l, none) := by
  induction l with
  | nil => rfl
  | cons c cs ih =>
    simp only [List.mem_cons, not_or] at h
    simp [breakLine, Ne.symm h.1, ih h.2]

theorem breakLine_append {l : List Char} (h : '\n' ∉ l) (r : List Char) :
    breakLine (l ++ '\n' :: r) = (l, some r) := by
  induction l with
  | nil => simp [breakLine]
  | cons c cs ih =>
    simp only [List.mem_cons, not_or] at h
    simp [breakLine, Ne.symm h.1, ih h.2]

/-- Every text is either free of `'\n'` or a `'\n'`-free line, a `'\n'` and the rest. -/
theorem eq_line_or_not_mem (s : List Char) :
    '\n' ∉ s ∨ ∃ l r, '\n' ∉ l ∧ s = l ++ '\n' :: r := by
  induction s with
  | nil => simp
  | cons c cs ih =>
    by_cases hc : c = '\n'
    · exact .inr ⟨[], cs, by simp, by simp [hc]⟩
    · rcases ih with h | ⟨l, r, hl, rfl⟩
      · exact .inl (by simp [Ne.symm hc, h])
      · exact .inr ⟨c :: l, r, by simp [Ne.symm hc, hl], rfl⟩

theorem breakLine_rest_length {s l r : List Char} (h : breakLine s = (l, some r)) :
    r.length < s.length := by
  induction s generalizing l with
  | nil => simp [breakLine] at h
  | cons c cs ih =>
    simp only [breakLine] at h
    split at h
    · cases h; simp
    · simp only [Prod.mk.injEq] at h
      exact Nat.lt_succ_of_lt (@ih (breakLine cs).1 (Prod.ext rfl h.2))

theorem splitLines_of_not_mem {s : List Char} (hs : '\n' ∉ s) (hne : s ≠ []) :
    splitLines s = [s] := by
  have hsplit : s.splitOnP (· == '\n') = [s] :=
    List.splitOnP_eq_single _ _ fun x hx hx' => hs (by rwa [beq_iff_eq.mp hx'] at hx)
  simp [splitLines, List.splitOn, hsplit, hne]

/-- `splitLines` takes off one line at a time. -/
theorem splitLines_line {l : List Char} (hl : '\n' ∉ l) (r : List Char) :
    splitLines (l ++ '\n' :: r) = l :: splitLines r := by
  have hsplit : (l ++ '\n' :: r).splitOnP (· == '\n') = l :: r.splitOnP (· == '\n') :=
    List.splitOnP_first _ _ (fun x hx hx' => hl (by rwa [beq_iff_eq.mp hx'] at hx)) _ (by simp) _
  obtain ⟨p, ps, hp⟩ := List.exists_cons_of_ne_nil (List.splitOnP_ne_nil (· == '\n') r)
  simp only [splitLines, List.splitOn, hsplit, hp]
  split <;> simp_all

/-- Lines of a text that ends with `'\n'` never run into what follows it. -/
theorem splitLines_append {a : List Char} (ha : a.getLast? = some '\n') (b : List Char) :
    splitLines (a ++ b) = splitLines a ++ splitLines b := by
  obtain ⟨n, h⟩ : ∃ n, a.length = n := ⟨_, rfl⟩
  induction n using Nat.strong_induction_on generalizing a with
  | _ n ih =>
    rcases eq_line_or_not_mem a with hs | ⟨l, r, hl, rfl⟩
    · exact absurd (List.mem_of_getLast?_eq_some ha) hs
    · rcases List.eq_nil_or_concat r with rfl | ⟨r', c, rfl⟩
      · rw [List.append_assoc, List.cons_append, List.nil_append, splitLines_line hl,
          splitLines_line hl]
        rfl
      · rw [List.concat_eq_append] at ha h ⊢
        have hc : c = '\n' := by
          rw [show l ++ '\n' :: (r' ++ [c]) = (l ++ '\n' :: r') ++ [c] by simp,
            List.getLast?_concat] at ha
          exact Option.some.inj ha
        subst hc
        rw [List.append_assoc, List.cons_append, splitLines_line hl, splitLines_line hl,
          ih _ (by simp at h ⊢; omega) (List.getLast?_concat _) rfl, List.cons_append]

namespace IStringStream

/-- What is left to extract, counting a `good()` stream at the end as one more. -/
def measure (s : IStringStream) : Nat := if s.good then s.rest.length + 1 else 0

theorem measure_getline_le (s : IStringStream) : s.getline.2.measure ≤ s.measure := by
  unfold getline
  split
  · split
    · simp [measure, *, (breakLine_rest_length ‹_›).le]
    · simp [measure]
    · simp [measure]
  · exact le_rfl

theorem measure_getline_lt {s s' : IStringStream} {line : List Char}
    (h : s.getline = (some line, s')) : s'.measure < s.measure := by
  unfold getline at h
  split at h
  · split at h
    · cases h; simp [measure, *, breakLine_rest_length ‹_›]
    · cases h
    · cases h; simp [measure, *]
  · cases h

theorem measure_read_le (s : IStringStream) (n : Nat) : (s.read n).2.measure ≤ s.measure := by
  unfold read measure
  split_ifs <;> simp_all

@[simp] theorem getline_not_good (rest : List Char) : getline ⟨rest, false⟩ = (none, ⟨rest, false⟩) :=
  rfl

theorem getline_append {l : List Char} (h : '\n' ∉ l) (r : List Char) :
    getline ⟨l ++ '\n' :: r, true⟩ = (some l, ⟨r, true⟩) := by
  simp [getline, breakLine_append h]

theorem read_append (c r : List Char) : read ⟨c ++ r, true⟩ c.length = (c, ⟨r, true⟩) := by
  simp [read]

@[simp] theorem getlines_not_good (fuel : Nat) (rest : List Char) :
    getlines fuel ⟨rest, false⟩ = [] := by
  cases fuel <;> rfl

theorem getlines_eq_splitLines (fuel : Nat) (s : List Char) (h : s.length < fuel) :
    getlines fuel ⟨s, true⟩ = splitLines s := by
  induction fuel generalizing s with
  | zero => omega
  | succ fuel ih =>
    rcases eq_line_or_not_mem s with hs | ⟨l, r, hl, rfl⟩
    · cases s with
      | nil => rfl
      | cons c cs =>
        simp [getlines, getline, breakLine_of_not_mem hs, splitLines_of_not_mem hs]
    · rw [splitLines_line hl]
      simp only [getlines, getline_append hl]
      rw [ih r (by simp at h; omega)]

end IStringStream

theorem lines_eq_splitLines (data : List Char) : lines data = splitLines data :=
  IStringStream.getlines_eq_splitLines _ data (Nat.lt_succ_self _)

@[simp] theorem lines_nil : lines [] = [] := rfl

/-- Text cut at a line boundary: `std::getline` reads the lines of each part in turn. -/
theorem lines_append {a : List Char} (ha : a = [] ∨ a.getLast? = some '\n') (b : List Char) :
    lines (a ++ b) = lines a ++ lines b := by
  rcases ha with rfl | ha
  · rfl
  · simp only [lines_eq_splitLines]
    exact splitLines_append ha b

end CoroHttp
