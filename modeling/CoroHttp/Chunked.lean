import CoroHttp.Std.Stream
import CoroHttp.Std.Conv

/-!
# `decode_chunked`

`decode_chunked` (`part_000:8-35`) reads a size line with `std::getline`, drops one trailing
`'\r'`, skips an empty line, parses the size with `std::stoul(line, nullptr, 16)` (any
exception ends the loop), stops at size zero, and otherwise allocates a `chunk_size` string
of `'\0'`, `read`s into it, appends all of it to the result, and discards the rest of the
line with one more `std::getline`.

The `std::string` length limit is a parameter `maxSize`, the platform's `max_size()`; past it
the constructor and `append` throw `std::length_error`, which nothing catches. Running out of
memory below that limit is not modelled. `line.back()` on an empty `line` is undefined
behaviour, recorded as its own outcome.

`decodeChunked_encodeChunked` decodes every chunked body: any chunks, any hex spelling of
their sizes, any extensions, any trailers and any text after them. A bare `'\n'` after any
run of chunks reaches `line.back()` with an empty line (`decodeChunked_back_of_empty`), a body
cut off before its last chunk decodes without error (`decodeChunked_without_lastChunk`), and a
size past `max_size()`, a negative one among them, throws (`decodeChunked_size_beyond_maxSize`).
Each framing line may also end in a bare `LF` (`decodeChunked_lineEnds`).
-/

namespace CoroHttp

/-- How `decode_chunked` ends without returning a string. -/
inductive DecodeFault
  /-- `std::length_error` from `std::string` past `max_size()`. -/
  | lengthError
  /-- `line.back()` on an empty `line`. -/
  | backOfEmpty
  deriving DecidableEq, Repr

section Decode

variable (maxSize : Nat)

/-- The `while (std::getline(stream, line))` loop of `decode_chunked` (`part_000:13-32`);
`fuel` bounds the number of iterations. -/
def decodeChunkedLoop : Nat → IStringStream → List Char → Except DecodeFault (List Char)
  | 0, _, result => .ok result
  | fuel + 1, stream, result =>
    match stream.getline with
    | (none, _) => .ok result
    | (some line, stream) =>
      match line.getLast? with
      | none => .error .backOfEmpty
      | some last =>
        let line := if last = '\r' then line.dropLast else line
        if line = [] then decodeChunkedLoop fuel stream result
        else
          match stoul line with
          | none => .ok result
          | some chunkSize =>
            if chunkSize = 0 then .ok result
            else if maxSize < chunkSize then .error .lengthError
            else
              let (got, stream) := stream.read chunkSize
              let chunkData := got ++ List.replicate (chunkSize - got.length) '\x00'
              if maxSize < result.length + chunkData.length then .error .lengthError
              else decodeChunkedLoop fuel (stream.getline).2 (result ++ chunkData)

/-- `decode_chunked(data)` (`part_000:8-35`). Every iteration that does not end the loop
consumes a character, so `data.length + 1` iterations are enough (`decodeChunkedLoop_fuel`). -/
def decodeChunked (data : List Char) : Except DecodeFault (List Char) :=
  decodeChunkedLoop maxSize (data.length + 1) (.ofString data) []

/-- One more iteration than the stream's `measure` changes nothing. -/
theorem decodeChunkedLoop_succ :
    ∀ (fuel : Nat) (s : IStringStream) (result : List Char), s.measure ≤ fuel →
      decodeChunkedLoop maxSize (fuel + 1) s result = decodeChunkedLoop maxSize fuel s result
  | 0, ⟨rest, good⟩, result, h => by
    cases good
    · rfl
    · simp [IStringStream.measure] at h
  | fuel + 1, s, result, h => by
    rw [decodeChunkedLoop]
    conv => rhs; rw [decodeChunkedLoop]
    rcases hg : s.getline with ⟨_ | line, s'⟩
    · rfl
    have hs' : s'.measure ≤ fuel := by
      have := IStringStream.measure_getline_lt hg
      omega
    simp only
    rcases line.getLast? with _ | last
    · rfl
    simp only
    generalize (if last = '\r' then line.dropLast else line) = line
    by_cases hempty : line = []
    · rw [if_pos hempty, if_pos hempty]
      exact decodeChunkedLoop_succ fuel s' result hs'
    rw [if_neg hempty, if_neg hempty]
    rcases stoul line with _ | chunkSize
    · rfl
    have hst : (s'.read chunkSize).2.getline.2.measure ≤ fuel :=
      (IStringStream.measure_getline_le _).trans ((IStringStream.measure_read_le _ _).trans hs')
    simp only [decodeChunkedLoop_succ fuel _ _ hst]

/-- The loop has run to its end once the fuel reaches the stream's `measure`, so the fuel
`decodeChunked` gives it is never what stops it. -/
theorem decodeChunkedLoop_fuel (s : IStringStream) (result : List Char) (k : Nat) :
    decodeChunkedLoop maxSize (s.measure + k) s result =
      decodeChunkedLoop maxSize s.measure s result := by
  induction k with
  | zero => rfl
  | succ k ih => rw [← Nat.add_assoc, decodeChunkedLoop_succ maxSize _ _ _ (by omega), ih]

end Decode

/-- A size line announcing more bytes than follow: `read` stops short, and the rest of the
`chunk_size` buffer, still `'\0'`, is appended as if it had been read. The result is longer
than the input, so it is not made of the input's bytes. -/
theorem decodeChunked_pads_short_chunk (maxSize : Nat) (h : 9 ≤ maxSize) :
    decodeChunked maxSize "9\r\nab".toList = .ok ("ab".toList ++ List.replicate 7 '\x00') ∧
      ¬ ("ab".toList ++ List.replicate 7 '\x00').Sublist "9\r\nab".toList := by
  obtain ⟨k, rfl⟩ : ∃ k, maxSize = k + 9 := ⟨maxSize - 9, by omega⟩
  exact ⟨rfl, fun hs => absurd hs.length_le (by decide)⟩

theorem decodeChunked_pads_short_chunk_at_nine :
    9 ≤ 9 ∧ decodeChunked 9 "9\r\nab".toList = .ok ("ab".toList ++ List.replicate 7 '\x00') :=
  ⟨le_rfl, (decodeChunked_pads_short_chunk 9 le_rfl).1⟩

/-! ## The wire format a sender writes -/

/-- One chunk as a sender writes it: its size in hex, a chunk extension, its data. -/
structure WireChunk where
  size : List Char
  ext : List Char
  data : List Char

/-- `size` spells `n` in hex: digits of either letter case, leading zeros allowed. -/
def HexSpelling (size : List Char) (n : Nat) : Prop :=
  size ≠ [] ∧ (∀ c ∈ size, IsHexDigit c) ∧ hexValue (hexRun size) = n

/-- A chunk extension: nothing, or `;` followed by characters other than CR and LF. -/
def IsChunkExt (ext : List Char) : Prop :=
  ext = [] ∨ ∃ t, ext = ';' :: t ∧ '\r' ∉ t ∧ '\n' ∉ t

instance (c : Char) : Decidable (IsHexDigit c) := inferInstanceAs (Decidable (_ = _))

instance (size : List Char) (n : Nat) : Decidable (HexSpelling size n) :=
  inferInstanceAs (Decidable (_ ∧ _ ∧ _))

instance (ext : List Char) : Decidable (IsChunkExt ext) :=
  decidable_of_iff (ext = [] ∨ (ext.head? = some ';' ∧ '\r' ∉ ext ∧ '\n' ∉ ext)) <| by
    cases ext with
    | nil => simp [IsChunkExt]
    | cons c t =>
      constructor
      · rintro (h | ⟨hc, hr, hn⟩)
        · cases h
        · cases hc
          exact .inr ⟨t, rfl, fun h => hr (.tail _ h), fun h => hn (.tail _ h)⟩
      · rintro (h | ⟨t', h, hr, hn⟩)
        · cases h
        · cases h
          exact .inr ⟨rfl, by simp [hr], by simp [hn]⟩

/-- A nonempty chunk whose size line spells its length. -/
def WireChunk.WellFormed (c : WireChunk) : Prop :=
  c.data ≠ [] ∧ HexSpelling c.size c.data.length ∧ IsChunkExt c.ext

instance (c : WireChunk) : Decidable c.WellFormed := inferInstanceAs (Decidable (_ ∧ _ ∧ _))

/-- `CR LF`. -/
def crlf : List Char := ['\r', '\n']

/-- `size[ext] CRLF data CRLF`. -/
def WireChunk.encode (c : WireChunk) : List Char := c.size ++ c.ext ++ crlf ++ c.data ++ crlf

/-- A chunked body: the chunks, then `0[ext] CRLF trailers CRLF`, with `lastSize` a spelling
of zero. -/
def encodeChunked (chunks : List WireChunk) (lastSize lastExt trailers : List Char) :
    List Char :=
  chunks.flatMap WireChunk.encode ++ (lastSize ++ lastExt ++ crlf ++ trailers ++ crlf)

/-! `decode_chunked` drops a `'\r'` only when a line ends in one, so it also reads lines that
end in a bare `LF`. A `FramedChunk` is a chunk with the ending its sender chose for each of
its two lines; a `WireChunk` is the one whose lines both end in `CR LF`, and the decoding
lemmas below are proved once, for framed chunks. -/

/-- A line ending `decode_chunked` reads a line up to: `CR LF`, or a bare `LF`. -/
def LineEnd (eol : List Char) : Prop := eol = crlf ∨ eol = ['\n']

/-- A chunk with the endings a sender chose for its size line and for its data. -/
structure FramedChunk where
  chunk : WireChunk
  sizeEnd : List Char
  dataEnd : List Char

/-- `size[ext] sizeEnd data dataEnd`. -/
def FramedChunk.encode (f : FramedChunk) : List Char :=
  f.chunk.size ++ f.chunk.ext ++ f.sizeEnd ++ f.chunk.data ++ f.dataEnd

/-- A well-formed chunk whose two lines end in `CR LF` or `LF`. -/
def FramedChunk.WellFormed (f : FramedChunk) : Prop :=
  f.chunk.WellFormed ∧ LineEnd f.sizeEnd ∧ LineEnd f.dataEnd

instance (eol : List Char) : Decidable (LineEnd eol) := inferInstanceAs (Decidable (_ ∨ _))

instance (f : FramedChunk) : Decidable f.WellFormed := inferInstanceAs (Decidable (_ ∧ _ ∧ _))

/-- A chunk as `WireChunk.encode` frames it, both lines ended by `CR LF`. -/
def WireChunk.crlfFramed (c : WireChunk) : FramedChunk := ⟨c, crlf, crlf⟩

theorem WireChunk.WellFormed.crlfFramed {c : WireChunk} (hc : c.WellFormed) :
    c.crlfFramed.WellFormed :=
  ⟨hc, .inl rfl, .inl rfl⟩

theorem flatMap_crlfFramed_encode (chunks : List WireChunk) :
    (chunks.map WireChunk.crlfFramed).flatMap FramedChunk.encode =
      chunks.flatMap WireChunk.encode := by
  rw [List.flatMap_map]
  rfl

theorem flatMap_crlfFramed_data (chunks : List WireChunk) :
    ((chunks.map WireChunk.crlfFramed).flatMap fun f => f.chunk.data) =
      chunks.flatMap WireChunk.data := by
  rw [List.flatMap_map]
  rfl

/-! ## Decoding a chunked body -/

theorem not_mem_newline_of_hexSpelling {size : List Char} {n : Nat} (h : HexSpelling size n) :
    '\n' ∉ size := fun hm => (h.2.1 _ hm).ne (by decide) rfl

theorem IsChunkExt.not_mem_newline {ext : List Char} (h : IsChunkExt ext) : '\n' ∉ ext := by
  rcases h with rfl | ⟨t, rfl, -, ht⟩
  · simp
  · simpa using ht

theorem IsChunkExt.eq_nil_or_head {ext : List Char} (h : IsChunkExt ext) :
    ext = [] ∨ ext.head? = some ';' := by
  rcases h with rfl | ⟨t, rfl, -⟩ <;> simp

theorem LineEnd.getline {eol : List Char} (heol : LineEnd eol) {l : List Char} (hl : '\n' ∉ l)
    (rest : List Char) :
    (IStringStream.getline ⟨l ++ eol ++ rest, true⟩).2 = ⟨rest, true⟩ := by
  rcases heol with rfl | rfl
  · rw [show l ++ crlf ++ rest = (l ++ ['\r']) ++ '\n' :: rest by simp [crlf],
      IStringStream.getline_append (by simp [hl])]
  · rw [List.append_assoc, List.singleton_append, IStringStream.getline_append hl]

/-- A size line read by `std::stoul` as `n`, ended by `CR LF`. -/
theorem decodeChunkedLoop_stoulLine {maxSize fuel : Nat} {line : List Char} {n : Nat}
    (hline : '\n' ∉ line) (hn : stoul line = some n) (rest result : List Char) :
    decodeChunkedLoop maxSize (fuel + 1) ⟨line ++ crlf ++ rest, true⟩ result =
      if n = 0 then .ok result
      else if maxSize < n then .error .lengthError
      else
        let (got, stream) := IStringStream.read ⟨rest, true⟩ n
        let chunkData := got ++ List.replicate (n - got.length) '\x00'
        if maxSize < result.length + chunkData.length then .error .lengthError
        else decodeChunkedLoop maxSize fuel (stream.getline).2 (result ++ chunkData) := by
  have hnl : '\n' ∉ line ++ ['\r'] := by simp [hline]
  have hne : line ≠ [] := by
    rintro rfl
    cases hn
  rw [show line ++ crlf ++ rest = (line ++ ['\r']) ++ '\n' :: rest by simp [crlf]]
  simp only [decodeChunkedLoop, IStringStream.getline_append hnl]
  simp [hne, hn]

/-- A size line read by `std::stoul` as `n` and ended by a bare `LF`: the line has no `'\r'`
at its end to drop. -/
theorem decodeChunkedLoop_stoulLineLF {maxSize fuel : Nat} {line : List Char} {n : Nat}
    (hline : '\n' ∉ line) (hcr : line.getLast? ≠ some '\r') (hn : stoul line = some n)
    (rest result : List Char) :
    decodeChunkedLoop maxSize (fuel + 1) ⟨line ++ '\n' :: rest, true⟩ result =
      if n = 0 then .ok result
      else if maxSize < n then .error .lengthError
      else
        let (got, stream) := IStringStream.read ⟨rest, true⟩ n
        let chunkData := got ++ List.replicate (n - got.length) '\x00'
        if maxSize < result.length + chunkData.length then .error .lengthError
        else decodeChunkedLoop maxSize fuel (stream.getline).2 (result ++ chunkData) := by
  obtain ⟨last, hlast⟩ : ∃ last, line.getLast? = some last :=
    Option.ne_none_iff_exists'.mp fun h => by
      rw [List.getLast?_eq_none_iff] at h
      subst h
      cases hn
  have hne : line ≠ [] := by
    rintro rfl
    cases hn
  have hlr : last ≠ '\r' := fun h => hcr (h ▸ hlast)
  simp only [decodeChunkedLoop, IStringStream.getline_append hline, hlast, if_neg hlr]
  simp [hne, hn]

theorem getLast?_size_ext {size ext : List Char} {n : Nat} (hsize : HexSpelling size n)
    (hext : IsChunkExt ext) : (size ++ ext).getLast? ≠ some '\r' := by
  intro h
  rcases List.mem_append.mp (List.mem_of_getLast?_eq_some h) with hm | hm
  · exact (hsize.2.1 _ hm).ne (by decide) rfl
  · rcases hext with rfl | ⟨t, rfl, ht, -⟩
    · cases hm
    · rcases List.mem_cons.mp hm with h | h
      · cases h
      · exact ht h

/-- A size line `size[ext]`, ended by `CR LF` or `LF`, is read as the number `size` spells. -/
theorem decodeChunkedLoop_sizeLineEnd {maxSize fuel : Nat} {size ext eol : List Char} {n : Nat}
    (hsize : HexSpelling size n) (hn : n < 2 ^ 64) (hext : IsChunkExt ext) (heol : LineEnd eol)
    (rest result : List Char) :
    decodeChunkedLoop maxSize (fuel + 1) ⟨size ++ ext ++ eol ++ rest, true⟩ result =
      if n = 0 then .ok result
      else if maxSize < n then .error .lengthError
      else
        let (got, stream) := IStringStream.read ⟨rest, true⟩ n
        let chunkData := got ++ List.replicate (n - got.length) '\x00'
        if maxSize < result.length + chunkData.length then .error .lengthError
        else decodeChunkedLoop maxSize fuel (stream.getline).2 (result ++ chunkData) := by
  have hnl : '\n' ∉ size ++ ext := by
    simp [not_mem_newline_of_hexSpelling hsize, hext.not_mem_newline]
  have hstoul : stoul (size ++ ext) = some n := by
    rw [← hsize.2.2]
    exact stoul_digits hsize.1 hsize.2.1 (hsize.2.2 ▸ hn) ext hext.eq_nil_or_head
  rcases heol with rfl | rfl
  · exact decodeChunkedLoop_stoulLine hnl hstoul rest result
  · rw [List.append_assoc, List.singleton_append]
    exact decodeChunkedLoop_stoulLineLF hnl (getLast?_size_ext hsize hext) hstoul rest result

/-- The last chunk `0[ext]`, ended by `CR LF` or `LF`, ends the loop, whatever follows it. -/
theorem decodeChunkedLoop_lastChunk {maxSize fuel : Nat} {lastSize lastExt eol : List Char}
    (hsize : HexSpelling lastSize 0) (hext : IsChunkExt lastExt) (heol : LineEnd eol)
    (rest result : List Char) :
    decodeChunkedLoop maxSize (fuel + 1) ⟨lastSize ++ lastExt ++ eol ++ rest, true⟩ result =
      .ok result := by
  rw [decodeChunkedLoop_sizeLineEnd hsize (Nat.two_pow_pos 64) hext heol]
  rfl

theorem FramedChunk.length_data_lt_encode {f : FramedChunk} (hf : f.WellFormed) :
    f.chunk.data.length < f.encode.length := by
  have := hf.1.2.1.1
  rw [FramedChunk.encode]
  simp only [List.length_append]
  have : 0 < f.chunk.size.length := List.length_pos.mpr this
  omega

/-- One well-formed chunk is read whole, with the line ending after its data. -/
theorem decodeChunkedLoop_framedChunk {maxSize fuel : Nat} {f : FramedChunk} (hf : f.WellFormed)
    (hn : f.chunk.data.length < 2 ^ 64) (rest result : List Char)
    (hfit : result.length + f.chunk.data.length ≤ maxSize) :
    decodeChunkedLoop maxSize (fuel + 1) ⟨f.encode ++ rest, true⟩ result =
      decodeChunkedLoop maxSize fuel ⟨rest, true⟩ (result ++ f.chunk.data) := by
  have hstep := @decodeChunkedLoop_sizeLineEnd maxSize fuel _ _ _ _ hf.1.2.1 hn hf.1.2.2 hf.2.1
    (f.chunk.data ++ f.dataEnd ++ rest) result
  have hne : f.chunk.data.length ≠ 0 := by simpa using hf.1.1
  have hend : (IStringStream.getline ⟨f.dataEnd ++ rest, true⟩).2 = ⟨rest, true⟩ :=
    @LineEnd.getline _ hf.2.2 [] (List.not_mem_nil _) rest
  rw [show f.encode ++ rest = f.chunk.size ++ f.chunk.ext ++ f.sizeEnd ++
    (f.chunk.data ++ f.dataEnd ++ rest) by simp [FramedChunk.encode], hstep]
  simp only [List.append_assoc, IStringStream.read_append, Nat.sub_self, List.replicate_zero,
    List.append_nil, hend, hne, if_false]
  rw [if_neg (by omega), if_neg (by omega)]

/-- A run of well-formed chunks is read whole, one iteration each, whatever follows it. -/
theorem decodeChunkedLoop_framedChunks {maxSize : Nat} (hmax : maxSize < 2 ^ 64)
    (chunks : List FramedChunk) (hchunks : ∀ f ∈ chunks, f.WellFormed) (tail result : List Char)
    (fuel : Nat) (hfit : result.length + (chunks.flatMap FramedChunk.encode).length ≤ maxSize) :
    decodeChunkedLoop maxSize (fuel + chunks.length)
        ⟨chunks.flatMap FramedChunk.encode ++ tail, true⟩ result =
      decodeChunkedLoop maxSize fuel ⟨tail, true⟩
        (result ++ chunks.flatMap fun f => f.chunk.data) := by
  induction chunks generalizing result with
  | nil => simp
  | cons f fs ih =>
    have hf := hchunks f (List.mem_cons_self _ _)
    have hlen := FramedChunk.length_data_lt_encode hf
    simp only [List.flatMap_cons, List.length_append] at hfit ⊢
    rw [List.length_cons, ← Nat.add_assoc, List.append_assoc,
      decodeChunkedLoop_framedChunk hf (by omega) _ result (by omega),
      ih (fun f hf => hchunks f (List.mem_cons_of_mem _ hf)) (result ++ f.chunk.data)
        (by simp only [List.length_append]; omega), List.append_assoc]

theorem length_le_flatMap_framedEncode {chunks : List FramedChunk}
    (hchunks : ∀ f ∈ chunks, f.WellFormed) :
    chunks.length ≤ (chunks.flatMap FramedChunk.encode).length := by
  induction chunks with
  | nil => simp
  | cons f fs ih =>
    have := FramedChunk.length_data_lt_encode (hchunks f (List.mem_cons_self _ _))
    simp only [List.flatMap_cons, List.length_append, List.length_cons]
    have := ih fun f hf => hchunks f (List.mem_cons_of_mem _ hf)
    omega

/-- `decode_chunked` on a run of well-formed chunks and a text after it: the chunks' data, then
the loop on that text with fuel to spare. -/
theorem decodeChunked_framedChunks_append {maxSize : Nat} (hmax : maxSize < 2 ^ 64)
    (chunks : List FramedChunk) (hchunks : ∀ f ∈ chunks, f.WellFormed) (tail : List Char)
    (hfit : (chunks.flatMap FramedChunk.encode ++ tail).length ≤ maxSize) :
    ∃ fuel, decodeChunked maxSize (chunks.flatMap FramedChunk.encode ++ tail) =
      decodeChunkedLoop maxSize (fuel + 1) ⟨tail, true⟩
        (chunks.flatMap fun f => f.chunk.data) := by
  have hlen := length_le_flatMap_framedEncode hchunks
  rw [List.length_append] at hfit
  refine ⟨(chunks.flatMap FramedChunk.encode).length + tail.length - chunks.length, ?_⟩
  have hrun := decodeChunkedLoop_framedChunks hmax chunks hchunks tail []
    ((chunks.flatMap FramedChunk.encode).length + tail.length - chunks.length + 1)
    (by rw [List.length_nil]; omega)
  rw [List.nil_append] at hrun
  rw [decodeChunked, ← hrun, List.length_append]
  congr 1
  omega

/-- The same for chunks framed by `CR LF`. -/
theorem decodeChunked_chunks_append {maxSize : Nat} (hmax : maxSize < 2 ^ 64)
    (chunks : List WireChunk) (hchunks : ∀ c ∈ chunks, c.WellFormed) (tail : List Char)
    (hfit : (chunks.flatMap WireChunk.encode ++ tail).length ≤ maxSize) :
    ∃ fuel, decodeChunked maxSize (chunks.flatMap WireChunk.encode ++ tail) =
      decodeChunkedLoop maxSize (fuel + 1) ⟨tail, true⟩ (chunks.flatMap WireChunk.data) := by
  have hframed : ∀ f ∈ chunks.map WireChunk.crlfFramed, f.WellFormed := by
    simpa using fun c hc => (hchunks c hc).crlfFramed
  rw [← flatMap_crlfFramed_encode] at hfit ⊢
  rw [← flatMap_crlfFramed_data]
  exact decodeChunked_framedChunks_append hmax _ hframed tail hfit

/-- `decode_chunked` decodes every chunked body: the concatenation of the chunks' data, for
every list of nonempty chunks of any bytes, every hex spelling of their sizes, every chunk
extension, every trailer section and every suffix `r`. The input is an `std::string`, so its
length is at most `max_size()`, itself a `size_t`. -/
theorem decodeChunked_encodeChunked (maxSize : Nat) (hmax : maxSize < 2 ^ 64)
    (chunks : List WireChunk) (hchunks : ∀ c ∈ chunks, c.WellFormed)
    (lastSize lastExt : List Char) (hsize : HexSpelling lastSize 0) (hext : IsChunkExt lastExt)
    (trailers r : List Char)
    (hfit : (encodeChunked chunks lastSize lastExt trailers ++ r).length ≤ maxSize) :
    decodeChunked maxSize (encodeChunked chunks lastSize lastExt trailers ++ r) =
      .ok (chunks.flatMap WireChunk.data) := by
  have hchain : encodeChunked chunks lastSize lastExt trailers ++ r =
      chunks.flatMap WireChunk.encode ++
        (lastSize ++ lastExt ++ crlf ++ (trailers ++ crlf ++ r)) := by
    simp [encodeChunked]
  rw [hchain] at hfit ⊢
  obtain ⟨fuel, hrun⟩ := decodeChunked_chunks_append hmax chunks hchunks _ hfit
  rw [hrun, decodeChunkedLoop_lastChunk hsize hext (.inl rfl)]

/-- Three chunks whose sizes are spelt `5`, `0b` and `A`, the last with an extension. -/
theorem decodeChunked_helloWorld :
    decodeChunked (2 ^ 62 - 1)
        (encodeChunked [⟨"5".toList, [], "Hello".toList⟩,
          ⟨"0b".toList, [], " World from".toList⟩,
          ⟨"A".toList, ";ext".toList, " the wire!".toList⟩] ['0'] [] [] ++ []) =
      .ok "Hello World from the wire!".toList :=
  decodeChunked_encodeChunked _ (by decide) _ (by decide) _ _ (by decide) (by decide) _ _
    (by decide)

/-- `line.back()` is read before `line.empty()` is tested (`part_000:14-16`): a bare `LF` line,
at the start of the input or after any run of well-formed chunks, has `back()` taken on an
empty `std::string`. -/
theorem decodeChunked_back_of_empty (maxSize : Nat) (hmax : maxSize < 2 ^ 64)
    (chunks : List WireChunk) (hchunks : ∀ c ∈ chunks, c.WellFormed) (rest : List Char)
    (hfit : (chunks.flatMap WireChunk.encode ++ '\n' :: rest).length ≤ maxSize) :
    decodeChunked maxSize (chunks.flatMap WireChunk.encode ++ '\n' :: rest) =
      .error .backOfEmpty := by
  obtain ⟨fuel, hrun⟩ := decodeChunked_chunks_append hmax chunks hchunks _ hfit
  rw [hrun]
  rfl

/-- A blank line between two chunks. -/
theorem decodeChunked_blank_between_chunks :
    decodeChunked (2 ^ 62) ([⟨"5".toList, [], "Hello".toList⟩].flatMap WireChunk.encode ++
      '\n' :: "0\r\n\r\n".toList) = .error .backOfEmpty :=
  decodeChunked_back_of_empty _ (by decide) _ (by decide) _ (by decide)

/-- A body cut off after any run of whole chunks, before its last chunk, decodes without
error to the data received: `decode_chunked` does not notice that the zero-size chunk never
came. -/
theorem decodeChunked_without_lastChunk (maxSize : Nat) (hmax : maxSize < 2 ^ 64)
    (chunks : List WireChunk) (hchunks : ∀ c ∈ chunks, c.WellFormed)
    (hfit : (chunks.flatMap WireChunk.encode).length ≤ maxSize) :
    decodeChunked maxSize (chunks.flatMap WireChunk.encode) =
      .ok (chunks.flatMap WireChunk.data) := by
  obtain ⟨fuel, hrun⟩ :=
    decodeChunked_chunks_append hmax chunks hchunks [] (by rwa [List.append_nil])
  rw [List.append_nil] at hrun
  rw [hrun]
  rfl

theorem decodeChunked_without_lastChunk_hello :
    (2 ^ 62 : Nat) < 2 ^ 64 ∧
      (∀ c ∈ [(⟨"5".toList, [], "Hello".toList⟩ : WireChunk)], c.WellFormed) ∧
      ([(⟨"5".toList, [], "Hello".toList⟩ : WireChunk)].flatMap WireChunk.encode).length ≤
        2 ^ 62 ∧
      decodeChunked (2 ^ 62)
          ([(⟨"5".toList, [], "Hello".toList⟩ : WireChunk)].flatMap WireChunk.encode) =
        .ok "Hello".toList :=
  ⟨by decide, by decide, by decide,
    decodeChunked_without_lastChunk _ (by decide) _ (by decide) (by decide)⟩

/-! ## Sizes past `max_size()` -/

/-- A chunk size past `max_size()` makes `std::string chunk_data(chunk_size, '\0')` throw
`std::length_error`, which nothing in `decode_chunked` catches, after any run of well-formed
chunks. `std::stoul` reads a negative size `-k` as `2^64 - k`, so `-1` is such a size. -/
theorem decodeChunked_size_beyond_maxSize (maxSize : Nat) (hmax : maxSize < 2 ^ 64)
    (chunks : List WireChunk) (hchunks : ∀ c ∈ chunks, c.WellFormed) (line rest : List Char)
    (hline : '\n' ∉ line) {n : Nat} (hn : stoul line = some n) (hbig : maxSize < n)
    (hfit : (chunks.flatMap WireChunk.encode ++ (line ++ crlf ++ rest)).length ≤ maxSize) :
    decodeChunked maxSize (chunks.flatMap WireChunk.encode ++ (line ++ crlf ++ rest)) =
      .error .lengthError := by
  obtain ⟨fuel, hrun⟩ := decodeChunked_chunks_append hmax chunks hchunks _ hfit
  rw [hrun, decodeChunkedLoop_stoulLine hline hn, if_neg (by omega), if_pos hbig]

theorem decodeChunked_negative_size :
    (2 ^ 62 : Nat) < 2 ^ 64 ∧ (∀ c ∈ ([] : List WireChunk), c.WellFormed) ∧
      '\n' ∉ "-1".toList ∧
      stoul "-1".toList = some (2 ^ 64 - 1) ∧ 2 ^ 62 < 2 ^ 64 - 1 ∧
      (([] : List WireChunk).flatMap WireChunk.encode ++
        ("-1".toList ++ crlf ++ "x".toList)).length ≤ 2 ^ 62 ∧
      decodeChunked (2 ^ 62)
          (([] : List WireChunk).flatMap WireChunk.encode ++ ("-1".toList ++ crlf ++ "x".toList)) =
        .error .lengthError :=
  ⟨by decide, by simp, by decide, by decide, by decide, by decide,
    @decodeChunked_size_beyond_maxSize _ (by decide) [] (by simp) _ _ (by decide) (2 ^ 64 - 1)
      (by decide) (by decide) (by decide)⟩

/-! ## Bare `LF` line endings -/

/-- `decode_chunked` reads chunked bodies whose lines end in `CR LF` or in a bare `LF`, chosen
line by line: the concatenation of the chunks' data, for every list of nonempty chunks, every
hex spelling of their sizes, every chunk extension and every text after the last chunk's
size line. -/
theorem decodeChunked_lineEnds (maxSize : Nat) (hmax : maxSize < 2 ^ 64)
    (chunks : List FramedChunk) (hchunks : ∀ f ∈ chunks, f.WellFormed)
    (lastSize lastExt lastEnd : List Char) (hsize : HexSpelling lastSize 0)
    (hext : IsChunkExt lastExt) (hend : LineEnd lastEnd) (r : List Char)
    (hfit : (chunks.flatMap FramedChunk.encode ++ (lastSize ++ lastExt ++ lastEnd ++ r)).length ≤
      maxSize) :
    decodeChunked maxSize
        (chunks.flatMap FramedChunk.encode ++ (lastSize ++ lastExt ++ lastEnd ++ r)) =
      .ok (chunks.flatMap fun f => f.chunk.data) := by
  obtain ⟨fuel, hrun⟩ := decodeChunked_framedChunks_append hmax chunks hchunks _ hfit
  rw [hrun, decodeChunkedLoop_lastChunk hsize hext hend]

/-- `Hello World, too` in two chunks whose sizes are spelt `5` and `B` and whose lines end in
`LF`, then `CR LF`, then `LF`. -/
theorem decodeChunked_lineEnds_mixed :
    (2 ^ 62 : Nat) < 2 ^ 64 ∧
      (∀ f ∈ [(⟨⟨"5".toList, [], "Hello".toList⟩, ['\n'], crlf⟩ : FramedChunk),
        ⟨⟨"B".toList, [], " World, too".toList⟩, crlf, ['\n']⟩], f.WellFormed) ∧
      HexSpelling ['0'] 0 ∧ IsChunkExt [] ∧ LineEnd ['\n'] ∧
      ([(⟨⟨"5".toList, [], "Hello".toList⟩, ['\n'], crlf⟩ : FramedChunk),
        ⟨⟨"B".toList, [], " World, too".toList⟩, crlf, ['\n']⟩].flatMap
          FramedChunk.encode ++ (['0'] ++ [] ++ ['\n'] ++ ['\n'])).length ≤ 2 ^ 62 ∧
      decodeChunked (2 ^ 62)
          ([(⟨⟨"5".toList, [], "Hello".toList⟩, ['\n'], crlf⟩ : FramedChunk),
            ⟨⟨"B".toList, [], " World, too".toList⟩, crlf, ['\n']⟩].flatMap
              FramedChunk.encode ++ (['0'] ++ [] ++ ['\n'] ++ ['\n'])) =
        .ok "Hello World, too".toList :=
  ⟨by decide, by decide, by decide, by decide, by decide, by decide,
    decodeChunked_lineEnds _ (by decide) _ (by decide) _ _ _ (by decide) (by decide) (by decide) _
      (by decide)⟩

end CoroHttp
