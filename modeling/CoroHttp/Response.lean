import CoroHttp.Std.Map
import Mathlib.Order.MinMax

/-!
# `HttpResponse`

`HttpResponse` (`part_001:15-48`) and `strcasecmp_impl` (`part_001:10-13`). Headers live in a
`std::map<std::string, std::string>` keyed by the exact spelling, so `add_header` overwrites
only an entry of the same spelling. `get_header` first looks the key up exactly, then walks
the map in key order and returns the first entry whose key `strcasecmp_impl` matches.

`strcasecmp_impl` calls `std::tolower` on plain `char`s, which are signed on the x86-64 Linux
targets the library builds for: a byte from `0x80` to `0xFE` is a negative `int` other than
`EOF`, and `std::tolower` on it is undefined. `toLowerC` returns `none` there, and
`strcasecmp_impl` and `get_header` carry it.

Case-insensitive equality is stated on its own as `EqIgnoreCase` (equal after lowering ASCII
capitals), and `strcasecmpImpl_of_ascii` ties the code's comparison to it on ASCII names.
`getHeader_addHeaders` says what a lookup returns after any sequence of `add_header` calls
with ASCII names: the last value added under exactly that spelling, else the last value
added under the least spelling, in `std::string` order, that equals it up to case.
-/

namespace CoroHttp

/-- `std::tolower(c)` on a plain `char` in the "C" locale. A byte below `0x80` is lowered
when it is an ASCII capital. A byte from `0x80` is a negative `int`: `0xFF` is `EOF`, which
`std::tolower` returns as it is, and any other is outside what `std::tolower` accepts, so
the call is undefined (`none`). -/
def toLowerC (c : Char) : Option Char :=
  if c.toNat < 0x80 then some c.toLower
  else if c.toNat = 0xFF then some c
  else none

/-- `strcasecmp_impl(a, b)` (`part_001:10-13`): same length, then `std::equal` over the pairs
with `std::tolower(ca) == std::tolower(cb)`, which stops at the first pair that differs;
`none` when it reaches a call of `std::tolower` that is undefined. -/
def strcasecmpImpl (a b : List Char) : Option Bool :=
  if a.length = b.length then
    (a.zip b).allM fun p => do return (← toLowerC p.1) == (← toLowerC p.2)
  else some false

/-- `HttpResponse` (`part_001:15-48`). -/
structure HttpResponse where
  statusCode : Int
  reason : List Char
  headers : StdMap (List Char)
  body : List Char
  redirectChain : List (List Char)
  deriving DecidableEq

namespace HttpResponse

/-- `HttpResponse()`: status 0, everything else empty. -/
def init : HttpResponse := ⟨0, [], .empty, [], []⟩

/-- `set_status_code(code)`. -/
def setStatusCode (r : HttpResponse) (code : Int) : HttpResponse := { r with statusCode := code }

/-- `set_reason(reason)`. -/
def setReason (r : HttpResponse) (reason : List Char) : HttpResponse := { r with reason := reason }

/-- `add_header(key, value)`: `headers_[key] = value`. -/
def addHeader (r : HttpResponse) (key value : List Char) : HttpResponse :=
  { r with headers := r.headers.insert key value }

/-- `set_body(body)`. -/
def setBody (r : HttpResponse) (body : List Char) : HttpResponse := { r with body := body }

/-- `add_redirect(url)`: `redirect_chain_.push_back(url)`. -/
def addRedirect (r : HttpResponse) (url : List Char) : HttpResponse :=
  { r with redirectChain := r.redirectChain ++ [url] }

/-- `get_header(key)` (`part_001:33-40`): the value under exactly `key`, else the value of the
first entry, in key order, whose key `strcasecmp_impl` matches, else `""`; `none` when the
walk reaches an undefined `std::tolower`. -/
def getHeader (r : HttpResponse) (key : List Char) : Option (List Char) :=
  match r.headers.find? key with
  | some v => some v
  | none => do
    match ← r.headers.entries.findM? fun e => strcasecmpImpl e.1 key with
    | some e => return e.2
    | none => return []

/-- `add_header(k, v)` for each `(k, v)` in turn. -/
def addHeaders (r : HttpResponse) (ops : List (List Char × List Char)) : HttpResponse :=
  ops.foldl (fun r o => r.addHeader o.1 o.2) r

end HttpResponse

theorem headers_addHeaders (r : HttpResponse) (ops : List (List Char × List Char)) :
    (r.addHeaders ops).headers = r.headers.insertAll ops := by
  induction ops generalizing r with
  | nil => rfl
  | cons o os ih => exact ih (r.addHeader o.1 o.2)

/-- `add_redirect(url)` for each `url` in turn appends them to the chain and touches nothing
else. -/
theorem foldl_addRedirect (r : HttpResponse) (urls : List (List Char)) :
    urls.foldl HttpResponse.addRedirect r = { r with redirectChain := r.redirectChain ++ urls } := by
  induction urls generalizing r with
  | nil => simp
  | cons u us ih => simp [ih, HttpResponse.addRedirect]

@[simp] theorem redirectChain_addHeaders (r : HttpResponse) (ops : List (List Char × List Char)) :
    (r.addHeaders ops).redirectChain = r.redirectChain := by
  induction ops generalizing r with
  | nil => rfl
  | cons o os ih => exact ih (r.addHeader o.1 o.2)

/-! ### Case-insensitive lookup on ASCII names -/

/-- A character with an ASCII capital replaced by its small letter. -/
def asciiLower (c : Char) : Char :=
  if 'A' ≤ c ∧ c ≤ 'Z' then Char.ofNat (c.toNat - 'A'.toNat + 'a'.toNat) else c

/-- Two names are equal up to ASCII case. -/
def EqIgnoreCase (a b : List Char) : Prop := a.map asciiLower = b.map asciiLower

instance : DecidableRel EqIgnoreCase := fun _ _ => inferInstanceAs (Decidable (_ = _))

/-- On a byte below `0x80`, `std::tolower` is defined and lowers exactly the ASCII capitals. -/
theorem toLowerC_of_lt {c : Char} (h : c.toNat < 0x80) : toLowerC c = some (asciiLower c) := by
  have hrange : ('A' ≤ c ∧ c ≤ 'Z') ↔ (c.toNat ≥ 65 ∧ c.toNat ≤ 90) := Iff.rfl
  simp only [toLowerC, if_pos h, asciiLower, Char.toLower]
  by_cases hc : c.toNat ≥ 65 ∧ c.toNat ≤ 90
  · rw [if_pos hc, if_pos (hrange.mpr hc)]
    exact congrArg (some ∘ Char.ofNat) (show _ = c.toNat - 65 + 97 by omega)
  · rw [if_neg hc, if_neg (mt hrange.mp hc)]

theorem allM_of_some {α : Type} {p : α → Option Bool} {q : α → Bool} :
    ∀ {l : List α}, (∀ a ∈ l, p a = some (q a)) → l.allM p = some (l.all q)
  | [], _ => rfl
  | a :: l, h => by
    rw [List.allM, h a (List.mem_cons_self a l), List.all_cons]
    cases q a
    · rfl
    · exact allM_of_some fun b hb => h b (List.mem_cons_of_mem a hb)

theorem findM?_of_some {α : Type} {p : α → Option Bool} {q : α → Bool} :
    ∀ {l : List α}, (∀ a ∈ l, p a = some (q a)) → l.findM? p = some (l.find? q)
  | [], _ => rfl
  | a :: l, h => by
    rw [List.findM?, h a (List.mem_cons_self a l), List.find?_cons]
    cases q a
    · exact findM?_of_some fun b hb => h b (List.mem_cons_of_mem a hb)
    · rfl

theorem all_zip_beq {f : Char → Char} :
    ∀ {a b : List Char}, a.length = b.length →
      ((a.zip b).all fun p => f p.1 == f p.2) = decide (a.map f = b.map f)
  | [], [], _ => rfl
  | c :: a, d :: b, h => by
    simp only [List.zip_cons_cons, List.all_cons, List.map_cons, List.cons.injEq,
      all_zip_beq (Nat.succ.inj h)]
    by_cases hcd : f c = f d <;> simp [hcd]

/-- On ASCII names `strcasecmp_impl` is defined and is equality up to ASCII case. -/
theorem strcasecmpImpl_of_ascii {a b : List Char} (ha : ∀ c ∈ a, c.toNat < 0x80)
    (hb : ∀ c ∈ b, c.toNat < 0x80) : strcasecmpImpl a b = some (decide (EqIgnoreCase a b)) := by
  unfold strcasecmpImpl
  split_ifs with hlen
  · rw [allM_of_some fun p hp => by
      obtain ⟨h1, h2⟩ := List.of_mem_zip hp
      rw [toLowerC_of_lt (ha _ h1), toLowerC_of_lt (hb _ h2)]
      rfl]
    exact congrArg some (all_zip_beq hlen)
  · refine congrArg some (decide_eq_false fun h => hlen ?_).symm
    simpa using congrArg List.length h

/-- On a response whose header names are ASCII, `get_header` of an ASCII name is defined and
walks the map for a name equal up to ASCII case. -/
theorem getHeader_of_ascii {r : HttpResponse} {q : List Char} (hq : ∀ c ∈ q, c.toNat < 0x80)
    (hkeys : ∀ e ∈ r.headers.entries, ∀ c ∈ e.1, c.toNat < 0x80) :
    r.getHeader q = some ((r.headers.find? q).getD
      (((r.headers.entries.find? fun e => decide (EqIgnoreCase e.1 q)).map Prod.snd).getD [])) := by
  rw [HttpResponse.getHeader, findM?_of_some fun e he => strcasecmpImpl_of_ascii (hkeys e he) hq]
  rcases r.headers.find? q with _ | v
  · cases List.find? _ r.headers.entries <;> rfl
  · rfl

/-- What `get_header(q)` returns after `add_header(k, v)` for each `(k, v)` of `ops` on a fresh
response: the last value added under exactly `q`; else, among the keys added that equal `q`
up to ASCII case, the least in `std::string` order, and the last value added under it; else
`""`. -/
def headerAfter (ops : List (List Char × List Char)) (q : List Char) : List Char :=
  match StdMap.lastWrite ops q with
  | some v => v
  | none =>
    match ((ops.map Prod.fst).filter fun k => decide (EqIgnoreCase k q)).min? with
    | some k => (StdMap.lastWrite ops k).getD []
    | none => []

/-- `List.min?` on header names, in `std::string` order. -/
theorem min?_eq_some_iff_keys {ks : List (List Char)} {k : List Char} :
    ks.min? = some k ↔ k ∈ ks ∧ ∀ k' ∈ ks, k ≤ k' :=
  @List.min?_eq_some_iff _ _ _ _ ⟨le_antisymm⟩ le_refl min_choice
    (fun _ _ _ => le_min_iff) _

/-- The keys of a map built by `add_header`s on a fresh response are the keys added. -/
theorem mem_keys_empty_insertAll (ops : List (List Char × List Char)) (k : List Char) :
    k ∈ (StdMap.empty.insertAll ops).entries.map Prod.fst ↔ k ∈ ops.map Prod.fst := by
  simpa [StdMap.empty] using StdMap.mem_keys_insertAll StdMap.empty ops k

/-- Walking that map in key order, the first key satisfying `P` is the least key added that
satisfies it. -/
theorem find?_insertAll_eq_min? (ops : List (List Char × List Char)) (P : List Char → Bool) :
    ((StdMap.empty.insertAll ops).entries.find? fun e => P e.1).map Prod.fst =
      ((ops.map Prod.fst).filter P).min? := by
  rcases hf : List.find? _ (StdMap.empty.insertAll ops).entries with _ | e
  · rw [Option.map_none', eq_comm, List.min?_eq_none_iff, List.filter_eq_nil_iff]
    intro k hk hP
    obtain ⟨e, he, rfl⟩ := List.mem_map.mp ((mem_keys_empty_insertAll ops k).mpr hk)
    exact List.find?_eq_none.mp hf e he hP
  · have he := (mem_keys_empty_insertAll ops _).mp
      (List.mem_map_of_mem Prod.fst (List.mem_of_find?_eq_some hf))
    have hP := List.find?_some hf
    refine (min?_eq_some_iff_keys.mpr ⟨List.mem_filter.mpr ⟨he, hP⟩, fun k hk => ?_⟩).symm
    obtain ⟨hk, hP⟩ := List.mem_filter.mp hk
    obtain ⟨e', he', rfl⟩ := List.mem_map.mp ((mem_keys_empty_insertAll ops k).mpr hk)
    exact StdMap.le_of_find?_eq_some _ hf he' hP

/-- `get_header` after any sequence of `add_header` calls with ASCII names on a fresh
response. -/
theorem getHeader_addHeaders (ops : List (List Char × List Char)) (q : List Char)
    (hq : ∀ c ∈ q, c.toNat < 0x80) (hops : ∀ o ∈ ops, ∀ c ∈ o.1, c.toNat < 0x80) :
    (HttpResponse.init.addHeaders ops).getHeader q = some (headerAfter ops q) := by
  have hascii : ∀ e ∈ (StdMap.empty.insertAll ops).entries, ∀ c ∈ e.1, c.toNat < 0x80 :=
    fun e he => by
      obtain ⟨o, ho, hoe⟩ := List.mem_map.mp
        ((mem_keys_empty_insertAll ops e.1).mp (List.mem_map_of_mem _ he))
      exact hoe ▸ hops o ho
  have hlast := StdMap.find?_insertAll StdMap.empty ops
  simp only [StdMap.find?_empty, Option.or_none] at hlast
  rw [getHeader_of_ascii hq (headers_addHeaders _ ops ▸ hascii), headers_addHeaders]
  simp only [headerAfter, HttpResponse.init, hlast, ← find?_insertAll_eq_min?]
  cases StdMap.lastWrite ops q with
  | some v => rfl
  | none =>
    rcases hf : List.find? _ (StdMap.empty.insertAll ops).entries with _ | e
    · rfl
    · simp [← hlast, StdMap.find?_of_mem _ (List.mem_of_find?_eq_some hf)]

/-- Two header names that differ only in the case of one letter. -/
def twoSpellings : List (List Char × List Char) :=
  [("Content-Type".toList, "a".toList), ("content-type".toList, "b".toList)]

/-- A lookup in all capitals over `twoSpellings`. -/
theorem getHeader_addHeaders_contentType :
    (∀ c ∈ "CONTENT-TYPE".toList, c.toNat < 0x80) ∧
      (∀ o ∈ twoSpellings, ∀ c ∈ o.1, c.toNat < 0x80) ∧
      (HttpResponse.init.addHeaders twoSpellings).getHeader "CONTENT-TYPE".toList =
        some (headerAfter twoSpellings "CONTENT-TYPE".toList) :=
  ⟨by decide, by decide, getHeader_addHeaders _ _ (by decide) (by decide)⟩

/-- The two spellings of `twoSpellings` get different values, a third gets the value of the
least of them, not of the last one added; and beside a name that holds the byte `0xC9`, a
lookup of a name of its length is undefined. -/
theorem getHeader_spellings :
    (HttpResponse.init.addHeaders twoSpellings).getHeader "Content-Type".toList =
        some "a".toList ∧
      (HttpResponse.init.addHeaders twoSpellings).getHeader "content-type".toList =
        some "b".toList ∧
      (HttpResponse.init.addHeaders twoSpellings).getHeader "CONTENT-TYPE".toList =
        some "a".toList ∧
      (HttpResponse.init.addHeaders [("\xC9Tag".toList, "x".toList)]).getHeader "ETag".toList =
        none := by
  decide

end CoroHttp
