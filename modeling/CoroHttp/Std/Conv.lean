import Mathlib.Data.List.Basic
import Mathlib.Algebra.Group.Nat.Basic

/-!
# `std::stoul` in base 16

`decode_chunked` reads a chunk size with `std::stoul(line, nullptr, 16)`. That is `strtoul`
on `line.c_str()` followed by two checks: no digit read throws `std::invalid_argument`, a
value past `ULONG_MAX` throws `std::out_of_range`. `strtoul` skips leading `isspace`
characters, takes one optional sign, in base 16 an optional `0x` or `0X` before a digit, and
then the longest run of hex digits; a `-` sign negates the value modulo `ULONG_MAX + 1`.
`unsigned long` is 64 bits wide, as on the LP64 platforms the library builds for. Both
exceptions are one outcome here, `none`: the caller catches every exception alike.
-/

namespace CoroHttp

/-- `std::isspace` in the "C" locale. -/
def isSpace (c : Char) : Bool :=
  c = ' ' || c = '\t' || c = '\n' || c = '\x0b' || c = '\x0c' || c = '\r'

/-- The value of `c` as a base 16 digit of `strtoul`, either letter case. -/
def hexDigitValue (c : Char) : Option Nat :=
  if '0' ≤ c ∧ c ≤ '9' then some (c.toNat - '0'.toNat)
  else if 'a' ≤ c ∧ c ≤ 'f' then some (c.toNat - 'a'.toNat + 10)
  else if 'A' ≤ c ∧ c ≤ 'F' then some (c.toNat - 'A'.toNat + 10)
  else none

/-- A base 16 digit of `strtoul`. -/
def IsHexDigit (c : Char) : Prop := (hexDigitValue c).isSome

/-- The digit values of the longest run of hex digits that starts `s`. -/
def hexRun : List Char → List Nat
  | [] => []
  | c :: cs =>
    match hexDigitValue c with
    | some d => d :: hexRun cs
    | none => []

/-- The number a list of base 16 digit values spells, most significant first. -/
def hexValue (ds : List Nat) : Nat := ds.foldl (fun acc d => acc * 16 + d) 0

/-- The optional sign `strtoul` takes: whether it is a `-`, and the text after it. -/
def takeSign : List Char → Bool × List Char
  | [] => (false, [])
  | c :: t => if c = '-' then (true, t) else if c = '+' then (false, t) else (false, c :: t)

/-- The digits `strtoul` reads in base 16 after the sign; `0x` or `0X` is skipped only when
a digit follows it, otherwise its `0` is the one digit read. -/
def hexDigits : List Char → List Nat
  | c :: x :: t =>
    if c = '0' ∧ (x = 'x' ∨ x = 'X') ∧ hexRun t ≠ [] then hexRun t else hexRun (c :: x :: t)
  | s => hexRun s

/-- `std::stoul(str, nullptr, 16)`, with `none` for a thrown exception. -/
def stoul (str : List Char) : Option Nat :=
  let (neg, s) := takeSign (str.dropWhile isSpace)
  let digits := hexDigits s
  if digits = [] then none
  else
    let v := hexValue digits
    if 2 ^ 64 ≤ v then none
    else some (if neg then (2 ^ 64 - v) % 2 ^ 64 else v)

theorem IsHexDigit.ne {c d : Char} (hc : IsHexDigit c) (hd : hexDigitValue d = none) : c ≠ d := by
  rintro rfl
  simp [IsHexDigit, hd] at hc

theorem IsHexDigit.isSpace_eq_false {c : Char} (hc : IsHexDigit c) : isSpace c = false := by
  cases hs : isSpace c
  · rfl
  · simp only [isSpace, Bool.or_eq_true, decide_eq_true_eq] at hs
    rcases hs with ((((h | h) | h) | h) | h) | h <;> exact absurd h (hc.ne (by decide))

theorem hexRun_append {h : List Char} (hh : ∀ c ∈ h, IsHexDigit c) (e : List Char) :
    hexRun (h ++ e) = hexRun h ++ hexRun e := by
  induction h with
  | nil => rfl
  | cons c cs ih =>
    obtain ⟨d, hd⟩ := Option.isSome_iff_exists.mp (hh c (by simp))
    simp [hexRun, hd, ih fun c hc => hh c (by simp [hc])]

theorem hexRun_ne_nil {h : List Char} (hh : ∀ c ∈ h, IsHexDigit c) (hne : h ≠ []) :
    hexRun h ≠ [] := by
  obtain ⟨c, cs, rfl⟩ := List.exists_cons_of_ne_nil hne
  obtain ⟨d, hd⟩ := Option.isSome_iff_exists.mp (hh c (by simp))
  simp [hexRun, hd]

/-- `stoul` reads a nonempty run of hex digits followed by nothing or by `;` as the number it
spells, if that number fits in `unsigned long`. -/
theorem stoul_digits {h : List Char} (hne : h ≠ []) (hh : ∀ c ∈ h, IsHexDigit c)
    (hv : hexValue (hexRun h) < 2 ^ 64) (e : List Char) (he : e = [] ∨ e.head? = some ';') :
    stoul (h ++ e) = some (hexValue (hexRun h)) := by
  obtain ⟨c, cs, rfl⟩ := List.exists_cons_of_ne_nil hne
  have hc : IsHexDigit c := hh c (by simp)
  have hrun : hexRun (c :: cs ++ e) = hexRun (c :: cs) := by
    rw [hexRun_append hh]
    rcases he with rfl | he
    · simp [hexRun]
    · obtain ⟨t, rfl⟩ : ∃ t, e = ';' :: t := by
        cases e <;> simp_all
      simp [hexRun, show hexDigitValue ';' = none by decide]
  have hdig : hexDigits (c :: (cs ++ e)) = hexRun (c :: cs) := by
    rw [← hrun, List.cons_append]
    match cs, e, he with
    | [], [], _ => rfl
    | [], x :: t, he =>
      have : x = ';' := by simpa using he
      subst this
      simp [hexDigits, show hexDigitValue ';' = none by decide]
    | x :: t, e, _ =>
      have hx : IsHexDigit x := hh x (by simp)
      simp [hexDigits, hx.ne (show hexDigitValue 'x' = none by decide),
        hx.ne (show hexDigitValue 'X' = none by decide)]
  have hv' : hexValue (hexRun (c :: cs)) < 18446744073709551616 := hv
  simp [stoul, List.dropWhile_cons_of_neg, hc.isSpace_eq_false, takeSign,
    hc.ne (show hexDigitValue '-' = none by decide), hc.ne (show hexDigitValue '+' = none by decide),
    hdig, hexRun_ne_nil hh hne, not_le.mpr hv, hv']

end CoroHttp
