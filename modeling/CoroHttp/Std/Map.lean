import Mathlib.Data.List.Sort
import Mathlib.Data.List.Lex
import Mathlib.Data.Char

/-!
# `std::map<std::string, V>`

A `std::map` keyed by `std::string` holds each key once and iterates its entries in
increasing key order, keys compared as `std::string::compare` does: character by character,
a proper prefix first. Here a map is that list of entries, carrying its ordering as a field,
so an ill-formed map cannot be built. `insert` is the assignment `m[k] = v` (insert or
overwrite) and `find?` is `m.find(k)`.
-/

namespace CoroHttp

/-- `std::map<std::string, V>`: its entries in iteration order, keys strictly increasing. -/
structure StdMap (V : Type) where
  entries : List (List Char × V)
  sorted : (entries.map Prod.fst).Sorted (· < ·)

namespace StdMap

variable {V : Type}

theorem ext_entries {m₁ m₂ : StdMap V} (h : m₁.entries = m₂.entries) : m₁ = m₂ := by
  cases m₁; cases m₂; cases h; rfl

instance [DecidableEq V] : DecidableEq (StdMap V) := fun m₁ m₂ =>
  decidable_of_iff (m₁.entries = m₂.entries) ⟨ext_entries, fun h => h ▸ rfl⟩

/-- The empty map. -/
def empty : StdMap V := ⟨[], List.sorted_nil⟩

instance : Inhabited (StdMap V) := ⟨empty⟩

/-- `m[k] = v` on the entry list: before the first greater key, or over an equal one. -/
def insertEntry (k : List Char) (v : V) : List (List Char × V) → List (List Char × V)
  | [] => [(k, v)]
  | e :: es =>
    if k < e.1 then (k, v) :: e :: es
    else if k = e.1 then (k, v) :: es
    else e :: insertEntry k v es

theorem mem_keys_insertEntry {k k' : List Char} {v : V} {es : List (List Char × V)} :
    k' ∈ (insertEntry k v es).map Prod.fst ↔ k' = k ∨ k' ∈ es.map Prod.fst := by
  induction es with
  | nil => simp [insertEntry]
  | cons e es ih =>
    unfold insertEntry
    split_ifs with h₁ h₂
    · simp only [List.map_cons, List.mem_cons]
    · subst h₂; simp only [List.map_cons, List.mem_cons, or_self_left]
    · simp only [List.map_cons, List.mem_cons, ih]; exact or_left_comm

theorem sorted_insertEntry (k : List Char) (v : V) {es : List (List Char × V)}
    (h : (es.map Prod.fst).Sorted (· < ·)) : ((insertEntry k v es).map Prod.fst).Sorted (· < ·) := by
  induction es with
  | nil => simp [insertEntry]
  | cons e es ih =>
    rw [List.map_cons, List.sorted_cons] at h
    unfold insertEntry
    split_ifs with h₁ h₂
    · simp only [List.map_cons, List.sorted_cons, List.mem_cons]
      exact ⟨fun b hb => hb.elim (· ▸ h₁) fun hb => h₁.trans (h.1 b hb), h.1, h.2⟩
    · subst h₂; simpa only [List.map_cons, List.sorted_cons] using h
    · have hlt : e.1 < k := lt_of_le_of_ne (not_lt.mp h₁) (Ne.symm h₂)
      simp only [List.map_cons, List.sorted_cons, mem_keys_insertEntry]
      exact ⟨fun b hb => hb.elim (· ▸ hlt) (h.1 b), ih h.2⟩

/-- `m[k] = v`. -/
def insert (m : StdMap V) (k : List Char) (v : V) : StdMap V :=
  ⟨insertEntry k v m.entries, sorted_insertEntry k v m.sorted⟩

/-- `m.find(k)`: the value stored under `k`, if any. -/
def find? (m : StdMap V) (k : List Char) : Option V :=
  (m.entries.find? fun e => e.1 = k).map Prod.snd

theorem find?_insertEntry_self (k : List Char) (v : V) (es : List (List Char × V)) :
    ((insertEntry k v es).find? fun e => e.1 = k).map Prod.snd = some v := by
  induction es with
  | nil => simp [insertEntry]
  | cons e es ih =>
    unfold insertEntry
    split_ifs with h₁ h₂
    · simp
    · simp
    · simp [List.find?_cons, Ne.symm h₂, ih]

theorem find?_insertEntry_of_ne {k k' : List Char} (h : k' ≠ k) (v : V)
    (es : List (List Char × V)) :
    ((insertEntry k v es).find? fun e => e.1 = k').map Prod.snd =
      (es.find? fun e => e.1 = k').map Prod.snd := by
  induction es with
  | nil => simp [insertEntry, Ne.symm h]
  | cons e es ih =>
    unfold insertEntry
    split_ifs with h₁ h₂
    · simp [List.find?_cons, Ne.symm h]
    · simp [List.find?_cons, ← h₂, Ne.symm h]
    · by_cases he : e.1 = k' <;> simp [List.find?_cons, he, ih]

@[simp] theorem find?_insert (m : StdMap V) (k k' : List Char) (v : V) :
    (m.insert k v).find? k' = if k' = k then some v else m.find? k' := by
  split_ifs with h
  · subst h; exact find?_insertEntry_self _ v _
  · exact find?_insertEntry_of_ne h v _

@[simp] theorem find?_empty (k : List Char) : (empty : StdMap V).find? k = none := rfl

/-- `m[k] = v` for each `(k, v)` of `ops` in turn. -/
def insertAll (m : StdMap V) (ops : List (List Char × V)) : StdMap V :=
  ops.foldl (fun m o => m.insert o.1 o.2) m

/-- The value of the last pair of `ops` with key `k`. -/
def lastWrite (ops : List (List Char × V)) (k : List Char) : Option V :=
  (ops.reverse.find? fun o => o.1 = k).map Prod.snd

/-- A map read after a run of assignments holds the last value written to each key. -/
theorem find?_insertAll (m : StdMap V) (ops : List (List Char × V)) (k : List Char) :
    (m.insertAll ops).find? k = (lastWrite ops k).or (m.find? k) := by
  induction ops generalizing m with
  | nil => simp [insertAll, lastWrite]
  | cons o os ih =>
    rw [insertAll, List.foldl_cons, ← insertAll, ih, find?_insert]
    by_cases hk : k = o.1
    · subst hk
      rcases h : os.reverse.find? fun o' => o'.1 = o.1 with _ | x <;> simp [lastWrite, h]
    · simp [lastWrite, hk, Ne.symm hk]

theorem mem_keys_insertAll (m : StdMap V) (ops : List (List Char × V)) (k : List Char) :
    k ∈ (m.insertAll ops).entries.map Prod.fst ↔
      k ∈ ops.map Prod.fst ∨ k ∈ m.entries.map Prod.fst := by
  induction ops generalizing m with
  | nil => simp only [insertAll, List.foldl_nil, List.map_nil, List.not_mem_nil, false_or]
  | cons o os ih =>
    rw [insertAll, List.foldl_cons, ← insertAll, ih]
    simp only [insert, mem_keys_insertEntry, List.map_cons, List.mem_cons]
    exact or_left_comm.trans or_assoc.symm

theorem insertEntry_of_lt {k : List Char} (v : V) {es : List (List Char × V)}
    (h : ∀ k' ∈ es.map Prod.fst, k' < k) : insertEntry k v es = es ++ [(k, v)] := by
  induction es with
  | nil => rfl
  | cons e es ih =>
    have he : e.1 < k := h e.1 (List.mem_cons_self _ _)
    rw [insertEntry, if_neg (lt_asymm he), if_neg (ne_of_gt he), ih fun k' hk' =>
      h k' (List.mem_cons_of_mem _ hk'), List.cons_append]

theorem entries_insertAll (m : StdMap V) (ops : List (List Char × V)) :
    (m.insertAll ops).entries = ops.foldl (fun es o => insertEntry o.1 o.2 es) m.entries := by
  induction ops generalizing m with
  | nil => rfl
  | cons o os ih => exact ih (m.insert o.1 o.2)

/-- Assigning a map's entries, in its iteration order, to an empty map copies it. -/
theorem empty_insertAll_entries (m : StdMap V) : empty.insertAll m.entries = m := by
  apply ext_entries
  rw [entries_insertAll]
  obtain ⟨es, hs⟩ := m
  show es.foldl _ [] = es
  suffices h : ∀ acc : List (List Char × V),
      (∀ a ∈ acc.map Prod.fst, ∀ b ∈ es.map Prod.fst, a < b) →
        es.foldl (fun es o => insertEntry o.1 o.2 es) acc = acc ++ es by
    simpa only [List.nil_append] using
      h [] fun a ha => by simp only [List.map_nil, List.not_mem_nil] at ha
  induction es with
  | nil => exact fun acc _ => (List.append_nil acc).symm
  | cons e es ih =>
    intro acc hacc
    rw [List.map_cons, List.sorted_cons] at hs
    rw [List.foldl_cons, insertEntry_of_lt _ fun a ha => hacc a ha e.1 (List.mem_cons_self _ _),
      ih hs.2, List.append_assoc, List.singleton_append]
    intro a ha b hb
    rw [List.map_append, List.mem_append] at ha
    rcases ha with ha | ha
    · exact hacc a ha b (List.mem_cons_of_mem _ hb)
    · obtain rfl : a = e.1 := by simpa using ha
      exact hs.1 b hb

/-- Each key is held once, so an entry is what `find` returns for its key. -/
theorem find?_of_mem (m : StdMap V) {e : List Char × V} (he : e ∈ m.entries) :
    m.find? e.1 = some e.2 := by
  obtain ⟨es, hs⟩ := m
  unfold find?
  induction es with
  | nil => simp at he
  | cons a es ih =>
    rw [List.map_cons, List.sorted_cons] at hs
    rcases List.mem_cons.mp he with rfl | he
    · simp
    · have hne : a.1 ≠ e.1 := ne_of_lt (hs.1 _ (List.mem_map_of_mem _ he))
      simp [List.find?_cons, hne, ih hs.2 he]

/-- Entries come in increasing key order, so the first entry whose key satisfies `P` has
the least such key. -/
theorem le_of_find?_eq_some (m : StdMap V) {P : List Char → Bool} {e e' : List Char × V}
    (h : m.entries.find? (fun e => P e.1) = some e) (he' : e' ∈ m.entries) (hP : P e'.1) :
    e.1 ≤ e'.1 := by
  obtain ⟨es, hs⟩ := m
  induction es with
  | nil => simp at he'
  | cons a es ih =>
    rw [List.map_cons, List.sorted_cons] at hs
    simp only [List.find?_cons] at h
    split at h
    · cases h
      rcases List.mem_cons.mp he' with rfl | he'
      · exact le_rfl
      · exact (hs.1 _ (List.mem_map_of_mem _ he')).le
    · rcases List.mem_cons.mp he' with rfl | he'
      · simp_all
      · exact ih hs.2 h he'

end StdMap

end CoroHttp
