/-
# Insertion-ordered maps

A finite map that remembers the order in which its keys were first inserted, as
the maps of a scripting language do: writing to a key that is present keeps its
place, deleting a key and writing it again moves it to the end.

The list of entries carries a proof that its keys are pairwise distinct, so a
map is determined at a key by membership (`get?_eq_some_iff`), and every lemma
about an operation below is proved through that characterization.

`forKeys` is the loop over the keys of a map that the body may write to.
-/
import Dapi.EventEmitter

/-- A finite map with its entries in insertion order. -/
structure OrderedMap (κ ν : Type*) where
  entries : List (κ × ν)
  nodup : (entries.map Prod.fst).Nodup

namespace OrderedMap

variable {κ ν : Type*}

/-- The map without entries. -/
def empty : OrderedMap κ ν := ⟨[], List.nodup_nil⟩

/-- The keys, in insertion order. -/
def keys (m : OrderedMap κ ν) : List κ := m.entries.map Prod.fst

/-- The values, in insertion order of their keys. -/
def values (m : OrderedMap κ ν) : List ν := m.entries.map Prod.snd

/-- Keep the entries that satisfy `p`: a loop over the entries that deletes the others. -/
def filter (p : κ → ν → Bool) (m : OrderedMap κ ν) : OrderedMap κ ν :=
  ⟨m.entries.filter (fun e => p e.1 e.2), m.nodup.sublist (List.filter_sublist.map _)⟩

/-! ## A loop over the keys that writes to the map -/

section ForKeys

variable {σ τ : Type*} {get : σ → OrderedMap κ ν} {body : κ → σ → Except τ Unit × σ}

/-- `for (const k of map.keys()) body(k)`, for a map that lives in a larger state.  The iterator is
live: at place `n` it meets the key that the map has there by then.  A body that deletes a key is
not covered.  The result is `none` when the loop is not over after `fuel` rounds. -/
def forKeys (get : σ → OrderedMap κ ν) (body : κ → σ → Except τ Unit × σ) :
    ℕ → ℕ → σ → Option (Except τ Unit × σ)
  | 0, _, _ => none
  | fuel + 1, n, s =>
    match (get s).keys[n]? with
    | none => some (.ok (), s)
    | some k =>
      match body k s with
      | (.ok (), s') => forKeys get body fuel (n + 1) s'
      | (.error e, s') => some (.error e, s')

/-- **The loop is over after one round for each key** when its body keeps the keys: it is the loop
over the keys that the map has at the start. -/
theorem forKeys_eq_forEach (hbody : ∀ k s s', k ∈ (get s).keys → body k s = (.ok (), s') →
      (get s').keys = (get s).keys) {fuel n : ℕ} {s : σ}
    (hfuel : (get s).keys.length - n < fuel) :
    forKeys get body fuel n s = some (forEach body ((get s).keys.drop n) s) := by
  -- one round for each key that is left, and one in which the iterator finds the end
  induction fuel generalizing n s with
  | zero => omega
  | succ fuel ih =>
      rw [forKeys]
      cases hk : (get s).keys[n]? with
      | none =>
          rw [List.drop_eq_nil_of_le (List.getElem?_eq_none_iff.mp hk)]
          rfl
      | some k =>
          obtain ⟨hn, hget⟩ := List.getElem?_eq_some_iff.mp hk
          rw [List.drop_eq_getElem_cons hn, hget]
          have hmem : k ∈ (get s).keys := hget ▸ List.getElem_mem hn
          simp only
          rcases hb : body k s with ⟨r, s'⟩
          cases r with
          | ok _ =>
              rw [forEach_cons_ok hb]
              have hkeys := hbody k s s' hmem hb
              simp only
              rw [ih (by rw [hkeys]; omega), hkeys]
          | error e => rw [forEach_cons_error hb]

end ForKeys

/-! ## Reading and writing -/

variable [DecidableEq κ]

/-- The value at a key, if there is one. -/
def get? (m : OrderedMap κ ν) (k : κ) : Option ν := m.entries.lookup k

/-- Whether a key is present. -/
def has (m : OrderedMap κ ν) (k : κ) : Bool := (m.get? k).isSome

/-- The entries after a write: in place when the key is present, at the end otherwise. -/
def setEntries (l : List (κ × ν)) (k : κ) (v : ν) : List (κ × ν) :=
  if k ∈ l.map Prod.fst then l.map (fun e => if e.1 = k then (k, v) else e) else l ++ [(k, v)]

/-- A new key is put at the end. -/
theorem map_fst_setEntries (l : List (κ × ν)) (k : κ) (v : ν) :
    (setEntries l k v).map Prod.fst
      = if k ∈ l.map Prod.fst then l.map Prod.fst else l.map Prod.fst ++ [k] := by
  unfold setEntries
  split_ifs with hk
  · rw [List.map_map]
    apply List.map_congr_left
    intro e _
    by_cases he : e.1 = k <;> simp [he]
  · simp

/-- Write a value at a key. -/
def set (m : OrderedMap κ ν) (k : κ) (v : ν) : OrderedMap κ ν :=
  ⟨setEntries m.entries k v, by
    rw [map_fst_setEntries]
    split_ifs with hk
    · exact m.nodup
    · exact m.nodup.append (List.nodup_singleton k) (by simpa using hk)⟩

/-- Delete a key. -/
def delete (m : OrderedMap κ ν) (k : κ) : OrderedMap κ ν :=
  m.filter (fun k' _ => decide (k' ≠ k))

/-- A loop over the keys that deletes the entries that satisfy `p` as it meets them. -/
def deleteWhere (p : κ → ν → Bool) (m : OrderedMap κ ν) : OrderedMap κ ν :=
  m.keys.foldl
    (fun m k =>
      match m.get? k with
      | some v => if p k v then m.delete k else m
      | none => m)
    m

/-! ## Lookup is membership -/

/-- What is looked up is an entry. -/
theorem lookup_eq_some_iff {l : List (κ × ν)} (hnd : (l.map Prod.fst).Nodup) {k : κ} {v : ν} :
    l.lookup k = some v ↔ (k, v) ∈ l := by
  induction l with
  | nil => simp
  | cons e l ih =>
      obtain ⟨k', v'⟩ := e
      rw [List.map_cons, List.nodup_cons] at hnd
      obtain ⟨hnot, hl⟩ := hnd
      rw [List.lookup_cons]
      by_cases hk : k = k'
      · subst hk
        have hfresh : (k, v) ∉ l := fun h => hnot (List.mem_map.mpr ⟨(k, v), h, rfl⟩)
        simp [hfresh, eq_comm]
      · rw [beq_false_of_ne hk]
        simp [ih hl, hk]

/-- The value of a key is the one of its entry. -/
theorem get?_eq_some_iff {m : OrderedMap κ ν} {k : κ} {v : ν} :
    m.get? k = some v ↔ (k, v) ∈ m.entries :=
  lookup_eq_some_iff m.nodup

/-- Two maps agree at a key when they have the same entries there. -/
theorem get?_congr {m m' : OrderedMap κ ν} {k k' : κ}
    (h : ∀ v, (k, v) ∈ m.entries ↔ (k', v) ∈ m'.entries) : m.get? k = m'.get? k' := by
  apply Option.ext
  intro v
  rw [get?_eq_some_iff, get?_eq_some_iff, h]

/-- The keys are what the map has. -/
theorem mem_keys_iff {m : OrderedMap κ ν} {k : κ} : k ∈ m.keys ↔ m.has k = true := by
  simp only [keys, List.mem_map, has, Option.isSome_iff_exists, get?_eq_some_iff]
  constructor
  · rintro ⟨⟨k', v⟩, h, rfl⟩
    exact ⟨v, h⟩
  · rintro ⟨v, h⟩
    exact ⟨(k, v), h, rfl⟩

/-! ## Lookup after an operation -/

@[simp] theorem get?_set_self (m : OrderedMap κ ν) (k : κ) (v : ν) :
    (m.set k v).get? k = some v := by
  rw [get?_eq_some_iff]
  show (k, v) ∈ setEntries m.entries k v
  unfold setEntries
  split_ifs with hk
  · obtain ⟨e, he, hek⟩ := List.mem_map.mp hk
    exact List.mem_map.mpr ⟨e, he, if_pos hek⟩
  · simp

theorem get?_set_of_ne (m : OrderedMap κ ν) {k k' : κ} (h : k' ≠ k) (v : ν) :
    (m.set k v).get? k' = m.get? k' := by
  apply get?_congr
  intro v'
  show (k', v') ∈ setEntries m.entries k v ↔ _
  unfold setEntries
  split_ifs with hk
  · rw [List.mem_map]
    constructor
    · rintro ⟨e, he, heq⟩
      by_cases hek : e.1 = k
      · rw [if_pos hek, Prod.mk.injEq] at heq
        exact absurd heq.1.symm h
      · rw [if_neg hek] at heq
        rwa [← heq]
    · intro he
      exact ⟨(k', v'), he, if_neg h⟩
  · simp [h]

/-- The value of a key that is kept. -/
theorem get?_filter (m : OrderedMap κ ν) (p : κ → ν → Bool) (k : κ) :
    (m.filter p).get? k = (m.get? k).filter (p k) := by
  apply Option.ext
  intro v
  rw [get?_eq_some_iff, Option.filter_eq_some_iff, get?_eq_some_iff]
  simp [filter, List.mem_filter]

@[simp] theorem get?_delete_self (m : OrderedMap κ ν) (k : κ) : (m.delete k).get? k = none := by
  rw [delete, get?_filter]
  cases m.get? k <;> simp

theorem get?_delete_of_ne (m : OrderedMap κ ν) {k k' : κ} (h : k' ≠ k) :
    (m.delete k).get? k' = m.get? k' := by
  rw [delete, get?_filter]
  cases m.get? k' <;> simp [h]

/-- What the deleting loop leaves at a key: it looks at the keys `ks`, each against the map that
the loop has left so far. -/
theorem get?_foldl_deleteWhere (p : κ → ν → Bool) (ks : List κ) (m : OrderedMap κ ν) (k : κ) :
    (ks.foldl
      (fun m k =>
        match m.get? k with
        | some v => if p k v then m.delete k else m
        | none => m) m).get? k
      = if k ∈ ks then (m.get? k).filter (fun v => !p k v) else m.get? k := by
  induction ks generalizing m with
  | nil => simp
  | cons k' ks ih =>
      rw [List.foldl_cons, ih]
      by_cases hk : k = k'
      · subst hk
        cases hv : m.get? k with
        | none => simp [hv]
        | some v => by_cases hp : p k v <;> simp [hv, hp, Option.filter]
      · have hstep : (match m.get? k' with
            | some v => if p k' v then m.delete k' else m
            | none => m).get? k = m.get? k := by
          cases m.get? k' with
          | none => rfl
          | some v =>
              show (if p k' v then m.delete k' else m).get? k = m.get? k
              split_ifs
              · exact get?_delete_of_ne m hk
              · rfl
        rw [hstep]
        simp [hk]

/-- **The deleting loop filters.** -/
theorem get?_deleteWhere (p : κ → ν → Bool) (m : OrderedMap κ ν) (k : κ) :
    (m.deleteWhere p).get? k = (m.get? k).filter (fun v => !p k v) := by
  rw [deleteWhere, get?_foldl_deleteWhere]
  split_ifs with hk
  · rfl
  · have hnone : m.get? k = none := by
      rw [mem_keys_iff, has, Bool.not_eq_true, Option.isSome_eq_false_iff] at hk
      simpa using hk
    rw [hnone]
    rfl

/-! ## The keys after an operation -/

/-- A key that is set is there. -/
theorem mem_keys_set_iff {m : OrderedMap κ ν} {k k' : κ} {v : ν} :
    k' ∈ (m.set k v).keys ↔ k' = k ∨ k' ∈ m.keys := by
  by_cases hk : k' = k
  · simp [mem_keys_iff, has, hk]
  · rw [mem_keys_iff, has, get?_set_of_ne m hk, ← has, ← mem_keys_iff, or_iff_right hk]

/-- A key that is deleted is not there. -/
theorem mem_keys_delete_iff {m : OrderedMap κ ν} {k k' : κ} :
    k' ∈ (m.delete k).keys ↔ k' ≠ k ∧ k' ∈ m.keys := by
  by_cases hk : k' = k
  · simp [mem_keys_iff, has, hk]
  · rw [mem_keys_iff, has, get?_delete_of_ne m hk, ← has, ← mem_keys_iff, and_iff_right hk]

/-- A write to a key that is present keeps the keys. -/
theorem keys_set_of_mem {m : OrderedMap κ ν} {k : κ} (h : k ∈ m.keys) (v : ν) :
    (m.set k v).keys = m.keys := by
  show (setEntries m.entries k v).map Prod.fst = m.entries.map Prod.fst
  rw [map_fst_setEntries]
  exact if_pos h

end OrderedMap
