import Mathlib.Data.List.Nodup

/-! # Insertion-ordered dictionaries

A `Dict` is the list of its entries in the order in which their keys came in, each key once.
`set` replaces the value of a key in place, or adds the key at the end.

* `mem_set` bounds the entries of an updated dictionary.
* `entries_foldl_set`: setting distinct keys one after the other lists them in that order. -/

/-- A dictionary: its entries, one for each key, in the order of insertion. -/
structure Dict (κ α : Type*) where
  entries : List (κ × α)
  nodup_keys : (entries.map Prod.fst).Nodup

namespace Dict

variable {κ α : Type*}

def keys (d : Dict κ α) : List κ := d.entries.map Prod.fst

def empty : Dict κ α := ⟨[], List.nodup_nil⟩

def singleton (k : κ) (a : α) : Dict κ α := ⟨[(k, a)], List.nodup_singleton k⟩

variable [DecidableEq κ]

def get? (d : Dict κ α) (k : κ) : Option α := (d.entries.find? fun e => e.1 = k).map Prod.snd

/-- The entries with the value of a key replaced; the keys stay where they are. -/
def replace (k : κ) (a : α) (es : List (κ × α)) : List (κ × α) :=
  es.map fun e => if e.1 = k then (k, a) else e

theorem keys_replace (k : κ) (a : α) (es : List (κ × α)) :
    (replace k a es).map Prod.fst = es.map Prod.fst := by
  unfold replace
  rw [List.map_map]
  apply List.map_congr_left
  intro e _
  show (if e.1 = k then (k, a) else e).1 = e.1
  split_ifs with h
  · exact h.symm
  · rfl

theorem nodup_keys_replace (d : Dict κ α) (k : κ) (a : α) :
    ((replace k a d.entries).map Prod.fst).Nodup := by
  rw [keys_replace]
  exact d.nodup_keys

omit [DecidableEq κ] in
theorem nodup_keys_concat {d : Dict κ α} {k : κ} (hk : k ∉ d.keys) (a : α) :
    ((d.entries ++ [(k, a)]).map Prod.fst).Nodup := by
  rw [List.map_append]
  refine List.nodup_append.mpr ⟨d.nodup_keys, List.nodup_singleton k, fun x hx y hy hxy => ?_⟩
  obtain rfl : y = k := List.mem_singleton.mp hy
  exact hk (hxy ▸ hx)

def set (d : Dict κ α) (k : κ) (a : α) : Dict κ α :=
  if hk : k ∈ d.keys then ⟨replace k a d.entries, nodup_keys_replace d k a⟩
  else ⟨d.entries ++ [(k, a)], nodup_keys_concat hk a⟩

theorem entries_set_of_notMem {d : Dict κ α} {k : κ} (hk : k ∉ d.keys) (a : α) :
    (d.set k a).entries = d.entries ++ [(k, a)] := by
  unfold set
  rw [dif_neg hk]

theorem entries_set_of_mem {d : Dict κ α} {k : κ} (hk : k ∈ d.keys) (a : α) :
    (d.set k a).entries = replace k a d.entries := by
  unfold set
  rw [dif_pos hk]

theorem keys_set_of_notMem {d : Dict κ α} {k : κ} (hk : k ∉ d.keys) (a : α) :
    (d.set k a).keys = d.keys ++ [k] := by
  unfold keys
  rw [entries_set_of_notMem hk, List.map_append]
  rfl

theorem keys_set_of_mem {d : Dict κ α} {k : κ} (hk : k ∈ d.keys) (a : α) :
    (d.set k a).keys = d.keys := by
  unfold keys
  rw [entries_set_of_mem hk, keys_replace]

/-- An updated dictionary has the new entry, and the old ones of other keys. -/
theorem mem_set {d : Dict κ α} {k : κ} {a : α} {e : κ × α} (h : e ∈ (d.set k a).entries) :
    e = (k, a) ∨ e ∈ d.entries ∧ e.1 ≠ k := by
  by_cases hk : k ∈ d.keys
  · rw [entries_set_of_mem hk] at h
    obtain ⟨e', he', rfl⟩ := List.mem_map.mp h
    split_ifs with hek
    · exact .inl rfl
    · exact .inr ⟨he', hek⟩
  · rw [entries_set_of_notMem hk] at h
    rcases List.mem_append.mp h with h | h
    · exact .inr ⟨h, fun hek => hk (hek ▸ List.mem_map_of_mem h)⟩
    · exact .inl (List.mem_singleton.mp h)

theorem notMem_of_get? {d : Dict κ α} {k : κ} (h : d.get? k = none) : k ∉ d.keys := by
  intro hk
  obtain ⟨e, he, rfl⟩ := List.mem_map.mp hk
  have hfind := List.find?_eq_none.mp (Option.map_eq_none_iff.mp h) e he
  simp at hfind

theorem mem_of_get? {d : Dict κ α} {k : κ} {a : α} (h : d.get? k = some a) :
    (k, a) ∈ d.entries := by
  obtain ⟨e, he, rfl⟩ := Option.map_eq_some_iff.mp h
  have hk := List.find?_some he
  obtain rfl : e.1 = k := by simpa using hk
  exact List.mem_of_find?_eq_some he

omit [DecidableEq κ] in
theorem mem_keys_of_mem {d : Dict κ α} {e : κ × α} (h : e ∈ d.entries) : e.1 ∈ d.keys :=
  List.mem_map_of_mem h

omit [DecidableEq κ] in
/-- A key has one entry. -/
theorem entry_ext {d : Dict κ α} {e e' : κ × α} (he : e ∈ d.entries) (he' : e' ∈ d.entries)
    (h : e.1 = e'.1) : e = e' :=
  List.inj_on_of_nodup_map d.nodup_keys he he' h

/-- Setting keys that are new and distinct appends them. -/
theorem entries_foldl_set (f : κ → α) :
    ∀ (ks : List κ) (d : Dict κ α), ks.Nodup → (∀ k ∈ ks, k ∉ d.keys) →
      (ks.foldl (fun d k => d.set k (f k)) d).entries = d.entries ++ ks.map fun k => (k, f k)
  | [], d, _, _ => by simp
  | k :: ks, d, hnodup, hnew => by
      obtain ⟨hk, hks⟩ := List.nodup_cons.mp hnodup
      have hentries := entries_set_of_notMem (hnew k List.mem_cons_self) (f k)
      rw [List.foldl_cons, entries_foldl_set f ks (d.set k (f k)) hks, hentries,
        List.append_assoc, List.map_cons]
      · rfl
      · intro k' hk' h
        unfold keys at h
        rw [hentries, List.map_append] at h
        rcases List.mem_append.mp h with h | h
        · exact hnew k' (List.mem_cons_of_mem k hk') h
        · obtain rfl : k' = k := List.mem_singleton.mp h
          exact hk hk'

end Dict
