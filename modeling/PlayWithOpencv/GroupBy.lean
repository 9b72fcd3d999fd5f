import PlayWithOpencv.FirstSeen
import PlayWithOpencv.OrderedDict

/-! # Grouping the entries of a dictionary

A loop over entries that puts each of them into the group of its key, in a dictionary of
dictionaries: a new key starts a group at the end, a known one gets the entry added to its group.

`GroupsOf` is what the loop has when it has seen some entries: the group keys in the order of their
first occurrences, and in each group the entries of its key, in order.  `GroupsOf.add` is its step
and `groupsOf_foldl` the loop.  From it follow the partition (`GroupsOf.unique`) and the order of
the groups by their first entries (`GroupsOf.heads`). -/

open FirstSeen

namespace GroupBy

variable {ι κ α : Type*} [DecidableEq ι] [DecidableEq κ] (key : κ → ι)

/-- The loop's body. -/
def addToGroup (groups : Dict ι (Dict κ α)) (e : κ × α) : Dict ι (Dict κ α) :=
  match groups.get? (key e.1) with
  | none => groups.set (key e.1) (.singleton e.1 e.2)
  | some group => groups.set (key e.1) (group.set e.1 e.2)

/-- The groups of the entries `es`. -/
structure GroupsOf (es : List (κ × α)) (groups : Dict ι (Dict κ α)) : Prop where
  keys : groups.keys = distinct (es.map fun e => key e.1)
  entries : ∀ g ∈ groups.entries, g.2.entries = es.filter fun e => key e.1 = g.1

variable {key} {es : List (κ × α)} {groups : Dict ι (Dict κ α)}

omit [DecidableEq κ] in
theorem groupsOf_nil : GroupsOf key ([] : List (κ × α)) Dict.empty :=
  ⟨rfl, fun _ h => absurd h List.not_mem_nil⟩

omit [DecidableEq κ] in
theorem GroupsOf.mem_keys (h : GroupsOf key es groups) {k : ι} :
    k ∈ groups.keys ↔ ∃ e ∈ es, key e.1 = k := by
  rw [h.keys, mem_distinct, List.mem_map]

omit [DecidableEq κ] in
/-- An entry is added to those of its own key only. -/
theorem filter_concat (es : List (κ × α)) (e : κ × α) (k : ι) :
    (es ++ [e]).filter (fun e' => key e'.1 = k) =
      if key e.1 = k then (es.filter fun e' => key e'.1 = k) ++ [e]
      else es.filter fun e' => key e'.1 = k := by
  rw [List.filter_append]
  split_ifs with hk <;> simp [hk]

omit [DecidableEq κ] in
/-- An entry of a new key starts a group. -/
theorem GroupsOf.add_new (h : GroupsOf key es groups) {e : κ × α} (hkey : key e.1 ∉ groups.keys) :
    GroupsOf key (es ++ [e]) (groups.set (key e.1) (.singleton e.1 e.2)) := by
  have hmem : key e.1 ∉ es.map fun e' => key e'.1 := by
    rwa [h.keys, mem_distinct] at hkey
  constructor
  · rw [Dict.keys_set_of_notMem hkey, h.keys, List.map_append, List.map_singleton, distinct_concat,
      if_neg hmem]
  · intro g hg
    rcases Dict.mem_set hg with rfl | ⟨hg, hne⟩
    · have hnone : es.filter (fun e' => key e'.1 = key e.1) = [] := by
        apply List.filter_eq_nil_iff.mpr
        intro e' he' hEq
        exact hmem (List.mem_map.mpr ⟨e', he', by simpa using hEq⟩)
      rw [filter_concat, if_pos rfl, hnone]
      rfl
    · rw [filter_concat, if_neg (Ne.symm hne)]
      exact h.entries g hg

/-- An entry of a known key is added to the group. -/
theorem GroupsOf.add_known (h : GroupsOf key es groups) {e : κ × α} {group : Dict κ α}
    (hgroup : (key e.1, group) ∈ groups.entries) (hnew : e.1 ∉ es.map Prod.fst) :
    GroupsOf key (es ++ [e]) (groups.set (key e.1) (group.set e.1 e.2)) := by
  have hkey : key e.1 ∈ groups.keys := Dict.mem_keys_of_mem hgroup
  have hmem : key e.1 ∈ es.map fun e' => key e'.1 := by
    rwa [h.keys, mem_distinct] at hkey
  have hentries := h.entries _ hgroup
  have hnotin : e.1 ∉ group.keys := by
    intro hin
    obtain ⟨e', he', hEq⟩ := List.mem_map.mp hin
    rw [hentries] at he'
    exact hnew (List.mem_map.mpr ⟨e', List.mem_of_mem_filter he', hEq⟩)
  constructor
  · rw [Dict.keys_set_of_mem hkey, h.keys, List.map_append, List.map_singleton, distinct_concat,
      if_pos hmem]
  · intro g hg
    rcases Dict.mem_set hg with rfl | ⟨hg, hne⟩
    · rw [Dict.entries_set_of_notMem hnotin, hentries, filter_concat, if_pos rfl]
    · rw [filter_concat, if_neg (Ne.symm hne)]
      exact h.entries g hg

/-- **One step**: an entry that is not there yet goes to the group of its key. -/
theorem GroupsOf.add (h : GroupsOf key es groups) {e : κ × α} (hnew : e.1 ∉ es.map Prod.fst) :
    GroupsOf key (es ++ [e]) (addToGroup key groups e) := by
  unfold addToGroup
  cases hget : groups.get? (key e.1) with
  | none => exact h.add_new (Dict.notMem_of_get? hget)
  | some group => exact h.add_known (Dict.mem_of_get? hget) hnew

/-- **The loop** over entries with distinct keys. -/
theorem groupsOf_foldl {es : List (κ × α)} (hnodup : (es.map Prod.fst).Nodup) :
    GroupsOf key es (es.foldl (addToGroup key) .empty) := by
  induction es using List.reverseRecOn with
  | nil => exact groupsOf_nil
  | append_singleton es e ih =>
      rw [List.map_append, List.nodup_append] at hnodup
      rw [List.foldl_concat]
      refine (ih hnodup.1).add fun hin => ?_
      exact hnodup.2.2 e.1 hin e.1 (by simp) rfl

/-! ### Splitting a list by keys -/

omit [DecidableEq κ] in
/-- The selections of a list by all of its keys are the list, in another order. -/
theorem flatMap_filter_perm {key : κ → ι} :
    ∀ {ks : List ι} {xs : List κ}, ks.Nodup → (∀ a ∈ xs, key a ∈ ks) →
      (ks.flatMap fun k => xs.filter fun a => key a = k).Perm xs
  | [], xs, _, hcover => by
      obtain rfl : xs = [] := List.eq_nil_iff_forall_not_mem.mpr fun a ha => by
        simpa using hcover a ha
      exact List.Perm.nil
  | k :: ks, xs, hnodup, hcover => by
      obtain ⟨hk, hks⟩ := List.nodup_cons.mp hnodup
      -- the other keys select from what the first one leaves
      have hrest : (ks.flatMap fun k' => xs.filter fun a => key a = k') =
          ks.flatMap fun k' => (xs.filter fun a => !decide (key a = k)).filter
            fun a => key a = k' := by
        refine List.flatMap_congr fun k' hk' => ?_
        rw [List.filter_filter]
        refine List.filter_congr fun a _ => ?_
        have hne : k' ≠ k := by
          rintro rfl
          exact hk hk'
        by_cases ha : key a = k'
        · simp [ha, hne]
        · simp [ha]
      have hcover' : ∀ a ∈ xs.filter fun a => !decide (key a = k), key a ∈ ks := by
        intro a ha
        obtain ⟨hmem, hne⟩ := List.mem_filter.mp ha
        have hne : key a ≠ k := by simpa using hne
        exact (List.mem_cons.mp (hcover a hmem)).resolve_left hne
      have hperm := flatMap_filter_perm hks hcover'
      rw [List.flatMap_cons, hrest]
      exact (hperm.append_left _).trans (List.filter_append_perm _ xs)

/-! ### What the groups are -/

section Groups

variable {d : Dict κ α} (h : GroupsOf key d.entries groups)
include h

omit [DecidableEq κ]

/-- An entry is in the group of its key and in no other. -/
theorem GroupsOf.mem_iff {g : ι × Dict κ α} (hg : g ∈ groups.entries) {e : κ × α} :
    e ∈ g.2.entries ↔ e ∈ d.entries ∧ key e.1 = g.1 := by
  rw [h.entries g hg, List.mem_filter, decide_eq_true_eq]

theorem GroupsOf.mem_keys_iff {g : ι × Dict κ α} (hg : g ∈ groups.entries) {k : κ} :
    k ∈ g.2.keys ↔ k ∈ d.keys ∧ key k = g.1 := by
  constructor
  · intro hk
    obtain ⟨e, he, rfl⟩ := List.mem_map.mp hk
    obtain ⟨hmem, hkey⟩ := (h.mem_iff hg).mp he
    exact ⟨Dict.mem_keys_of_mem hmem, hkey⟩
  · rintro ⟨hk, hkey⟩
    obtain ⟨e, he, rfl⟩ := List.mem_map.mp hk
    exact Dict.mem_keys_of_mem ((h.mem_iff hg).mpr ⟨he, hkey⟩)

theorem GroupsOf.exists_group {k : κ} (hk : k ∈ d.keys) : ∃ g ∈ groups.entries, g.1 = key k := by
  obtain ⟨e, he, rfl⟩ := List.mem_map.mp hk
  exact List.mem_map.mp (h.mem_keys.mpr ⟨e, he, rfl⟩)

/-- **The partition**: every key is in one group. -/
theorem GroupsOf.unique {k : κ} (hk : k ∈ d.keys) :
    ∃! g, g ∈ groups.entries ∧ k ∈ g.2.keys := by
  obtain ⟨g, hg, hkey⟩ := h.exists_group hk
  refine ⟨g, ⟨hg, (h.mem_keys_iff hg).mpr ⟨hk, hkey.symm⟩⟩, ?_⟩
  rintro g' ⟨hg', hk'⟩
  exact Dict.entry_ext hg' hg (((h.mem_keys_iff hg').mp hk').2.symm.trans hkey.symm)

/-- Two keys are in one group exactly when they have one group key. -/
theorem GroupsOf.together_iff {k k' : κ} (hk : k ∈ d.keys) (hk' : k' ∈ d.keys) :
    (∃ g ∈ groups.entries, k ∈ g.2.keys ∧ k' ∈ g.2.keys) ↔ key k = key k' := by
  constructor
  · rintro ⟨g, hg, hin, hin'⟩
    rw [((h.mem_keys_iff hg).mp hin).2, ((h.mem_keys_iff hg).mp hin').2]
  · intro hEq
    obtain ⟨g, hg, hkey⟩ := h.exists_group hk
    exact ⟨g, hg, (h.mem_keys_iff hg).mpr ⟨hk, hkey.symm⟩,
      (h.mem_keys_iff hg).mpr ⟨hk', hEq ▸ hkey.symm⟩⟩

theorem GroupsOf.sublist {g : ι × Dict κ α} (hg : g ∈ groups.entries) :
    g.2.entries.Sublist d.entries := by
  rw [h.entries g hg]
  exact List.filter_sublist

/-- The groups hold the entries, in another order. -/
theorem GroupsOf.entries_perm : (groups.entries.flatMap fun g => g.2.entries).Perm d.entries := by
  have hkeys : (groups.entries.flatMap fun g => g.2.entries) =
      groups.keys.flatMap fun k => d.entries.filter fun e => key e.1 = k := by
    unfold Dict.keys
    rw [List.flatMap_map]
    exact List.flatMap_congr fun g hg => h.entries g hg
  rw [hkeys]
  refine flatMap_filter_perm groups.nodup_keys fun e he => ?_
  exact h.mem_keys.mpr ⟨e, he, rfl⟩

theorem GroupsOf.ne_nil {g : ι × Dict κ α} (hg : g ∈ groups.entries) : g.2.entries ≠ [] := by
  obtain ⟨e, he, hkey⟩ := h.mem_keys.mp (Dict.mem_keys_of_mem hg)
  exact List.ne_nil_of_mem ((h.mem_iff hg).mpr ⟨he, hkey⟩)

variable [DecidableEq κ]

/-- The first key of a group stands where the key of the group occurs first. -/
theorem GroupsOf.idxOf_head {g : ι × Dict κ α} (hg : g ∈ groups.entries) {k : κ}
    (hk : g.2.keys.head? = some k) :
    d.keys.idxOf k = (d.entries.map fun e => key e.1).idxOf g.1 := by
  unfold Dict.keys at hk
  rw [h.entries g hg, List.head?_map, List.head?_filter] at hk
  obtain ⟨e, he, rfl⟩ := Option.map_eq_some_iff.mp hk
  obtain ⟨hkey, before, after, hsplit, hbefore⟩ := List.find?_eq_some_iff_append.mp he
  have hkey : key e.1 = g.1 := by simpa using hkey
  have hnodup := d.nodup_keys
  rw [hsplit, List.map_append, List.nodup_append] at hnodup
  have hnotin : e.1 ∉ before.map Prod.fst := fun hin => hnodup.2.2 e.1 hin e.1 (by simp) rfl
  have hnotkey : g.1 ∉ before.map fun e' => key e'.1 := by
    intro hin
    obtain ⟨e', he', hEq⟩ := List.mem_map.mp hin
    simpa [hEq] using hbefore e' he'
  have hleft : d.keys.idxOf e.1 = before.length := by
    unfold Dict.keys
    rw [hsplit, List.map_append, List.map_cons, List.idxOf_append_of_notMem hnotin,
      List.idxOf_cons_self, Nat.add_zero, List.length_map]
  rw [hleft, hsplit, List.map_append, List.map_cons, List.idxOf_append_of_notMem hnotkey, hkey,
    List.idxOf_cons_self, Nat.add_zero, List.length_map]

/-- **The order**: the groups come in the order of their first keys. -/
theorem GroupsOf.heads : groups.entries.Pairwise fun g g' => ∀ k k', g.2.keys.head? = some k →
    g'.2.keys.head? = some k' → Before d.keys k k' := by
  have hkeys : groups.entries.Pairwise fun g g' =>
      Before (d.entries.map fun e => key e.1) g.1 g'.1 := by
    rw [← List.pairwise_map (f := Prod.fst)]
    show groups.keys.Pairwise _
    rw [h.keys]
    exact distinct_pairwise _
  refine hkeys.imp_of_mem fun {g g'} hg hg' hbefore k k' hk hk' => ?_
  unfold Before at hbefore ⊢
  rwa [h.idxOf_head hg hk, h.idxOf_head hg' hk']

end Groups

end GroupBy
