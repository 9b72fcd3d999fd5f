import Mathlib.Data.List.FinRange
import Mathlib.Data.List.Induction
import Mathlib.Data.List.Sort

/-! # Distinct elements in the order of their first occurrence

`distinct` keeps the first occurrence of every element.  It is characterised by its elements and
by their order (`eq_distinct`), so that other ways to compute the same list are compared with
it.

* `sortedByIndex` sorts an enumeration of the set of elements by their first index.  Whatever the
  enumeration (`Enumerates`), the result is `distinct` (`sortedByIndex_eq`).
* A list of records whose selections all show one list of values shows these values first in the
  order of that list (`distinct_of_selections`). -/

namespace FirstSeen

variable {α : Type*} [DecidableEq α]

/-- The distinct elements of a list, in the order of their first occurrences. -/
def distinct (xs : List α) : List α := xs.eraseDups

theorem mem_distinct {xs : List α} {a : α} : a ∈ distinct xs ↔ a ∈ xs := List.mem_eraseDups

/-! ### The order of first occurrences -/

/-- `a` occurs in `xs` before `b` does. -/
def Before (xs : List α) (a b : α) : Prop := xs.idxOf a < xs.idxOf b

theorem before_append {xs : List α} {a b : α} (ha : a ∈ xs) (hb : b ∈ xs) (ys : List α) :
    Before (xs ++ ys) a b ↔ Before xs a b := by
  unfold Before
  rw [List.idxOf_append_of_mem ha, List.idxOf_append_of_mem hb]

/-- What occurs before the first occurrence of `b` is what stands left of it. -/
theorem before_iff_mem {xs ys : List α} {b : α} (hb : b ∉ xs) (a : α) :
    Before (xs ++ b :: ys) a b ↔ a ∈ xs := by
  unfold Before
  rw [List.idxOf_append_of_notMem hb, List.idxOf_cons_self, Nat.add_zero]
  constructor
  · intro h
    by_contra ha
    rw [List.idxOf_append_of_notMem ha] at h
    omega
  · intro ha
    rw [List.idxOf_append_of_mem ha]
    exact List.idxOf_lt_length_of_mem ha

theorem distinct_concat (xs : List α) (a : α) :
    distinct (xs ++ [a]) = if a ∈ xs then distinct xs else distinct xs ++ [a] := by
  unfold distinct
  rw [List.eraseDups_append]
  split_ifs with ha
  · simp [List.removeAll, ha]
  · simp [List.removeAll, ha, List.eraseDups_cons]

theorem distinct_pairwise (xs : List α) : (distinct xs).Pairwise (Before xs) := by
  induction xs using List.reverseRecOn with
  | nil => exact List.Pairwise.nil
  | append_singleton xs a ih =>
      have hold : (distinct xs).Pairwise (Before (xs ++ [a])) := by
        refine ih.imp_of_mem fun hx hy h => ?_
        exact (before_append (mem_distinct.mp hx) (mem_distinct.mp hy) [a]).mpr h
      rw [distinct_concat]
      split_ifs with ha
      · exact hold
      · refine List.pairwise_append.mpr ⟨hold, List.pairwise_singleton _ _, fun x hx b hb => ?_⟩
        obtain rfl := List.mem_singleton.mp hb
        exact (before_iff_mem ha x).mpr (mem_distinct.mp hx)

theorem nodup_of_pairwise_before {xs l : List α} (h : l.Pairwise (Before xs)) : l.Nodup :=
  h.imp fun hab hEq => absurd (hEq ▸ hab) (lt_irrefl _)

theorem nodup_distinct (xs : List α) : (distinct xs).Nodup :=
  nodup_of_pairwise_before (distinct_pairwise xs)

/-- **Characterisation**: the elements, in the order of their first occurrences. -/
theorem eq_distinct {xs l : List α} (hmem : ∀ a, a ∈ l ↔ a ∈ xs)
    (hpw : l.Pairwise (Before xs)) : l = distinct xs := by
  have hperm : l.Perm (distinct xs) := by
    rw [List.perm_ext_iff_of_nodup (nodup_of_pairwise_before hpw) (nodup_distinct xs)]
    intro a
    rw [hmem, mem_distinct]
  exact hperm.eq_of_pairwise (fun a b _ _ hab hba => absurd hab (lt_asymm hba)) hpw
    (distinct_pairwise xs)

/-! ### Sorting a set by first index -/

/-- `ys` lists every element of `xs` once, in any order. -/
structure Enumerates (ys xs : List α) : Prop where
  nodup : ys.Nodup
  mem_iff : ∀ a, a ∈ ys ↔ a ∈ xs

/-- `sorted(ys, key=xs.index)`. -/
def sortedByIndex (xs ys : List α) : List α :=
  ys.insertionSort fun a b => xs.idxOf a ≤ xs.idxOf b

/-- **The enumeration does not matter.** -/
theorem sortedByIndex_eq {xs ys : List α} (h : Enumerates ys xs) :
    sortedByIndex xs ys = distinct xs := by
  have hperm : (sortedByIndex xs ys).Perm ys := List.perm_insertionSort _ ys
  apply eq_distinct
  · intro a
    rw [hperm.mem_iff, h.mem_iff]
  · have htotal : Std.Total fun a b : α => xs.idxOf a ≤ xs.idxOf b := ⟨fun _ _ => le_total _ _⟩
    have htrans : IsTrans α fun a b => xs.idxOf a ≤ xs.idxOf b := ⟨fun _ _ _ => le_trans⟩
    have hsorted := List.pairwise_insertionSort (fun a b : α => xs.idxOf a ≤ xs.idxOf b) ys
    refine (hsorted.and (hperm.nodup_iff.mpr h.nodup)).imp_of_mem fun ha _ hab => ?_
    -- two elements of `xs` with one index are equal
    refine lt_of_le_of_ne hab.1 fun hEq => hab.2 ?_
    exact (List.idxOf_inj ((h.mem_iff _).mp (hperm.mem_iff.mp ha))).mp hEq

theorem enumerates_distinct (xs : List α) : Enumerates (distinct xs) xs :=
  ⟨nodup_distinct xs, fun _ => mem_distinct⟩

/-! ### Selections that show the same values -/

theorem pairwise_before_self {l : List α} (h : l.Nodup) : l.Pairwise (Before l) := by
  rw [List.pairwise_iff_getElem]
  intro i j hi hj hij
  unfold Before
  rwa [h.idxOf_getElem, h.idxOf_getElem]

/-- If every record is in a selection that shows the values `l`, then `l` is in the order of first
occurrences: what stands before a value in `l` stands before it in its selection. -/
theorem distinct_of_selections {ρ : Type*} {R : List ρ} {value : ρ → α} {l : List α}
    (hnodup : l.Nodup) (hsub : ∀ a ∈ l, a ∈ R.map value)
    (hsel : ∀ r ∈ R, ∃ p : ρ → Bool, p r = true ∧ (R.filter p).map value = l) :
    distinct (R.map value) = l := by
  symm
  apply eq_distinct
  · refine fun a => ⟨hsub a, fun ha => ?_⟩
    obtain ⟨r, hr, rfl⟩ := List.mem_map.mp ha
    obtain ⟨p, hp, hl⟩ := hsel r hr
    rw [← hl]
    exact List.mem_map_of_mem (List.mem_filter.mpr ⟨hr, hp⟩)
  · refine (pairwise_before_self hnodup).imp_of_mem fun {a b} _ hb hab => ?_
    -- the record of the first occurrence of `b`
    obtain ⟨left, right, hsplit, hnew⟩ := List.eq_append_cons_of_mem (hsub b hb)
    obtain ⟨R₁, R₂, hR, hleft, hright⟩ := List.map_eq_append_iff.mp hsplit
    obtain ⟨r, R₃, rfl, rfl, -⟩ := List.map_eq_cons_iff.mp hright
    obtain ⟨p, hp, hl⟩ := hsel r (by simp [hR])
    have hnew' : value r ∉ (R₁.filter p).map value := by
      intro h
      obtain ⟨r', hr', hEq⟩ := List.mem_map.mp h
      rw [← hleft] at hnew
      exact hnew (hEq ▸ List.mem_map_of_mem (List.mem_of_mem_filter hr'))
    rw [hsplit, before_iff_mem hnew, ← hleft]
    rw [← hl, hR, List.filter_append, List.filter_cons_of_pos hp, List.map_append, List.map_cons,
      before_iff_mem hnew'] at hab
    exact List.map_subset value List.filter_sublist.subset hab

end FirstSeen
