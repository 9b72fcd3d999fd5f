import PlayWithOpencv.BmCurves

/-! # The groups of `split_group`

A category is named `BM_testname_tagname`, and the group of a category is its name up to the last
`_`.  `split_group` always returns a partition of the data map, in order, and a category is drawn
in the file of its group only.  Which categories share a group is another matter: a name without a
`_` has -1 for the place of the last one, and its group is the name less its last character.  The
groups are those of the names (`SplitByName`) exactly when no such group is the group of another
name (`NoCollision`, `splitGroup_iff`); two names without a `_` that differ in the last character
collide (`plain_names_collide`). -/

namespace PlayWithOpencv.DisplayBm

open FirstSeen GroupBy

variable {V : Type}

/-! ### The last `_` of a name -/

/-- `stem` is what stands before the last `_` of a name. -/
def HasStem (cat stem : Str) : Prop := ∃ tag, cat = stem ++ '_' :: tag ∧ '_' ∉ tag

theorem rfind_of_hasStem {cat stem : Str} (h : HasStem cat stem) :
    rfind cat '_' = stem.length := by
  obtain ⟨tag, rfl, htag⟩ := h
  have hrev : (stem ++ '_' :: tag).reverse = tag.reverse ++ '_' :: stem.reverse := by simp
  have hnotin : '_' ∉ tag.reverse := by simpa using htag
  unfold rfind
  rw [if_pos (by simp), hrev, List.idxOf_append_of_notMem hnotin, List.idxOf_cons_self,
    List.length_append, List.length_cons, List.length_reverse]
  omega

/-- A name with a `_` has a stem, the name of its group. -/
theorem groupName_of_hasStem {cat stem : Str} (h : HasStem cat stem) : groupName cat = stem := by
  unfold groupName sliceTo
  rw [rfind_of_hasStem h, if_pos (Int.natCast_nonneg _), Int.toNat_natCast]
  obtain ⟨tag, rfl, -⟩ := h
  exact List.take_left

theorem exists_hasStem {cat : Str} (h : '_' ∈ cat) : ∃ stem, HasStem cat stem := by
  obtain ⟨tag, stem, hsplit, htag⟩ := List.eq_append_cons_of_mem (List.mem_reverse.mpr h)
  refine ⟨stem.reverse, tag.reverse, ?_, by simpa using htag⟩
  rw [← List.reverse_reverse cat, hsplit]
  simp

theorem hasStem_iff {cat stem : Str} : HasStem cat stem ↔ '_' ∈ cat ∧ groupName cat = stem := by
  constructor
  · intro h
    refine ⟨?_, groupName_of_hasStem h⟩
    obtain ⟨tag, rfl, -⟩ := h
    simp
  · rintro ⟨hmem, rfl⟩
    obtain ⟨stem, h⟩ := exists_hasStem hmem
    rwa [groupName_of_hasStem h]

/-- Without a `_` the last character is cut off. -/
theorem groupName_of_notMem {cat : Str} (h : '_' ∉ cat) : groupName cat = cat.dropLast := by
  unfold groupName sliceTo rfind
  rw [if_neg h, if_neg (by decide)]
  exact (List.dropLast_eq_take).symm

/-! ### The groups -/

/-- The groups of a data map, as the names of its categories ask for them: a partition in the order
of the data map, with two categories together when they have one stem; and where there are columns
to draw, each category is drawn in one file. -/
structure SplitByName (datamap : Dict Str (Table V)) (groups : Dict Str (Dict Str (Table V))) :
    Prop where
  unique : ∀ cat ∈ datamap.keys, ∃! g, g ∈ groups.entries ∧ cat ∈ g.2.keys
  data : ∀ g ∈ groups.entries, g.2.entries ≠ [] ∧ g.2.entries.Sublist datamap.entries
  order : groups.entries.Pairwise fun g g' => ∀ cat cat', g.2.keys.head? = some cat →
    g'.2.keys.head? = some cat' → Before datamap.keys cat cat'
  together : ∀ cat ∈ datamap.keys, ∀ cat' ∈ datamap.keys, cat ≠ cat' →
    ((∃ g ∈ groups.entries, cat ∈ g.2.keys ∧ cat' ∈ g.2.keys) ↔
      ∃ stem, HasStem cat stem ∧ HasStem cat' stem)
  files : ∀ plt x cols curves, plot plt x groups cols = some curves →
    (∀ e ∈ datamap.entries, e.2.columns ≠ []) → ∀ cat ∈ datamap.keys,
      ∃! file, ∃ c ∈ curves, c.label = cat ∧ c.file = file

/-- A name without a `_`, less its last character, is not the group of another name. -/
def NoCollision (datamap : Dict Str (Table V)) : Prop :=
  ∀ cat ∈ datamap.keys, ∀ cat' ∈ datamap.keys, cat ≠ cat' → '_' ∉ cat →
    groupName cat' ≠ cat.dropLast

/-- Without collisions, two names of one group have a `_`. -/
theorem NoCollision.mem_of_groupName {datamap : Dict Str (Table V)} (h : NoCollision datamap)
    {cat cat' : Str} (hcat : cat ∈ datamap.keys) (hcat' : cat' ∈ datamap.keys) (hne : cat ≠ cat')
    (hname : groupName cat' = groupName cat) : '_' ∈ cat := by
  by_contra hplain
  apply h cat hcat cat' hcat' hne hplain
  rw [hname, groupName_of_notMem hplain]

/-- A category is drawn in the file of its group. -/
theorem drawn_in_one_file {datamap : Dict Str (Table V)} {plt : Pyplot V} {x : List Str} {cols : ℕ}
    {curves : List (Curve V)} (h : plot plt x (splitGroup datamap) cols = some curves)
    (hcolumns : ∀ e ∈ datamap.entries, e.2.columns ≠ []) {cat : Str} (hcat : cat ∈ datamap.keys) :
    ∃! file, ∃ c ∈ curves, c.label = cat ∧ c.file = file := by
  have hgroups := splitGroup_groupsOf datamap
  obtain ⟨g, ⟨hg, hin⟩, -⟩ := hgroups.unique hcat
  obtain ⟨e, he, rfl⟩ := List.mem_map.mp hin
  obtain ⟨ax, item, hc⟩ := exists_plot_curve h hg
    (fun e' he' => hcolumns e' ((hgroups.sublist hg).subset he')) he
  refine ⟨g.1 ++ ".jpg".toList, ⟨_, hc, rfl, rfl⟩, ?_⟩
  rintro file ⟨c, hc', hlabel, rfl⟩
  obtain ⟨g', hg', e', he', ax', item', rfl⟩ := mem_plot h hc'
  have hsame : g' = g := by
    have hlabel : e'.1 = e.1 := hlabel
    apply (hgroups.unique hcat).unique ⟨hg', ?_⟩ ⟨hg, hin⟩
    rw [← hlabel]
    exact Dict.mem_keys_of_mem he'
  rw [hsame]
  rfl

/-- **Main.** `split_group` splits a data map by the names of its categories exactly when no name
without a `_` falls into the group of another one. -/
theorem splitGroup_iff (datamap : Dict Str (Table V)) :
    SplitByName datamap (splitGroup datamap) ↔ NoCollision datamap := by
  have hgroups := splitGroup_groupsOf datamap
  constructor
  · intro h cat hcat cat' hcat' hne hplain hcollide
    rw [← groupName_of_notMem hplain] at hcollide
    -- the two share a group, but one of them has no stem
    obtain ⟨stem, hstem, -⟩ := (h.together cat hcat cat' hcat' hne).mp
      ((hgroups.together_iff hcat hcat').mpr hcollide.symm)
    exact hplain (hasStem_iff.mp hstem).1
  · intro h
    refine ⟨fun cat hcat => hgroups.unique hcat, fun g hg => ⟨hgroups.ne_nil hg, hgroups.sublist hg⟩,
      hgroups.heads, fun cat hcat cat' hcat' hne => ?_,
      fun plt x cols curves hplot hcolumns cat hcat => drawn_in_one_file hplot hcolumns hcat⟩
    rw [hgroups.together_iff hcat hcat']
    constructor
    · intro hname
      have hmem : '_' ∈ cat := h.mem_of_groupName hcat hcat' hne hname.symm
      have hmem' : '_' ∈ cat' := h.mem_of_groupName hcat' hcat hne.symm hname
      exact ⟨groupName cat, hasStem_iff.mpr ⟨hmem, rfl⟩, hasStem_iff.mpr ⟨hmem', hname.symm⟩⟩
    · rintro ⟨stem, hstem, hstem'⟩
      rw [groupName_of_hasStem hstem, groupName_of_hasStem hstem']

/-- Two categories, named without a `_`. -/
def plainNames : Dict Str (Table ℕ) :=
  ⟨[("sortA".toList, ⟨[], []⟩), ("sortB".toList, ⟨[], []⟩)], by decide⟩

/-- They differ in the last character, and share a group. -/
theorem plain_names_collide : ¬ SplitByName plainNames (splitGroup plainNames) := by
  intro h
  have hshare : ∃ g ∈ (splitGroup plainNames).entries,
      "sortA".toList ∈ g.2.keys ∧ "sortB".toList ∈ g.2.keys := by
    rw [(splitGroup_groupsOf plainNames).together_iff (by decide) (by decide)]
    decide
  obtain ⟨stem, hstem, -⟩ := (h.together _ (by decide) _ (by decide) (by decide)).mp hshare
  exact absurd (hasStem_iff.mp hstem).1 (by decide)

end PlayWithOpencv.DisplayBm
