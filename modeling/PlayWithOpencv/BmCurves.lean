import PlayWithOpencv.DisplayBm
import PlayWithOpencv.GroupBy

/-! # What `split_group` and `plot` compute

`split_group` is the grouping loop, with the name of a category up to its last `_` as the key
(`splitGroup_groupsOf`).  `plot_group` draws one item after the other: the curves of the item, one
for each category of the group, on the axis at the place of the item in the grid
(`drawItem_some_iff`).  A picture is drawn when all of its items are (`plotGroup_some_iff`), and
`plot` draws a picture for each group (`mem_plot`). -/

namespace PlayWithOpencv.DisplayBm

open FirstSeen GroupBy

variable {V : Type}

/-! ### The groups -/

/-- The name of the group of a category: `cat[:cat.rfind('_')]`. -/
def groupName (cat : Str) : Str := sliceTo cat (rfind cat '_')

theorem addCategory_eq {α : Type} : addCategory (α := α) = addToGroup groupName := by
  funext groups e
  simp only [addCategory, addToGroup, groupName]
  cases groups.get? (sliceTo e.1 (rfind e.1 '_')) <;> rfl

theorem splitGroup_groupsOf {α : Type} (d : Dict Str α) :
    GroupsOf groupName d.entries (splitGroup d) := by
  unfold splitGroup
  rw [addCategory_eq]
  exact groupsOf_foldl d.nodup_keys

/-! ### Loops that may fail -/

/-- A loop gives results exactly when its body gives them, in order. -/
theorem mapM_eq_some_iff {α β : Type} {f : α → Option β} :
    ∀ {l : List α} {ys : List β}, l.mapM f = some ys ↔ l.map f = ys.map some
  | [], ys => by cases ys <;> simp
  | a :: l, ys => by
      rw [List.mapM_cons, List.map_cons]
      constructor
      · intro h
        obtain ⟨b, hb, h⟩ := Option.bind_eq_some_iff.mp h
        obtain ⟨bs, hbs, h⟩ := Option.bind_eq_some_iff.mp h
        obtain rfl : b :: bs = ys := by simpa using h
        rw [List.map_cons, hb, mapM_eq_some_iff.mp hbs]
      · intro h
        cases ys with
        | nil => simp at h
        | cons b bs =>
            obtain ⟨hb, hbs⟩ := List.cons.inj h
            rw [hb, mapM_eq_some_iff.mpr hbs]
            rfl

theorem mem_of_mapM {α β : Type} {f : α → Option β} {l : List α} {ys : List β} {y : β}
    (h : l.mapM f = some ys) (hy : y ∈ ys) : ∃ a ∈ l, f a = some y := by
  have hmem : some y ∈ l.map f := by
    rw [mapM_eq_some_iff.mp h]
    exact List.mem_map_of_mem hy
  exact List.mem_map.mp hmem

/-- Every element of a loop has its result. -/
theorem exists_of_mapM {α β : Type} {f : α → Option β} {l : List α} {ys : List β} {a : α}
    (h : l.mapM f = some ys) (ha : a ∈ l) : ∃ y ∈ ys, f a = some y := by
  have hmem : f a ∈ ys.map some := by
    rw [← mapM_eq_some_iff.mp h]
    exact List.mem_map_of_mem ha
  obtain ⟨y, hy, hEq⟩ := List.mem_map.mp hmem
  exact ⟨y, hy, hEq.symm⟩

/-- A loop whose body gives a result for every element gives results. -/
theorem exists_mapM {α β : Type} {f : α → Option β} {l : List α}
    (h : ∀ a ∈ l, ∃ y, f a = some y) : ∃ ys, l.mapM f = some ys := by
  induction l with
  | nil => exact ⟨[], by simp⟩
  | cons a l ih =>
      obtain ⟨y, hy⟩ := h a List.mem_cons_self
      obtain ⟨ys, hys⟩ := ih fun b hb => h b (List.mem_cons_of_mem _ hb)
      exact ⟨y :: ys, by simp [List.mapM_cons, hy, hys]⟩

/-! ### One item -/

/-- The curve of a category for an item. -/
def curveOf (x : List Str) (gn : Str) (ax : ℕ × ℕ) (item : Str) (e : Str × Table V) : Curve V :=
  ⟨gn ++ ".jpg".toList, ax, item, e.1, x, e.2.rows.map (·.cells item)⟩

/-- The body of the item loop of `plot_group`. -/
def drawItem (x : List Str) (gn : Str) (datamap : Dict Str (Table V)) (rows cols : ℕ)
    (i : Str × ℕ) : Option (List (Curve V)) := do
  let ycoords ← datamap.entries.mapM fun e : Str × Table V => e.2.column i.1
  let ax ← (axes rows cols)[i.2]?
  return plotSubgraph (gn ++ ".jpg".toList) ax x ycoords i.1 datamap.keys

theorem column_some_iff {t : Table V} {item : Str} {ys : List V} :
    t.column item = some ys ↔ item ∈ t.columns ∧ ys = t.rows.map (·.cells item) := by
  unfold Table.column
  split_ifs with hitem
  · rw [Option.some.injEq, eq_comm]
    simp [hitem]
  · simp [hitem]

variable {plt : Pyplot V} {x : List Str} {gn : Str} {datamap : Dict Str (Table V)} {rows cols : ℕ}

/-- The values of an item, category by category. -/
theorem ycoords_some_iff {item : Str} {ycoords : List (List V)} :
    (datamap.entries.mapM fun e : Str × Table V => e.2.column item) = some ycoords ↔
      (∀ e ∈ datamap.entries, item ∈ e.2.columns) ∧
        ycoords = datamap.entries.map fun e => e.2.rows.map (·.cells item) := by
  constructor
  · intro h
    have hcol : ∀ e ∈ datamap.entries, item ∈ e.2.columns := by
      intro e he
      obtain ⟨ys, -, hys⟩ := exists_of_mapM h he
      exact (column_some_iff.mp hys).1
    refine ⟨hcol, ?_⟩
    have hmap := mapM_eq_some_iff.mp h
    apply (List.map_injective_iff.mpr (Option.some_injective _))
    rw [← hmap, List.map_map]
    exact List.map_congr_left fun e he => column_some_iff.mpr ⟨hcol e he, rfl⟩
  · rintro ⟨hcol, rfl⟩
    rw [mapM_eq_some_iff, List.map_map]
    exact List.map_congr_left fun e he => column_some_iff.mpr ⟨hcol e he, rfl⟩

/-- **One item**: it is drawn when every category has it and the grid has an axis for it, with one
curve for each category. -/
theorem drawItem_some_iff {i : Str × ℕ} {cs : List (Curve V)} :
    drawItem x gn datamap rows cols i = some cs ↔
      (∀ e ∈ datamap.entries, i.1 ∈ e.2.columns) ∧
        ∃ ax, (axes rows cols)[i.2]? = some ax ∧ cs = datamap.entries.map (curveOf x gn ax i.1) := by
  have hzip : ∀ ax, plotSubgraph (gn ++ ".jpg".toList) ax x
      (datamap.entries.map fun e => e.2.rows.map (·.cells i.1)) i.1 datamap.keys =
        datamap.entries.map (curveOf x gn ax i.1) := by
    intro ax
    unfold plotSubgraph Dict.keys
    rw [List.zip_map', List.map_map]
    rfl
  unfold drawItem
  constructor
  · intro h
    obtain ⟨ycoords, hy, h⟩ := Option.bind_eq_some_iff.mp h
    obtain ⟨ax, hax, h⟩ := Option.bind_eq_some_iff.mp h
    obtain ⟨hcol, rfl⟩ := ycoords_some_iff.mp hy
    exact ⟨hcol, ax, hax, (Option.some.inj h).symm.trans (hzip ax)⟩
  · rintro ⟨hcol, ax, hax, rfl⟩
    rw [ycoords_some_iff.mpr ⟨hcol, rfl⟩, ← hzip ax]
    simp [hax]

/-! ### One picture -/

/-- **One picture**: the items are the columns of the last category, the grid can be made, and every
item is drawn. -/
theorem plotGroup_some_iff {curves : List (Curve V)} :
    plotGroup plt x gn datamap cols = some curves ↔
      ∃ last ∈ datamap.entries.getLast?, cols ≠ 0 ∧ (plt.iteritems = true ∧
        plt.addGridspec ((last.2.columns.length + 1) / cols) cols = true) ∧
        ∃ css, last.2.columns.zipIdx.mapM
            (drawItem x gn datamap ((last.2.columns.length + 1) / cols) cols) = some css ∧
          curves = css.flatten := by
  unfold plotGroup
  cases hlast : datamap.entries.getLast? with
  | none => simp
  | some last =>
      obtain ⟨cat, data⟩ := last
      cases cols with
      | zero => simp
      | succ n =>
          simp only [Option.mem_some_iff, exists_eq_left', ne_eq, Nat.add_one_ne_zero,
            not_false_eq_true, true_and]
          split_ifs with hrefused
          · have hgrid : ¬ (plt.iteritems = true ∧
                plt.addGridspec ((data.columns.length + 1) / (n + 1)) (n + 1) = true) := by
              rintro ⟨hitems, hspec⟩
              simp [hitems, hspec] at hrefused
            simp [hgrid]
          · have hgrid : plt.iteritems = true ∧
                plt.addGridspec ((data.columns.length + 1) / (n + 1)) (n + 1) = true := by
              simpa using hrefused
            rw [Option.map_eq_some_iff]
            simp only [hgrid, and_self, true_and]
            exact exists_congr fun css => and_congr_right fun _ => eq_comm

/-- The curves of a picture are those of its items. -/
theorem mem_plotGroup {curves : List (Curve V)}
    (h : plotGroup plt x gn datamap cols = some curves) {c : Curve V} (hc : c ∈ curves) :
    ∃ e ∈ datamap.entries, ∃ ax item, c = curveOf x gn ax item e := by
  obtain ⟨last, -, -, -, css, hcss, rfl⟩ := plotGroup_some_iff.mp h
  obtain ⟨cs, hcs, hc⟩ := List.mem_flatten.mp hc
  obtain ⟨i, -, hi⟩ := mem_of_mapM hcss hcs
  obtain ⟨-, ax, -, rfl⟩ := drawItem_some_iff.mp hi
  obtain ⟨e, he, rfl⟩ := List.mem_map.mp hc
  exact ⟨e, he, ax, i.1, rfl⟩

/-- A category with columns has a curve in the picture of its group. -/
theorem exists_curve {curves : List (Curve V)}
    (h : plotGroup plt x gn datamap cols = some curves)
    (hcolumns : ∀ e ∈ datamap.entries, e.2.columns ≠ []) {e : Str × Table V}
    (he : e ∈ datamap.entries) : ∃ ax item, curveOf x gn ax item e ∈ curves := by
  obtain ⟨last, hlast, -, -, css, hcss, rfl⟩ := plotGroup_some_iff.mp h
  have hitems := hcolumns last (List.mem_of_getLast? hlast)
  obtain ⟨item, hitem⟩ := List.exists_mem_of_ne_nil _ (by simpa using hitems :
    last.2.columns.zipIdx ≠ [])
  obtain ⟨cs, hcs, hi⟩ := exists_of_mapM hcss hitem
  obtain ⟨-, ax, -, rfl⟩ := drawItem_some_iff.mp hi
  exact ⟨ax, item.1, List.mem_flatten.mpr ⟨_, hcs, List.mem_map_of_mem he⟩⟩

/-! ### All pictures -/

variable {groups : Dict Str (Dict Str (Table V))}

/-- A curve is in the picture of a group. -/
theorem mem_plot {curves : List (Curve V)} (h : plot plt x groups cols = some curves) {c : Curve V}
    (hc : c ∈ curves) :
    ∃ g ∈ groups.entries, ∃ e ∈ g.2.entries, ∃ ax item, c = curveOf x g.1 ax item e := by
  obtain ⟨css, hcss, rfl⟩ := Option.map_eq_some_iff.mp h
  obtain ⟨cs, hcs, hc⟩ := List.mem_flatten.mp hc
  obtain ⟨g, hg, hdraw⟩ := mem_of_mapM hcss hcs
  exact ⟨g, hg, mem_plotGroup hdraw hc⟩

theorem exists_plot_curve {curves : List (Curve V)} (h : plot plt x groups cols = some curves)
    {g : Str × Dict Str (Table V)} (hg : g ∈ groups.entries)
    (hcolumns : ∀ e ∈ g.2.entries, e.2.columns ≠ []) {e : Str × Table V} (he : e ∈ g.2.entries) :
    ∃ ax item, curveOf x g.1 ax item e ∈ curves := by
  obtain ⟨css, hcss, rfl⟩ := Option.map_eq_some_iff.mp h
  obtain ⟨cs, hcs, hdraw⟩ := exists_of_mapM hcss hg
  obtain ⟨ax, item, hc⟩ := exists_curve hdraw hcolumns he
  exact ⟨ax, item, List.mem_flatten.mpr ⟨cs, hcs, hc⟩⟩

end PlayWithOpencv.DisplayBm
