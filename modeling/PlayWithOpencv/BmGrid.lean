import PlayWithOpencv.BmCurves

/-! # The grid of a picture

`plot_group` makes `(n + 1) // cols` rows of `cols` axes for `n` items.  The division is meant to
round up, which it does for two columns; in general it rounds up when `n` is a multiple of `cols`
or one less.  The grid then has an axis of its own for every item and no row in vain (`GridFits`),
unless there is one column, where a row is left over (`gridFits_iff`).  With three columns and four
items the last item has no axis (`four_items_in_three_columns`). -/

namespace PlayWithOpencv.DisplayBm

variable {V : Type}

/-! ### The axes of a grid -/

theorem axes_succ (rows cols : ℕ) :
    axes (rows + 1) cols = axes rows cols ++ (List.range cols).map fun c => (rows, c) := by
  unfold axes
  rw [List.range_succ, List.flatMap_append, List.flatMap_singleton]

theorem length_axes (rows cols : ℕ) : (axes rows cols).length = rows * cols := by
  induction rows with
  | zero => simp [axes]
  | succ rows ih =>
      rw [axes_succ, List.length_append, ih, List.length_map, List.length_range, Nat.succ_mul]

/-- The axes are listed row by row. -/
theorem getElem?_axes {rows cols row col : ℕ} (hrow : row < rows) (hcol : col < cols) :
    (axes rows cols)[row * cols + col]? = some (row, col) := by
  induction rows with
  | zero => omega
  | succ rows ih =>
      rw [axes_succ]
      rcases Nat.lt_or_ge row rows with hlt | hge
      · have hle : (row + 1) * cols ≤ rows * cols := Nat.mul_le_mul_right cols hlt
        rw [Nat.succ_mul] at hle
        rw [List.getElem?_append_left (by rw [length_axes]; omega), ih hlt]
      · -- the last row
        obtain rfl : row = rows := by omega
        rw [List.getElem?_append_right (by rw [length_axes]; omega), length_axes,
          Nat.add_sub_cancel_left, List.getElem?_map, List.getElem?_range hcol]
        rfl

/-- The axis at a place of the grid. -/
theorem getElem?_axes_divMod {rows cols index : ℕ} (h : index < rows * cols) :
    (axes rows cols)[index]? = some (index / cols, index % cols) := by
  have hcols : 0 < cols := by
    apply Nat.pos_of_ne_zero
    rintro rfl
    omega
  have hrow : index / cols < rows := Nat.div_lt_of_lt_mul (by rwa [Nat.mul_comm])
  rw [← getElem?_axes hrow (Nat.mod_lt index hcols), Nat.div_add_mod']

/-! ### The grid of `plot_group` -/

/-- The axes that `plot_group` makes for `n` items. -/
def gridAxes (n cols : ℕ) : List (ℕ × ℕ) := axes ((n + 1) / cols) cols

theorem length_gridAxes (n cols : ℕ) : (gridAxes n cols).length = (n + 1) / cols * cols :=
  length_axes _ _

/-- A data map to be plotted with these items: they are the columns of its last category, and the
others have them too. -/
structure HasItems (datamap : Dict Str (Table V)) (items : List Str) : Prop where
  last : ∃ e ∈ datamap.entries.getLast?, e.2.columns = items
  columns : ∀ e ∈ datamap.entries, ∀ item ∈ items, item ∈ e.2.columns

/-- The grid is right for `n` items: enough axes and less than a row too many, each item drawn on
an axis of its own, and no row empty. -/
structure GridFits (n cols : ℕ) : Prop where
  enough : n ≤ (gridAxes n cols).length
  few : (gridAxes n cols).length < n + cols
  own : ∀ index < n, ∀ index' < n, ∀ ax, (gridAxes n cols)[index]? = some ax →
    (gridAxes n cols)[index']? = some ax → index = index'
  rows : ∀ row < (n + 1) / cols, ∃ index < n, ∃ col, (gridAxes n cols)[index]? = some (row, col)
  draws : ∀ {V : Type} (plt : Pyplot V) (x : List Str) (gn : Str) (datamap : Dict Str (Table V))
    (items : List Str), plt.Grids → HasItems datamap items → items.length = n →
      ∃ curves, plotGroup plt x gn datamap cols = some curves ∧
        ∀ (index : ℕ) (item : Str), items[index]? = some item →
          ∃ ax, (gridAxes n cols)[index]? = some ax ∧
            ∀ e ∈ datamap.entries, curveOf x gn ax item e ∈ curves

/-- Two places of a grid have two axes. -/
theorem gridAxes_injective {n cols index index' : ℕ} (h : index < (gridAxes n cols).length)
    (h' : index' < (gridAxes n cols).length)
    (hEq : (gridAxes n cols)[index]? = (gridAxes n cols)[index']?) : index = index' := by
  rw [length_gridAxes] at h h'
  unfold gridAxes at hEq
  rw [getElem?_axes_divMod h, getElem?_axes_divMod h', Option.some.injEq, Prod.mk.injEq] at hEq
  rw [← Nat.div_add_mod index cols, ← Nat.div_add_mod index' cols, hEq.1, hEq.2]

/-- The row count rounds up when `n` is a multiple of `cols`, or one less. -/
theorem enough_iff {n cols : ℕ} :
    n ≤ (gridAxes n cols).length ↔ (n + 1) % cols ≤ 1 := by
  rw [length_gridAxes]
  have := Nat.div_add_mod' (n + 1) cols
  omega

theorem few_iff {n cols : ℕ} (hcols : 1 ≤ cols) (hround : (n + 1) % cols ≤ 1) :
    (gridAxes n cols).length < n + cols ↔ cols ≠ 1 := by
  rw [length_gridAxes]
  have hdiv := Nat.div_add_mod' (n + 1) cols
  constructor
  · rintro h rfl
    omega
  · intro h
    omega

/-- With less than a row too many, every row has an item. -/
theorem row_used {n cols row : ℕ} (hfew : (gridAxes n cols).length < n + cols)
    (hrow : row < (n + 1) / cols) :
    ∃ index < n, ∃ col, (gridAxes n cols)[index]? = some (row, col) := by
  rw [length_gridAxes] at hfew
  have hcols : 0 < cols := by
    apply Nat.pos_of_ne_zero
    rintro rfl
    simp at hrow
  have hle : (row + 1) * cols ≤ (n + 1) / cols * cols := Nat.mul_le_mul_right cols hrow
  rw [Nat.succ_mul] at hle
  -- the first axis of the row
  exact ⟨row * cols + 0, by omega, 0, getElem?_axes hrow hcols⟩

/-- With enough axes the items are drawn, each on the axis at its place. -/
theorem items_drawn {n cols : ℕ} (hn : 1 ≤ n) (hcols : 1 ≤ cols)
    (henough : n ≤ (gridAxes n cols).length) {plt : Pyplot V} (hplt : plt.Grids) (x : List Str)
    (gn : Str) {datamap : Dict Str (Table V)} {items : List Str} (hitems : HasItems datamap items)
    (hlen : items.length = n) :
    ∃ curves, plotGroup plt x gn datamap cols = some curves ∧
      ∀ (index : ℕ) (item : Str), items[index]? = some item →
        ∃ ax, (gridAxes n cols)[index]? = some ax ∧
          ∀ e ∈ datamap.entries, curveOf x gn ax item e ∈ curves := by
  obtain ⟨last, hlast, hcolumns⟩ := hitems.last
  subst hlen
  have hrows : 0 < (items.length + 1) / cols := by
    apply Nat.pos_of_ne_zero
    intro h
    rw [length_gridAxes, h, Nat.zero_mul] at henough
    omega
  have hdraw : ∀ i ∈ items.zipIdx, ∃ cs,
      drawItem x gn datamap ((items.length + 1) / cols) cols i = some cs := by
    rintro ⟨item, index⟩ hi
    obtain ⟨hlt, hitem⟩ := List.mem_zipIdx' hi
    refine ⟨_, drawItem_some_iff.mpr ⟨?_, _, List.getElem?_eq_getElem ?_, rfl⟩⟩
    · intro e he
      apply hitems.columns e he
      rw [hitem]
      exact List.getElem_mem hlt
    · exact hlt.trans_le henough
  obtain ⟨css, hcss⟩ := exists_mapM hdraw
  refine ⟨css.flatten, plotGroup_some_iff.mpr ⟨last, hlast, ?_⟩, ?_⟩
  · rw [hcolumns]
    exact ⟨by omega, ⟨hplt.iteritems, (hplt.gridspec _ _).mpr ⟨hrows, hcols⟩⟩, css, hcss, rfl⟩
  · intro index item hitem
    have hi : (item, index) ∈ items.zipIdx := List.mem_zipIdx_iff_getElem?.mpr hitem
    obtain ⟨cs, hcs, hone⟩ := exists_of_mapM hcss hi
    obtain ⟨-, ax, hax, rfl⟩ := drawItem_some_iff.mp hone
    refine ⟨ax, hax, fun e he => ?_⟩
    exact List.mem_flatten.mpr ⟨_, hcs, List.mem_map_of_mem he⟩

/-- **The grid**: it fits `n` items exactly when there is more than one column and `n` is a multiple
of the number of columns, or one less. -/
theorem gridFits_iff {n cols : ℕ} (hn : 1 ≤ n) (hcols : 1 ≤ cols) :
    GridFits n cols ↔ cols ≠ 1 ∧ (n + 1) % cols ≤ 1 := by
  constructor
  · intro h
    have hround := enough_iff.mp h.enough
    exact ⟨(few_iff hcols hround).mp h.few, hround⟩
  · rintro ⟨hne, hround⟩
    have henough : n ≤ (gridAxes n cols).length := enough_iff.mpr hround
    have hfew : (gridAxes n cols).length < n + cols := (few_iff hcols hround).mpr hne
    exact
      { enough := henough
        few := hfew
        own := by
          intro index hindex index' hindex' ax hax hax'
          apply gridAxes_injective (hindex.trans_le henough) (hindex'.trans_le henough)
          rw [hax, hax']
        rows := fun row hrow => row_used hfew hrow
        draws := fun _ x gn _ _ hplt hitems hlen =>
          items_drawn hn hcols henough hplt x gn hitems hlen }

theorem gridFits_iff_three : 1 ≤ 3 ∧ 1 ≤ 2 ∧ GridFits 3 2 :=
  ⟨by decide, by decide, (gridFits_iff (by decide) (by decide)).mpr (by decide)⟩

/-- Three columns and four items: the grid has one row, and no axis for the last item. -/
theorem four_items_in_three_columns : ¬ GridFits 4 3 := by
  intro h
  have hround := enough_iff.mp h.enough
  revert hround
  decide

end PlayWithOpencv.DisplayBm
