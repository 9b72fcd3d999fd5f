import PlayWithOpencv.BmCurves

/-! # The coordinates of a curve

`prepare` collects the last segments of all names as the x axis that all categories share, and
`plot` draws the rows of a category against it by position.  Every value is drawn at the coordinate
of its row (`DrawnInPlace`) exactly when the rows whose names contain a category show one list of
last segments, the same for all categories and without a repetition (`SameCoordinates`):
`prepare_drawn_iff`.  Image sizes with a common height repeat a coordinate
(`image_sizes_shifted`). -/

namespace PlayWithOpencv.DisplayBm

open FirstSeen

variable {V : Type}

/-- The coordinates of the rows of a table. -/
def coords (t : Table V) : List Str := t.rows.map fun r => lastSegment r.name

/-- Every category has the coordinates of the x axis, and every curve those of its rows. -/
structure DrawnInPlace (data_map : Dict Str (Table V)) (xcoords : List Str) : Prop where
  coords : ∀ e ∈ data_map.entries, coords e.2 = xcoords
  curves : ∀ plt cols curves, plot plt xcoords (splitGroup data_map) cols = some curves →
    ∀ c ∈ curves, ∃ e ∈ data_map.entries, c.label = e.1 ∧ c.x = DisplayBm.coords e.2 ∧
      c.y = e.2.rows.map (·.cells c.item)

/-- The coordinates of the rows whose names contain a string. -/
def coordsLike (t : Table V) (s : Str) : List Str :=
  (t.rows.filter fun r => s <:+: r.name).map fun r => lastSegment r.name

/-- The rows whose names contain a category show the same coordinates for all categories, each of
them once. -/
def SameCoordinates (t : Table V) : Prop :=
  ∀ r ∈ t.rows, (coordsLike t (firstSegment r.name)).Nodup ∧
    ∀ r' ∈ t.rows, coordsLike t (firstSegment r'.name) = coordsLike t (firstSegment r.name)

/-! ### The x axis -/

theorem coordsLike_subset (t : Table V) (s : Str) : coordsLike t s ⊆ coords t :=
  List.map_subset _ List.filter_sublist.subset

/-- The shared axis is the one list that all categories show. -/
theorem coordinates_eq {t : Table V} (h : SameCoordinates t) {r : Row V} (hr : r ∈ t.rows) :
    coordinates t = coordsLike t (firstSegment r.name) := by
  obtain ⟨hnodup, hsame⟩ := h r hr
  apply distinct_of_selections hnodup (coordsLike_subset t _)
  -- a row is among those selected for its own category
  intro r' hr'
  refine ⟨fun r'' => firstSegment r'.name <:+: r''.name, ?_, hsame r' hr'⟩
  exact decide_eq_true (firstSegment_isPrefix r'.name).isInfix

theorem coordsLike_eq_iff (t : Table V) :
    (∀ cat ∈ categories t, coordsLike t cat = coordinates t) ↔ SameCoordinates t := by
  constructor
  · intro h r hr
    have hcat : ∀ r' ∈ t.rows, coordsLike t (firstSegment r'.name) = coordinates t :=
      fun r' hr' => h _ (mem_categories hr')
    refine ⟨?_, fun r' hr' => (hcat r' hr').trans (hcat r hr).symm⟩
    rw [hcat r hr]
    exact nodup_distinct _
  · intro h cat hcat
    obtain ⟨r, hr, rfl⟩ := List.mem_map.mp (mem_distinct.mp hcat)
    exact (coordinates_eq h hr).symm

/-! ### `prepare` and `plot` -/

theorem splitRows_drawn_iff {env : Env V} (henv : env.Documented) (t : Table V) :
    DrawnInPlace (splitRows env t).1 (splitRows env t).2 ↔ SameCoordinates t := by
  rw [← coordsLike_eq_iff]
  constructor
  · intro h cat hcat
    rw [← splitRows_coordinates henv t]
    apply h.coords (cat, (t.drop droppedColumns).filterLike cat)
    rw [splitRows_entries henv]
    exact List.mem_map_of_mem hcat
  · intro h
    have hcoords : ∀ e ∈ (splitRows env t).1.entries, coords e.2 = (splitRows env t).2 := by
      intro e he
      rw [splitRows_entries henv] at he
      obtain ⟨cat, hcat, rfl⟩ := List.mem_map.mp he
      rw [splitRows_coordinates henv]
      exact h cat hcat
    refine ⟨hcoords, fun plt cols curves hplot c hc => ?_⟩
    obtain ⟨g, hg, e, he, ax, item, rfl⟩ := mem_plot hplot hc
    have hmem := (splitGroup_groupsOf _).sublist hg |>.subset he
    exact ⟨e, hmem, rfl, (hcoords e hmem).symm, rfl⟩

/-- **Main.** Every value is drawn at the coordinate of its row exactly when the rows whose names
contain a category show the same coordinates for all categories, each of them once. -/
theorem prepare_drawn_iff {env : Env V} (henv : env.Documented) {files files' : Files}
    {ifname : Str} {data_map : Dict Str (Table V)} {xcoords : List Str}
    (h : prepare env files ifname = some (files', some (data_map, xcoords))) :
    ∃ orig_data, Parsed env files' ifname orig_data ∧
      (DrawnInPlace data_map xcoords ↔ SameCoordinates orig_data) := by
  obtain ⟨orig_data, hparsed, hresult⟩ := prepare_cases h
  refine ⟨orig_data, hparsed, ?_⟩
  obtain ⟨rfl, rfl⟩ : data_map = (splitRows env orig_data).1 ∧
      xcoords = (splitRows env orig_data).2 :=
    ⟨congrArg Prod.fst hresult, congrArg Prod.snd hresult⟩
  exact splitRows_drawn_iff henv orig_data

/-! ### Image sizes -/

/-- A benchmark with two image sizes of the same width. -/
def imageReport : Files :=
  report ["name,real_time\n", "BM_gray/360/640,5\n", "BM_gray/480/640,7\n"]

theorem prepare_drawn_iff_memcpy :
    ∃ files' data_map xcoords orig_data,
      prepare plainEnv memcpyReport "bm.csv".toList = some (files', some (data_map, xcoords)) ∧
        Parsed plainEnv files' "bm.csv".toList orig_data ∧
          (DrawnInPlace data_map xcoords ↔ SameCoordinates orig_data) := by
  have h : prepare plainEnv memcpyReport "bm.csv".toList = some (_, some (_, _)) := rfl
  obtain ⟨orig_data, hparsed, hiff⟩ := prepare_drawn_iff plainEnv_documented h
  exact ⟨_, _, _, orig_data, h, hparsed, hiff⟩

/-- There is one coordinate for the two rows. -/
theorem image_sizes_shifted :
    ∃ files' data_map xcoords,
      prepare plainEnv imageReport "bm.csv".toList = some (files', some (data_map, xcoords)) ∧
        ¬ DrawnInPlace data_map xcoords := by
  refine ⟨_, _, _, rfl, fun h => ?_⟩
  have hlen := congrArg List.length (h.coords _ List.mem_cons_self)
  exact absurd hlen (by decide)

end PlayWithOpencv.DisplayBm
