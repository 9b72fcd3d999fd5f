import PlayWithOpencv.BmCategories
import PlayWithOpencv.BmCoordinates
import PlayWithOpencv.BmGrid

/-! # The whole script

`main` runs `prepare`, `split_group` and `plot` on the file that the command line names.  Its
pictures have two columns, so that there is an axis for every item (`plot_eq_some_iff`).

* `main_ends_iff`: once a report of numbers is read, the script ends exactly if the report has no
  rows, or has a measured column and for each category as many rows as there are coordinates.
* `main_draws`: for a report whose categories are apart and have the same coordinates, the points
  of the pictures are those of the report (`reportPoints`): one for each row and measured column,
  in the file of its group, on the axis of its column, on the curve of its category and at its own
  coordinate. -/

namespace PlayWithOpencv.DisplayBm

open FirstSeen GroupBy

variable {V : Type}

/-- The file that the command line names. -/
def inputFile (argv : List Str) : Str := argv[1]?.getD "output/bm_res.csv".toList

/-- The script: the files afterwards, and what is drawn. -/
def main (env : Env V) (plt : Pyplot V) (files : Files) (argv : List Str) :
    Option (Files × List (Curve V)) := do
  let (files, result) ← prepare env files (inputFile argv)
  -- `None` is no pair
  let (data, x) ← result
  let curves ← plot plt x (splitGroup data) 2
  -- `ax.plot` or `fig.savefig` may refuse what it is given
  if plt.plots curves && plt.saves curves then return (files, curves) else none

/-! ### What is drawn -/

/-- A point of a picture. -/
structure Point (V : Type) where
  file : Str
  axis : ℕ × ℕ
  title : Str
  label : Str
  x : Str
  y : V

def Curve.points (c : Curve V) : List (Point V) :=
  List.zipWith (fun x y => ⟨c.file, c.axis, c.item, c.label, x, y⟩) c.x c.y

/-- The columns that are drawn. -/
def measured (t : Table V) : List Str := (t.drop droppedColumns).columns

/-- The point of a row, for a column and its place. -/
def pointOf (i : Str × ℕ) (r : Row V) : Point V :=
  ⟨groupName (firstSegment r.name) ++ ".jpg".toList, (i.2 / 2, i.2 % 2), i.1,
    firstSegment r.name, lastSegment r.name, r.cells i.1⟩

/-- What a report says: a point for each of its rows and measured columns. -/
def reportPoints (t : Table V) : List (Point V) :=
  (measured t).zipIdx.flatMap fun i => t.rows.map (pointOf i)

/-! ### The curves -/

variable {plt : Pyplot V} {x items : List Str}

/-- Whether the grid for so many items, in two columns, can be made. -/
def HasGrid (plt : Pyplot V) (n : ℕ) : Prop :=
  plt.iteritems = true ∧ plt.addGridspec ((n + 1) / 2) 2 = true

/-- The curves of a group. -/
def curvesOf (x items : List Str) (g : Str × Dict Str (Table V)) : List (Curve V) :=
  items.zipIdx.flatMap fun i => g.2.entries.map (curveOf x g.1 (i.2 / 2, i.2 % 2) i.1)

/-- In two columns there is an axis for every item, so a picture is drawn whenever its grid can be
made. -/
theorem plotGroup_eq_some_iff {g : Str × Dict Str (Table V)} {curves : List (Curve V)}
    (hne : g.2.entries ≠ []) (hcolumns : ∀ e ∈ g.2.entries, e.2.columns = items) :
    plotGroup plt x g.1 g.2 2 = some curves ↔
      HasGrid plt items.length ∧ curves = curvesOf x items g := by
  have hlast := hcolumns _ (List.getLast_mem hne)
  have hdraw : items.zipIdx.mapM (drawItem x g.1 g.2 ((items.length + 1) / 2) 2) =
      some (items.zipIdx.map fun i =>
        g.2.entries.map (curveOf x g.1 (i.2 / 2, i.2 % 2) i.1)) := by
    rw [mapM_eq_some_iff, List.map_map]
    apply List.map_congr_left
    rintro ⟨item, index⟩ hi
    obtain ⟨hlt, hitem⟩ := List.mem_zipIdx' hi
    refine drawItem_some_iff.mpr ⟨fun e he => ?_, _, getElem?_axes_divMod (by omega), rfl⟩
    rw [hcolumns e he, hitem]
    exact List.getElem_mem hlt
  rw [plotGroup_some_iff, List.getLast?_eq_some_getLast hne]
  constructor
  · rintro ⟨last, hmem, -, hgrid, css, hcss, rfl⟩
    obtain rfl := Option.some.inj hmem
    rw [hlast] at hgrid hcss
    rw [hdraw] at hcss
    obtain rfl := Option.some.inj hcss
    exact ⟨hgrid, List.flatMap_def.symm⟩
  · rintro ⟨hgrid, rfl⟩
    refine ⟨_, rfl, by decide, ?_⟩
    rw [hlast]
    exact ⟨hgrid, _, hdraw, List.flatMap_def⟩

/-- The pictures are those of all groups, if there is a group to draw with a grid. -/
theorem plot_eq_some_iff {groups : Dict Str (Dict Str (Table V))} {curves : List (Curve V)}
    (hne : ∀ g ∈ groups.entries, g.2.entries ≠ [])
    (hcolumns : ∀ g ∈ groups.entries, ∀ e ∈ g.2.entries, e.2.columns = items) :
    plot plt x groups 2 = some curves ↔
      (groups.entries ≠ [] → HasGrid plt items.length) ∧
        curves = groups.entries.flatMap (curvesOf x items) := by
  unfold plot
  rw [Option.map_eq_some_iff]
  constructor
  · rintro ⟨css, hcss, rfl⟩
    have hgroup : ∀ g ∈ groups.entries, plotGroup plt x g.1 g.2 2 = some (curvesOf x items g) ∧
        HasGrid plt items.length := by
      intro g hg
      obtain ⟨cs, -, hcs⟩ := exists_of_mapM hcss hg
      obtain ⟨hgrid, rfl⟩ := (plotGroup_eq_some_iff (hne g hg) (hcolumns g hg)).mp hcs
      exact ⟨hcs, hgrid⟩
    constructor
    · intro hgroups
      obtain ⟨g, hg⟩ := List.exists_mem_of_ne_nil _ hgroups
      exact (hgroup g hg).2
    · have hmap := mapM_eq_some_iff.mp hcss
      rw [List.map_congr_left fun g hg => (hgroup g hg).1] at hmap
      have hcss : groups.entries.map (curvesOf x items) = css := by
        apply List.map_injective_iff.mpr (Option.some_injective _)
        rw [List.map_map]
        exact hmap
      rw [← hcss, List.flatMap_def]
  · rintro ⟨hgrid, rfl⟩
    refine ⟨groups.entries.map (curvesOf x items), ?_, List.flatMap_def.symm⟩
    rw [mapM_eq_some_iff, List.map_map]
    apply List.map_congr_left
    intro g hg
    refine (plotGroup_eq_some_iff (hne g hg) (hcolumns g hg)).mpr ⟨hgrid ?_, rfl⟩
    exact List.ne_nil_of_mem hg

/-! ### When the script ends -/

section Script

variable {env : Env V} {t : Table V}

/-- A category of a group: its rows and columns are selected from the report. -/
theorem mem_splitGroup (henv : env.Documented) {g : Str × Dict Str (Table V)}
    (hg : g ∈ (splitGroup (splitRows env t).1).entries) {e : Str × Table V}
    (he : e ∈ g.2.entries) :
    e.1 ∈ categories t ∧ e = (e.1, (t.drop droppedColumns).filterLike e.1) ∧
      groupName e.1 = g.1 := by
  obtain ⟨hmem, hname⟩ := ((splitGroup_groupsOf _).mem_iff hg).mp he
  rw [splitRows_entries henv] at hmem
  obtain ⟨cat, hcat, rfl⟩ := List.mem_map.mp hmem
  exact ⟨hcat, rfl, hname⟩

theorem coords_splitGroup (henv : env.Documented) {g : Str × Dict Str (Table V)}
    (hg : g ∈ (splitGroup (splitRows env t).1).entries) {e : Str × Table V}
    (he : e ∈ g.2.entries) : coords e.2 = coordsLike t e.1 := by
  rw [(mem_splitGroup henv hg he).2.1]
  rfl

/-- All the curves of a report. -/
def drawn (env : Env V) (t : Table V) : List (Curve V) :=
  (splitGroup (splitRows env t).1).entries.flatMap (curvesOf (coordinates t) (measured t))

/-- There is a group to draw unless there are no rows. -/
theorem groups_eq_nil_iff (henv : env.Documented) :
    (splitGroup (splitRows env t).1).entries = [] ↔ t.rows = [] := by
  constructor
  · intro hnil
    by_contra hne
    obtain ⟨r, hr⟩ := List.exists_mem_of_ne_nil _ hne
    have hkey : firstSegment r.name ∈ (splitRows env t).1.keys := by
      rw [keys_splitRows henv]
      exact mem_categories hr
    obtain ⟨g, ⟨hg, -⟩, -⟩ := (splitGroup_groupsOf _).unique hkey
    rw [hnil] at hg
    cases hg
  · intro hrows
    have hcats : categories t = [] := by
      unfold categories
      rw [hrows]
      rfl
    unfold splitGroup
    rw [splitRows_entries henv, hcats]
    rfl

/-- What the script does with a report. -/
theorem main_eq_some_iff (henv : env.Documented) {plt : Pyplot V} {files files' files'' : Files}
    {argv : List Str} {curves : List (Curve V)}
    (h : prepare env files (inputFile argv) = some (files', some (splitRows env t))) :
    main env plt files argv = some (files'', curves) ↔
      (t.rows ≠ [] → HasGrid plt (measured t).length) ∧ plt.plots (drawn env t) = true ∧
        plt.saves (drawn env t) = true ∧ files'' = files' ∧ curves = drawn env t := by
  have hplot : ∀ cs, plot plt (splitRows env t).2 (splitGroup (splitRows env t).1) 2 = some cs ↔
      (t.rows ≠ [] → HasGrid plt (measured t).length) ∧ cs = drawn env t := by
    intro cs
    rw [splitRows_coordinates henv, ne_eq, ← groups_eq_nil_iff henv]
    refine plot_eq_some_iff (fun g hg => (splitGroup_groupsOf _).ne_nil hg) fun g hg e he => ?_
    rw [(mem_splitGroup henv hg he).2.1]
    rfl
  have hmain : main env plt files argv =
      (plot plt (splitRows env t).2 (splitGroup (splitRows env t).1) 2).bind fun curves =>
        if plt.plots curves && plt.saves curves then some (files', curves) else none := by
    unfold main
    rw [h]
    rfl
  rw [hmain, Option.bind_eq_some_iff]
  constructor
  · rintro ⟨cs, hcs, hend⟩
    obtain ⟨hgrid, rfl⟩ := (hplot cs).mp hcs
    split_ifs at hend with hok
    obtain ⟨rfl, rfl⟩ := Prod.mk.inj (Option.some.inj hend)
    obtain ⟨hplots, hsaves⟩ := Bool.and_eq_true_iff.mp hok
    exact ⟨hgrid, hplots, hsaves, rfl, rfl⟩
  · rintro ⟨hgrid, hplots, hsaves, rfl, rfl⟩
    refine ⟨_, (hplot _).mpr ⟨hgrid, rfl⟩, ?_⟩
    rw [hplots, hsaves]
    rfl

theorem length_curveOf (x : List Str) (gn : Str) (ax : ℕ × ℕ) (item : Str) (e : Str × Table V) :
    (curveOf x gn ax item e).y.length = (coords e.2).length := by
  simp [curveOf, coords]

/-- A curve of a report: it belongs to a category and a measured column. -/
theorem mem_drawn (henv : env.Documented) {c : Curve V} (hc : c ∈ drawn env t) :
    ∃ cat ∈ categories t, ∃ item ∈ measured t, c.x = coordinates t ∧
      c.y = (t.rows.filter fun r => cat <:+: r.name).map (·.cells item) := by
  obtain ⟨g, hg, hc⟩ := List.mem_flatMap.mp hc
  obtain ⟨⟨item, index⟩, hi, hc⟩ := List.mem_flatMap.mp hc
  obtain ⟨e, he, rfl⟩ := List.mem_map.mp hc
  obtain ⟨hcat, heq, -⟩ := mem_splitGroup henv hg he
  obtain ⟨hlt, hitem⟩ := List.mem_zipIdx' hi
  refine ⟨e.1, hcat, item, ?_, rfl, ?_⟩
  · rw [hitem]
    exact List.getElem_mem hlt
  · rw [heq]
    rfl

/-- The curves of a category have as many values as there are coordinates. -/
theorem lengths_iff (henv : env.Documented) (hcolumns : measured t ≠ []) :
    (∀ c ∈ drawn env t, c.x.length = c.y.length) ↔
      ∀ r ∈ t.rows, (coordsLike t (firstSegment r.name)).length = (coordinates t).length := by
  constructor
  · intro h r hr
    have hkey : firstSegment r.name ∈ (splitRows env t).1.keys := by
      rw [keys_splitRows henv]
      exact mem_categories hr
    obtain ⟨g, ⟨hg, hin⟩, -⟩ := (splitGroup_groupsOf _).unique hkey
    obtain ⟨e, he, hcat⟩ := List.mem_map.mp hin
    obtain ⟨i, hi⟩ := List.exists_mem_of_ne_nil _ (by simpa using hcolumns :
      (measured t).zipIdx ≠ [])
    have hc : curveOf (coordinates t) g.1 (i.2 / 2, i.2 % 2) i.1 e ∈
        curvesOf (coordinates t) (measured t) g :=
      List.mem_flatMap.mpr ⟨i, hi, List.mem_map_of_mem he⟩
    rw [← hcat, ← coords_splitGroup henv hg he, ← length_curveOf]
    exact (h _ (List.mem_flatMap.mpr ⟨g, hg, hc⟩)).symm
  · intro h c hc
    obtain ⟨cat, hcat, item, -, hx, hy⟩ := mem_drawn henv hc
    obtain ⟨r, hr, rfl⟩ := List.mem_map.mp (mem_distinct.mp hcat)
    have hlen := h r hr
    rw [coordsLike, List.length_map] at hlen
    rw [hx, hy, List.length_map, hlen]

/-- There is nothing to draw, or there are columns to draw, with as many rows for each category as
there are coordinates. -/
def Drawable (t : Table V) : Prop :=
  t.rows = [] ∨ (measured t ≠ [] ∧
    ∀ r ∈ t.rows, (coordsLike t (firstSegment r.name)).length = (coordinates t).length)

/-- **The end of the script**: once the report is read, the script ends only if there are no rows,
or if there is a measured column and each category is found in as many rows as there are
coordinates; and it does end then, if the measured cells are numbers and the pictures can be
saved. -/
theorem main_ends_iff (henv : env.Documented) {plt : Pyplot V} {number : V → Prop}
    (hplt : plt.Documented number) {files files' : Files} {argv : List Str}
    {result : Dict Str (Table V) × List Str}
    (h : prepare env files (inputFile argv) = some (files', some result)) :
    ∃ t, Parsed env files' (inputFile argv) t ∧
      ((main env plt files argv).isSome → Drawable t) ∧
      ((∀ r ∈ t.rows, ∀ item ∈ measured t, number (r.cells item)) →
        (∀ cs, plt.saves cs = true) → Drawable t → (main env plt files argv).isSome) := by
  obtain ⟨t, hparsed, rfl⟩ := prepare_cases h
  refine ⟨t, hparsed, fun hsome => ?_, fun hnumbers hsaves hdrawable => ?_⟩
  · obtain ⟨⟨files'', curves⟩, hmain⟩ := Option.isSome_iff_exists.mp hsome
    obtain ⟨hgrid, hplots, -⟩ := (main_eq_some_iff henv h).mp hmain
    by_cases hrows : t.rows = []
    · exact .inl hrows
    · have hcolumns : measured t ≠ [] := by
        intro hnil
        obtain ⟨-, hspec⟩ := hgrid hrows
        rw [hnil] at hspec
        exact absurd ((hplt.gridspec _ _).mp hspec).1 (by decide)
      exact .inr ⟨hcolumns, (lengths_iff henv hcolumns).mp (hplt.lengths _ hplots)⟩
  · have hgrid : t.rows ≠ [] → HasGrid plt (measured t).length := by
      intro hrows
      obtain ⟨hcolumns, -⟩ := hdrawable.resolve_left hrows
      have hpos := List.length_pos_iff.mpr hcolumns
      exact ⟨hplt.iteritems, (hplt.gridspec _ _).mpr ⟨by omega, by decide⟩⟩
    have hlengths : ∀ c ∈ drawn env t, c.x.length = c.y.length := by
      rcases hdrawable with hrows | ⟨hcolumns, hlen⟩
      · intro c hc
        rw [drawn, (groups_eq_nil_iff henv).mpr hrows] at hc
        cases hc
      · exact (lengths_iff henv hcolumns).mpr hlen
    have hplots : plt.plots (drawn env t) = true := by
      apply hplt.numbers
      intro c hc
      refine ⟨hlengths c hc, fun v hv => ?_⟩
      obtain ⟨cat, -, item, hitem, -, hy⟩ := mem_drawn henv hc
      rw [hy] at hv
      obtain ⟨r, hr, rfl⟩ := List.mem_map.mp hv
      exact hnumbers r (List.mem_of_mem_filter hr) item hitem
    rw [(main_eq_some_iff henv h).mpr ⟨hgrid, hplots, hsaves _, rfl, rfl⟩]
    rfl

/-- The command line of a report. -/
def onReport : List Str := ["display_bm.py".toList, "bm.csv".toList]

/-- An old pandas, and a matplotlib that takes digits for numbers and nothing else. -/
def plainPlt : Pyplot Str where
  iteritems := true
  addGridspec rows cols := decide (0 < rows) && decide (0 < cols)
  plots cs := cs.all fun c => c.x.length == c.y.length && c.y.all fun v => v.all Char.isDigit
  saves _ := true

theorem plainPlt_documented : plainPlt.Documented fun v => v.all Char.isDigit = true where
  iteritems := rfl
  gridspec rows cols := by simp [plainPlt]
  lengths cs h c hc := by
    have hc := List.all_eq_true.mp h c hc
    exact beq_iff_eq.mp (Bool.and_eq_true_iff.mp hc).1
  numbers cs h := by
    apply List.all_eq_true.mpr
    intro c hc
    obtain ⟨hlen, hnumbers⟩ := h c hc
    exact Bool.and_eq_true_iff.mpr ⟨beq_iff_eq.mpr hlen, List.all_eq_true.mpr hnumbers⟩

theorem main_ends_iff_memcpy :
    ∃ files' result t, prepare plainEnv memcpyReport "bm.csv".toList = some (files', some result) ∧
      Parsed plainEnv files' "bm.csv".toList t ∧
        Drawable t ∧ (main plainEnv plainPlt memcpyReport onReport).isSome := by
  have h : prepare plainEnv memcpyReport (inputFile onReport) = some (_, some _) := rfl
  obtain ⟨t, ⟨content, hread, htable⟩, honly, hends⟩ :=
    main_ends_iff plainEnv_documented plainPlt_documented h
  refine ⟨_, _, t, h, ⟨content, hread, htable⟩, honly rfl, ?_⟩
  cases hread
  cases htable
  exact hends (by decide) (fun _ => rfl) (honly rfl)

/-! ### The points -/

/-- Categories that are apart, with the same coordinates: the points of a curve are those of the
rows of its category. -/
theorem points_curveOf (henv : env.Documented) (hnames : NamesApart t)
    (hcoords : SameCoordinates t) {g : Str × Dict Str (Table V)}
    (hg : g ∈ (splitGroup (splitRows env t).1).entries) {e : Str × Table V}
    (he : e ∈ g.2.entries) (i : Str × ℕ) :
    (curveOf (coordinates t) g.1 (i.2 / 2, i.2 % 2) i.1 e).points =
      (t.rows.filter fun r => firstSegment r.name = e.1).map (pointOf i) := by
  obtain ⟨hcat, heq, hname⟩ := mem_splitGroup henv hg he
  have hrows : e.2.rows = t.rows.filter fun r => firstSegment r.name = e.1 := by
    rw [← filterLike_rows hnames hcat, heq]
    rfl
  have hx : coordinates t = e.2.rows.map fun r => lastSegment r.name := by
    rw [← (coordsLike_eq_iff t).mpr hcoords e.1 hcat, ← coords_splitGroup henv hg he]
    rfl
  unfold Curve.points curveOf
  rw [hx, List.zipWith_map, List.zipWith_self, hrows]
  apply List.map_congr_left
  intro r hr
  have hr : firstSegment r.name = e.1 := by simpa using (List.mem_filter.mp hr).2
  rw [pointOf, hr, hname]

/-- Two loops may be exchanged. -/
theorem flatMap_comm_perm {α β γ : Type} (xs : List α) (ys : List β) (f : α → β → List γ) :
    (xs.flatMap fun a => ys.flatMap (f a)).Perm (ys.flatMap fun b => xs.flatMap fun a => f a b) := by
  apply Multiset.coe_eq_coe.mp
  simp only [← Multiset.coe_bind]
  exact Multiset.bind_bind _ _

/-- The groups, and in them the categories, go through the rows. -/
theorem rows_perm (henv : env.Documented) (i : Str × ℕ) :
    ((splitGroup (splitRows env t).1).entries.flatMap fun g => g.2.entries.flatMap fun e =>
      (t.rows.filter fun r => firstSegment r.name = e.1).map (pointOf i)).Perm
      (t.rows.map (pointOf i)) := by
  have hgroups := (splitGroup_groupsOf (splitRows env t).1).entries_perm
  have hkeys := (hgroups.flatMap_right fun e : Str × Table V =>
    (t.rows.filter fun r => firstSegment r.name = e.1).map (pointOf i))
  rw [List.flatMap_assoc] at hkeys
  refine hkeys.trans ?_
  rw [splitRows_entries henv, List.flatMap_map]
  have hrows := (flatMap_filter_perm (nodup_distinct _) fun r hr => mem_categories (t := t) hr).map
    (pointOf i)
  rw [List.map_flatMap] at hrows
  exact hrows

/-- **The pictures**: if the categories of the report are apart and have the same coordinates, then
what is drawn are the points of the report, each once. -/
theorem main_draws (henv : env.Documented) {plt : Pyplot V} {files files' : Files} {argv : List Str}
    {curves : List (Curve V)} (h : main env plt files argv = some (files', curves)) :
    ∃ t, Parsed env files' (inputFile argv) t ∧ (NamesApart t → SameCoordinates t →
      (curves.flatMap Curve.points).Perm (reportPoints t)) := by
  obtain ⟨⟨files₁, result⟩, hprep, hmain⟩ := Option.bind_eq_some_iff.mp h
  obtain ⟨⟨data, x⟩, hresult, -⟩ := Option.bind_eq_some_iff.mp hmain
  obtain rfl : result = some (data, x) := hresult
  obtain ⟨t, hparsed, heq⟩ := prepare_cases hprep
  rw [heq] at hprep
  obtain ⟨-, -, -, rfl, rfl⟩ := (main_eq_some_iff henv hprep).mp h
  refine ⟨t, hparsed, fun hnames hcoords => ?_⟩
  have hpoints : (drawn env t).flatMap Curve.points =
      (splitGroup (splitRows env t).1).entries.flatMap fun g =>
        (measured t).zipIdx.flatMap fun i => g.2.entries.flatMap fun e =>
          (t.rows.filter fun r => firstSegment r.name = e.1).map (pointOf i) := by
    rw [drawn, List.flatMap_assoc]
    refine List.flatMap_congr fun g hg => ?_
    rw [curvesOf, List.flatMap_assoc]
    refine List.flatMap_congr fun i _ => ?_
    rw [List.flatMap_map]
    exact List.flatMap_congr fun e he => points_curveOf henv hnames hcoords hg he i
  rw [hpoints]
  refine (flatMap_comm_perm _ _ _).trans ?_
  exact List.Perm.flatMap_left _ fun i _ => rows_perm henv i

theorem main_draws_memcpy :
    ∃ files' curves t, main plainEnv plainPlt memcpyReport onReport = some (files', curves) ∧
      Parsed plainEnv files' "bm.csv".toList t ∧
        (curves.flatMap Curve.points).Perm (reportPoints t) := by
  have h : main plainEnv plainPlt memcpyReport onReport = some (_, _) := rfl
  obtain ⟨t, ⟨content, hread, htable⟩, hperm⟩ := main_draws plainEnv_documented h
  refine ⟨_, _, t, h, ⟨content, hread, htable⟩, ?_⟩
  cases hread
  cases htable
  apply hperm
  · unfold NamesApart
    decide
  · unfold SameCoordinates
    decide

end Script

end PlayWithOpencv.DisplayBm
