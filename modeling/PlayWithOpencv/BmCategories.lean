import PlayWithOpencv.DisplayBm

/-! # The rows of a category

`prepare` computes the categories of a report from the first segments of the names, and selects
the rows of a category by looking for it anywhere in a name.  The two agree, and the rows are
split by category (`Partitioned`), exactly when no category occurs in a name of another one
(`NamesApart`): `prepare_partitioned_iff`.  The complexity rows that the benchmark library adds
to a family of benchmarks carry the name of the family inside theirs (`bigO_rows_counted`). -/

namespace PlayWithOpencv.DisplayBm

open FirstSeen

variable {V : Type}

/-- The rows are split by the first segments of their names, in file order. -/
structure Partitioned (orig_data : Table V) (data_map : Dict Str (Table V)) : Prop where
  keys : data_map.keys = categories orig_data
  rows : ∀ e ∈ data_map.entries,
    e.2.rows = orig_data.rows.filter fun r => firstSegment r.name = e.1
  unique : ∀ r ∈ orig_data.rows, ∃! e, e ∈ data_map.entries ∧ r ∈ e.2.rows

/-- A first segment that occurs in a name is the first segment of that name. -/
def NamesApart (t : Table V) : Prop :=
  ∀ r ∈ t.rows, ∀ r' ∈ t.rows,
    firstSegment r.name <:+: r'.name → firstSegment r'.name = firstSegment r.name

/-- With names apart, looking for a category finds its rows. -/
theorem filterLike_rows {t : Table V} (h : NamesApart t) {cat : Str} (hcat : cat ∈ categories t) :
    (t.filterLike cat).rows = t.rows.filter fun r => firstSegment r.name = cat := by
  obtain ⟨r, hr, rfl⟩ := List.mem_map.mp (mem_distinct.mp hcat)
  apply List.filter_congr
  intro r' hr'
  rw [decide_eq_decide]
  constructor
  · exact h r hr r' hr'
  · intro hEq
    rw [← hEq]
    exact (firstSegment_isPrefix r'.name).isInfix

/-- Rows that are split by category are in one of them. -/
theorem unique_of_rows {t : Table V} {d : Dict Str (Table V)} (hkeys : d.keys = categories t)
    (hrows : ∀ e ∈ d.entries, e.2.rows = t.rows.filter fun r => firstSegment r.name = e.1)
    {r : Row V} (hr : r ∈ t.rows) : ∃! e, e ∈ d.entries ∧ r ∈ e.2.rows := by
  have hmem : firstSegment r.name ∈ d.keys := hkeys ▸ mem_categories hr
  obtain ⟨e, he, hcat⟩ := List.mem_map.mp hmem
  refine ⟨e, ⟨he, ?_⟩, ?_⟩
  · rw [hrows e he]
    exact List.mem_filter.mpr ⟨hr, by simp [hcat]⟩
  · rintro e' ⟨he', hr'⟩
    rw [hrows e' he'] at hr'
    have hcat' : firstSegment r.name = e'.1 := by simpa using (List.mem_filter.mp hr').2
    exact List.inj_on_of_nodup_map d.nodup_keys he' he (hcat'.symm.trans hcat.symm)

theorem splitRows_partitioned_iff {env : Env V} (henv : env.Documented) (t : Table V) :
    Partitioned t (splitRows env t).1 ↔ NamesApart t := by
  constructor
  · intro h r hr r' hr' hinfix
    -- `r'` is among the rows of the category of `r`
    have hmem : (firstSegment r.name, (t.drop droppedColumns).filterLike (firstSegment r.name)) ∈
        (splitRows env t).1.entries := by
      rw [splitRows_entries henv]
      exact List.mem_map_of_mem (mem_categories hr)
    have hrow : r' ∈ ((t.drop droppedColumns).filterLike (firstSegment r.name)).rows :=
      List.mem_filter.mpr ⟨hr', decide_eq_true hinfix⟩
    rw [h.rows _ hmem] at hrow
    simpa using (List.mem_filter.mp hrow).2
  · intro h
    have hrows : ∀ e ∈ (splitRows env t).1.entries,
        e.2.rows = t.rows.filter fun r => firstSegment r.name = e.1 := by
      intro e he
      rw [splitRows_entries henv] at he
      obtain ⟨cat, hcat, rfl⟩ := List.mem_map.mp he
      exact filterLike_rows h hcat
    exact ⟨keys_splitRows henv t, hrows, fun r hr => unique_of_rows (keys_splitRows henv t) hrows hr⟩

/-- **Main.** The `data_map` that `prepare` returns splits the rows of the file by category exactly
when no category occurs in the name of a row of another one. -/
theorem prepare_partitioned_iff {env : Env V} (henv : env.Documented) {files files' : Files}
    {ifname : Str} {data_map : Dict Str (Table V)} {xcoords : List Str}
    (h : prepare env files ifname = some (files', some (data_map, xcoords))) :
    ∃ orig_data, Parsed env files' ifname orig_data ∧
      (Partitioned orig_data data_map ↔ NamesApart orig_data) := by
  obtain ⟨orig_data, hparsed, hresult⟩ := prepare_cases h
  refine ⟨orig_data, hparsed, ?_⟩
  obtain rfl : data_map = (splitRows env orig_data).1 := congrArg Prod.fst hresult
  exact splitRows_partitioned_iff henv orig_data

/-! ### A benchmark with its complexity -/

/-- A benchmark registered with `Complexity()`. -/
def complexityReport : Files :=
  report ["name,real_time\n", "bench_N/10,5\n", "bench_N/100,52\n", "bench_N_BigO,1\n",
    "bench_N_RMS,2\n"]

theorem prepare_partitioned_iff_memcpy :
    ∃ files' data_map xcoords orig_data,
      prepare plainEnv memcpyReport "bm.csv".toList = some (files', some (data_map, xcoords)) ∧
        Parsed plainEnv files' "bm.csv".toList orig_data ∧
          (Partitioned orig_data data_map ↔ NamesApart orig_data) := by
  have h : prepare plainEnv memcpyReport "bm.csv".toList = some (_, some (_, _)) := rfl
  obtain ⟨orig_data, hparsed, hiff⟩ := prepare_partitioned_iff plainEnv_documented h
  exact ⟨_, _, _, orig_data, h, hparsed, hiff⟩

/-- The rows of the complexity are in the category `bench_N` as well as in their own. -/
theorem bigO_rows_counted :
    ∃ files' data_map xcoords orig_data,
      prepare plainEnv complexityReport "bm.csv".toList = some (files', some (data_map, xcoords)) ∧
        Parsed plainEnv files' "bm.csv".toList orig_data ∧ ¬ Partitioned orig_data data_map := by
  refine ⟨_, _, _, _, rfl, ⟨_, rfl, rfl⟩, fun h => ?_⟩
  have hlen := congrArg List.length (h.rows _ List.mem_cons_self)
  exact absurd hlen (by decide)

end PlayWithOpencv.DisplayBm
