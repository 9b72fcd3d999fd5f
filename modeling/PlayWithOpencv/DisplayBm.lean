import Mathlib
import PlayWithOpencv.FirstSeen
import PlayWithOpencv.OrderedDict

/-! # `display_bm.py`

The embedding of `script/display_bm.py`: `prepare` copies the CSV part of a benchmark report to a
temporary file, reads it as a table and splits the rows by benchmark; `split_group` groups the
benchmarks for one picture each; `plot` draws one axis for every column and one curve for every
benchmark in it.

A string is the list of its characters, a file the list of its lines with their line ends, as the
text mode of `open` reads and writes them.  An exception is `none`.  The parser of pandas and the
iteration order of a set are fields of `Env`, and what is refused while plotting is a field of
`Pyplot`; the frame operations are on `Table`, where `filter(like=s, axis=0)` keeps the rows whose
label contains `s`.  What is printed is left out, except by the copy loop. -/

namespace PlayWithOpencv.DisplayBm

open FirstSeen

abbrev Str := List Char

/-! ### Strings and paths -/

/-- `n.split('/')[0]`. -/
def firstSegment (n : Str) : Str := (n.splitOn '/').headD []

/-- `n.split('/')[-1]`. -/
def lastSegment (n : Str) : Str := (n.splitOn '/').getLastD []

/-- `s.rfind(c)`: the last index of a character, or -1. -/
def rfind (s : Str) (c : Char) : ℤ :=
  if c ∈ s then (s.length : ℤ) - 1 - s.reverse.idxOf c else -1

/-- `s[:i]`; a negative index counts from the end. -/
def sliceTo (s : Str) (i : ℤ) : Str :=
  if 0 ≤ i then s.take i.toNat else s.take (s.length - i.natAbs)

/-- `os.path.dirname`. -/
def dirname (path : Str) : Str :=
  let head := sliceTo path (rfind path '/' + 1)
  if head.all (· == '/') then head else head.rdropWhile (· == '/')

/-- `os.path.join(dir, file)` for a relative `file`. -/
def join (dir file : Str) : Str :=
  if dir = [] then file
  else if dir.getLast? = some '/' then dir ++ file
  else dir ++ '/' :: file

/-! ### Tables -/

/-- A row: its `name`, and its cell in every other column. -/
structure Row (V : Type) where
  name : Str
  cells : Str → V

/-- A data frame with a `name` column, or with the names as labels after `set_index('name')`. -/
structure Table (V : Type) where
  columns : List Str
  rows : List (Row V)

variable {V : Type}

namespace Table

/-- `drop(labels, axis='columns', errors='ignore')`. -/
def drop (t : Table V) (labels : List Str) : Table V :=
  { t with columns := t.columns.filter (· ∉ labels) }

/-- `filter(like=s, axis=0)`. -/
def filterLike (t : Table V) (s : Str) : Table V :=
  { t with rows := t.rows.filter (s <:+: ·.name) }

/-- `t[item]`. -/
def column (t : Table V) (item : Str) : Option (List V) :=
  if item ∈ t.columns then some (t.rows.map (·.cells item)) else none

end Table

/-! ### The copy loop -/

/-- The files: which file a path names, as one path of each file, and the lines of the files.
Several paths may name one file (`d/f` and `d//f`, or a link to it). -/
structure Files where
  resolve : Str → Str
  lines : Str → Option (List Str)

namespace Files

/-- The lines of the file that a path names. -/
def read (files : Files) (path : Str) : Option (List Str) := files.lines (files.resolve path)

/-- Open the file that a path names for writing, and write lines to it. -/
def write (files : Files) (path : Str) (content : List Str) : Files :=
  { files with lines := Function.update files.lines (files.resolve path) (some content) }

@[simp] theorem read_write_self (files : Files) (path : Str) (content : List Str) :
    (files.write path content).read path = some content := Function.update_self ..

theorem read_write_of_same {files : Files} {path path' : Str}
    (h : files.resolve path' = files.resolve path) (content : List Str) :
    (files.write path content).read path' = some content := by
  unfold read write
  rw [h]
  exact Function.update_self ..

/-- Writing to a file leaves the others as they are. -/
theorem read_write_of_ne {files : Files} {path path' : Str}
    (h : files.resolve path' ≠ files.resolve path) (content : List Str) :
    (files.write path content).read path' = files.read path' := Function.update_of_ne h ..

end Files

/-- The variables of the loop: its switch, what was printed and what was written. -/
structure Copy where
  isHeader : Bool
  printed : List Str
  written : List Str

/-- The loop's body. -/
def copyLine (c : Copy) (line : Str) : Copy :=
  let isHeader := if "name".toList <+: line then false else c.isHeader
  if isHeader then { c with isHeader, printed := c.printed ++ [line] }
  else { c with isHeader, written := c.written ++ [line] }

def tmpFile (ifname : Str) : Str := join (dirname ifname) "tmp_file.csv".toList

/-- Copy the lines from the header of the table on.  Both files are opened before any line is
read, and opening the temporary file empties it, also when it is the input itself. -/
def copyToTmp (files : Files) (ifname : Str) : Option (Files × List Str) :=
  match files.read ifname with
  | none => none
  | some _ =>
      let opened := files.write (tmpFile ifname) []
      let copy := ((opened.read ifname).getD []).foldl copyLine ⟨true, [], []⟩
      some (opened.write (tmpFile ifname) copy.written, copy.printed)

/-! ### `prepare` -/

/-- What comes from pandas and from the interpreter. -/
structure Env (V : Type) where
  /-- `pd.read_csv` of a file with these lines; without a `name` column there is no table. -/
  readCsv : List Str → Option (Table V)
  /-- The elements of a list in the order in which a set made from it is iterated. -/
  set : List Str → List Str

/-- A set has every element once. -/
def Env.Documented (env : Env V) : Prop := ∀ xs, Enumerates (env.set xs) xs

def droppedColumns : List Str :=
  ["time_unit".toList, "iterations".toList, "bytes_per_second".toList, "items_per_second".toList,
    "label".toList, "error_occurred".toList, "error_message".toList, "branch-miss-rate".toList,
    "branch-hit-rate".toList]

/-- The part of `prepare` after `read_csv`. -/
def splitRows (env : Env V) (orig_data : Table V) : Dict Str (Table V) × List Str :=
  let orig_data := orig_data.drop droppedColumns
  let names := orig_data.rows.map fun r => firstSegment r.name
  let xcoords := orig_data.rows.map fun r => lastSegment r.name
  let xcoords := sortedByIndex xcoords (env.set xcoords)
  let category := sortedByIndex names (env.set names)
  let tmp := orig_data
  let data_map := category.foldl (fun data_map cat => data_map.set cat (tmp.filterLike cat)) .empty
  (data_map, xcoords)

/-- `prepare`: the files afterwards, and what is returned (`None` without the ending). -/
def prepare (env : Env V) (files : Files) (ifname : Str) :
    Option (Files × Option (Dict Str (Table V) × List Str)) :=
  if ¬ ".csv".toList <:+ ifname then some (files, none)
  else do
    let (files, _) ← copyToTmp files ifname
    let content ← files.read (tmpFile ifname)
    let orig_data ← env.readCsv content
    return (files, some (splitRows env orig_data))

/-! ### `split_group` and `plot` -/

/-- The loop's body of `split_group`: the group of a category is its name up to the last `_`. -/
def addCategory {α : Type} (groups : Dict Str (Dict Str α)) (e : Str × α) :
    Dict Str (Dict Str α) :=
  let gname := sliceTo e.1 (rfind e.1 '_')
  match groups.get? gname with
  | none => groups.set gname (.singleton e.1 e.2)
  | some group => groups.set gname (group.set e.1 e.2)

/-- `split_group`. -/
def splitGroup {α : Type} (datamap : Dict Str α) : Dict Str (Dict Str α) :=
  datamap.entries.foldl addCategory .empty

/-- A call of `ax.plot`, with the file and the grid cell of its axis. -/
structure Curve (V : Type) where
  file : Str
  axis : ℕ × ℕ
  item : Str
  label : Str
  x : List Str
  y : List V

/-- What plotting takes from pandas and matplotlib.  What they refuse they end by an exception. -/
structure Pyplot (V : Type) where
  /-- Whether tables have the method `iteritems`; pandas dropped it with version 2. -/
  iteritems : Bool
  /-- Whether `fig.add_gridspec` takes a number of rows and columns. -/
  addGridspec : ℕ → ℕ → Bool
  /-- Whether `ax.plot` takes these curves, one after the other, each on its axis. -/
  plots : List (Curve V) → Bool
  /-- Whether `fig.savefig` writes the pictures of these curves. -/
  saves : List (Curve V) → Bool

/-- The documented behaviour that the grid of a picture relies on. -/
structure Pyplot.Grids (plt : Pyplot V) : Prop where
  iteritems : plt.iteritems = true
  gridspec : ∀ rows cols, plt.addGridspec rows cols = true ↔ 0 < rows ∧ 0 < cols

/-- The documented behaviour of `ax.plot`: it refuses two lists of different lengths, and takes two
of one length where the values are numbers.  Other values (texts, cells without one) are not spoken
of. -/
structure Pyplot.Documented (plt : Pyplot V) (number : V → Prop) : Prop extends plt.Grids where
  lengths : ∀ cs, plt.plots cs = true → ∀ c ∈ cs, c.x.length = c.y.length
  numbers : ∀ cs : List (Curve V),
    (∀ c ∈ cs, c.x.length = c.y.length ∧ ∀ v ∈ c.y, number v) → plt.plots cs = true

/-- `plot_subgraph`. -/
def plotSubgraph (file : Str) (ax : ℕ × ℕ) (x : List Str) (ycoords : List (List V)) (title : Str)
    (labels : List Str) : List (Curve V) :=
  (ycoords.zip labels).map fun (y, l) => ⟨file, ax, title, l, x, y⟩

/-- The cells of the grid, row by row. -/
def axes (rows cols : ℕ) : List (ℕ × ℕ) :=
  (List.range rows).flatMap fun r => (List.range cols).map fun c => (r, c)

/-- `plot_group`, as the curves it has `ax.plot` draw; the items are the columns of the last
category. -/
def plotGroup (plt : Pyplot V) (x : List Str) (gn : Str) (datamap : Dict Str (Table V))
    (cols : ℕ) : Option (List (Curve V)) :=
  match datamap.entries.getLast?, cols with
  | none, _ => none
  | _, 0 => none
  | some (_, data), cols =>
      let items := data.columns
      let rows := (items.length + 1) / cols
      if !plt.iteritems || !plt.addGridspec rows cols then none
      else
        (items.zipIdx.mapM fun i : Str × ℕ => do
          let ycoords ← datamap.entries.mapM fun e : Str × Table V => e.2.column i.1
          let ax ← (axes rows cols)[i.2]?
          return plotSubgraph (gn ++ ".jpg".toList) ax x ycoords i.1 datamap.keys).map List.flatten

/-- `plot`. -/
def plot (plt : Pyplot V) (x : List Str) (groups : Dict Str (Dict Str (Table V))) (cols : ℕ) :
    Option (List (Curve V)) :=
  (groups.entries.mapM fun g : Str × Dict Str (Table V) =>
    plotGroup plt x g.1 g.2 cols).map List.flatten

/-! ### What `prepare` returns -/

/-- The table that `prepare` reads from the temporary file. -/
def Parsed (env : Env V) (files : Files) (ifname : Str) (orig_data : Table V) : Prop :=
  ∃ content, files.read (tmpFile ifname) = some content ∧ env.readCsv content = some orig_data

theorem prepare_cases {env : Env V} {files files' : Files} {ifname : Str}
    {result : Dict Str (Table V) × List Str}
    (h : prepare env files ifname = some (files', some result)) :
    ∃ orig_data, Parsed env files' ifname orig_data ∧ result = splitRows env orig_data := by
  unfold prepare at h
  split_ifs at h with hcsv
  · obtain ⟨⟨files₁, printed⟩, -, h⟩ := Option.bind_eq_some_iff.mp h
    obtain ⟨content, hcontent, h⟩ := Option.bind_eq_some_iff.mp h
    obtain ⟨orig_data, hread, h⟩ := Option.bind_eq_some_iff.mp h
    obtain ⟨rfl, rfl⟩ : files₁ = files' ∧ splitRows env orig_data = result := by
      simpa using h
    exact ⟨orig_data, ⟨content, hcontent, hread⟩, rfl⟩
  · cases h

/-- The categories of a table, in the order of their first rows. -/
def categories (t : Table V) : List Str := distinct (t.rows.map fun r => firstSegment r.name)

theorem mem_categories {t : Table V} {r : Row V} (hr : r ∈ t.rows) :
    firstSegment r.name ∈ categories t :=
  mem_distinct.mpr (List.mem_map_of_mem hr)

/-- The coordinates of a table, in the order of their first rows. -/
def coordinates (t : Table V) : List Str := distinct (t.rows.map fun r => lastSegment r.name)

theorem splitRows_entries {env : Env V} (henv : env.Documented) (t : Table V) :
    (splitRows env t).1.entries =
      (categories t).map fun cat => (cat, (t.drop droppedColumns).filterLike cat) := by
  have h := sortedByIndex_eq (henv (t.rows.map fun r => firstSegment r.name))
  show (List.foldl (fun data_map cat => data_map.set cat ((t.drop droppedColumns).filterLike cat))
    Dict.empty (sortedByIndex (t.rows.map fun r => firstSegment r.name)
      (env.set (t.rows.map fun r => firstSegment r.name)))).entries = _
  rw [h]
  exact Dict.entries_foldl_set _ _ Dict.empty (nodup_distinct _) fun _ _ => List.not_mem_nil

theorem keys_splitRows {env : Env V} (henv : env.Documented) (t : Table V) :
    (splitRows env t).1.keys = categories t := by
  unfold Dict.keys
  rw [splitRows_entries henv, List.map_map]
  exact List.map_id _

theorem splitRows_coordinates {env : Env V} (henv : env.Documented) (t : Table V) :
    (splitRows env t).2 = coordinates t := by
  unfold splitRows coordinates
  exact sortedByIndex_eq (henv (t.rows.map fun r => lastSegment r.name))

theorem firstSegment_isPrefix (n : Str) : firstSegment n <+: n := by
  have h : ['/'].intercalate (n.splitOn '/') = n := List.intercalate_splitOn '/'
  unfold firstSegment
  cases hsplit : n.splitOn '/' with
  | nil => exact List.nil_prefix
  | cons a rest =>
      rw [hsplit] at h
      rw [List.headD_cons, ← h]
      cases rest with
      | nil => exact ⟨[], by rw [List.append_nil, List.intercalate_singleton]⟩
      | cons b rest =>
          rw [List.intercalate_cons_cons, List.append_assoc]
          exact List.prefix_append a _

/-! ### Reports without quotes -/

/-- A parser of files without quotes, and the set that keeps the order of its list. -/
def plainEnv : Env Str where
  readCsv
    | [] => none
    | header :: lines =>
        let fields (line : Str) := (line.rdropWhile (· == '\n')).splitOn ','
        let cell (line c : Str) := (fields line).getD ((fields header).idxOf c) []
        if "name".toList ∈ fields header then
          some ⟨(fields header).erase "name".toList,
            lines.map fun line => ⟨cell line "name".toList, cell line⟩⟩
        else none
  set := distinct

theorem plainEnv_documented : plainEnv.Documented := enumerates_distinct

/-- One file. -/
def report (lines : List String) : Files where
  resolve := id
  lines := Function.update (fun _ => none) "bm.csv".toList (some (lines.map String.toList))

/-- Two benchmarks with two arguments each. -/
def memcpyReport : Files :=
  report ["name,real_time\n", "BM_naive/1,5\n", "BM_naive/2,9\n", "BM_fast/1,3\n", "BM_fast/2,4\n"]

end PlayWithOpencv.DisplayBm
