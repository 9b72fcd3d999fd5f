import PlayWithOpencv.DisplayBm

/-! # What `prepare` reads, and in which order it returns it

* The copy loop switches from printing to writing at the first line that starts with `name`
  (`foldl_copyLine`).  It copies the input from there on and leaves it as it is
  (`CopiedFromHeader`) exactly when the temporary file is another file than the input, or there is
  nothing to lose (`copyToTmp_iff`): opening the temporary file empties it
  (`copyToTmp_own_input`).
* The two sets that `prepare` makes are sorted by first index, so neither the coordinates nor the
  categories depend on the order in which a set is iterated (`prepare_orders`). -/

namespace PlayWithOpencv.DisplayBm

open FirstSeen

variable {V : Type}

/-! ### The copy loop -/

/-- A line before the header of the table. -/
def beforeHeader (line : Str) : Bool := !decide ("name".toList <+: line)

theorem copyLine_body (lines printed written : List Str) :
    lines.foldl copyLine ⟨false, printed, written⟩ = ⟨false, printed, written ++ lines⟩ := by
  induction lines generalizing written with
  | nil => rw [List.foldl_nil, List.append_nil]
  | cons line lines ih =>
      have hline : copyLine ⟨false, printed, written⟩ line =
          ⟨false, printed, written ++ [line]⟩ := by simp [copyLine]
      rw [List.foldl_cons, hline, ih, List.append_assoc]
      rfl

/-- **The loop**: it prints up to the header and writes from the header on. -/
theorem foldl_copyLine (lines printed : List Str) :
    (lines.foldl copyLine ⟨true, printed, []⟩).printed = printed ++ lines.takeWhile beforeHeader ∧
      (lines.foldl copyLine ⟨true, printed, []⟩).written = lines.dropWhile beforeHeader := by
  induction lines generalizing printed with
  | nil => simp
  | cons line lines ih =>
      rw [List.foldl_cons, List.takeWhile_cons, List.dropWhile_cons]
      by_cases hname : "name".toList <+: line
      · -- the header: from here on every line is written
        have hline : copyLine ⟨true, printed, []⟩ line = ⟨false, printed, [line]⟩ := by
          simp only [copyLine, if_pos hname, if_neg Bool.false_ne_true, List.nil_append]
        have hheader : beforeHeader line = false := by
          unfold beforeHeader
          rw [decide_eq_true hname, Bool.not_true]
        rw [hline, copyLine_body, hheader]
        simp
      · have hline : copyLine ⟨true, printed, []⟩ line = ⟨true, printed ++ [line], []⟩ := by
          simp only [copyLine, if_neg hname, if_true]
        have hheader : beforeHeader line = true := by
          unfold beforeHeader
          rw [decide_eq_false hname, Bool.not_false]
        rw [hline, hheader]
        simpa using ih (printed ++ [line])

/-- What the copy loop should do with an input of these lines: leave it as it is, write the lines
from the header on to the file that is parsed, and print the lines before it. -/
structure CopiedFromHeader (files files' : Files) (ifname : Str) (lines printed : List Str) :
    Prop where
  input : files'.read ifname = some lines
  written : files'.read (tmpFile ifname) = some (lines.dropWhile beforeHeader)
  printed : printed = lines.takeWhile beforeHeader
  parsed : ∀ {V : Type} (env : Env V), prepare env files ifname =
    (env.readCsv (lines.dropWhile beforeHeader)).map fun t => (files', some (splitRows env t))

/-- The loop on an input that opening the temporary file has left with the lines `opened`. -/
theorem copyToTmp_eq {files : Files} {ifname : Str} {lines opened : List Str}
    (hin : files.read ifname = some lines)
    (hopened : (files.write (tmpFile ifname) []).read ifname = some opened) :
    copyToTmp files ifname = some
      ((files.write (tmpFile ifname) []).write (tmpFile ifname) (opened.dropWhile beforeHeader),
        opened.takeWhile beforeHeader) := by
  obtain ⟨hprinted, hwritten⟩ := foldl_copyLine opened []
  unfold copyToTmp
  simp only [hin, hopened, Option.getD_some, hprinted, hwritten, List.nil_append]

/-- The part of `prepare` after the copy loop. -/
theorem prepare_eq {files files' : Files} {ifname : Str} {printed content : List Str}
    (hcsv : ".csv".toList <:+ ifname) (hcopy : copyToTmp files ifname = some (files', printed))
    (hcontent : files'.read (tmpFile ifname) = some content) (env : Env V) :
    prepare env files ifname =
      (env.readCsv content).map fun t => (files', some (splitRows env t)) := by
  unfold prepare
  rw [if_neg (not_not_intro hcsv)]
  simp only [hcopy, hcontent, Option.bind_eq_bind, Option.bind_some]
  cases env.readCsv content <;> rfl

/-- **Main.** The copy loop copies its input from the header on and leaves it as it is exactly when
the path of the temporary file names another file than that of the input, or the input is empty. -/
theorem copyToTmp_iff {files : Files} {ifname : Str} {lines : List Str}
    (hcsv : ".csv".toList <:+ ifname) (hin : files.read ifname = some lines) :
    ∃ files' printed, copyToTmp files ifname = some (files', printed) ∧
      (CopiedFromHeader files files' ifname lines printed ↔
        files.resolve ifname ≠ files.resolve (tmpFile ifname) ∨ lines = []) := by
  by_cases hsame : files.resolve ifname = files.resolve (tmpFile ifname)
  · -- opening the temporary file has emptied the input, and nothing is written
    have hcopy := copyToTmp_eq hin (Files.read_write_of_same hsame [])
    have hafter : ((files.write (tmpFile ifname) []).write (tmpFile ifname)
        (([] : List Str).dropWhile beforeHeader)).read ifname = some [] :=
      @Files.read_write_of_same (files.write (tmpFile ifname) []) _ _ hsame _
    refine ⟨_, _, hcopy, ?_⟩
    constructor
    · intro h
      exact .inr (Option.some.inj (h.input.symm.trans hafter))
    · rintro (hne | rfl)
      · exact absurd hsame hne
      · exact ⟨hafter, Files.read_write_self .., rfl,
          prepare_eq hcsv hcopy (Files.read_write_self ..)⟩
  · have hopened : (files.write (tmpFile ifname) []).read ifname = some lines := by
      rw [Files.read_write_of_ne hsame, hin]
    have hcopy := copyToTmp_eq hin hopened
    have hafter : ((files.write (tmpFile ifname) []).write (tmpFile ifname)
        (lines.dropWhile beforeHeader)).read ifname = some lines := by
      rw [@Files.read_write_of_ne (files.write (tmpFile ifname) []) _ _ hsame, hopened]
    exact ⟨_, _, hcopy, iff_of_true ⟨hafter, Files.read_write_self .., rfl,
      prepare_eq hcsv hcopy (Files.read_write_self ..)⟩ (.inl hsame)⟩

theorem copyToTmp_iff_report :
    ∃ files' printed, copyToTmp (report ["Running\n", "name,real_time\n", "BM_a/1,5\n"])
        "bm.csv".toList = some (files', printed) ∧
      (CopiedFromHeader (report ["Running\n", "name,real_time\n", "BM_a/1,5\n"]) files'
          "bm.csv".toList
          ["Running\n".toList, "name,real_time\n".toList, "BM_a/1,5\n".toList] printed ↔
        "bm.csv".toList ≠ "tmp_file.csv".toList ∨
          ["Running\n".toList, "name,real_time\n".toList, "BM_a/1,5\n".toList] = []) :=
  copyToTmp_iff (by decide) rfl

/-- The temporary file of an earlier run as the input: it is empty afterwards. -/
theorem copyToTmp_own_input :
    ∃ files' printed, copyToTmp ⟨id, fun _ => some ["name,real_time\n".toList]⟩
        "tmp_file.csv".toList = some (files', printed) ∧
      ¬ CopiedFromHeader ⟨id, fun _ => some ["name,real_time\n".toList]⟩ files'
        "tmp_file.csv".toList ["name,real_time\n".toList] printed := by
  refine ⟨_, _, rfl, fun h => ?_⟩
  exact absurd h.input (by decide)

/-! ### The order of what is returned -/

theorem splitRows_eq {env env' : Env V} (henv : env.Documented) (henv' : env'.Documented)
    (t : Table V) : splitRows env' t = splitRows env t := by
  unfold splitRows
  simp only [sortedByIndex_eq (henv _), sortedByIndex_eq (henv' _)]

/-- **Main.** Sorting a set by first index gives the distinct elements in the order of their first
occurrences, in whatever order the set is iterated; so what `prepare` returns is the same for any
two such orders. -/
theorem prepare_orders {env env' : Env V} (henv : env.Documented) (henv' : env'.Documented)
    (hread : env'.readCsv = env.readCsv) :
    (∀ xs set : List Str, Enumerates set xs →
      (sortedByIndex xs set).Nodup ∧ (∀ x, x ∈ sortedByIndex xs set ↔ x ∈ xs) ∧
        (sortedByIndex xs set).Pairwise (Before xs) ∧ sortedByIndex xs set = distinct xs) ∧
    (∀ t : Table V, (splitRows env t).1.keys = categories t ∧ (splitRows env t).2 = coordinates t) ∧
    ∀ files ifname, prepare env' files ifname = prepare env files ifname := by
  refine ⟨fun xs set hset => ?_, fun t => ?_, fun files ifname => ?_⟩
  · rw [sortedByIndex_eq hset]
    exact ⟨nodup_distinct xs, fun _ => mem_distinct, distinct_pairwise xs, rfl⟩
  · exact ⟨keys_splitRows henv t, splitRows_coordinates henv t⟩
  · unfold prepare
    simp only [hread, splitRows_eq henv henv']

/-- The set of a process that iterates backwards. -/
theorem prepare_orders_reverse :
    prepare { plainEnv with set := fun xs => (distinct xs).reverse } memcpyReport "bm.csv".toList =
      prepare plainEnv memcpyReport "bm.csv".toList := by
  have hreverse : ({ plainEnv with set := fun xs => (distinct xs).reverse } : Env Str).Documented :=
    fun xs => ⟨List.nodup_reverse.mpr (nodup_distinct xs), fun a => by
      rw [List.mem_reverse, mem_distinct]⟩
  exact (prepare_orders plainEnv_documented hreverse rfl).2.2 _ _

end PlayWithOpencv.DisplayBm
