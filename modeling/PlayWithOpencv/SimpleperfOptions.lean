import Mathlib.Algebra.Order.Ring.Int
import PlayWithOpencv.SimpleperfSession

/-! # Record options

`RecordOptions` of `perftest/simpleperf.cpp`: the setters, and the translation of what they set
into arguments of the recorder (`toRecordArgs`).  The floating-point type of the duration is a
parameter: what is used of it is its zero, the test against it, and its text.

* `parseArgs` reads such arguments back, and `toRecordArgs_parse` says what it finds for the
  arguments of any sequence of setters: for each option the value of the last call that sets it.
* `pause_refused_iff`: a session started with options refuses to be paused if `TraceOffCpu` was
  called, and also if the file name or the event is spelled like that option. -/

namespace PlayWithOpencv.Simpleperf

/-! ### The options -/

/-- The floating-point numbers of a duration. -/
structure Floating (D : Type) where
  zero : D
  /-- `d != 0.0`. -/
  nonzero : D → Bool
  /-- `std::to_string`. -/
  text : D → Str

/-- What the options rely on: a decimal number has no other letters than those of `inf` and
`nan`. -/
structure Floating.Documented {D : Type} (fl : Floating D) : Prop where
  text_chars : ∀ d, ∀ c ∈ fl.text d, c.isDigit = true ∨ c ∈ "+-.infa".toList

structure RecordOptionsImpl (D : Type) where
  output_filename : Str
  event : Str
  freq : ℕ
  duration_in_second : D
  threads : List ℤ
  dwarf_callgraph : Bool
  fp_callgraph : Bool
  trace_offcpu : Bool

variable {D : Type} (fl : Floating D)

def RecordOptionsImpl.init : RecordOptionsImpl D where
  output_filename := []
  event := "cpu-cycles".toList
  freq := 4000
  duration_in_second := fl.zero
  threads := []
  dwarf_callgraph := false
  fp_callgraph := false
  trace_offcpu := false

/-- A call of a setter. -/
inductive Setting (D : Type) where
  | setOutputFilename (filename : Str)
  | setEvent (event : Str)
  | setSampleFrequency (freq : ℕ)
  | setDuration (duration_in_second : D)
  | setSampleThreads (threads : List ℤ)
  | recordDwarfCallGraph
  | recordFramePointerCallGraph
  | traceOffCpu

def RecordOptionsImpl.set (o : RecordOptionsImpl D) : Setting D → RecordOptionsImpl D
  | .setOutputFilename filename => { o with output_filename := filename }
  | .setEvent event => { o with event := event }
  | .setSampleFrequency freq => { o with freq := freq }
  | .setDuration duration_in_second => { o with duration_in_second := duration_in_second }
  | .setSampleThreads threads => { o with threads := threads }
  | .recordDwarfCallGraph => { o with dwarf_callgraph := true, fp_callgraph := false }
  | .recordFramePointerCallGraph => { o with fp_callgraph := true, dwarf_callgraph := false }
  | .traceOffCpu => { o with trace_offcpu := true }

/-- The options after the setters. -/
def options (settings : List (Setting D)) : RecordOptionsImpl D :=
  settings.foldl RecordOptionsImpl.set (RecordOptionsImpl.init fl)

/-! ### The arguments -/

/-- A number as `std::to_string` and `<<` write it. -/
def decimal : ℤ → Str
  | .ofNat n => Nat.toDigits 10 n
  | .negSucc n => '-' :: Nat.toDigits 10 (n + 1)

/-- The fields of `struct tm` the file name is made of. -/
structure Tm where
  tm_mon : ℕ
  tm_mday : ℕ
  tm_hour : ℕ
  tm_min : ℕ
  tm_sec : ℕ
deriving DecidableEq, Repr

/-- `%02d`. -/
def pad2 (n : ℕ) : Str := if n < 10 then '0' :: Nat.toDigits 10 n else Nat.toDigits 10 n

/-- `GetDefaultOutputFilename`; `localtime_r` may fail. -/
def getDefaultOutputFilename : Option Tm → Str
  | none => "perf.data".toList
  | some tm =>
      "perf-".toList ++ pad2 (tm.tm_mon + 1) ++ '-' :: pad2 tm.tm_mday ++ '-' :: pad2 tm.tm_hour ++
        '-' :: pad2 tm.tm_min ++ '-' :: pad2 tm.tm_sec ++ ".data".toList

/-- The time and the process of a call of `ToRecordArgs`. -/
structure Context where
  localtime : Option Tm
  pid : ℕ

/-- `ToRecordArgs`. -/
def toRecordArgs (ctx : Context) (o : RecordOptionsImpl D) : List Str :=
  let output_filename :=
    if o.output_filename = [] then getDefaultOutputFilename ctx.localtime else o.output_filename
  ["-o".toList, output_filename] ++ ["-e".toList, o.event] ++ ["-f".toList, decimal o.freq] ++
    (if fl.nonzero o.duration_in_second then
      ["--duration".toList, fl.text o.duration_in_second] else []) ++
    (if o.threads = [] then ["-p".toList, decimal ctx.pid]
      else ["-t".toList, List.intercalate [','] (o.threads.map decimal)]) ++
    (if o.dwarf_callgraph then ["-g".toList]
      else if o.fp_callgraph then ["--call-graph".toList, "fp".toList] else []) ++
    (if o.trace_offcpu then ["--trace-offcpu".toList] else [])

/-! ### Reading the arguments -/

/-- How call chains are recorded. -/
inductive CallGraph where
  | dwarf
  | fp
deriving DecidableEq, Repr

/-- What an argument asks of the recorder. -/
inductive Opt where
  | output (filename : Str)
  | event (event : Str)
  | freq (n : ℤ)
  | duration (text : Str)
  | process (pid : ℤ)
  | threads (tids : List ℤ)
  | callGraph (mode : CallGraph)
  | traceOffcpu
deriving DecidableEq, Repr

/-- The number a text stands for. -/
def number : Str → ℤ
  | '-' :: s => -(Nat.ofDigitChars 10 s 0 : ℕ)
  | s => (Nat.ofDigitChars 10 s 0 : ℕ)

/-- An option with a value. -/
def readOption (name value : Str) : Option Opt :=
  if name = "-o".toList then some (.output value)
  else if name = "-e".toList then some (.event value)
  else if name = "-f".toList then some (.freq (number value))
  else if name = "--duration".toList then some (.duration value)
  else if name = "-p".toList then some (.process (number value))
  else if name = "-t".toList then some (.threads ((value.splitOn ',').map number))
  else if name = "--call-graph".toList ∧ value = "fp".toList then some (.callGraph .fp)
  else none

/-- The options in a list of arguments. -/
def parseArgs : List Str → Option (List Opt)
  | [] => some []
  | name :: rest =>
      if name = "-g".toList then (parseArgs rest).map (.callGraph .dwarf :: ·)
      else if name = "--trace-offcpu".toList then (parseArgs rest).map (.traceOffcpu :: ·)
      else match rest with
        | [] => none
        | value :: rest => (readOption name value).bind fun o => (parseArgs rest).map (o :: ·)

theorem toDigits_head_ne (n : ℕ) (s : Str) : Nat.toDigits 10 n ≠ '-' :: s := by
  intro h
  have hd : '-'.isDigit = true :=
    Nat.isDigit_of_mem_toDigits (by decide) (by decide) (h ▸ List.mem_cons_self)
  revert hd
  decide

/-- Reading a number back. -/
theorem number_decimal (i : ℤ) : number (decimal i) = i := by
  cases i with
  | ofNat n =>
      rw [decimal, number]
      · simp
      · intro s h
        exact toDigits_head_ne n s h
  | negSucc n =>
      rw [decimal, number, Nat.ofDigitChars_ten_toDigits]
      rfl

theorem comma_not_mem_decimal (i : ℤ) : ',' ∉ decimal i := by
  have hdigits : ∀ n, ',' ∉ Nat.toDigits 10 n := by
    intro n h
    have hd : ','.isDigit = true := Nat.isDigit_of_mem_toDigits (by decide) (by decide) h
    revert hd
    decide
  cases i with
  | ofNat n => exact hdigits n
  | negSucc n =>
      rintro (_ | ⟨_, h⟩)
      exact hdigits _ h

theorem splitOn_decimals {ts : List ℤ} (hts : ts ≠ []) :
    ((List.intercalate [','] (ts.map decimal)).splitOn ',').map number = ts := by
  rw [List.splitOn_intercalate]
  · rw [List.map_map]
    conv_rhs => rw [← List.map_id ts]
    exact List.map_congr_left fun i _ => number_decimal i
  · intro l hl
    obtain ⟨i, -, rfl⟩ := List.mem_map.mp hl
    exact comma_not_mem_decimal i
  · simpa using hts

/-! ### What the setters ask for -/

/-- What the last of the calls that set a value set it to. -/
def lastSet {β : Type} (f : Setting D → Option β) (settings : List (Setting D)) (default : β) : β :=
  ((settings.filterMap f).getLast?).getD default

def Setting.filename? : Setting D → Option Str
  | .setOutputFilename filename => some filename
  | _ => none

def Setting.event? : Setting D → Option Str
  | .setEvent event => some event
  | _ => none

def Setting.freq? : Setting D → Option ℕ
  | .setSampleFrequency freq => some freq
  | _ => none

def Setting.duration? : Setting D → Option D
  | .setDuration duration => some duration
  | _ => none

def Setting.threads? : Setting D → Option (List ℤ)
  | .setSampleThreads threads => some threads
  | _ => none

def Setting.callGraph? : Setting D → Option (Option CallGraph)
  | .recordDwarfCallGraph => some (some .dwarf)
  | .recordFramePointerCallGraph => some (some .fp)
  | _ => none

def Setting.traceOffcpu? : Setting D → Option Bool
  | .traceOffCpu => some true
  | _ => none

theorem lastSet_concat {β : Type} (f : Setting D → Option β) (settings : List (Setting D))
    (c : Setting D) (default : β) :
    lastSet f (settings ++ [c]) default = (f c).getD (lastSet f settings default) := by
  unfold lastSet
  rw [List.filterMap_append]
  cases hc : f c with
  | none => simp [hc]
  | some b => simp [hc]

/-- The way call chains are recorded. -/
def RecordOptionsImpl.callGraph (o : RecordOptionsImpl D) : Option CallGraph :=
  if o.dwarf_callgraph then some .dwarf else if o.fp_callgraph then some .fp else none

/-- Setters of one field leave the others alone, and the last call for a field stands. -/
theorem options_eq (settings : List (Setting D)) :
    (options fl settings).output_filename = lastSet Setting.filename? settings [] ∧
      (options fl settings).event = lastSet Setting.event? settings "cpu-cycles".toList ∧
      (options fl settings).freq = lastSet Setting.freq? settings 4000 ∧
      (options fl settings).duration_in_second = lastSet Setting.duration? settings fl.zero ∧
      (options fl settings).threads = lastSet Setting.threads? settings [] ∧
      (options fl settings).callGraph = lastSet Setting.callGraph? settings none ∧
      (options fl settings).trace_offcpu = lastSet Setting.traceOffcpu? settings false := by
  induction settings using List.reverseRecOn with
  | nil => exact ⟨rfl, rfl, rfl, rfl, rfl, rfl, rfl⟩
  | append_singleton settings c ih =>
      obtain ⟨h₁, h₂, h₃, h₄, h₅, h₆, h₇⟩ := ih
      have hstep : options fl (settings ++ [c]) = (options fl settings).set c := by
        simp [options]
      simp only [hstep, lastSet_concat, ← h₁, ← h₂, ← h₃, ← h₄, ← h₅, ← h₆, ← h₇]
      cases c <;> exact ⟨rfl, rfl, rfl, rfl, rfl, rfl, rfl⟩

/-- What a sequence of setters asks of the recorder. -/
def requested (ctx : Context) (settings : List (Setting D)) : List Opt :=
  let filename := lastSet Setting.filename? settings []
  let duration := lastSet Setting.duration? settings fl.zero
  let threads := lastSet Setting.threads? settings []
  [.output (if filename = [] then getDefaultOutputFilename ctx.localtime else filename),
    .event (lastSet Setting.event? settings "cpu-cycles".toList),
    .freq (lastSet Setting.freq? settings 4000 : ℕ)] ++
    (if fl.nonzero duration then [.duration (fl.text duration)] else []) ++
    [if threads = [] then .process ctx.pid else .threads threads] ++
    (lastSet Setting.callGraph? settings none).toList.map .callGraph ++
    (if lastSet Setting.traceOffcpu? settings false then [.traceOffcpu] else [])

variable {fl}

theorem parseArgs_dwarf (rest : List Str) :
    parseArgs ("-g".toList :: rest) = (parseArgs rest).map (.callGraph .dwarf :: ·) := by
  cases rest <;> rfl

theorem parseArgs_value {name value : Str} {rest : List Str} {o : Opt}
    (hg : name ≠ "-g".toList) (ht : name ≠ "--trace-offcpu".toList)
    (ho : readOption name value = some o) :
    parseArgs (name :: value :: rest) = (parseArgs rest).map (o :: ·) := by
  rw [parseArgs, if_neg hg, if_neg ht, ho]
  rfl

/-! ### Round trip -/

section RoundTrip

variable (fl) (ctx : Context) (o : RecordOptionsImpl D) {rest : List Str} {opts : List Opt}

theorem parse_trace : parseArgs (if o.trace_offcpu then ["--trace-offcpu".toList] else []) =
    some (if o.trace_offcpu then [.traceOffcpu] else []) := by
  split_ifs <;> rfl

theorem parse_callGraph (h : parseArgs rest = some opts) :
    parseArgs ((if o.dwarf_callgraph then ["-g".toList]
      else if o.fp_callgraph then ["--call-graph".toList, "fp".toList] else []) ++ rest) =
    some (o.callGraph.toList.map .callGraph ++ opts) := by
  unfold RecordOptionsImpl.callGraph
  split_ifs
  · rw [List.singleton_append, parseArgs_dwarf, h]
    rfl
  · rw [List.cons_append, List.singleton_append,
      parseArgs_value (o := .callGraph .fp) (by decide) (by decide) rfl, h]
    rfl
  · simpa using h

theorem parse_threads (h : parseArgs rest = some opts) :
    parseArgs ((if o.threads = [] then ["-p".toList, decimal ctx.pid]
      else ["-t".toList, List.intercalate [','] (o.threads.map decimal)]) ++ rest) =
    some ((if o.threads = [] then Opt.process ctx.pid else .threads o.threads) :: opts) := by
  split_ifs with hts
  · have hpid : readOption "-p".toList (decimal ctx.pid) = some (.process ctx.pid) := by
      show some (Opt.process (number (decimal ctx.pid))) = _
      rw [number_decimal]
    rw [List.cons_append, List.singleton_append, parseArgs_value (by decide) (by decide) hpid, h]
    rfl
  · have htids : readOption "-t".toList (List.intercalate [','] (o.threads.map decimal)) =
        some (.threads o.threads) := by
      show some (Opt.threads _) = _
      rw [splitOn_decimals hts]
    rw [List.cons_append, List.singleton_append, parseArgs_value (by decide) (by decide) htids, h]
    rfl

theorem parse_duration (h : parseArgs rest = some opts) :
    parseArgs ((if fl.nonzero o.duration_in_second then
      ["--duration".toList, fl.text o.duration_in_second] else []) ++ rest) =
    some ((if fl.nonzero o.duration_in_second then
      [.duration (fl.text o.duration_in_second)] else []) ++ opts) := by
  split_ifs
  · rw [List.cons_append, List.singleton_append,
      parseArgs_value (o := .duration _) (by decide) (by decide) rfl, h]
    rfl
  · exact h

/-- **Options round trip**: the arguments of any sequence of setters ask for what the last call
for each option set, and for nothing else. -/
theorem toRecordArgs_parse (settings : List (Setting D)) :
    parseArgs (toRecordArgs fl ctx (options fl settings)) = some (requested fl ctx settings) := by
  obtain ⟨h₁, h₂, h₃, h₄, h₅, h₆, h₇⟩ := options_eq fl settings
  have hfreq : readOption "-f".toList (decimal (options fl settings).freq) =
      some (.freq (options fl settings).freq) := by
    show some (Opt.freq (number _)) = _
    rw [number_decimal]
  have hgraph := parse_callGraph (options fl settings) (parse_trace (options fl settings))
  have hrest := parse_duration fl (options fl settings) (parse_threads ctx (options fl settings) hgraph)
  simp only [toRecordArgs, List.append_assoc, List.cons_append, List.nil_append]
  rw [parseArgs_value (o := .output _) (by decide) (by decide) rfl,
    parseArgs_value (o := .event _) (by decide) (by decide) rfl,
    parseArgs_value (by decide) (by decide) hfreq, hrest, h₁, h₂, h₃, h₄, h₅, h₆, h₇]
  simp [requested]

end RoundTrip

/-! ### The argument that forbids a pause -/

theorem char_not_mem_toDigits {c : Char} (hc : c.isDigit = false) (n : ℕ) :
    c ∉ Nat.toDigits 10 n := by
  intro h
  have hd : c.isDigit = true := Nat.isDigit_of_mem_toDigits (by decide) (by decide) h
  rw [hd] at hc
  cases hc

theorem decimal_ne_trace (i : ℤ) : decimal i ≠ "--trace-offcpu".toList := by
  intro h
  have ht : 't' ∈ decimal i := by rw [h]; decide
  cases i with
  | ofNat n => exact char_not_mem_toDigits (by decide) n ht
  | negSucc n =>
      rcases List.mem_cons.mp ht with heq | hmem
      · revert heq
        decide
      · exact char_not_mem_toDigits (by decide) _ hmem

theorem decimals_ne_trace {ts : List ℤ} (hts : ts ≠ []) :
    List.intercalate [','] (ts.map decimal) ≠ "--trace-offcpu".toList := by
  intro h
  have hsplit : (List.intercalate [','] (ts.map decimal)).splitOn ',' = ts.map decimal := by
    rw [List.splitOn_intercalate]
    · intro l hl
      obtain ⟨i, -, rfl⟩ := List.mem_map.mp hl
      exact comma_not_mem_decimal i
    · simpa using hts
  have hmem : "--trace-offcpu".toList ∈ ts.map decimal := by
    rw [← hsplit, h]
    decide
  obtain ⟨i, -, hi⟩ := List.mem_map.mp hmem
  exact decimal_ne_trace i hi

theorem text_ne_trace (hfl : fl.Documented) (d : D) : fl.text d ≠ "--trace-offcpu".toList := by
  intro h
  have ht : 't' ∈ fl.text d := by rw [h]; decide
  have hchars := hfl.text_chars d 't' ht
  revert hchars
  decide

theorem getDefaultOutputFilename_ne_trace (tm : Option Tm) :
    getDefaultOutputFilename tm ≠ "--trace-offcpu".toList := by
  cases tm with
  | none => decide
  | some tm =>
      intro h
      have hhead : (getDefaultOutputFilename (some tm)).head? = some 'p' := rfl
      rw [h] at hhead
      revert hhead
      decide

/-- Where the option is found among the arguments: where `TraceOffCpu` puts it, or as a file name
or an event. -/
theorem mem_toRecordArgs_iff (hfl : fl.Documented) (ctx : Context) (o : RecordOptionsImpl D) :
    "--trace-offcpu".toList ∈ toRecordArgs fl ctx o ↔ o.trace_offcpu = true ∨
      o.output_filename = "--trace-offcpu".toList ∨ o.event = "--trace-offcpu".toList := by
  have hname : "--trace-offcpu".toList = (if o.output_filename = [] then
      getDefaultOutputFilename ctx.localtime else o.output_filename) ↔
      o.output_filename = "--trace-offcpu".toList := by
    split_ifs with hempty
    · rw [hempty]
      exact iff_of_false (getDefaultOutputFilename_ne_trace _).symm (by decide)
    · exact eq_comm
  have hduration : "--trace-offcpu".toList ∉ (if fl.nonzero o.duration_in_second then
      ["--duration".toList, fl.text o.duration_in_second] else []) := by
    split_ifs
    · rintro (_ | ⟨_, h⟩)
      exact text_ne_trace hfl _ (List.mem_singleton.mp h).symm
    · exact List.not_mem_nil
  have hthreads : "--trace-offcpu".toList ∉ (if o.threads = [] then
      ["-p".toList, decimal ctx.pid] else
      ["-t".toList, List.intercalate [','] (o.threads.map decimal)]) := by
    split_ifs with hts
    · rintro (_ | ⟨_, h⟩)
      exact decimal_ne_trace _ (List.mem_singleton.mp h).symm
    · rintro (_ | ⟨_, h⟩)
      exact decimals_ne_trace hts (List.mem_singleton.mp h).symm
  have hgraph : "--trace-offcpu".toList ∉ (if o.dwarf_callgraph then ["-g".toList]
      else if o.fp_callgraph then ["--call-graph".toList, "fp".toList] else []) := by
    split_ifs <;> decide
  have htrace : "--trace-offcpu".toList ∈ (if o.trace_offcpu then ["--trace-offcpu".toList]
      else []) ↔ o.trace_offcpu = true := by
    split_ifs with ht <;> simp [ht]
  have hpair : ∀ name value : Str, name ≠ "--trace-offcpu".toList →
      ("--trace-offcpu".toList ∈ [name, value] ↔ "--trace-offcpu".toList = value) := by
    intro name value hne
    rw [List.mem_cons, List.mem_singleton, or_iff_right hne.symm]
  unfold toRecordArgs
  simp only [List.mem_append]
  rw [hpair _ _ (by decide), hpair _ _ (by decide), hpair _ _ (by decide), hname, htrace]
  have hfreq := decimal_ne_trace o.freq
  tauto

theorem lastSet_traceOffcpu_iff (settings : List (Setting D)) :
    lastSet Setting.traceOffcpu? settings false = true ↔ .traceOffCpu ∈ settings := by
  induction settings using List.reverseRecOn with
  | nil => simp [lastSet]
  | append_singleton settings c ih =>
      rw [lastSet_concat, List.mem_append, List.mem_singleton, ← ih]
      cases c <;> simp [Setting.traceOffcpu?]

/-- **Pause refused**: a session started with options aborts on its first pause exactly if
`TraceOffCpu` was called, or the last file name or the last event is spelled like that option. -/
theorem pause_refused_iff (hfl : fl.Documented) (ctx : Context) (settings : List (Setting D)) :
    PartialRun.run Spec.call {} [.startRecording (toRecordArgs fl ctx (options fl settings)),
        .pauseRecording] = none ↔
      .traceOffCpu ∈ settings ∨
        lastSet Setting.filename? settings [] = "--trace-offcpu".toList ∨
        lastSet Setting.event? settings "cpu-cycles".toList = "--trace-offcpu".toList := by
  obtain ⟨h₁, h₂, -, -, -, -, h₇⟩ := options_eq fl settings
  rw [← lastSet_traceOffcpu_iff, ← h₁, ← h₂, ← h₇, ← mem_toRecordArgs_iff hfl ctx]
  simp [Spec.call]

/-- Durations of whole seconds. -/
def wholeSeconds : Floating ℕ where
  zero := 0
  nonzero d := d != 0
  text d := Nat.toDigits 10 d ++ ".000000".toList

theorem wholeSeconds_documented : wholeSeconds.Documented where
  text_chars d c hc := by
    rcases List.mem_append.mp hc with hd | hd
    · exact .inl (Nat.isDigit_of_mem_toDigits (by decide) (by decide) hd)
    · have hall : (".000000".toList.all fun c =>
          decide (c.isDigit = true ∨ c ∈ "+-.infa".toList)) = true := rfl
      exact of_decide_eq_true (List.all_eq_true.mp hall c hd)

/-- An event spelled like the option forbids the pause as the option does. -/
theorem pause_refused_iff_event :
    PartialRun.run Spec.call {} [.startRecording (toRecordArgs wholeSeconds ⟨none, 7⟩
        (options wholeSeconds [.setDuration 3, .setEvent "--trace-offcpu".toList])),
        .pauseRecording] = none ↔
      Setting.traceOffCpu ∈ [Setting.setDuration 3, .setEvent "--trace-offcpu".toList] ∨
        lastSet Setting.filename? [Setting.setDuration 3, .setEvent "--trace-offcpu".toList] [] =
          "--trace-offcpu".toList ∨
        lastSet Setting.event? [Setting.setDuration 3, .setEvent "--trace-offcpu".toList]
          "cpu-cycles".toList = "--trace-offcpu".toList := by
  exact pause_refused_iff wholeSeconds_documented _ _

end PlayWithOpencv.Simpleperf
