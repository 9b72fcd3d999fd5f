import PlayWithOpencv.ProfilerSlots

/-! # `PMU_RECORD_BEGIN` and `PMU_RECORD_END`

The macros of `perftest.cpp` and `oprtest.cpp` around a measured loop: open all eight events,
count, and publish a table of metrics in `state.counters`.  The getters of `Profiler::Counters`
compute in `double`; here they compute in `ℚ`, and a quotient keeps the reading it divides by
(`Metric`), so that a division by zero stays visible.

`denotes` says what a published name stands for.  The tables of both files are wrong at two
names: `L1d-hit-rate` and `L1d-miss-rate` are computed by the getters of the instruction cache
(`published_denotes_iff`).  Neither macro looks at more than the leader before it divides
(`published_divisors_iff`). -/

namespace PlayWithOpencv.Perf

open PartialRun

/-! ### The getters of `Profiler::Counters` -/

/-- A count, with the event it is the count of. -/
structure Reading where
  event : Event
  value : ℕ
deriving DecidableEq, Repr

/-- A number a getter returns: a count, `double(num) / double(den)`, or `1.0 - m`. -/
inductive Metric where
  | count (r : Reading)
  | quotient (num : ℚ) (den : Reading)
  | oneMinus (m : Metric)
deriving DecidableEq

namespace Metric

/-- The number itself. -/
def value : Metric → ℚ
  | count r => r.value
  | quotient num den => num / den.value
  | oneMinus m => 1 - m.value

/-- The reading the number was divided by. -/
def divisor : Metric → Option Reading
  | count _ => none
  | quotient _ den => some den
  | oneMinus m => m.divisor

end Metric

namespace Counters

variable (c : Counters)

/-- The count in the slot of `e`. -/
def reading (e : Event) : Reading := ⟨e, (c.counters e).value⟩

def getInstructions : Reading := c.reading .instructions
def getCpuCycles : Reading := c.reading .cpuCycles
def getL1DReferences : Reading := c.reading .dcacheRefs
def getL1DMisses : Reading := c.reading .dcacheMisses
def getL1IReferences : Reading := c.reading .icacheRefs
def getL1IMisses : Reading := c.reading .icacheMisses
def getBranchInstructions : Reading := c.reading .branches
def getBranchMisses : Reading := c.reading .branchMisses

def getIPC : Metric := .quotient c.getInstructions.value c.getCpuCycles
def getCPI : Metric := .quotient c.getCpuCycles.value c.getInstructions
def getL1DMissRate : Metric := .quotient c.getL1DMisses.value c.getL1DReferences
def getL1DHitRate : Metric := .oneMinus c.getL1DMissRate
def getL1IMissRate : Metric := .quotient c.getL1IMisses.value c.getL1IReferences
def getL1IHitRate : Metric := .oneMinus c.getL1IMissRate
def getBranchMissRate : Metric := .quotient c.getBranchMisses.value c.getBranchInstructions
def getBranchHitRate : Metric := .oneMinus c.getBranchMissRate
def getMPKI (misses : Reading) : Metric := .quotient (misses.value * 1000) c.getInstructions

end Counters

/-! ### The macros -/

/-- The two files that define the macros. -/
inductive Source where
  | perftest
  | oprtest
deriving DecidableEq, Repr

/-- The table `PMU_RECORD_END` inserts into `state.counters`. -/
def Source.table : Source → Counters → List (String × Metric)
  | perftest, c =>
      [("instructions", .count c.getInstructions),
        ("cpu-cycles", .count c.getCpuCycles),
        ("ipc", c.getIPC),
        ("cpi", c.getCPI),
        ("L1i-hit-rate", c.getL1IHitRate),
        ("L1i-miss-rate", c.getL1IMissRate),
        ("L1d-hit-rate", c.getL1IHitRate),
        ("L1d-miss-rate", c.getL1IMissRate),
        ("L1i-mpki", c.getMPKI c.getL1IMisses),
        ("branch-hit-rate", c.getBranchHitRate),
        ("branch-miss-rate", c.getBranchMissRate)]
  | oprtest, c =>
      [("instructions", .count c.getInstructions),
        ("cpu-cycles", .count c.getCpuCycles),
        ("ipc", c.getIPC),
        ("cpi", c.getCPI),
        ("L1i-hit-rate", c.getL1IHitRate),
        ("L1i-miss-rate", c.getL1IMissRate),
        ("L1d-hit-rate", c.getL1IHitRate),
        ("L1d-miss-rate", c.getL1IMissRate),
        ("L1i-mpki", c.getMPKI c.getL1IMisses)]

/-- `insert` of a table into a map: a name that is present keeps its value. -/
def insertCounters (counters table : List (String × Metric)) : List (String × Metric) :=
  table.foldl (fun acc nm => if nm.1 ∈ acc.map Prod.fst then acc else acc ++ [nm]) counters

/-- The mask of `PMU_RECORD_BEGIN`: all seven member events. -/
def recordMask : BitVec 32 := EV_CPU_CYCLES ||| EV_L1I_RATES ||| EV_L1D_RATES ||| EV_BPU_RATES

/-- What `PMU_RECORD_BEGIN` leaves in scope, and what it logged. -/
structure Recording (κ : Type*) where
  valid : Bool
  sys : Sys κ
  logged : List String

section macros

variable {κ : Type*} (call : κ → Syscall → Option κ)

/-- `PMU_RECORD_BEGIN`. -/
def pmuRecordBegin (arch : Arch) (answer : Event → ℤ) (s : Sys κ) : Option (Recording κ) := do
  let s ← resetEvents call arch answer recordMask s
  if s.prof.isValid then
    let s ← start call s
    return ⟨true, s, []⟩
  else
    return ⟨false, s,
      ["performance counters not enabled. try \"setprop security.perf_harden 0\"\n"]⟩

/-- `readCounters`, with the `read` it makes; `result` is what `read` delivers in a state of the
system. -/
def readCounters (result : κ → ℤ → Option GroupRecord) (stack : ℕ → Entry) (s : Sys κ) :
    Option (Counters × Sys κ) := do
  let fd := s.prof.mCountersFd .instructions
  let os ← call s.os (.read fd)
  return (s.prof.readCounters stack (result os fd), { s with os := os })

/-- `stop`, then `readCounters`. -/
def stopAndRead (result : κ → ℤ → Option GroupRecord) (stack : ℕ → Entry) (s : Sys κ) :
    Option (Counters × Sys κ) := do
  let s ← stop call s
  readCounters call result stack s

/-- `PMU_RECORD_END` of a file, on the counters already in `state.counters`. -/
def pmuRecordEnd (src : Source) (result : κ → ℤ → Option GroupRecord) (stack : ℕ → Entry)
    (counters : List (String × Metric)) (r : Recording κ) :
    Option (List (String × Metric) × Sys κ) :=
  if r.valid then do
    let (c, s) ← stopAndRead call result stack r.sys
    return (insertCounters counters (src.table c), s)
  else return (counters, r.sys)

/-! ### What the macros can do -/

variable {call}

theorem pmuRecordBegin_cases {arch : Arch} {answer : Event → ℤ} {s : Sys κ} {r : Recording κ}
    (h : pmuRecordBegin call arch answer s = some r) :
    ∃ s₁, resetEvents call arch answer recordMask s = some s₁ ∧ r.valid = s₁.prof.isValid ∧
      r.sys.prof = s₁.prof ∧
      ((r.valid = true ∧ call s₁.os (.ioctl (s₁.prof.mCountersFd .instructions) .enable) =
          some r.sys.os) ∨
        (r.valid = false ∧ r.sys.os = s₁.os)) := by
  obtain ⟨s₁, hreset, h⟩ := Option.bind_eq_some_iff.mp h
  refine ⟨s₁, hreset, ?_⟩
  split_ifs at h with hvalid
  · obtain ⟨s₂, hstart, h⟩ := Option.bind_eq_some_iff.mp h
    obtain rfl := Option.some.inj h
    obtain ⟨hprof, hos⟩ := ioctlLeader_cases hstart
    exact ⟨hvalid.symm, hprof, Or.inl ⟨rfl, hos⟩⟩
  · obtain rfl := Option.some.inj h
    exact ⟨by simpa using hvalid, rfl, Or.inr ⟨rfl, rfl⟩⟩

theorem stopAndRead_cases {result : κ → ℤ → Option GroupRecord} {stack : ℕ → Entry}
    {s s' : Sys κ} {c : Counters} (h : stopAndRead call result stack s = some (c, s')) :
    ∃ os, call s.os (.ioctl (s.prof.mCountersFd .instructions) .disable) = some os ∧
      call os (.read (s.prof.mCountersFd .instructions)) = some s'.os ∧ s'.prof = s.prof ∧
      c = s'.prof.readCounters stack (result s'.os (s'.prof.mCountersFd .instructions)) := by
  obtain ⟨s₁, hstop, h⟩ := Option.bind_eq_some_iff.mp h
  obtain ⟨hprof, hos⟩ := ioctlLeader_cases hstop
  obtain ⟨os, hos', h⟩ := Option.bind_eq_some_iff.mp h
  obtain ⟨rfl, rfl⟩ := Prod.mk.inj (Option.some.inj h)
  rw [hprof] at hos'
  exact ⟨s₁.os, hos, hos', hprof, rfl⟩

/-- A valid `PMU_RECORD_END` inserts the table of the counters it read. -/
theorem pmuRecordEnd_valid {src : Source} {result : κ → ℤ → Option GroupRecord}
    {stack : ℕ → Entry} {counters out : List (String × Metric)} {r : Recording κ} {s' : Sys κ}
    (h : pmuRecordEnd call src result stack counters r = some (out, s'))
    (hvalid : r.valid = true) :
    ∃ c, stopAndRead call result stack r.sys = some (c, s') ∧
      out = insertCounters counters (src.table c) := by
  unfold pmuRecordEnd at h
  rw [if_pos hvalid] at h
  obtain ⟨⟨c, s₁⟩, hread, h⟩ := Option.bind_eq_some_iff.mp h
  obtain ⟨rfl, rfl⟩ := Prod.mk.inj (Option.some.inj h)
  exact ⟨c, hread, rfl⟩

end macros

/-- The names of a table are distinct, so inserting it into an empty map publishes all of it. -/
theorem insertCounters_nil (src : Source) (c : Counters) :
    insertCounters [] (src.table c) = src.table c := by
  cases src <;> simp [insertCounters, Source.table]

/-! ### The group stays linked while it is measured -/

section linked

variable {arch : Arch} {mIds : Event → ℕ} {fds : Event → ℤ} {g : Group} {m m' : Machine} {L : ℤ}

theorem Linked.mapEvents (h : Linked arch mIds fds g) {f : PerfEvent → PerfEvent}
    (hf : PerfEvent.Keeps f) : Linked arch mIds fds (g.mapEvents f) := by
  intro e he
  obtain ⟨ev, hev, hfd, hkind⟩ := h e he
  obtain ⟨hfd', hattr, -⟩ := hf ev
  refine ⟨f ev, ?_, ?_, ?_⟩
  · rw [Group.events_mapEvents, List.getElem?_map, hev, Option.map_some]
  · rw [hfd', hfd]
  · rw [hattr, hkind]

theorem Linked.occurAll (h : Linked arch mIds fds g) (κs : List Kind) :
    Linked arch mIds fds (κs.foldl (fun g κ => g.mapEvents (PerfEvent.occur κ)) g) := by
  induction κs generalizing g with
  | nil => exact h
  | cons κ κs ih => exact ih (h.mapEvents (PerfEvent.keeps_occur κ))

/-- Activity and a request on the leader keep the links. -/
theorem linked_ioctl {req : IocRequest} (hcall : m.call (.ioctl L req) = some m')
    (h : ∃ g, m.kernel.group? L = some g ∧ Linked arch mIds fds g) :
    ∃ g, m'.kernel.group? L = some g ∧ Linked arch mIds fds g := by
  obtain ⟨g, hg, hl⟩ := h
  have hk := Option.some.inj (Machine.call_some hcall)
  refine ⟨_, ?_, (hl.occurAll (m.gaps.headD [])).mapEvents (PerfEvent.keeps_onRequest req)⟩
  rw [← hk, Kernel.group?_ioctl, Kernel.group?_occurAll, hg, Option.map_some, Option.map_some]

/-- Activity and a `read` keep the links. -/
theorem linked_read {fd : ℤ} (hcall : m.call (.read fd) = some m')
    (h : ∃ g, m.kernel.group? L = some g ∧ Linked arch mIds fds g) :
    ∃ g, m'.kernel.group? L = some g ∧ Linked arch mIds fds g := by
  obtain ⟨g, hg, hl⟩ := h
  have hk := Option.some.inj (Machine.call_some hcall)
  refine ⟨_, ?_, hl.occurAll (m.gaps.headD [])⟩
  rw [← hk, Kernel.group?_occurAll, hg, Option.map_some]

end linked

/-! ### A measured loop -/

/-- `PMU_RECORD_BEGIN`, a loop, and `PMU_RECORD_END`.  `gaps` is the hardware activity until the
two calls of the end; the `read` delivers a record of the leader's group, or nothing when it
fails (`ok`). -/
def pmuRecord (arch : Arch) (src : Source) (answer : Event → ℤ) (gaps : List (List Kind))
    (ok : Bool) (entry : ℕ → Entry) (timeEnabled timeRunning : ℕ) (stack : ℕ → Entry)
    (s : Sys Machine) : Option (List (String × Metric) × Sys Machine) := do
  let r ← pmuRecordBegin Machine.call arch answer s
  pmuRecordEnd Machine.call src
    (fun m fd =>
      if ok then m.kernel.readGroup fd (fun ev => entry ev.fd) timeEnabled timeRunning else none)
    stack []
    { r with sys := { r.sys with os := { r.sys.os with gaps := gaps } } }

/-- The count of `e` the kernel has: that of the event behind its descriptor, if it opened. -/
def openCount (answer : Event → ℤ) (entry : ℕ → Entry) (e : Event) : ℕ :=
  if 0 ≤ answer e then (entry (answer e).toNat).value else 0

theorem requested_recordMask {e : Event} (h : e ≠ .instructions) :
    requested recordMask e = true := by
  cases e <;> first | exact absurd rfl h | decide

section measured

variable {arch : Arch} {src : Source} {answer : Event → ℤ} {gaps : List (List Kind)} {ok : Bool}
  {entry : ℕ → Entry} {te tr : ℕ} {stack : ℕ → Entry} {s s' : Sys Machine}
  {out : List (String × Metric)}

/-- Without a leader nothing is published. -/
theorem pmuRecord_invalid
    (h : pmuRecord arch src answer gaps ok entry te tr stack s = some (out, s'))
    (hlead : answer .instructions < 0) : out = [] := by
  obtain ⟨r, hbegin, hend⟩ := Option.bind_eq_some_iff.mp h
  obtain ⟨s₁, hreset, hvalid, -⟩ := pmuRecordBegin_cases hbegin
  obtain ⟨⟨-, hneg⟩ | ⟨h0, -⟩, -⟩ := resetEvents_ready hreset
  · have hinv : r.valid = false := by
      have := hneg .instructions
      rw [hvalid, Profiler.isValid, decide_eq_false_iff_not]
      omega
    unfold pmuRecordEnd at hend
    rw [if_neg (by simp [hinv])] at hend
    exact (Prod.mk.inj (Option.some.inj hend)).1.symm
  · omega

/-- With a leader the whole table is published, on counters in which every event has the
kernel's count: from the record, or zero when the read failed. -/
theorem pmuRecord_counters
    (h : pmuRecord arch src answer gaps ok entry te tr stack s = some (out, s'))
    (hlead : 0 ≤ answer .instructions) :
    s'.prof.mCountersFd = answer ∧
      ∃ c : Counters, out = src.table c ∧
        ∀ e, (c.counters e).value = if ok then openCount answer entry e else 0 := by
  obtain ⟨r, hbegin, hend⟩ := Option.bind_eq_some_iff.mp h
  obtain ⟨s₁, hreset, hvalid, hprof, hcall⟩ := pmuRecordBegin_cases hbegin
  obtain ⟨⟨hfail, -⟩ | ⟨-, hL, hreq, hgroup⟩, -⟩ := resetEvents_ready hreset
  · omega
  have hfds : s₁.prof.mCountersFd = answer := by
    funext e
    by_cases he : e = .instructions
    · rw [he, hL]
    · exact hreq e he (requested_recordMask he)
  have hv : r.valid = true := by
    rw [hvalid, Profiler.isValid, hL]
    exact decide_eq_true hlead
  obtain ⟨-, hstart⟩ | ⟨hinv, -⟩ := hcall
  swap
  · exact absurd hv (by rw [hinv]; decide)
  obtain ⟨c, hend, hout⟩ := pmuRecordEnd_valid hend hv
  obtain ⟨os, hstop, hread, hprof', rfl⟩ := stopAndRead_cases hend
  -- the leader's group is the same from the start to the read
  simp only [hprof] at hstop hread hprof'
  obtain ⟨g, hg, -, hlinked⟩ := hgroup
  have h₁ := linked_ioctl hstart ⟨g, hg, hlinked⟩
  have h₂ := linked_ioctl hstop h₁
  obtain ⟨g', hg', hlinked'⟩ := linked_read hread h₂
  refine ⟨by rw [hprof', hfds], _, by rw [hout, insertCounters_nil], fun e => ?_⟩
  rw [hprof']
  cases ok with
  | false => simp [Profiler.readCounters, Counters.zero]
  | true =>
      obtain ⟨rec, hrec⟩ : ∃ rec, s'.os.kernel.readGroup (s₁.prof.mCountersFd .instructions)
          (fun ev => entry ev.fd) te tr = some rec :=
        ⟨_, by rw [Kernel.readGroup, hg', Option.map_some]⟩
      simp only [if_true, hrec]
      unfold openCount
      split_ifs with he
      · have hopen : 0 ≤ s₁.prof.mCountersFd e := by rw [hfds]; exact he
        obtain ⟨-, ev, -, hfd, -, hval⟩ := hlinked'.readCounters hg' hrec stack hopen
        rw [hval, ← hfds, ← hfd, Int.toNat_natCast]
      · have hclosed : ¬ 0 ≤ s₁.prof.mCountersFd e := by rw [hfds]; exact he
        simp only [Profiler.readCounters, if_neg hclosed]

end measured

/-! ### What the names denote -/

/-- The number a published name stands for, on the counts of the events. -/
def denotes (n : Event → ℕ) (name : String) : Option ℚ :=
  match name with
  | "instructions" => some (n .instructions)
  | "cpu-cycles" => some (n .cpuCycles)
  | "ipc" => some (n .instructions / n .cpuCycles)
  | "cpi" => some (n .cpuCycles / n .instructions)
  | "L1i-miss-rate" => some (n .icacheMisses / n .icacheRefs)
  | "L1i-hit-rate" => some (1 - n .icacheMisses / n .icacheRefs)
  | "L1d-miss-rate" => some (n .dcacheMisses / n .dcacheRefs)
  | "L1d-hit-rate" => some (1 - n .dcacheMisses / n .dcacheRefs)
  | "branch-miss-rate" => some (n .branchMisses / n .branches)
  | "branch-hit-rate" => some (1 - n .branchMisses / n .branches)
  | "L1i-mpki" => some (1000 * n .icacheMisses / n .instructions)
  | _ => none

/-- The denominators of what the names of a file denote. -/
def Source.denominators : Source → List Event
  | perftest => [.instructions, .cpuCycles, .icacheRefs, .dcacheRefs, .branches]
  | oprtest => [.instructions, .cpuCycles, .icacheRefs, .dcacheRefs]

/-- A table says what its names denote exactly when the two caches have one miss rate: the
`L1d` names are computed from the counts of the instruction cache. -/
theorem table_denotes_iff (src : Source) (c : Counters)
    (hi : (c.counters .icacheRefs).value ≠ 0) (hd : (c.counters .dcacheRefs).value ≠ 0) :
    (∀ nm ∈ src.table c, denotes (fun e => (c.counters e).value) nm.1 = some nm.2.value) ↔
      (c.counters .icacheMisses).value * (c.counters .dcacheRefs).value =
        (c.counters .dcacheMisses).value * (c.counters .icacheRefs).value := by
  have hiq : ((c.counters .icacheRefs).value : ℚ) ≠ 0 := by exact_mod_cast hi
  have hdq : ((c.counters .dcacheRefs).value : ℚ) ≠ 0 := by exact_mod_cast hd
  have hrates : ((c.counters .dcacheMisses).value : ℚ) / (c.counters .dcacheRefs).value =
        (c.counters .icacheMisses).value / (c.counters .icacheRefs).value ↔
      (c.counters .icacheMisses).value * (c.counters .dcacheRefs).value =
        (c.counters .dcacheMisses).value * (c.counters .icacheRefs).value := by
    rw [div_eq_div_iff hdq hiq]
    norm_cast
    exact eq_comm
  rw [← hrates]
  constructor
  · intro h
    have hmem : ("L1d-miss-rate", c.getL1IMissRate) ∈ src.table c := by
      cases src <;> simp [Source.table]
    exact Option.some.inj (h _ hmem)
  · intro h nm hnm
    cases src <;>
      simp only [Source.table, List.mem_cons, List.not_mem_nil, or_false] at hnm
    · rcases hnm with rfl | rfl | rfl | rfl | rfl | rfl | rfl | rfl | rfl | rfl | rfl <;>
        simp only [denotes, h] <;>
        simp [Metric.value, Counters.getIPC, Counters.getCPI, Counters.getL1IMissRate,
          Counters.getL1IHitRate, Counters.getBranchMissRate, Counters.getBranchHitRate,
          Counters.getMPKI, Counters.getInstructions, Counters.getCpuCycles,
          Counters.getL1IMisses, Counters.getL1IReferences, Counters.getBranchMisses,
          Counters.getBranchInstructions, Counters.reading, mul_comm]
    · rcases hnm with rfl | rfl | rfl | rfl | rfl | rfl | rfl | rfl | rfl <;>
        simp only [denotes, h] <;>
        simp [Metric.value, Counters.getIPC, Counters.getCPI, Counters.getL1IMissRate,
          Counters.getL1IHitRate, Counters.getMPKI, Counters.getInstructions,
          Counters.getCpuCycles, Counters.getL1IMisses, Counters.getL1IReferences,
          Counters.reading, mul_comm]

/-- **What the published metrics say.**  For every pattern of events that opened and every
record with non-zero denominators, every published number is the one its name denotes exactly
when the miss rates of the two first-level caches coincide. -/
theorem published_denotes_iff (arch : Arch) (src : Source) (answer : Event → ℤ)
    (gaps : List (List Kind)) (entry : ℕ → Entry) (te tr : ℕ) (stack : ℕ → Entry)
    (s s' : Sys Machine) (out : List (String × Metric))
    (h : pmuRecord arch src answer gaps true entry te tr stack s = some (out, s'))
    (hden : ∀ e ∈ src.denominators, openCount answer entry e ≠ 0) :
    (∀ nm ∈ out, denotes (openCount answer entry) nm.1 = some nm.2.value) ↔
      openCount answer entry .icacheMisses * openCount answer entry .dcacheRefs =
        openCount answer entry .dcacheMisses * openCount answer entry .icacheRefs := by
  have hlead : 0 ≤ answer .instructions := by
    have := hden .instructions (by cases src <;> decide)
    unfold openCount at this
    split_ifs at this with h0
    · exact h0
    · exact absurd rfl this
  obtain ⟨-, c, rfl, hc⟩ := pmuRecord_counters h hlead
  simp only [if_true] at hc
  have hcount : openCount answer entry = fun e => (c.counters e).value := (funext hc).symm
  have hi := hden .icacheRefs (by cases src <;> decide)
  have hd := hden .dcacheRefs (by cases src <;> decide)
  rw [hcount] at hi hd ⊢
  exact table_denotes_iff src c hi hd

/-- Eight events on descriptors 3 to 10, their counts those of a data cache that misses every
second access and an instruction cache that misses one in a hundred. -/
def unevenCaches (fd : ℕ) : Entry := ⟨[1000, 500, 100, 50, 100, 1, 100, 1].getD (fd - 3) 0, fd⟩

/-- The state before the first call: standard input, output and error are open. -/
def freshSys : Sys Machine := ⟨⟨fun _ => 0, fun _ => -1, 0#32⟩, ⟨⟨[0, 1, 2], [], 0⟩, []⟩⟩

theorem published_denotes_iff_uneven :
    ∃ out s', pmuRecord .other .perftest (fun e => 3 + e.idx) [] true unevenCaches 0 0
        (fun _ => ⟨0, 0⟩) freshSys = some (out, s') ∧
      ((∀ nm ∈ out, denotes (openCount (fun e => 3 + e.idx) unevenCaches) nm.1 =
          some nm.2.value) ↔ 1 * 100 = 50 * 100) := by
  have hsome : (pmuRecord .other .perftest (fun e => 3 + e.idx) [] true unevenCaches 0 0
      (fun _ => ⟨0, 0⟩) freshSys).isSome = true := by decide
  obtain ⟨⟨out, s'⟩, hs⟩ := Option.isSome_iff_exists.mp hsome
  exact ⟨out, s', hs, published_denotes_iff _ _ _ _ _ _ _ _ _ _ _ hs (by decide)⟩

/-- The data cache misses every second access; `L1d-miss-rate` says one in a hundred. -/
theorem l1d_miss_rate_wrong :
    ∃ out s', pmuRecord .other .perftest (fun e => 3 + e.idx) [] true unevenCaches 0 0
        (fun _ => ⟨0, 0⟩) freshSys = some (out, s') ∧
      (∀ e ∈ Source.denominators .perftest,
        openCount (fun e => 3 + e.idx) unevenCaches e ≠ 0) ∧
      ∃ nm ∈ out, nm.1 = "L1d-miss-rate" ∧ nm.2.value = 1 / 100 ∧
        denotes (openCount (fun e => 3 + e.idx) unevenCaches) nm.1 = some (1 / 2) := by
  have hsome : (pmuRecord .other .perftest (fun e => 3 + e.idx) [] true unevenCaches 0 0
      (fun _ => ⟨0, 0⟩) freshSys).isSome = true := by decide
  obtain ⟨⟨out, s'⟩, hs⟩ := Option.isSome_iff_exists.mp hsome
  obtain ⟨-, c, rfl, hc⟩ := pmuRecord_counters hs (by decide)
  refine ⟨_, s', hs, by decide, ("L1d-miss-rate", c.getL1IMissRate), by simp [Source.table], rfl,
    ?_, ?_⟩
  · have hm : (c.counters .icacheMisses).value = 1 := hc .icacheMisses
    have hr : (c.counters .icacheRefs).value = 100 := hc .icacheRefs
    simp [Metric.value, Counters.getL1IMissRate, Counters.getL1IMisses,
      Counters.getL1IReferences, Counters.reading, hm, hr]
  · have hm : openCount (fun e => 3 + e.idx) unevenCaches .dcacheMisses = 50 := by decide
    have hr : openCount (fun e => 3 + e.idx) unevenCaches .dcacheRefs = 100 := by decide
    simp only [denotes, hm, hr]
    norm_num

/-! ### Divisions -/

/-- The events a file's table divides by. -/
def Source.divisors : Source → List Event
  | perftest => [.cpuCycles, .instructions, .icacheRefs, .branches]
  | oprtest => [.cpuCycles, .instructions, .icacheRefs]

theorem table_divisors (src : Source) (c : Counters) (d : Reading) :
    (∃ nm ∈ src.table c, nm.2.divisor = some d) ↔ ∃ e ∈ src.divisors, c.reading e = d := by
  cases src <;>
    simp [Source.table, Source.divisors, Metric.divisor, Counters.getIPC, Counters.getCPI,
      Counters.getL1IMissRate, Counters.getL1IHitRate, Counters.getBranchMissRate,
      Counters.getBranchHitRate, Counters.getMPKI, Counters.getInstructions,
      Counters.getCpuCycles, Counters.getL1IReferences, Counters.getBranchInstructions] <;>
    tauto

/-- **What the published metrics divide by.**  With the leader open, which is all the macro
checks, every published quotient has an open and non-zero counter below it exactly when the read
succeeds and the cycles, the instructions, the instruction cache references and (in
`perftest.cpp`) the branches opened and counted something. -/
theorem published_divisors_iff (arch : Arch) (src : Source) (answer : Event → ℤ)
    (gaps : List (List Kind)) (ok : Bool) (entry : ℕ → Entry) (te tr : ℕ) (stack : ℕ → Entry)
    (s s' : Sys Machine) (out : List (String × Metric))
    (h : pmuRecord arch src answer gaps ok entry te tr stack s = some (out, s'))
    (hlead : 0 ≤ answer .instructions) :
    (∀ nm ∈ out, ∀ d, nm.2.divisor = some d →
        0 ≤ s'.prof.mCountersFd d.event ∧ d.value ≠ 0) ↔
      ok = true ∧ ∀ e ∈ src.divisors,
        0 ≤ answer e ∧ (entry (answer e).toNat).value ≠ 0 := by
  obtain ⟨hfds, c, rfl, hc⟩ := pmuRecord_counters h hlead
  have hdivisors : (∀ nm ∈ src.table c, ∀ d, nm.2.divisor = some d →
        0 ≤ s'.prof.mCountersFd d.event ∧ d.value ≠ 0) ↔
      ∀ e ∈ src.divisors, 0 ≤ answer e ∧ (c.counters e).value ≠ 0 := by
    constructor
    · intro hdiv e he
      obtain ⟨nm, hnm, hd⟩ := (table_divisors src c (c.reading e)).mpr ⟨e, he, rfl⟩
      have := hdiv nm hnm _ hd
      rwa [hfds] at this
    · intro hdiv nm hnm d hd
      obtain ⟨e, he, rfl⟩ := (table_divisors src c d).mp ⟨nm, hnm, hd⟩
      rw [hfds]
      exact hdiv e he
  rw [hdivisors]
  have hinstr : Event.instructions ∈ src.divisors := by cases src <;> decide
  cases ok with
  | false =>
      simp only [Bool.false_eq_true, if_false] at hc
      simp only [Bool.false_eq_true, false_and, iff_false]
      exact fun hdiv => (hdiv .instructions hinstr).2 (hc .instructions)
  | true =>
      simp only [if_true] at hc
      simp only [true_and]
      refine forall₂_congr fun e _ => and_congr_right fun he => ?_
      rw [hc, openCount, if_pos he]

theorem published_divisors_iff_failed :
    ∃ out s', pmuRecord .other .perftest (fun e => 3 + e.idx) [] false unevenCaches 0 0
        (fun _ => ⟨0, 0⟩) freshSys = some (out, s') ∧
      ¬ ∀ nm ∈ out, ∀ d, nm.2.divisor = some d →
        0 ≤ s'.prof.mCountersFd d.event ∧ d.value ≠ 0 := by
  have hsome : (pmuRecord .other .perftest (fun e => 3 + e.idx) [] false unevenCaches 0 0
      (fun _ => ⟨0, 0⟩) freshSys).isSome = true := by decide
  obtain ⟨⟨out, s'⟩, hs⟩ := Option.isSome_iff_exists.mp hsome
  refine ⟨out, s', hs, fun hdiv => ?_⟩
  have := (published_divisors_iff _ _ _ _ _ _ _ _ _ _ _ _ hs (by decide)).mp hdiv
  exact absurd this.1 (by decide)

/-- Every event opens but the branches, and the read succeeds: `branch-miss-rate` is published
all the same, divided by a counter that is not open and reads zero. -/
theorem branch_rate_unopened :
    ∃ out s', pmuRecord .other .perftest
        (fun e => if e = .branches then -1 else if e.idx < 4 then 3 + e.idx else 2 + e.idx) []
        true unevenCaches 0 0 (fun _ => ⟨0, 0⟩) freshSys = some (out, s') ∧
      ∃ nm ∈ out, nm.1 = "branch-miss-rate" ∧ nm.2.divisor = some ⟨.branches, 0⟩ ∧
        s'.prof.mCountersFd .branches = -1 := by
  have hsome : (pmuRecord .other .perftest
      (fun e => if e = .branches then -1 else if e.idx < 4 then 3 + e.idx else 2 + e.idx) []
      true unevenCaches 0 0 (fun _ => ⟨0, 0⟩) freshSys).isSome = true := by decide
  obtain ⟨⟨out, s'⟩, hs⟩ := Option.isSome_iff_exists.mp hsome
  obtain ⟨hfds, c, rfl, hc⟩ := pmuRecord_counters hs (by decide)
  refine ⟨_, s', hs, ("branch-miss-rate", c.getBranchMissRate), by simp [Source.table], rfl,
    ?_, by rw [hfds]; rfl⟩
  have hb : (c.counters .branches).value = 0 := hc .branches
  simp [Metric.divisor, Counters.getBranchMissRate, Counters.getBranchInstructions,
    Counters.reading, hb]

end PlayWithOpencv.Perf
