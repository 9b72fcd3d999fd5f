import PlayWithOpencv.PmuRegions

/-! # The profiler is a stopwatch

A program need not keep to regions: it may call `reset`, `start`, `stop` and `readCounters` of the
one profiler object in any order and as often as it likes, read while the events count, start
twice or reset while running, with calls of `resetEvents` anywhere between.  Hardware activity
goes on before each system call.

What such a program may rely on is a stopwatch (`Stopwatch`): it runs or stands still, and has
seen the activity that came by while it ran, since the last reset.  Each call does to the
profiler on the kernel what it does to the stopwatch (`call_shows`), so every reading, wherever
it is made, gives each open event the number of its occurrences that the stopwatch has seen
(`reads_stopwatch`).  `operator-` is made for two readings of one measurement: without a reset
between them their difference is what came by between them, in 64 bits (`difference_counts`). -/

namespace PlayWithOpencv.Perf

open PartialRun

/-! ### Calls -/

/-- A call of the profiler, with the hardware activity before each of its system calls. -/
inductive ProfilerCall where
  | resetEvents (c : ResetCall) (gaps : List (List Kind))
  | reset (gap : List Kind)
  | start (gap : List Kind)
  | stop (gap : List Kind)
  | readCounters (gap : List Kind) (timeEnabled timeRunning : ℕ) (stack : ℕ → Entry)

/-- What a call delivers, and the system after it. -/
def ProfilerCall.exec (arch : Arch) (s : Sys Machine) :
    ProfilerCall → Option (Option Counters × Sys Machine)
  | .resetEvents c gaps =>
      (Perf.resetEvents Machine.call arch c.answer c.eventMask (s.withGaps gaps)).map (none, ·)
  | .reset gap => (Perf.reset Machine.call (s.withGaps [gap])).map (none, ·)
  | .start gap => (Perf.start Machine.call (s.withGaps [gap])).map (none, ·)
  | .stop gap => (Perf.stop Machine.call (s.withGaps [gap])).map (none, ·)
  | .readCounters gap te tr stack =>
      (Perf.readCounters Machine.call (fun m fd => m.kernel.readGroup fd PerfEvent.entry te tr)
        stack (s.withGaps [gap])).map fun (c, s) => (some c, s)

/-- The system after a call. -/
def callStep (arch : Arch) (s : Sys Machine) (c : ProfilerCall) : Option (Sys Machine) :=
  (c.exec arch s).map Prod.snd

/-! ### The stopwatch -/

/-- A stopwatch runs or stands still, and has seen some activity since the last reset. -/
structure Stopwatch where
  running : Bool
  seen : List Kind
deriving DecidableEq, Repr

namespace Stopwatch

/-- A stopwatch that has just been set back. -/
def zero (running : Bool) : Stopwatch := ⟨running, []⟩

/-- Activity comes by. -/
def pass (w : Stopwatch) (κs : List Kind) : Stopwatch :=
  if w.running then { w with seen := w.seen ++ κs } else w

def onRequest : IocRequest → Stopwatch → Stopwatch
  | .reset, w => { w with seen := [] }
  | .enable, w => { w with running := true }
  | .disable, w => { w with running := false }

def call (w : Stopwatch) : ProfilerCall → Stopwatch
  | .resetEvents _ _ => zero false
  | .reset gap => (w.pass gap).onRequest .reset
  | .start gap => (w.pass gap).onRequest .enable
  | .stop gap => (w.pass gap).onRequest .disable
  | .readCounters gap _ _ _ => w.pass gap

/-- The stopwatch after the calls. -/
def after (w : Stopwatch) (cs : List ProfilerCall) : Stopwatch := cs.foldl call w

/-- The stopwatch has seen `κs` before. -/
def behind (w : Stopwatch) (κs : List Kind) : Stopwatch := { w with seen := κs ++ w.seen }

variable (w : Stopwatch)

@[simp] theorem pass_running (gap : List Kind) : (w.pass gap).running = w.running := by
  unfold pass
  split_ifs <;> rfl

@[simp] theorem behind_seen (κs : List Kind) : (w.behind κs).seen = κs ++ w.seen := rfl

theorem behind_zero : w = (zero w.running).behind w.seen := by simp [zero, behind]

theorem behind_pass (κs gap : List Kind) : (w.behind κs).pass gap = (w.pass gap).behind κs := by
  cases hrun : w.running with
  | true => simp [pass, behind, hrun]
  | false => simp [pass, behind, hrun]

end Stopwatch

/-- The call sets the counts back to zero. -/
def ProfilerCall.clears : ProfilerCall → Bool
  | .resetEvents _ _ | .reset _ => true
  | .start _ | .stop _ | .readCounters .. => false

/-- What was seen before the calls stays apart from what they add, if none of them clears it. -/
theorem Stopwatch.behind_after (w : Stopwatch) (κs : List Kind) {cs : List ProfilerCall}
    (hcs : ∀ c ∈ cs, c.clears = false) :
    (w.behind κs).after cs = (w.after cs).behind κs := by
  induction cs generalizing w with
  | nil => rfl
  | cons c cs ih =>
      have hstep : (w.behind κs).call c = (w.call c).behind κs := by
        have hc := hcs c List.mem_cons_self
        cases c with
        | resetEvents c gaps => cases hc
        | reset gap => cases hc
        | start gap =>
            rw [call, behind_pass]
            rfl
        | stop gap =>
            rw [call, behind_pass]
            rfl
        | readCounters gap te tr stack =>
            rw [call, behind_pass]
            rfl
      have hrest := ih (w.call c) fun d hd => hcs d (List.mem_cons_of_mem _ hd)
      rw [after, List.foldl_cons, hstep]
      exact hrest

/-! ### The profiler shows what the stopwatch has seen -/

/-- The events of the group run when the stopwatch does, and have counted what it has seen. -/
def Group.Shows (w : Stopwatch) (g : Group) : Prop :=
  ∀ ev ∈ g.events, ev.enabled = w.running ∧ ev.count = w.seen.count ev.attr.kind

/-- No entry of the object is open, or its group is linked and shows what the stopwatch has
seen. -/
def Shows (arch : Arch) (w : Stopwatch) (p : Profiler) (k : Kernel) : Prop :=
  (∀ e, p.mCountersFd e < 0) ∨
  ∃ g, k.group? (p.mCountersFd .instructions) = some g ∧
    Linked arch p.mIds p.mCountersFd g ∧ g.Shows w

section shows

variable {arch : Arch} {w : Stopwatch} {p : Profiler} {g : Group} {k : Kernel}

theorem Group.Shows.onRequest (h : g.Shows w) (req : IocRequest) :
    (g.mapEvents (PerfEvent.onRequest req)).Shows (w.onRequest req) := by
  refine Group.forall_mapEvents.mpr fun ev hev => ?_
  obtain ⟨hrun, hcount⟩ := h ev hev
  cases req with
  | reset => exact ⟨hrun, rfl⟩
  | enable => exact ⟨rfl, hcount⟩
  | disable => exact ⟨rfl, hcount⟩

/-- Activity comes by at the profiler and at the stopwatch. -/
theorem Shows.occurAll (h : Shows arch w p k) (κs : List Kind) :
    Shows arch (w.pass κs) p (k.occurAll κs) := by
  obtain hneg | ⟨g, hg, hlinked, hshows⟩ := h
  · exact Or.inl hneg
  cases hrun : w.running with
  | true =>
      have hcounting : g.Counting (fun κ => w.seen.count κ) := fun ev hev =>
        ⟨(hshows ev hev).1.trans hrun, (hshows ev hev).2⟩
      refine Or.inr ⟨_, by rw [Kernel.group?_occurAll, hg, Option.map_some],
        hlinked.occurAll κs, fun ev hev => ?_⟩
      obtain ⟨hen, hcount⟩ := hcounting.occurAll κs ev hev
      rw [Stopwatch.pass, if_pos hrun, List.count_append]
      exact ⟨hen.trans hrun.symm, hcount⟩
  | false =>
      have hquiet : g.Quiet := fun ev hev => (hshows ev hev).1.trans hrun
      refine Or.inr ⟨g, hquiet.group?_occurAll hg κs, hlinked, ?_⟩
      rw [Stopwatch.pass, hrun]
      exact hshows

/-- A request on the leader, after the activity before it. -/
theorem ioctlLeader_shows {s s' : Sys Machine} {req : IocRequest} {gap : List Kind}
    (h : ioctlLeader Machine.call req (s.withGaps [gap]) = some s')
    (hs : Shows arch w s.prof s.os.kernel) :
    s'.prof = s.prof ∧ Shows arch ((w.pass gap).onRequest req) s'.prof s'.os.kernel := by
  obtain ⟨hprof, hcall⟩ := ioctlLeader_cases h
  have hk : ((s.os.kernel.occurAll gap).mapGroup (s.prof.mCountersFd .instructions)
      (Group.mapEvents (PerfEvent.onRequest req))) = s'.os.kernel :=
    Option.some.inj (Machine.call_some hcall)
  refine ⟨hprof, ?_⟩
  rw [hprof, Sys.withGaps_prof]
  obtain hneg | ⟨g, hg, hlinked, hshows⟩ := hs.occurAll gap
  · exact Or.inl hneg
  refine Or.inr ⟨_, ?_, hlinked.mapEvents (PerfEvent.keeps_onRequest req), hshows.onRequest req⟩
  rw [← hk, Kernel.group?_ioctl, hg, Option.map_some]

theorem readCounters_cases {κ : Type*} {call : κ → Syscall → Option κ}
    {result : κ → ℤ → Option GroupRecord} {stack : ℕ → Entry} {s s' : Sys κ} {c : Counters}
    (h : readCounters call result stack s = some (c, s')) :
    call s.os (.read (s.prof.mCountersFd .instructions)) = some s'.os ∧ s'.prof = s.prof ∧
      c = s.prof.readCounters stack (result s'.os (s.prof.mCountersFd .instructions)) := by
  unfold readCounters at h
  obtain ⟨os, hcall, h⟩ := Option.bind_eq_some_iff.mp h
  obtain ⟨rfl, rfl⟩ := Prod.mk.inj (Option.some.inj h)
  exact ⟨hcall, rfl, rfl⟩

/-- What a reading delivers: for the open events the occurrences that the stopwatch has seen. -/
theorem readCounters_shows {s s' : Sys Machine} {gap : List Kind} {te tr : ℕ} {stack : ℕ → Entry}
    {delivered : Option Counters}
    (h : (ProfilerCall.readCounters gap te tr stack).exec arch s = some (delivered, s'))
    (hs : Shows arch w s.prof s.os.kernel) :
    s'.prof = s.prof ∧ Shows arch (w.pass gap) s'.prof s'.os.kernel ∧
      ∀ c, delivered = some c → ∀ e, (c.counters e).value =
        if 0 ≤ s.prof.mCountersFd e then (w.pass gap).seen.count (eventKind arch e) else 0 := by
  unfold ProfilerCall.exec at h
  obtain ⟨⟨c, s₁⟩, hread, heq⟩ := Option.map_eq_some_iff.mp h
  obtain ⟨rfl, rfl⟩ := Prod.mk.inj heq
  obtain ⟨hcall, hprof, hc⟩ := readCounters_cases hread
  rw [Sys.withGaps_prof] at hprof
  replace hc : c = s.prof.readCounters stack (s₁.os.kernel.readGroup
    (s.prof.mCountersFd .instructions) PerfEvent.entry te tr) := hc
  have hk : s.os.kernel.occurAll gap = s₁.os.kernel := Option.some.inj (Machine.call_some hcall)
  have hs' := hs.occurAll gap
  rw [hk] at hs'
  refine ⟨hprof, hprof ▸ hs', ?_⟩
  rintro c' ⟨⟩ e
  by_cases he : 0 ≤ s.prof.mCountersFd e
  · rw [if_pos he]
    obtain hneg | ⟨g, hg, hlinked, hshows⟩ := hs'
    · exact absurd (hneg e) (by omega)
    obtain ⟨rec, hrec⟩ : ∃ rec, s₁.os.kernel.readGroup (s.prof.mCountersFd .instructions)
        PerfEvent.entry te tr = some rec := ⟨_, by rw [Kernel.readGroup, hg, Option.map_some]⟩
    obtain ⟨-, ev, hev, -, hkind, hval⟩ := hlinked.readCounters hg hrec stack he
    rw [hc, hrec, hval, PerfEvent.entry, (hshows ev hev).2, hkind]
  · rw [if_neg he]
    rw [hc]
    -- an event that is not open reads zero, whether or not there is a record
    cases s₁.os.kernel.readGroup (s.prof.mCountersFd .instructions) PerfEvent.entry te tr with
    | none => rfl
    | some r => simp only [Profiler.readCounters, he, if_false]

/-- A fresh group shows a stopwatch that has been set back and stands still. -/
theorem Ready.shows {answer : Event → ℤ} {mask : BitVec 32} (h : Ready arch answer mask p k) :
    Shows arch (Stopwatch.zero false) p k := by
  obtain ⟨-, hneg⟩ | ⟨-, -, -, g, hg, hfresh, hlinked⟩ := h
  · exact Or.inl hneg
  · exact Or.inr ⟨g, hg, hlinked, hfresh⟩

/-- **One call**: it does to the profiler what it does to the stopwatch. -/
theorem call_shows {s s' : Sys Machine} {c : ProfilerCall} (h : callStep arch s c = some s')
    (hs : Shows arch w s.prof s.os.kernel) :
    Shows arch (w.call c) s'.prof s'.os.kernel ∧ (c.clears = false → s'.prof = s.prof) := by
  obtain ⟨⟨delivered, s₁⟩, hexec, rfl⟩ := Option.map_eq_some_iff.mp h
  cases c with
  | resetEvents c gaps =>
      unfold ProfilerCall.exec at hexec
      obtain ⟨s₂, hreset, heq⟩ := Option.map_eq_some_iff.mp hexec
      obtain ⟨rfl, rfl⟩ := Prod.mk.inj heq
      exact ⟨(resetEvents_ready hreset).1.shows, fun hc => by cases hc⟩
  | reset gap =>
      unfold ProfilerCall.exec at hexec
      obtain ⟨s₂, hreset, heq⟩ := Option.map_eq_some_iff.mp hexec
      obtain ⟨rfl, rfl⟩ := Prod.mk.inj heq
      exact ⟨(ioctlLeader_shows hreset hs).2, fun hc => by cases hc⟩
  | start gap =>
      unfold ProfilerCall.exec at hexec
      obtain ⟨s₂, hstart, heq⟩ := Option.map_eq_some_iff.mp hexec
      obtain ⟨rfl, rfl⟩ := Prod.mk.inj heq
      obtain ⟨hprof, hshows⟩ := ioctlLeader_shows hstart hs
      exact ⟨hshows, fun _ => hprof⟩
  | stop gap =>
      unfold ProfilerCall.exec at hexec
      obtain ⟨s₂, hstop, heq⟩ := Option.map_eq_some_iff.mp hexec
      obtain ⟨rfl, rfl⟩ := Prod.mk.inj heq
      obtain ⟨hprof, hshows⟩ := ioctlLeader_shows hstop hs
      exact ⟨hshows, fun _ => hprof⟩
  | readCounters gap te tr stack =>
      obtain ⟨hprof, hshows, -⟩ := readCounters_shows hexec hs
      exact ⟨hshows, fun _ => hprof⟩

/-- **Any calls**: they do to the profiler what they do to the stopwatch. -/
theorem calls_show {s s' : Sys Machine} {cs : List ProfilerCall}
    (h : run (callStep arch) s cs = some s') (hs : Shows arch w s.prof s.os.kernel) :
    Shows arch (w.after cs) s'.prof s'.os.kernel ∧
      ((∀ c ∈ cs, c.clears = false) → s'.prof = s.prof) := by
  induction cs generalizing s w with
  | nil =>
      obtain rfl : s = s' := Option.some.inj h
      exact ⟨hs, fun _ => rfl⟩
  | cons c cs ih =>
      obtain ⟨s₁, hc, hrest⟩ := run_cons_some h
      obtain ⟨hs₁, hprof₁⟩ := call_shows hc hs
      obtain ⟨hs', hprof'⟩ := ih hrest hs₁
      refine ⟨hs', fun hcs => ?_⟩
      rw [hprof' fun d hd => hcs d (List.mem_cons_of_mem _ hd), hprof₁ (hcs c List.mem_cons_self)]

end shows

section readings

variable {arch : Arch} {mIds : Event → ℕ} {first : Event → ℤ} {m : Machine}
  {s s₁ s₂ : Sys Machine} {cs : List ProfilerCall}

/-- **Readings**: after any calls, in any order, `readCounters` gives each open event the number
of its occurrences while the profiler was running, since the last reset, and every other event
zero. -/
theorem reads_stopwatch (h : construct Machine.call arch first mIds m = some s)
    (hrun : run (callStep arch) s cs = some s₁) {gap : List Kind} {te tr : ℕ} {stack : ℕ → Entry}
    {c : Counters}
    (hread : (ProfilerCall.readCounters gap te tr stack).exec arch s₁ = some (some c, s₂)) :
    ∀ e, (c.counters e).value =
      if 0 ≤ s₁.prof.mCountersFd e then
        (((Stopwatch.zero false).after cs).pass gap).seen.count (eventKind arch e)
      else 0 := by
  have hs₁ := (calls_show hrun (resetEvents_ready h).1.shows).1
  exact (readCounters_shows hread hs₁).2.2 c rfl

/-- Cycles before the start, while it runs, while it stands still and after a second start: the
three that came by while it ran are read. -/
theorem reads_stopwatch_cycles :
    ∃ s s₁ c s₂, construct Machine.call .other (fun e => 3 + e.idx) (fun _ => 0)
        ⟨⟨[0, 1, 2], [], 0⟩, []⟩ = some s ∧
      run (callStep .other) s [.start [(0, 0)], .stop [(0, 0), (0, 1), (0, 0)], .start [(0, 0)]] =
        some s₁ ∧
      (ProfilerCall.readCounters [(0, 0)] 0 0 fun _ => ⟨0, 0⟩).exec .other s₁ =
        some (some c, s₂) ∧
      (c.counters .cpuCycles).value = 3 := by
  have hall : ((construct Machine.call .other (fun e => 3 + e.idx) (fun _ => 0)
      ⟨⟨[0, 1, 2], [], 0⟩, []⟩).bind fun s => (run (callStep .other) s
        [.start [(0, 0)], .stop [(0, 0), (0, 1), (0, 0)], .start [(0, 0)]]).bind fun s₁ =>
        ((ProfilerCall.readCounters [(0, 0)] 0 0 fun _ => ⟨0, 0⟩).exec .other s₁).map fun x =>
        (x.1.isSome, decide (0 ≤ s₁.prof.mCountersFd .cpuCycles))) = some (true, true) := by decide
  obtain ⟨s, hs, h⟩ := Option.bind_eq_some_iff.mp hall
  obtain ⟨s₁, hrun, h⟩ := Option.bind_eq_some_iff.mp h
  obtain ⟨⟨c, s₂⟩, hread, h⟩ := Option.map_eq_some_iff.mp h
  obtain ⟨hc, hopen⟩ := Prod.mk.inj h
  obtain ⟨c, rfl⟩ := Option.isSome_iff_exists.mp hc
  refine ⟨s, s₁, c, s₂, hs, hrun, hread, ?_⟩
  rw [reads_stopwatch hs hrun hread, if_pos (of_decide_eq_true hopen)]
  decide

/-! ### Differences of readings -/

/-- A difference in `uint64_t`. -/
def sub64 (a b : ℕ) : ℕ := (((a : ℤ) - b) % 2 ^ 64).toNat

theorem sub64_add (a b : ℕ) : sub64 (a + b) a = b % 2 ^ 64 := by
  unfold sub64
  omega

/-- `operator-`: the values are subtracted, the ids are those of `lhs`. -/
def Counters.sub (lhs rhs : Counters) : Counters where
  nr := sub64 lhs.nr rhs.nr
  timeEnabled := sub64 lhs.timeEnabled rhs.timeEnabled
  timeRunning := sub64 lhs.timeRunning rhs.timeRunning
  counters := fun e =>
    { lhs.counters e with value := sub64 (lhs.counters e).value (rhs.counters e).value }

/-- **Differences**: two readings with any calls between them that do not set the counts back
differ by the occurrences that came by between them while the profiler was running. -/
theorem difference_counts (h : construct Machine.call arch first mIds m = some s)
    (hrun : run (callStep arch) s cs = some s₁) {gap gap' : List Kind} {te te' tr tr' : ℕ}
    {stack stack' : ℕ → Entry} {c c' : Counters} {s₃ s₄ : Sys Machine} {ds : List ProfilerCall}
    (hread : (ProfilerCall.readCounters gap te tr stack).exec arch s₁ = some (some c, s₂))
    (hds : ∀ d ∈ ds, d.clears = false) (hrun' : run (callStep arch) s₂ ds = some s₃)
    (hread' : (ProfilerCall.readCounters gap' te' tr' stack').exec arch s₃ = some (some c', s₄)) :
    ∀ e, ((c'.sub c).counters e).value =
      if 0 ≤ s₁.prof.mCountersFd e then
        (((Stopwatch.zero ((Stopwatch.zero false).after cs).running).after ds).pass gap').seen.count
          (eventKind arch e) % 2 ^ 64
      else 0 := by
  have hs₁ := (calls_show hrun (resetEvents_ready h).1.shows).1
  obtain ⟨hprof₂, hs₂, hc⟩ := readCounters_shows hread hs₁
  obtain ⟨hs₃, hprof₃⟩ := calls_show hrun' hs₂
  obtain ⟨-, -, hc'⟩ := readCounters_shows hread' hs₃
  have hprof : s₃.prof = s₁.prof := (hprof₃ hds).trans hprof₂
  set w := (Stopwatch.zero false).after cs
  -- the stopwatch at the first reading is one set back then, with all it had seen behind it
  have hw : w.pass gap = (Stopwatch.zero w.running).behind (w.pass gap).seen := by
    rw [← w.pass_running gap]
    exact Stopwatch.behind_zero _
  intro e
  have he := hc c rfl e
  have he' := hc' c' rfl e
  rw [hprof] at he'
  unfold Counters.sub
  simp only [he, he']
  split_ifs
  · rw [hw, Stopwatch.behind_after _ _ hds, Stopwatch.behind_pass, Stopwatch.behind_seen,
      List.count_append, ← hw, sub64_add]
  · rfl

/-- Between two readings two cycles come by before a stop, one after it and one after the next
start: the difference is three. -/
theorem difference_counts_stopped :
    ∃ s s₁ c s₂ s₃ c' s₄, construct Machine.call .other (fun e => 3 + e.idx) (fun _ => 0)
        ⟨⟨[0, 1, 2], [], 0⟩, []⟩ = some s ∧
      run (callStep .other) s [.start []] = some s₁ ∧
      (ProfilerCall.readCounters [(0, 0)] 0 0 fun _ => ⟨0, 0⟩).exec .other s₁ =
        some (some c, s₂) ∧
      run (callStep .other) s₂ [.stop [(0, 0), (0, 0)], .start [(0, 0)]] = some s₃ ∧
      (ProfilerCall.readCounters [(0, 0)] 0 0 fun _ => ⟨0, 0⟩).exec .other s₃ =
        some (some c', s₄) ∧
      ((c'.sub c).counters .cpuCycles).value = 3 := by
  have hall : ((construct Machine.call .other (fun e => 3 + e.idx) (fun _ => 0)
      ⟨⟨[0, 1, 2], [], 0⟩, []⟩).bind fun s => (run (callStep .other) s [.start []]).bind fun s₁ =>
        ((ProfilerCall.readCounters [(0, 0)] 0 0 fun _ => ⟨0, 0⟩).exec .other s₁).bind fun x =>
        (run (callStep .other) x.2 [.stop [(0, 0), (0, 0)], .start [(0, 0)]]).bind fun s₃ =>
        ((ProfilerCall.readCounters [(0, 0)] 0 0 fun _ => ⟨0, 0⟩).exec .other s₃).map fun y =>
        (x.1.isSome, y.1.isSome, decide (0 ≤ s₁.prof.mCountersFd .cpuCycles))) =
          some (true, true, true) := by decide
  obtain ⟨s, hs, h⟩ := Option.bind_eq_some_iff.mp hall
  obtain ⟨s₁, hrun, h⟩ := Option.bind_eq_some_iff.mp h
  obtain ⟨⟨c, s₂⟩, hread, h⟩ := Option.bind_eq_some_iff.mp h
  obtain ⟨s₃, hrun', h⟩ := Option.bind_eq_some_iff.mp h
  obtain ⟨⟨c', s₄⟩, hread', h⟩ := Option.map_eq_some_iff.mp h
  obtain ⟨hc, h⟩ := Prod.mk.inj h
  obtain ⟨hc', hopen⟩ := Prod.mk.inj h
  obtain ⟨c, rfl⟩ := Option.isSome_iff_exists.mp hc
  obtain ⟨c', rfl⟩ := Option.isSome_iff_exists.mp hc'
  refine ⟨s, s₁, c, s₂, s₃, c', s₄, hs, hrun, hread, hrun', hread', ?_⟩
  rw [difference_counts hs hrun hread (by decide) hrun' hread', if_pos (of_decide_eq_true hopen)]
  decide

end readings

end PlayWithOpencv.Perf
