import PlayWithOpencv.PmuRecord

/-! # Measurements do not leak into each other

One profiler object serves every measured region of a program.  A region is a
`PMU_RECORD_BEGIN` ... `PMU_RECORD_END` pair, which opens all events anew, or a round of the loop
in icache's `main`, which resets the group that is open; between regions a program may also call
`resetEvents` with any mask, as that `main` does once.  Hardware activity goes on all the time:
before every system call, during the measured work, and between `stop` and the `read`.

Between regions the object is `Idle`: its group is linked and switched off.  The start of a
region, by either protocol, makes the group `Counting` from zero; the work is then counted event
by event, and after `stop` the counts stand still until they are read (`finishRegion_counts`). -/

namespace PlayWithOpencv.Perf

open PartialRun

/-! ### A group that counts -/

/-- Every event of the group is enabled and has counted `n` of its kind. -/
def Group.Counting (n : Kind → ℕ) (g : Group) : Prop :=
  ∀ ev ∈ g.events, ev.enabled = true ∧ ev.count = n ev.attr.kind

/-- Every event of the group is switched off and has counted `n` of its kind. -/
def Group.Stopped (n : Kind → ℕ) (g : Group) : Prop :=
  ∀ ev ∈ g.events, ev.enabled = false ∧ ev.count = n ev.attr.kind

section group

variable {g : Group} {n : Kind → ℕ}

theorem Group.Stopped.quiet (h : g.Stopped n) : g.Quiet := fun ev hev => (h ev hev).1

theorem Group.Fresh.enable (h : g.Fresh) :
    (g.mapEvents (PerfEvent.onRequest .enable)).Counting (fun _ => 0) := by
  refine Group.forall_mapEvents.mpr fun ev hev => ?_
  exact ⟨rfl, (h ev hev).2⟩

theorem Group.Quiet.reset (h : g.Quiet) : (g.mapEvents (PerfEvent.onRequest .reset)).Fresh := by
  refine Group.forall_mapEvents.mpr fun ev hev => ?_
  exact ⟨h ev hev, rfl⟩

theorem Group.Counting.disable (h : g.Counting n) :
    (g.mapEvents (PerfEvent.onRequest .disable)).Stopped n := by
  refine Group.forall_mapEvents.mpr fun ev hev => ?_
  exact ⟨rfl, (h ev hev).2⟩

/-- One occurrence is counted by the events of its kind. -/
theorem Group.Counting.occur (h : g.Counting n) (κ : Kind) :
    (g.mapEvents (PerfEvent.occur κ)).Counting (fun κ' => n κ' + if κ = κ' then 1 else 0) := by
  refine Group.forall_mapEvents.mpr fun ev hev => ?_
  obtain ⟨hen, hcount⟩ := h ev hev
  by_cases hκ : ev.attr.kind = κ
  · simp [PerfEvent.occur, hen, hκ, hcount]
  · simp [PerfEvent.occur, hκ, Ne.symm hκ, hen, hcount]

/-- The work is counted occurrence by occurrence. -/
theorem Group.Counting.occurAll (h : g.Counting n) (κs : List Kind) :
    (κs.foldl (fun g κ => g.mapEvents (PerfEvent.occur κ)) g).Counting
      (fun κ => n κ + κs.count κ) := by
  induction κs generalizing g n with
  | nil => simpa using h
  | cons κ κs ih =>
      have e : (fun κ' => n κ' + (κ :: κs).count κ') =
          fun κ' => (n κ' + if κ = κ' then 1 else 0) + κs.count κ' := by
        funext κ'
        simp only [List.count_cons, beq_iff_eq]
        omega
      rw [e]
      exact ih (h.occur κ)

end group

/-! ### The calls of a region -/

section calls

variable {arch : Arch} {mIds : Event → ℕ} {fds : Event → ℤ} {g : Group} {m m' : Machine} {L : ℤ}

/-- A request on the leader of a group that is switched off. -/
theorem ioctl_quiet {req : IocRequest} (hcall : m.call (.ioctl L req) = some m')
    (hg : m.kernel.group? L = some g) (hq : g.Quiet) :
    m'.kernel.group? L = some (g.mapEvents (PerfEvent.onRequest req)) := by
  have hk := Option.some.inj (Machine.call_some hcall)
  rw [← hk, Kernel.group?_ioctl, hq.group?_occurAll hg, Option.map_some]

/-- A `read` leaves a group that is switched off as it is. -/
theorem read_quiet {fd : ℤ} (hcall : m.call (.read fd) = some m')
    (hg : m.kernel.group? L = some g) (hq : g.Quiet) : m'.kernel.group? L = some g := by
  have hk := Option.some.inj (Machine.call_some hcall)
  rw [← hk, hq.group?_occurAll hg]

/-- `stop` on a group that counts from zero, the work `κs` before it. -/
theorem stop_counting {κs : List Kind} {gaps : List (List Kind)}
    (hgaps : m.gaps = κs :: gaps) (hcall : m.call (.ioctl L .disable) = some m')
    (hg : m.kernel.group? L = some g) (hc : g.Counting (fun _ => 0))
    (hl : Linked arch mIds fds g) :
    ∃ g', m'.kernel.group? L = some g' ∧ g'.Stopped (fun κ => κs.count κ) ∧
      Linked arch mIds fds g' := by
  have hk := Option.some.inj (Machine.call_some hcall)
  rw [hgaps, List.headD_cons] at hk
  refine ⟨_, ?_, ?_, (hl.occurAll κs).mapEvents (PerfEvent.keeps_onRequest .disable)⟩
  · rw [← hk, Kernel.group?_ioctl, Kernel.group?_occurAll, hg, Option.map_some, Option.map_some]
  · have := (hc.occurAll κs).disable
    simpa using this

end calls

/-! ### Regions -/

/-- How a region starts. -/
inductive Protocol where
  /-- `PMU_RECORD_BEGIN`, with the kernel's answers. -/
  | record (answer : Event → ℤ)
  /-- `reset` and `start`, as in the loop of icache's `main`. -/
  | round
  /-- No region, but a call of `resetEvents` between regions. -/
  | reopen (c : ResetCall)

/-- A region with its hardware activity: `before` each call up to the start, during the work,
and `after` the stop. -/
structure Region where
  protocol : Protocol
  before : List (List Kind)
  work : List Kind
  after : List Kind

/-- The same system with the activity to come. -/
def Sys.withGaps (s : Sys Machine) (gaps : List (List Kind)) : Sys Machine :=
  { s with os := { s.os with gaps := gaps } }

@[simp] theorem Sys.withGaps_prof (s : Sys Machine) (gaps : List (List Kind)) :
    (s.withGaps gaps).prof = s.prof := rfl

section regions

variable (arch : Arch) (te tr : ℕ) (stack : ℕ → Entry)

/-- The end of a region: the work, `stop`, the activity after it, `readCounters`. -/
def finishRegion (r : Region) (s : Sys Machine) : Option (Option Counters × Sys Machine) := do
  let (c, s) ← stopAndRead Machine.call
    (fun m fd => m.kernel.readGroup fd PerfEvent.entry te tr) stack (s.withGaps [r.work, r.after])
  return (some c, s)

/-- A region; it delivers counters unless the macro found no leader. -/
def runRegion (s : Sys Machine) (r : Region) : Option (Option Counters × Sys Machine) :=
  match r.protocol with
  | .record answer => do
      let rec_ ← pmuRecordBegin Machine.call arch answer (s.withGaps r.before)
      if rec_.valid then finishRegion te tr stack r rec_.sys
      else
        -- the loop runs all the same, with nothing open
        return (none, { rec_.sys with os :=
          { rec_.sys.os with kernel := rec_.sys.os.kernel.occurAll (r.work ++ r.after) } })
  | .round => do
      let s ← reset Machine.call (s.withGaps r.before)
      let s ← start Machine.call s
      finishRegion te tr stack r s
  | .reopen c => do
      let s ← resetEvents Machine.call arch c.answer c.eventMask (s.withGaps r.before)
      return (none, s)

/-- The state after a region. -/
def regionStep (s : Sys Machine) (r : Region) : Option (Sys Machine) :=
  (runRegion arch te tr stack s r).map Prod.snd

/-- What a region delivers is the count of its own work, for every event that is open. -/
def Delivers (s : Sys Machine) (r : Region) : Prop :=
  ∀ c s', runRegion arch te tr stack s r = some (some c, s') →
    ∀ e, 0 ≤ s'.prof.mCountersFd e → (c.counters e).value = r.work.count (eventKind arch e)

/-- Between regions: no entry is open, or the group is linked and switched off. -/
def Idle (p : Profiler) (k : Kernel) : Prop :=
  (∀ e, p.mCountersFd e < 0) ∨
  ∃ g, k.group? (p.mCountersFd .instructions) = some g ∧ g.Quiet ∧
    Linked arch p.mIds p.mCountersFd g

variable {arch te tr stack}

theorem Ready.idle {answer : Event → ℤ} {mask : BitVec 32} {p : Profiler} {k : Kernel}
    (h : Ready arch answer mask p k) : Idle arch p k := by
  obtain ⟨-, hneg⟩ | ⟨-, -, -, g, hg, hfresh, hlinked⟩ := h
  · exact Or.inl hneg
  · exact Or.inr ⟨g, hg, hfresh.quiet, hlinked⟩

theorem finishRegion_cases {r : Region} {s s' : Sys Machine} {c : Option Counters}
    (h : finishRegion te tr stack r s = some (c, s')) :
    ∃ c₀, c = some c₀ ∧ stopAndRead Machine.call
      (fun m fd => m.kernel.readGroup fd PerfEvent.entry te tr) stack
      (s.withGaps [r.work, r.after]) = some (c₀, s') := by
  unfold finishRegion at h
  obtain ⟨⟨c₀, s₀⟩, hread, h⟩ := Option.bind_eq_some_iff.mp h
  obtain ⟨rfl, rfl⟩ := Prod.mk.inj (Option.some.inj h)
  exact ⟨c₀, rfl, hread⟩

/-- **The end of a region** on a group that counts from zero: the counters are those of the
work, and the object is idle again. -/
theorem finishRegion_counts {r : Region} {s s' : Sys Machine} {c : Option Counters}
    (h : finishRegion te tr stack r s = some (c, s')) {g : Group}
    (hg : s.os.kernel.group? (s.prof.mCountersFd .instructions) = some g)
    (hc : g.Counting (fun _ => 0)) (hl : Linked arch s.prof.mIds s.prof.mCountersFd g) :
    Idle arch s'.prof s'.os.kernel ∧
      ∀ c', c = some c' → ∀ e, 0 ≤ s'.prof.mCountersFd e →
        (c'.counters e).value = r.work.count (eventKind arch e) := by
  obtain ⟨c₀, rfl, hend⟩ := finishRegion_cases h
  obtain ⟨os, hstop, hread, hprof, rfl⟩ := stopAndRead_cases hend
  simp only [Sys.withGaps_prof] at hstop hread hprof
  rw [hprof]
  obtain ⟨g', hg', hstopped, hlinked⟩ := stop_counting rfl hstop hg hc hl
  have hg'' := read_quiet hread hg' hstopped.quiet
  refine ⟨Or.inr ⟨g', hg'', hstopped.quiet, hlinked⟩, ?_⟩
  rintro c' ⟨⟩ e he
  obtain ⟨rec, hrec⟩ : ∃ rec, s'.os.kernel.readGroup (s.prof.mCountersFd .instructions)
      PerfEvent.entry te tr = some rec := ⟨_, by rw [Kernel.readGroup, hg'', Option.map_some]⟩
  obtain ⟨-, ev, hev, -, hkind, hval⟩ := hlinked.readCounters hg'' hrec stack he
  rw [hrec, hval, PerfEvent.entry, (hstopped ev hev).2, hkind]

/-- The end of a region on an object with nothing open. -/
theorem finishRegion_closed {r : Region} {s s' : Sys Machine} {c : Option Counters}
    (h : finishRegion te tr stack r s = some (c, s')) (hneg : ∀ e, s.prof.mCountersFd e < 0) :
    ∀ e, s'.prof.mCountersFd e < 0 := by
  obtain ⟨c₀, rfl, hend⟩ := finishRegion_cases h
  obtain ⟨os, -, -, hprof, -⟩ := stopAndRead_cases hend
  rw [hprof]
  exact hneg

/-- **One region**: from an idle object it delivers the counts of its own work, and leaves the
object idle. -/
theorem runRegion_idle {r : Region} {s s' : Sys Machine} {c : Option Counters}
    (h : runRegion arch te tr stack s r = some (c, s')) (hs : Idle arch s.prof s.os.kernel) :
    Idle arch s'.prof s'.os.kernel ∧
      ∀ c', c = some c' → ∀ e, 0 ≤ s'.prof.mCountersFd e →
        (c'.counters e).value = r.work.count (eventKind arch e) := by
  unfold runRegion at h
  cases hproto : r.protocol with
  | record answer =>
      rw [hproto] at h
      obtain ⟨rec₀, hbegin, h⟩ := Option.bind_eq_some_iff.mp h
      obtain ⟨s₁, hreset, hvalid, hprof, hcall⟩ := pmuRecordBegin_cases hbegin
      obtain ⟨hready, -⟩ := resetEvents_ready hreset
      split_ifs at h with hv
      · obtain ⟨-, hstart⟩ | ⟨hinv, -⟩ := hcall
        swap
        · exact absurd hv (by rw [hinv]; decide)
        obtain ⟨-, hneg⟩ | ⟨-, -, -, g, hg, hfresh, hlinked⟩ := hready
        · have := hneg .instructions
          rw [hvalid, Profiler.isValid, decide_eq_true_eq] at hv
          omega
        rw [← hprof] at hg hstart hlinked
        exact finishRegion_counts h (ioctl_quiet hstart hg hfresh.quiet) hfresh.enable
          (hlinked.mapEvents (PerfEvent.keeps_onRequest .enable))
      · -- the leader failed: nothing is delivered and nothing is open
        obtain ⟨rfl, rfl⟩ := Prod.mk.inj (Option.some.inj h)
        refine ⟨Or.inl ?_, fun c' hc' => by cases hc'⟩
        obtain ⟨-, hneg⟩ | ⟨h0, hL, -⟩ := hready
        · rw [hprof]
          exact hneg
        · rw [hvalid, Profiler.isValid, decide_eq_true_eq, hL] at hv
          exact absurd h0 hv
  | round =>
      rw [hproto] at h
      obtain ⟨s₁, hreset, h⟩ := Option.bind_eq_some_iff.mp h
      obtain ⟨s₂, hstart, h⟩ := Option.bind_eq_some_iff.mp h
      obtain ⟨hprof₁, hos₁⟩ := ioctlLeader_cases hreset
      obtain ⟨hprof₂, hos₂⟩ := ioctlLeader_cases hstart
      have hprof : s₂.prof = s.prof := hprof₂.trans hprof₁
      rw [show s₁.prof = s.prof from hprof₁] at hos₂
      obtain hneg | ⟨g, hg, hquiet, hlinked⟩ := hs
      · have hneg' := finishRegion_closed h (by rw [hprof]; exact hneg)
        exact ⟨Or.inl hneg', fun c' _ e he => absurd (hneg' e) (by omega)⟩
      · have hg₁ := ioctl_quiet hos₁ hg hquiet
        have hg₂ := ioctl_quiet hos₂ hg₁ hquiet.reset.quiet
        rw [← hprof] at hg₂ hlinked
        exact finishRegion_counts h hg₂ hquiet.reset.enable
          ((hlinked.mapEvents (PerfEvent.keeps_onRequest .reset)).mapEvents
            (PerfEvent.keeps_onRequest .enable))
  | reopen call =>
      rw [hproto] at h
      obtain ⟨s₁, hreset, h⟩ := Option.bind_eq_some_iff.mp h
      obtain ⟨rfl, rfl⟩ := Prod.mk.inj (Option.some.inj h)
      exact ⟨(resetEvents_ready hreset).1.idle, fun c' hc' => by cases hc'⟩

end regions

/-- **Measurements do not leak.**  From the constructor on, through any sequence of regions with
any activity inside, between and outside them and any open failures, every region delivers for
every open event the number of its occurrences during that region's own work. -/
theorem regions_deliver (arch : Arch) (te tr : ℕ) (stack : ℕ → Entry) (mIds : Event → ℕ)
    (first : Event → ℤ) (m : Machine) (s : Sys Machine) (regions : List Region)
    (h : construct Machine.call arch first mIds m = some s) :
    Along (regionStep arch te tr stack) (Delivers arch te tr stack) s regions := by
  refine Along.intro (fun s => Idle arch s.prof s.os.kernel) ?_ ?_ regions
    (resetEvents_ready h).1.idle
  · intro s r hs c s' hrun
    exact (runRegion_idle hrun hs).2 c rfl
  · intro s r s' hs hstep
    obtain ⟨⟨c, s₁⟩, hrun, rfl⟩ := Option.map_eq_some_iff.mp hstep
    exact (runRegion_idle hrun hs).1

/-- A round with cycles before, during and after its work. -/
def roundRegion : Region :=
  ⟨.round, [[(0, 0)], [(0, 0)]], [(0, 0), (0, 1), (0, 0)], [(0, 0)]⟩

/-- The same work between the two macros, once less. -/
def recordRegion : Region :=
  ⟨.record fun e => 3 + e.idx, [[(0, 0)]], [(0, 0), (0, 1)], [(0, 0)]⟩

/-- A round, and then a pair of macros: of the cycles those of the work are delivered. -/
theorem regions_deliver_two :
    ∃ s c₁ s₁ c₂ s₂, construct Machine.call .other (fun e => 3 + e.idx) (fun _ => 0)
        ⟨⟨[0, 1, 2], [], 0⟩, []⟩ = some s ∧
      runRegion .other 0 0 (fun _ => ⟨0, 0⟩) s roundRegion = some (some c₁, s₁) ∧
      (c₁.counters .cpuCycles).value = 2 ∧
      runRegion .other 0 0 (fun _ => ⟨0, 0⟩) s₁ recordRegion = some (some c₂, s₂) ∧
      (c₂.counters .cpuCycles).value = 1 := by
  have hrun : ((construct Machine.call .other (fun e => 3 + e.idx) (fun _ => 0)
      ⟨⟨[0, 1, 2], [], 0⟩, []⟩).bind fun s =>
        (runRegion .other 0 0 (fun _ => ⟨0, 0⟩) s roundRegion).bind fun x₁ =>
          (runRegion .other 0 0 (fun _ => ⟨0, 0⟩) x₁.2 recordRegion).map fun x₂ =>
            ((x₁.1.isSome, decide (0 ≤ x₁.2.prof.mCountersFd .cpuCycles)),
              x₂.1.isSome, decide (0 ≤ x₂.2.prof.mCountersFd .cpuCycles))) =
        some ((true, true), true, true) := by decide
  obtain ⟨s, hs, h⟩ := Option.bind_eq_some_iff.mp hrun
  obtain ⟨⟨c₁, s₁⟩, hround, h⟩ := Option.bind_eq_some_iff.mp h
  obtain ⟨⟨c₂, s₂⟩, hrecord, h⟩ := Option.map_eq_some_iff.mp h
  obtain ⟨h₁, h₂⟩ := Prod.mk.inj h
  obtain ⟨hc₁, hopen₁⟩ := Prod.mk.inj h₁
  obtain ⟨hc₂, hopen₂⟩ := Prod.mk.inj h₂
  obtain ⟨c₁, rfl⟩ := Option.isSome_iff_exists.mp hc₁
  obtain ⟨c₂, rfl⟩ := Option.isSome_iff_exists.mp hc₂
  obtain ⟨hdeliver₁, hrest⟩ := regions_deliver .other 0 0 (fun _ => ⟨0, 0⟩) (fun _ => 0)
    (fun e => 3 + e.idx) ⟨⟨[0, 1, 2], [], 0⟩, []⟩ s [roundRegion, recordRegion] hs
  obtain ⟨hdeliver₂, -⟩ := hrest s₁ (by rw [regionStep, hround, Option.map_some])
  exact ⟨s, c₁, s₁, c₂, s₂, hs, hround,
    hdeliver₁ c₁ s₁ hround .cpuCycles (of_decide_eq_true hopen₁), hrecord,
    hdeliver₂ c₂ s₂ hrecord .cpuCycles (of_decide_eq_true hopen₂)⟩

end PlayWithOpencv.Perf
