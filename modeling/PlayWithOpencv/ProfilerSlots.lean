import PlayWithOpencv.Profiler

/-! # Every event is read from its own slot

The profiler on the kernel of `PerfKernel.lean`, which hands out the lowest free descriptor.
`resetEvents` numbers the events as they open (`count`, `mIds`) and the kernel lists the events
of the group in the same order, so slot `mIds e` of a record belongs to `e`.

`Linked` says so for an object and a group, `Enabled` relates `mEnabledEvents` to the open
entries and to the mask; `Opened` is the invariant of the seven blocks, which holds of every
mask and every pattern of failures.  Stale entries of `mIds` do no harm: `Linked` speaks of open
events only.  The test `> 0` accepts every member that opened: descriptor 0 is in use from the
moment the leader is open (`zero`), so no member gets it. -/

namespace PlayWithOpencv.Perf

open PartialRun

/-- Slot `mIds e` of the group belongs to `e`, for every open event `e`. -/
def Linked (arch : Arch) (mIds : Event → ℕ) (fds : Event → ℤ) (g : Group) : Prop :=
  ∀ e, 0 ≤ fds e → ∃ ev, g.events[mIds e]? = some ev ∧ (ev.fd : ℤ) = fds e ∧
    ev.attr.kind = eventKind arch e

/-- The members that are open were asked for, and `bits` has exactly their bits. -/
structure Enabled (mask : BitVec 32) (fds : Event → ℤ) (bits : BitVec 32) : Prop where
  requested : ∀ e, e ≠ .instructions → 0 ≤ fds e → requested mask e = true
  bits_iff : ∀ i, bits.getLsbD i = true ↔ ∃ e, e ≠ .instructions ∧ e.idx = i ∧ 0 ≤ fds e

/-- No event of the group is enabled or has counted. -/
def Group.Fresh (g : Group) : Prop := ∀ ev ∈ g.events, ev.enabled = false ∧ ev.count = 0

theorem Group.Fresh.quiet {g : Group} (h : g.Fresh) : g.Quiet := fun ev hev => (h ev hev).1

/-! ### One more event -/

section step

variable {arch : Arch} {mIds : Event → ℕ} {fds : Event → ℤ} {g : Group} {mask bits : BitVec 32}
  {e : Event} {fd : ℤ}

/-- An entry that stays closed leaves the links alone. -/
theorem Linked.closed (h : Linked arch mIds fds g) (hfd : fd < 0) :
    Linked arch mIds (Function.update fds e fd) g := by
  intro e' he'
  have hne : e' ≠ e := by
    rintro rfl
    rw [Function.update_self] at he'
    omega
  rw [Function.update_of_ne hne] at he' ⊢
  exact h e' he'

/-- The event opened last gets the last slot. -/
theorem Linked.opened (h : Linked arch mIds fds g) {ev : PerfEvent} (hfd : (ev.fd : ℤ) = fd)
    (hkind : ev.attr.kind = eventKind arch e) :
    Linked arch (Function.update mIds e g.events.length) (Function.update fds e fd)
      (g.addMember ev) := by
  intro e' he'
  rw [Group.events_addMember]
  by_cases hee : e' = e
  · subst hee
    rw [Function.update_self, Function.update_self]
    exact ⟨ev, List.getElem?_concat_length, hfd, hkind⟩
  · rw [Function.update_of_ne hee] at he' ⊢
    rw [Function.update_of_ne hee]
    obtain ⟨ev', hev', hrest⟩ := h e' he'
    have hlt : mIds e' < g.events.length := (List.getElem?_eq_some_iff.mp hev').1
    exact ⟨ev', by rw [List.getElem?_append_left hlt, hev'], hrest⟩

theorem Enabled.closed (h : Enabled mask fds bits) (hold : fds e < 0) (hfd : fd < 0) :
    Enabled mask (Function.update fds e fd) bits := by
  have hopen : ∀ e', 0 ≤ Function.update fds e fd e' ↔ 0 ≤ fds e' := by
    intro e'
    by_cases hee : e' = e
    · subst hee
      rw [Function.update_self]
      omega
    · rw [Function.update_of_ne hee]
  refine ⟨fun e' hne he' => h.requested e' hne ((hopen e').mp he'), fun i => ?_⟩
  rw [h.bits_iff]
  simp only [hopen]

theorem Enabled.opened (h : Enabled mask fds bits) (hne : e ≠ .instructions)
    (hreq : Perf.requested mask e = true) (hold : fds e < 0) (hfd : 0 ≤ fd) :
    Enabled mask (Function.update fds e fd) (bits ||| e.bit) := by
  constructor
  · intro e' hne' he'
    by_cases hee : e' = e
    · subst hee
      exact hreq
    · rw [Function.update_of_ne hee] at he'
      exact h.requested e' hne' he'
  · intro i
    rw [BitVec.getLsbD_or, Bool.or_eq_true, h.bits_iff, Event.bit, BitVec.getLsbD_twoPow]
    simp only [e.idx_lt, decide_true, Bool.true_and, decide_eq_true_eq]
    constructor
    · rintro (⟨e', hne', hi, he'⟩ | hi)
      · have hee : e' ≠ e := by
          rintro rfl
          omega
        exact ⟨e', hne', hi, by rwa [Function.update_of_ne hee]⟩
      · exact ⟨e, hne, hi, by rwa [Function.update_self]⟩
    · rintro ⟨e', hne', hi, he'⟩
      by_cases hee : e' = e
      · exact Or.inr (hee ▸ hi)
      · rw [Function.update_of_ne hee] at he'
        exact Or.inl ⟨e', hne', hi, he'⟩

theorem Group.Fresh.addMember (h : g.Fresh) {k : Kernel} {n : ℕ} {pe : PerfEventAttr}
    (hpe : pe.disabled = true) : (g.addMember (k.newEvent n pe)).Fresh := by
  intro ev hev
  rw [Group.events_addMember, List.mem_append, List.mem_singleton] at hev
  rcases hev with hev | rfl
  · exact h ev hev
  · simp [Kernel.newEvent, hpe]

end step

/-! ### The blocks of `resetEvents` -/

/-- The invariant of the blocks: `rest` are the events still to open, `L` is the leader's
descriptor. -/
structure Opened (arch : Arch) (answer : Event → ℤ) (mask : BitVec 32) (L : ℤ)
    (rest : List Event) (o : Opening Machine) (g : Group) : Prop where
  group : o.os.kernel.group? L = some g
  zero : 0 ∈ o.os.kernel.inUse
  count : o.count = g.events.length
  fresh : g.Fresh
  leader : o.prof.mCountersFd .instructions = L
  linked : Linked arch o.prof.mIds o.prof.mCountersFd g
  enabled : Enabled mask o.prof.mCountersFd o.prof.mEnabledEvents
  disabled : o.pe.disabled = true
  answers : ∀ e ∈ memberOrder, e ∉ rest → requested mask e = true →
    o.prof.mCountersFd e = answer e
  closed : ∀ e ∈ rest, o.prof.mCountersFd e < 0
  members : (.instructions :: rest).Nodup

variable {arch : Arch} {answer : Event → ℤ} {mask : BitVec 32}

theorem openMember_opened {L : ℤ} {rest : List Event} {o o' : Opening Machine} {e : Event}
    (h : openMember Machine.call arch answer mask L o e = some o')
    (ho : ∃ g, Opened arch answer mask L (e :: rest) o g) :
    ∃ g, Opened arch answer mask L rest o' g := by
  obtain ⟨g, ho⟩ := ho
  have hnd : (Event.instructions :: rest).Nodup :=
    ho.members.sublist (List.Sublist.cons_cons _ (List.sublist_cons_self _ _))
  have hne : e ≠ .instructions := by
    rintro rfl
    exact (List.nodup_cons.mp ho.members).1 List.mem_cons_self
  have hold := ho.closed e List.mem_cons_self
  have hrest : ∀ fd, ∀ e' ∈ rest, Function.update o.prof.mCountersFd e fd e' < 0 := by
    intro fd e' he'
    have hee : e' ≠ e := by
      rintro rfl
      exact (List.nodup_cons.mp (List.nodup_cons.mp ho.members).2).1 he'
    rw [Function.update_of_ne hee]
    exact ho.closed e' (List.mem_cons_of_mem _ he')
  obtain ⟨hskip, rfl⟩ | ⟨hreq, hos, hpe, hfds, hcases⟩ := openMember_cases h
  · refine ⟨g, ho.group, ho.zero, ho.count, ho.fresh, ho.leader, ho.linked, ho.enabled,
      ho.disabled, ?_, fun e' he' => ho.closed e' (List.mem_cons_of_mem _ he'), hnd⟩
    intro e' he' hnot hreq'
    have hee : e' ≠ e := by
      rintro rfl
      rw [hskip] at hreq'
      cases hreq'
    exact ho.answers e' he' (by simp [hee, hnot]) hreq'
  -- the activity before the call passes by a group that is switched off
  have hgroup := ho.fresh.quiet.group?_occurAll ho.group (o.os.gaps.headD [])
  have hzero : 0 ∈ (o.os.kernel.occurAll (o.os.gaps.headD [])).inUse := by
    rw [Kernel.inUse_occurAll]
    exact ho.zero
  have hleader : o'.prof.mCountersFd .instructions = L := by
    rw [hfds, Function.update_of_ne hne.symm]
    exact ho.leader
  have hdis : o'.pe.disabled = true := by
    rw [hpe]
    exact ho.disabled
  have hanswers : ∀ e' ∈ memberOrder, e' ∉ rest → requested mask e' = true →
      o'.prof.mCountersFd e' = answer e' := by
    intro e' he' hnot hreq'
    rw [hfds]
    by_cases hee : e' = e
    · subst hee
      exact Function.update_self ..
    · rw [Function.update_of_ne hee]
      exact ho.answers e' he' (by simp [hee, hnot]) hreq'
  have hL := Kernel.leader_of_group? ho.group
  obtain ⟨hfail, hk⟩ | ⟨h0, halloc, hk⟩ := Kernel.exec_perfEventOpen (Machine.call_some hos)
  · -- the member failed to open
    obtain ⟨hpos, -⟩ | ⟨-, hids, hbits, hcount⟩ := hcases
    · omega
    refine ⟨g, hk ▸ hgroup, hk ▸ hzero, hcount ▸ ho.count, ho.fresh, hleader, ?_, ?_, hdis,
      hanswers, ?_, hnd⟩
    · rw [hids, hfds]
      exact ho.linked.closed hfail
    · rw [hbits, hfds]
      exact ho.enabled.closed hold hfail
    · rw [hfds]
      exact hrest _
  · -- the member opened, on a descriptor that is not 0
    have hne0 : answer e ≠ 0 := by
      intro hzero'
      rw [hzero', Int.toNat_zero, Kernel.lowestFree_iff] at halloc
      exact halloc.1 hzero
    obtain ⟨-, hids, hbits, hcount⟩ | ⟨hle, -⟩ := hcases
    swap
    · omega
    obtain ⟨hlt, -⟩ | ⟨-, hk⟩ := hk
    · omega
    refine ⟨_, hk ▸ Kernel.group?_addMember hgroup, hk ▸ Kernel.mem_inUse_addMember hzero, ?_,
      ho.fresh.addMember (hpe ▸ hdis), hleader, ?_, ?_, hdis, hanswers, ?_, hnd⟩
    · rw [hcount, ho.count, Group.events_addMember, List.length_append]
      rfl
    · rw [hids, hfds, ho.count]
      exact ho.linked.opened (by simp [Kernel.newEvent, h0]) rfl
    · rw [hbits, hfds]
      exact ho.enabled.opened hne hreq hold h0
    · rw [hfds]
      exact hrest _

/-- With every entry closed no bit is set. -/
theorem Enabled.none {fds : Event → ℤ} (hneg : ∀ e, fds e < 0) : Enabled mask fds 0#32 := by
  refine ⟨fun e _ he => absurd (hneg e) (by omega), fun i => ?_⟩
  constructor
  · intro hi
    simp at hi
  · rintro ⟨e, -, -, he⟩
    exact absurd (hneg e) (by omega)

/-- The leader is the first event of a new group, in slot 0, and descriptor 0 is in use. -/
theorem storeLeader_opened {p : Profiler} {os : Machine} {k : Kernel} {fd : ℤ}
    (hneg : ∀ e, p.mCountersFd e < 0) (h0 : 0 ≤ fd) (halloc : k.lowestFree fd.toNat = true)
    (hk : os.kernel = k.addGroup fd.toNat (leaderAttr arch)) :
    Opened arch answer mask fd memberOrder
      (storeLeader { p with mEnabledEvents := 0#32 } os (leaderAttr arch) fd)
      ⟨k.newEvent fd.toNat (leaderAttr arch), []⟩ where
  group := by
    have hL : (fd.toNat : ℤ) = fd := Int.toNat_of_nonneg h0
    show os.kernel.group? fd = _
    rw [hk, ← Kernel.group?_addGroup (Kernel.lowestFree_iff.mp halloc).1, hL]
  zero := by
    show 0 ∈ os.kernel.inUse
    rw [hk, Kernel.inUse_addGroup, List.mem_append, List.mem_singleton]
    rcases Nat.eq_zero_or_pos fd.toNat with hz | hpos
    · exact Or.inr hz.symm
    · exact Or.inl ((Kernel.lowestFree_iff.mp halloc).2 0 hpos)
  count := rfl
  fresh := by
    intro ev hev
    obtain rfl := List.mem_singleton.mp hev
    exact ⟨rfl, rfl⟩
  leader := by simp [storeLeader]
  linked := by
    intro e he
    have hee : e = .instructions := by
      by_contra hne
      rw [storeLeader, Profiler.setFd_mCountersFd, Function.update_of_ne hne] at he
      exact absurd (hneg e) (not_lt.mpr he)
    subst hee
    refine ⟨k.newEvent fd.toNat (leaderAttr arch), ?_, ?_, rfl⟩
    · simp [storeLeader, Group.events]
    · simp [storeLeader, Kernel.newEvent, h0]
  enabled := by
    have hsame : ∀ e, e ≠ .instructions →
        Function.update p.mCountersFd .instructions fd e = p.mCountersFd e :=
      fun e hne => Function.update_of_ne hne _ _
    have hnone : Enabled mask p.mCountersFd 0#32 := Enabled.none hneg
    constructor
    · intro e hne he
      exact hnone.requested e hne (hsame e hne ▸ he)
    · intro i
      refine (hnone.bits_iff i).trans (exists_congr fun e => and_congr_right fun hne => ?_)
      rw [← hsame e hne]
      rfl
  disabled := rfl
  answers := fun e he hnot => absurd he hnot
  closed := by
    intro e he
    have hne : e ≠ .instructions := by
      rintro rfl
      simp [memberOrder] at he
    simpa [storeLeader, hne] using hneg e
  members := by decide

/-- The object after `resetEvents`: no entry is open, or the leader is and its group is fresh
and linked to the object, every requested member standing at the kernel's answer. -/
def Ready (arch : Arch) (answer : Event → ℤ) (mask : BitVec 32) (p : Profiler) (k : Kernel) :
    Prop :=
  (answer .instructions < 0 ∧ ∀ e, p.mCountersFd e < 0) ∨
  (0 ≤ answer .instructions ∧ p.mCountersFd .instructions = answer .instructions ∧
    (∀ e, e ≠ .instructions → requested mask e = true → p.mCountersFd e = answer e) ∧
    ∃ g, k.group? (p.mCountersFd .instructions) = some g ∧ g.Fresh ∧
      Linked arch p.mIds p.mCountersFd g)

/-- **`resetEvents` on the kernel**, whatever the object and the kernel were before. -/
theorem resetEvents_ready {s s' : Sys Machine}
    (h : resetEvents Machine.call arch answer mask s = some s') :
    Ready arch answer mask s'.prof s'.os.kernel ∧
      Enabled mask s'.prof.mCountersFd s'.prof.mEnabledEvents := by
  obtain ⟨s₁, os, hclose, hos, hcases⟩ := resetEvents_cases h
  have hneg := closeAll_neg hclose
  obtain ⟨hfail, rfl⟩ | ⟨h0, o, hloop, rfl⟩ := hcases
  · exact ⟨Or.inl ⟨hfail, hneg⟩, Enabled.none hneg⟩
  obtain ⟨hlt, -⟩ | ⟨-, halloc, hk⟩ := Kernel.exec_perfEventOpen (Machine.call_some hos)
  · omega
  obtain ⟨-, hk⟩ | ⟨hge, -⟩ := hk
  · obtain ⟨g, hg⟩ := run_invariant_rest
      (fun rest o => ∃ g, Opened arch answer mask (answer .instructions) rest o g)
      (fun _ _ _ _ h => openMember_opened h) hloop
      ⟨_, storeLeader_opened hneg h0 halloc hk⟩
    refine ⟨Or.inr ⟨h0, hg.leader, ?_, g, by rw [hg.leader]; exact hg.group, hg.fresh,
      hg.linked⟩, hg.enabled⟩
    intro e hne hreq
    exact hg.answers e (mem_memberOrder hne) List.not_mem_nil hreq
  · omega

/-! ### Runs of calls -/

/-- A call of `resetEvents` with its surroundings: the other descriptors of the process at that
moment, and the hardware activity before each system call. -/
structure EnvCall extends ResetCall where
  others : List ℕ
  gaps : List (List Kind)

/-- The machine a call finds. -/
def EnvCall.machine (c : EnvCall) (m : Machine) : Machine :=
  ⟨{ m.kernel with others := c.others }, c.gaps⟩

def envStep (arch : Arch) (s : Sys Machine) (c : EnvCall) : Option (Sys Machine) :=
  resetEvents Machine.call arch c.answer c.eventMask ⟨s.prof, c.machine s.os⟩

/-- What `readCounters` delivers from a record of the leader's group. -/
theorem Linked.readCounters {p : Profiler} {k : Kernel} {g : Group}
    (hg : k.group? (p.mCountersFd .instructions) = some g)
    (hl : Linked arch p.mIds p.mCountersFd g) {entry : PerfEvent → Entry} {te tr : ℕ}
    {r : GroupRecord}
    (hr : k.readGroup (p.mCountersFd .instructions) entry te tr = some r) (stack : ℕ → Entry)
    {e : Event} (he : 0 ≤ p.mCountersFd e) :
    p.mIds e < r.nr ∧ ∃ ev ∈ g.events, (ev.fd : ℤ) = p.mCountersFd e ∧
      ev.attr.kind = eventKind arch e ∧
      (p.readCounters stack (some r)).counters e = entry ev := by
  obtain ⟨ev, hev, hfd, hkind⟩ := hl e he
  rw [Kernel.readGroup, hg, Option.map_some] at hr
  obtain rfl := Option.some.inj hr
  have hlt : p.mIds e < g.events.length := (List.getElem?_eq_some_iff.mp hev).1
  refine ⟨by simpa [GroupRecord.nr] using hlt, ev, List.mem_of_getElem? hev, hfd, hkind, ?_⟩
  simp only [Profiler.readCounters, he, if_true, List.getElem?_map, hev, Option.map_some,
    Option.getD_some]

/-- The two rate tests look at bits of `mEnabledEvents`. -/
theorem Enabled.open_iff {fds : Event → ℤ} {bits : BitVec 32} (h : Enabled mask fds bits)
    {e : Event} (hne : e ≠ .instructions) : 0 ≤ fds e ↔ bits.getLsbD e.idx = true := by
  rw [h.bits_iff]
  constructor
  · exact fun he => ⟨e, hne, rfl, he⟩
  · rintro ⟨e', -, hidx, he'⟩
    exact Event.idx_injective hidx ▸ he'

/-- **Every event is read from its own slot.**  After any calls of `resetEvents` on any object,
the last of them `c`: a record of the leader's group gives each open event the entry behind its
own descriptor, from a slot the kernel wrote, and every other event zero; the events behind the
descriptors were opened as the events they stand for; the open members were asked for and
`getEnabledEvents` has exactly their bits; once the leader has opened, every member that was asked
for stands at the kernel's answer; and the two rate tests are true exactly when both bits are
set. -/
theorem resets_slots (arch : Arch) (s₀ s : Sys Machine) (calls : List EnvCall) (c : EnvCall)
    (h : run (envStep arch) s₀ (calls ++ [c]) = some s) :
    (∀ (entry : ℕ → Entry) (te tr : ℕ) (r : GroupRecord) (stack : ℕ → Entry),
      s.os.kernel.readGroup (s.prof.mCountersFd .instructions) (fun ev => entry ev.fd) te tr =
        some r →
      ∀ e, (0 ≤ s.prof.mCountersFd e → s.prof.mIds e < r.nr ∧
          (s.prof.readCounters stack (some r)).counters e =
            entry (s.prof.mCountersFd e).toNat ∧
          ∃ g ev, s.os.kernel.group? (s.prof.mCountersFd .instructions) = some g ∧
            ev ∈ g.events ∧ (ev.fd : ℤ) = s.prof.mCountersFd e ∧
            ev.attr.kind = eventKind arch e) ∧
        (s.prof.mCountersFd e < 0 →
          (s.prof.readCounters stack (some r)).counters e = ⟨0, 0⟩)) ∧
    (∀ e, e ≠ .instructions → 0 ≤ s.prof.mCountersFd e → requested c.eventMask e = true) ∧
    (0 ≤ c.answer .instructions →
      s.prof.mCountersFd .instructions = c.answer .instructions ∧
        ∀ e, e ≠ .instructions → requested c.eventMask e = true →
          s.prof.mCountersFd e = c.answer e) ∧
    (∀ i, s.prof.getEnabledEvents.getLsbD i = true ↔
      ∃ e, e ≠ .instructions ∧ e.idx = i ∧ 0 ≤ s.prof.mCountersFd e) ∧
    (s.prof.hasBranchRates = true ↔
      s.prof.getEnabledEvents.getLsbD (Event.idx .branches) = true ∧
      s.prof.getEnabledEvents.getLsbD (Event.idx .branchMisses) = true) ∧
    (s.prof.hasICacheRates = true ↔
      s.prof.getEnabledEvents.getLsbD (Event.idx .icacheRefs) = true ∧
      s.prof.getEnabledEvents.getLsbD (Event.idx .icacheMisses) = true) := by
  obtain ⟨s₁, -, hlast⟩ := run_concat_some h
  obtain ⟨hready, henabled⟩ := resetEvents_ready hlast
  refine ⟨?_, henabled.requested, fun h0 => ?_, henabled.bits_iff, ?_, ?_⟩
  · intro entry te tr r stack hr e
    refine ⟨fun he => ?_, fun he => ?_⟩
    · obtain ⟨-, hneg⟩ | ⟨-, -, -, g, hg, -, hlinked⟩ := hready
      · exact absurd (hneg e) (by omega)
      · obtain ⟨hlt, ev, hev, hfd, hkind, hval⟩ := hlinked.readCounters hg hr stack he
        rw [← hfd, Int.toNat_natCast]
        exact ⟨hlt, hval, g, ev, hg, hev, rfl, hkind⟩
    · simp only [Profiler.readCounters, he.not_ge, if_false]
  · obtain ⟨hfail, -⟩ | ⟨-, hleader, hmembers, -⟩ := hready
    · omega
    · exact ⟨hleader, hmembers⟩
  · simp only [Profiler.hasBranchRates, Profiler.getEnabledEvents, Bool.and_eq_true,
      decide_eq_true_eq]
    rw [henabled.open_iff (by decide), henabled.open_iff (by decide)]
  · simp only [Profiler.hasICacheRates, Profiler.getEnabledEvents, Bool.and_eq_true,
      decide_eq_true_eq]
    rw [henabled.open_iff (by decide), henabled.open_iff (by decide)]

/-- Two calls: every event opened, then the instruction cache only, with the cycles failing and
activity in between. -/
theorem resets_slots_two :
    ∃ s, run (envStep .other) ⟨⟨fun _ => 7, fun _ => -1, 0#32⟩, ⟨⟨[], [], 0⟩, []⟩⟩
        ([⟨⟨EV_CPU_CYCLES ||| EV_L1D_RATES ||| EV_L1I_RATES ||| EV_BPU_RATES,
            fun e => 3 + e.idx⟩, [0, 1, 2], []⟩] ++
          [⟨⟨EV_CPU_CYCLES ||| EV_L1I_RATES, fun e =>
            match e with
            | .instructions => 3
            | .icacheRefs => 4
            | .icacheMisses => 5
            | _ => -1⟩, [0, 1, 2, 12], [[], [(0, 1), (0, 0)]]⟩]) = some s ∧
      (∀ e, e ≠ .instructions → 0 ≤ s.prof.mCountersFd e →
        requested (EV_CPU_CYCLES ||| EV_L1I_RATES) e = true) ∧
      s.prof.mCountersFd .icacheMisses = 5 ∧ s.prof.mCountersFd .cpuCycles = -1 := by
  have hsome : (run (envStep .other) ⟨⟨fun _ => 7, fun _ => -1, 0#32⟩, ⟨⟨[], [], 0⟩, []⟩⟩
      ([⟨⟨EV_CPU_CYCLES ||| EV_L1D_RATES ||| EV_L1I_RATES ||| EV_BPU_RATES,
          fun e => 3 + e.idx⟩, [0, 1, 2], []⟩] ++
        [⟨⟨EV_CPU_CYCLES ||| EV_L1I_RATES, fun e =>
          match e with
          | .instructions => 3
          | .icacheRefs => 4
          | .icacheMisses => 5
          | _ => -1⟩, [0, 1, 2, 12], [[], [(0, 1), (0, 0)]]⟩])).isSome = true := by decide
  obtain ⟨s, hs⟩ := Option.isSome_iff_exists.mp hsome
  obtain ⟨-, hrequested, hopen, -⟩ := resets_slots _ _ s _ _ hs
  obtain ⟨-, hmembers⟩ := hopen (by decide)
  exact ⟨s, hs, hrequested, hmembers .icacheMisses (by decide) (by decide),
    hmembers .cpuCycles (by decide) (by decide)⟩

end PlayWithOpencv.Perf
