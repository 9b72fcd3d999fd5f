import PlayWithOpencv.Profiler

/-! # The profiler owns its descriptors

Here the operating system is reduced to a log of the calls the object makes.  `held log` lists
the descriptors opened and not closed again; the system answers `perf_event_open` with a
negative number or with any descriptor that is not held, zero included (`logCall`).

`Owns` is the ownership invariant: the held descriptors are the non-negative entries of
`mCountersFd`, no two entries share one, and every `close` so far was of a held descriptor.
`Owns.closing` and `Owns.opening` are its two steps; the loops of `resetEvents` and of the
destructor carry it over the whole life of the object. -/

namespace PlayWithOpencv.Perf

open PartialRun

/-! ### The log -/

def heldStep (h : List ℤ) : Syscall → List ℤ
  | .perfEventOpen _ _ fd => if 0 ≤ fd then h ++ [fd] else h
  | .close fd => h.erase fd
  | .ioctl _ _ => h
  | .read _ => h

/-- The descriptors opened and not closed again. -/
def held (log : List Syscall) : List ℤ := log.foldl heldStep []

/-- The system as a log: it hands out any descriptor that is not held. -/
def logCall (log : List Syscall) (c : Syscall) : Option (List Syscall) :=
  match c with
  | .perfEventOpen _ _ fd => if fd ∈ held log then none else some (log ++ [c])
  | _ => some (log ++ [c])

/-- Every `close` in the log closed a descriptor that was held then. -/
def ClosesHeld (log : List Syscall) : Prop :=
  ∀ before fd after, log = before ++ .close fd :: after → fd ∈ held before

/-- The call opens descriptor `fd`. -/
def opens (fd : ℤ) : Syscall → Bool
  | .perfEventOpen _ _ fd' => decide (fd' = fd)
  | _ => false

/-- The call closes descriptor `fd`. -/
def closes (fd : ℤ) : Syscall → Bool
  | .close fd' => decide (fd' = fd)
  | _ => false

theorem held_append_singleton (log : List Syscall) (c : Syscall) :
    held (log ++ [c]) = heldStep (held log) c := by
  simp [held]

theorem closesHeld_nil : ClosesHeld [] := by
  intro before fd after h
  simp at h

theorem ClosesHeld.concat {log : List Syscall} {c : Syscall} (h : ClosesHeld log)
    (hc : ∀ fd, c = .close fd → fd ∈ held log) : ClosesHeld (log ++ [c]) := by
  intro before fd after e
  rcases List.eq_nil_or_concat after with rfl | ⟨after', c', rfl⟩
  · obtain ⟨rfl, hcc⟩ := List.append_inj' e rfl
    exact hc fd (List.singleton_inj.mp hcc)
  · have e' : log ++ [c] = (before ++ .close fd :: after') ++ [c'] := by simpa using e
    exact h before fd after' (List.append_inj' e' rfl).1

theorem ClosesHeld.of_concat {log : List Syscall} {c : Syscall} (h : ClosesHeld (log ++ [c])) :
    ClosesHeld log := by
  intro before fd after e
  exact h before fd (after ++ [c]) (by simp [e])

/-- Openings and closings of a descriptor balance up to what is still held. -/
theorem count_held {fd : ℤ} (hfd : 0 ≤ fd) (log : List Syscall) (h : ClosesHeld log) :
    (held log).count fd + log.countP (closes fd) = log.countP (opens fd) := by
  induction log using List.reverseRecOn with
  | nil => rfl
  | append_singleton log c ih =>
      have ih := ih h.of_concat
      rw [held_append_singleton, List.countP_append, List.countP_append, List.countP_singleton,
        List.countP_singleton]
      cases c with
      | perfEventOpen pe g fd' =>
          by_cases h0 : 0 ≤ fd'
          · by_cases e : fd' = fd
            · subst e
              simp [heldStep, h0, opens, closes]
              omega
            · simp [heldStep, h0, opens, closes, e]
              omega
          · have e : fd' ≠ fd := by omega
            simp [heldStep, h0, opens, closes, e]
            omega
      | close fd' =>
          have hmem : fd' ∈ held log := h log fd' [] rfl
          by_cases e : fd' = fd
          · subst e
            have hpos := List.count_pos_iff.mpr hmem
            simp [heldStep, opens, closes, List.count_erase_self]
            omega
          · simp [heldStep, opens, closes, e, List.count_erase_of_ne (Ne.symm e)]
            omega
      | ioctl fd' req => simpa [heldStep, opens, closes] using ih
      | read fd' => simpa [heldStep, opens, closes] using ih

/-! ### The invariant -/

/-- The object with descriptors `fds` owns what the log says is held. -/
structure Owns (fds : Event → ℤ) (log : List Syscall) : Prop where
  nodup : (held log).Nodup
  mem_iff : ∀ fd, fd ∈ held log ↔ 0 ≤ fd ∧ ∃ e, fds e = fd
  entry_inj : ∀ e e', 0 ≤ fds e → fds e = fds e' → e = e'
  closesHeld : ClosesHeld log

theorem Owns.initial : Owns (fun _ => -1) [] where
  nodup := List.nodup_nil
  mem_iff := by
    intro fd
    constructor
    · intro h
      cases h
    · rintro ⟨h0, _, rfl⟩
      omega
  entry_inj := fun _ _ h _ => absurd h (by decide)
  closesHeld := closesHeld_nil

variable {fds : Event → ℤ} {log log' : List Syscall} {e : Event}

/-- Closing the descriptor of an open entry and clearing the entry. -/
theorem Owns.closing (h : Owns fds log) (h0 : 0 ≤ fds e) :
    Owns (Function.update fds e (-1)) (log ++ [.close (fds e)]) where
  nodup := by
    rw [held_append_singleton]
    exact h.nodup.erase _
  mem_iff := by
    intro fd
    rw [held_append_singleton]
    simp only [heldStep]
    rw [h.nodup.mem_erase_iff, h.mem_iff]
    constructor
    · rintro ⟨hne, hfd, e', he'⟩
      have hee : e' ≠ e := by
        rintro rfl
        exact hne he'.symm
      exact ⟨hfd, e', by rw [Function.update_of_ne hee]; exact he'⟩
    · rintro ⟨hfd, e', he'⟩
      by_cases hee : e' = e
      · subst hee
        rw [Function.update_self] at he'
        omega
      · rw [Function.update_of_ne hee] at he'
        refine ⟨fun hcon => hee ?_, hfd, e', he'⟩
        exact h.entry_inj e' e (by omega) (he'.trans hcon)
  entry_inj := by
    intro e₁ e₂ h1 h12
    have hne : ∀ e', 0 ≤ Function.update fds e (-1) e' → e' ≠ e := by
      rintro e' hpos rfl
      rw [Function.update_self] at hpos
      omega
    have n1 := hne e₁ h1
    have n2 := hne e₂ (h12 ▸ h1)
    rw [Function.update_of_ne n1] at h1 h12
    rw [Function.update_of_ne n2] at h12
    exact h.entry_inj e₁ e₂ h1 h12
  closesHeld := by
    refine h.closesHeld.concat ?_
    intro fd hfd
    obtain rfl : fds e = fd := by injection hfd
    exact (h.mem_iff _).mpr ⟨h0, e, rfl⟩

/-- Storing an answer of `perf_event_open` in an entry that is not open. -/
theorem Owns.opening (h : Owns fds log) (hneg : fds e < 0) {pe : PerfEventAttr} {g fd : ℤ}
    (hcall : logCall log (.perfEventOpen pe g fd) = some log') :
    Owns (Function.update fds e fd) log' := by
  simp only [logCall] at hcall
  split_ifs at hcall with hfree
  obtain rfl := Option.some.inj hcall
  have hval : ∀ e', 0 ≤ fds e' → fds e' ≠ fd := by
    rintro e' hpos rfl
    exact hfree ((h.mem_iff _).mpr ⟨hpos, e', rfl⟩)
  refine ⟨?_, ?_, ?_, h.closesHeld.concat (by rintro fd' ⟨⟩)⟩
  · rw [held_append_singleton]
    simp only [heldStep]
    split_ifs
    · exact List.nodup_append.mpr ⟨h.nodup, List.nodup_singleton _, by
        rintro a ha b hb rfl
        exact hfree (List.mem_singleton.mp hb ▸ ha)⟩
    · exact h.nodup
  · intro fd'
    have hheld : fd' ∈ held (log ++ [.perfEventOpen pe g fd]) ↔
        fd' ∈ held log ∨ (0 ≤ fd ∧ fd' = fd) := by
      rw [held_append_singleton]
      simp only [heldStep]
      split_ifs with h0 <;> simp [h0]
    rw [hheld, h.mem_iff]
    constructor
    · rintro (⟨h0, e', he'⟩ | ⟨h0, rfl⟩)
      · have hee : e' ≠ e := by
          rintro rfl
          omega
        exact ⟨h0, e', by rw [Function.update_of_ne hee]; exact he'⟩
      · exact ⟨h0, e, Function.update_self ..⟩
    · rintro ⟨h0, e', he'⟩
      by_cases hee : e' = e
      · subst hee
        rw [Function.update_self] at he'
        exact Or.inr ⟨by omega, he'.symm⟩
      · rw [Function.update_of_ne hee] at he'
        exact Or.inl ⟨h0, e', he'⟩
  · intro e₁ e₂ h1 h12
    by_cases n1 : e₁ = e <;> by_cases n2 : e₂ = e
    · rw [n1, n2]
    · subst n1
      rw [Function.update_self, Function.update_of_ne n2] at h12
      rw [Function.update_self] at h1
      exact absurd h12.symm (hval e₂ (by omega))
    · subst n2
      rw [Function.update_of_ne n1, Function.update_self] at h12
      rw [Function.update_of_ne n1] at h1
      exact absurd h12 (hval e₁ h1)
    · rw [Function.update_of_ne n1] at h1 h12
      rw [Function.update_of_ne n2] at h12
      exact h.entry_inj e₁ e₂ h1 h12

/-- With every entry closed nothing is held. -/
theorem Owns.held_eq_nil (h : Owns fds log) (hneg : ∀ e, fds e < 0) : held log = [] := by
  rw [List.eq_nil_iff_forall_not_mem]
  intro fd hfd
  obtain ⟨h0, e, rfl⟩ := (h.mem_iff fd).mp hfd
  have := hneg e
  omega

/-- The held descriptors are the non-negative entries, each once. -/
theorem Owns.perm (h : Owns fds log) :
    (held log).Perm ((Event.all.map fds).filter (fun fd => decide (0 ≤ fd))) := by
  have hnodup : ((Event.all.map fds).filter (fun fd => decide (0 ≤ fd))).Nodup := by
    rw [List.filter_map]
    refine List.Nodup.map_on ?_ ((by decide : Event.all.Nodup).filter _)
    intro a ha b _ hab
    exact h.entry_inj a b (by simpa using (List.mem_filter.mp ha).2) hab
  rw [List.perm_ext_iff_of_nodup h.nodup hnodup]
  intro fd
  rw [h.mem_iff, List.mem_filter, List.mem_map, decide_eq_true_eq]
  constructor
  · rintro ⟨h0, e, he⟩
    exact ⟨⟨e, e.mem_all, he⟩, h0⟩
  · rintro ⟨⟨e, _, he⟩, h0⟩
    exact ⟨h0, e, he⟩

/-! ### The loops -/

variable {s s' : Sys (List Syscall)}

theorem closeEntry_owns (h : closeEntry logCall s e = some s')
    (hs : Owns s.prof.mCountersFd s.os) : Owns s'.prof.mCountersFd s'.os := by
  obtain ⟨-, rfl⟩ | ⟨h0, hos, hprof⟩ := closeEntry_cases h
  · exact hs
  · rw [hprof, ← Option.some.inj hos]
    exact hs.closing h0

theorem closeAll_owns (h : closeAll logCall s = some s') (hs : Owns s.prof.mCountersFd s.os) :
    Owns s'.prof.mCountersFd s'.os :=
  run_invariant (fun s : Sys (List Syscall) => Owns s.prof.mCountersFd s.os)
    (fun _ _ _ h => closeEntry_owns h) h hs

variable {arch : Arch} {answer : Event → ℤ} {eventMask : BitVec 32}

/-- One block of `resetEvents`: the entries still to visit are not open.  The descriptor is
stored whether or not the block accepts it. -/
theorem openMember_owns {groupFd : ℤ} {o o' : Opening (List Syscall)} {rest : List Event}
    (h : openMember logCall arch answer eventMask groupFd o e = some o')
    (ho : Owns o.prof.mCountersFd o.os ∧ (e :: rest).Nodup ∧
      ∀ e' ∈ e :: rest, o.prof.mCountersFd e' < 0) :
    Owns o'.prof.mCountersFd o'.os ∧ rest.Nodup ∧ ∀ e' ∈ rest, o'.prof.mCountersFd e' < 0 := by
  obtain ⟨hown, hnd, hrest⟩ := ho
  obtain ⟨hnotin, hnd'⟩ := List.nodup_cons.mp hnd
  obtain ⟨-, rfl⟩ | ⟨-, hos, -, hfds, -⟩ := openMember_cases h
  · exact ⟨hown, hnd', fun e' he' => hrest e' (List.mem_cons_of_mem _ he')⟩
  · rw [hfds]
    refine ⟨hown.opening (hrest e List.mem_cons_self) hos, hnd', ?_⟩
    intro e' he'
    have hne : e' ≠ e := by
      rintro rfl
      exact hnotin he'
    rw [Function.update_of_ne hne]
    exact hrest e' (List.mem_cons_of_mem _ he')

/-- A failed answer that is not stored changes neither the entries nor what is held. -/
theorem Owns.failing (h : Owns fds log) {pe : PerfEventAttr} {g fd : ℤ} (hfd : fd < 0)
    (hcall : logCall log (.perfEventOpen pe g fd) = some log') : Owns fds log' := by
  have hlog : log' = log ++ [.perfEventOpen pe g fd] := by
    simp only [logCall] at hcall
    split_ifs at hcall
    exact (Option.some.inj hcall).symm
  have hheld : held log' = held log := by
    rw [hlog, held_append_singleton]
    simp [heldStep, hfd.not_ge]
  refine ⟨hheld ▸ h.nodup, hheld ▸ h.mem_iff, h.entry_inj, ?_⟩
  rw [hlog]
  exact h.closesHeld.concat (by rintro fd' ⟨⟩)

/-- `resetEvents` keeps the ownership invariant; when the leader fails nothing stays open. -/
theorem resetEvents_owns (h : resetEvents logCall arch answer eventMask s = some s')
    (hs : Owns s.prof.mCountersFd s.os) :
    Owns s'.prof.mCountersFd s'.os ∧
      (answer .instructions < 0 → ∀ e, s'.prof.mCountersFd e < 0) := by
  obtain ⟨s₁, os, hclose, hos, hcases⟩ := resetEvents_cases h
  have hown := closeAll_owns hclose hs
  have hneg := closeAll_neg hclose
  obtain ⟨hfail, rfl⟩ | ⟨h0, o, hloop, rfl⟩ := hcases
  · exact ⟨hown.failing hfail hos, fun _ => hneg⟩
  · have := run_invariant_rest
      (fun rest (o : Opening (List Syscall)) =>
        Owns o.prof.mCountersFd o.os ∧ rest.Nodup ∧ ∀ e ∈ rest, o.prof.mCountersFd e < 0)
      (fun _ _ _ _ h => openMember_owns h) hloop
      ⟨hown.opening (hneg .instructions) hos, by decide, by
        intro e he
        have hne : e ≠ .instructions := by
          rintro rfl
          simp [memberOrder] at he
        simpa [storeLeader, hne] using hneg e⟩
    exact ⟨this.1, fun hlt => absurd h0 (by omega)⟩

/-- The destructor's loop: the entries still to visit are the ones still held. -/
theorem closeFd_owns {p : Profiler} {rest : List Event}
    (h : closeFd logCall p log e = some log')
    (hs : Owns (fun e' => if e' ∈ e :: rest then p.mCountersFd e' else -1) log ∧
      (e :: rest).Nodup) :
    Owns (fun e' => if e' ∈ rest then p.mCountersFd e' else -1) log' ∧ rest.Nodup := by
  obtain ⟨hown, hnd⟩ := hs
  obtain ⟨hnotin, hnd'⟩ := List.nodup_cons.mp hnd
  refine ⟨?_, hnd'⟩
  unfold closeFd at h
  split_ifs at h with h0
  · obtain rfl := Option.some.inj h
    have := hown.closing (e := e) (by simpa using h0)
    simp only [List.mem_cons_self, if_true] at this
    convert this using 1
    funext e'
    by_cases hee : e' = e
    · subst hee
      simp [hnotin]
    · simp [hee]
  · obtain rfl := Option.some.inj h
    -- the entry is not open, so counting it as closed changes nothing that is held
    have hval : ∀ e', 0 ≤ (if e' ∈ e :: rest then p.mCountersFd e' else -1) → e' ≠ e := by
      rintro e' hpos rfl
      simp only [List.mem_cons_self, if_true] at hpos
      omega
    have hagree : ∀ e', e' ≠ e →
        (if e' ∈ e :: rest then p.mCountersFd e' else -1) =
          if e' ∈ rest then p.mCountersFd e' else -1 := by
      intro e' hne
      simp [hne]
    have hopen : ∀ e', 0 ≤ (if e' ∈ rest then p.mCountersFd e' else -1) → e' ≠ e := by
      rintro e' hpos rfl
      simp [hnotin] at hpos
    refine ⟨hown.nodup, ?_, ?_, hown.closesHeld⟩
    · intro fd
      rw [hown.mem_iff]
      constructor
      · rintro ⟨hfd, e', rfl⟩
        exact ⟨hfd, e', (hagree e' (hval e' hfd)).symm⟩
      · rintro ⟨hfd, e', rfl⟩
        exact ⟨hfd, e', hagree e' (hopen e' hfd)⟩
    · intro e₁ e₂ h1 h12
      have n1 := hopen e₁ h1
      have n2 := hopen e₂ (h12 ▸ h1)
      rw [← hagree e₁ n1] at h1 h12
      rw [← hagree e₂ n2] at h12
      exact hown.entry_inj e₁ e₂ h1 h12

/-- The destructor always runs to its end, and nothing is held after it. -/
theorem destroy_owns (hs : Owns s.prof.mCountersFd s.os) :
    ∃ log, destroy logCall s = some log ∧ held log = [] ∧ ClosesHeld log := by
  have hsome : ∀ (es : List Event) (log₀ : List Syscall),
      ∃ log', run (closeFd logCall s.prof) log₀ es = some log' := by
    intro es
    induction es with
    | nil => exact fun log => ⟨log, rfl⟩
    | cons e es ih =>
        intro log
        obtain ⟨log₁, h₁⟩ : ∃ log₁, closeFd logCall s.prof log e = some log₁ := by
          unfold closeFd
          split_ifs
          · exact ⟨_, rfl⟩
          · exact ⟨_, rfl⟩
        obtain ⟨log₂, h₂⟩ := ih log₁
        exact ⟨log₂, by rw [run_cons, h₁]; exact h₂⟩
  obtain ⟨log, hlog⟩ := hsome Event.all s.os
  have hinit : Owns (fun e => if e ∈ Event.all then s.prof.mCountersFd e else -1) s.os := by
    simpa [Event.mem_all] using hs
  have := run_invariant_rest
    (fun rest log =>
      Owns (fun e => if e ∈ rest then s.prof.mCountersFd e else -1) log ∧ rest.Nodup)
    (fun _ _ _ _ h => closeFd_owns h) hlog ⟨hinit, by decide⟩
  exact ⟨log, hlog, this.1.held_eq_nil (by simp), this.1.closesHeld⟩

/-! ### The life of the object -/

/-- A call in the life of the object. -/
def resetStep (arch : Arch) (s : Sys (List Syscall)) (c : ResetCall) :
    Option (Sys (List Syscall)) := resetEvents logCall arch c.answer c.eventMask s

/-- The constructor, then the calls. -/
def lifetime (arch : Arch) (mIds : Event → ℕ) (first : Event → ℤ) (calls : List ResetCall) :
    Option (Sys (List Syscall)) :=
  (construct logCall arch first mIds []).bind (fun s => run (resetStep arch) s calls)

theorem lifetime_owns {mIds : Event → ℕ} {first : Event → ℤ} {calls : List ResetCall}
    (h : lifetime arch mIds first calls = some s) : Owns s.prof.mCountersFd s.os := by
  obtain ⟨s₀, h₀, hrun⟩ := Option.bind_eq_some_iff.mp h
  exact run_invariant (fun s : Sys (List Syscall) => Owns s.prof.mCountersFd s.os)
    (fun _ _ _ h hs => (resetEvents_owns h hs).1) hrun (resetEvents_owns h₀ Owns.initial).1

/-- A failed leader leaves nothing held and an object that is not valid. -/
theorem nothing_held (hs : Owns s.prof.mCountersFd s.os) (hneg : ∀ e, s.prof.mCountersFd e < 0) :
    held s.os = [] ∧ s.prof.isValid = false := by
  refine ⟨hs.held_eq_nil hneg, ?_⟩
  have := hneg .instructions
  simp only [Profiler.isValid, decide_eq_false_iff_not]
  omega

/-- **Descriptor ownership over the life of the object.**  After the constructor and any calls
of `resetEvents` the held descriptors are the non-negative entries of `mCountersFd`, each once;
a call whose leader fails leaves none and an invalid object; and after the destructor none is
held, every `close` was of a held descriptor, and each descriptor was closed as often as it was
opened. -/
theorem lifetime_descriptors (arch : Arch) (mIds : Event → ℕ) (first : Event → ℤ)
    (calls : List ResetCall) (s : Sys (List Syscall))
    (h : lifetime arch mIds first calls = some s) :
    (held s.os).Nodup ∧
    (held s.os).Perm ((Event.all.map s.prof.mCountersFd).filter (fun fd => decide (0 ≤ fd))) ∧
    (calls = [] → first .instructions < 0 → held s.os = [] ∧ s.prof.isValid = false) ∧
    (∀ c s', resetStep arch s c = some s' → c.answer .instructions < 0 →
      held s'.os = [] ∧ s'.prof.isValid = false) ∧
    ∃ log, destroy logCall s = some log ∧ held log = [] ∧ ClosesHeld log ∧
      ∀ fd, 0 ≤ fd → log.countP (opens fd) = log.countP (closes fd) := by
  have hown := lifetime_owns h
  refine ⟨hown.nodup, hown.perm, ?_, ?_, ?_⟩
  · rintro rfl hfail
    obtain ⟨s₀, h₀, hrun⟩ := Option.bind_eq_some_iff.mp h
    obtain rfl := Option.some.inj hrun
    exact nothing_held hown ((resetEvents_owns h₀ Owns.initial).2 hfail)
  · intro c s' hstep hfail
    obtain ⟨hown', hneg⟩ := resetEvents_owns hstep hown
    exact nothing_held hown' (hneg hfail)
  · obtain ⟨log, hlog, hnil, hcloses⟩ := destroy_owns hown
    refine ⟨log, hlog, hnil, hcloses, fun fd hfd => ?_⟩
    have := count_held hfd log hcloses
    rw [hnil, List.count_nil] at this
    omega

/-- A leader at descriptor 5, a member at descriptor 0, then a call whose leader fails. -/
theorem lifetime_descriptors_zero :
    ∃ s, lifetime .other (fun _ => 0)
        (fun e => if e = .instructions then 5 else if e = .cpuCycles then 0 else -1)
        [⟨EV_CPU_CYCLES, fun _ => -1⟩] = some s ∧
      (held s.os).Nodup ∧
      ∃ log, destroy logCall s = some log ∧ held log = [] ∧
        log.countP (opens 0) = log.countP (closes 0) := by
  have hsome : (lifetime .other (fun _ => 0)
      (fun e => if e = .instructions then 5 else if e = .cpuCycles then 0 else -1)
      [⟨EV_CPU_CYCLES, fun _ => -1⟩]).isSome = true := by decide
  obtain ⟨s, hs⟩ := Option.isSome_iff_exists.mp hsome
  obtain ⟨hnd, -, -, -, log, hlog, hnil, -, hcount⟩ := lifetime_descriptors _ _ _ _ s hs
  exact ⟨s, hs, hnd, log, hlog, hnil, hcount 0 le_rfl⟩

end PlayWithOpencv.Perf
