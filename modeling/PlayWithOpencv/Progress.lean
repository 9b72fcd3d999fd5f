import PlayWithOpencv.PartialRun

/-! # Schedules that come to an end

In a system of several parties a state may allow steps of several of them, and a schedule takes
them in any order.  Some of the inputs are internal: the parties take them by themselves.  A system
is quiet when it has nothing to do by itself any more.

`Progress` collects what shows that every schedule becomes quiet: an invariant, a measure that
every internal step lowers, and a step for every state that is not quiet.  From it,
`Progress.length_le` bounds the internal steps of every schedule, and `Progress.quiet_of_stuck`
says that a schedule that cannot be continued has become quiet. -/

open PartialRun

variable {σ ι : Type*}

/-- A measure of what the internal steps have left to do. -/
structure Progress (step : σ → ι → Option σ) (internal : ι → Prop) (quiet : σ → Prop)
    (inv : σ → Prop) (μ : σ → ℕ) : Prop where
  keeps : ∀ s i s', inv s → internal i → step s i = some s' → inv s'
  lowers : ∀ s i s', inv s → internal i → step s i = some s' → μ s' < μ s
  enabled : ∀ s, inv s → ¬ quiet s → ∃ i s', internal i ∧ step s i = some s'

namespace Progress

variable {step : σ → ι → Option σ} {internal : ι → Prop} {quiet inv : σ → Prop} {μ : σ → ℕ}

theorem inv_run (h : Progress step internal quiet inv μ) {is : List ι} {s s' : σ}
    (hint : ∀ i ∈ is, internal i) (hrun : run step s is = some s') (hs : inv s) : inv s' := by
  refine (run_invariant_rest (fun is s => (∀ i ∈ is, internal i) ∧ inv s) ?_ hrun ⟨hint, hs⟩).2
  rintro s i is s' hstep ⟨hi, hs⟩
  refine ⟨fun j hj => hi j (List.mem_cons_of_mem i hj), ?_⟩
  exact h.keeps s i s' hs (hi i List.mem_cons_self) hstep

/-- **Bound**: a schedule has no more internal steps than the measure says. -/
theorem length_le (h : Progress step internal quiet inv μ) {is : List ι} {s s' : σ}
    (hint : ∀ i ∈ is, internal i) (hrun : run step s is = some s') (hs : inv s) :
    is.length + μ s' ≤ μ s := by
  induction is generalizing s with
  | nil =>
      obtain rfl : s = s' := Option.some.inj hrun
      simp
  | cons i is ih =>
      obtain ⟨s₁, h₁, h₂⟩ := run_cons_some hrun
      have hi := hint i List.mem_cons_self
      have hrest := ih (fun j hj => hint j (List.mem_cons_of_mem i hj)) h₂ (h.keeps s i s₁ hs hi h₁)
      have hlow := h.lowers s i s₁ hs hi h₁
      rw [List.length_cons]
      omega

/-- **No deadlock**: where no internal step is possible, the system is quiet. -/
theorem quiet_of_stuck (h : Progress step internal quiet inv μ) {s : σ} (hs : inv s)
    (hstuck : ∀ i, internal i → step s i = none) : quiet s := by
  by_contra hq
  obtain ⟨i, s', hi, hstep⟩ := h.enabled s hs hq
  rw [hstuck i hi] at hstep
  cases hstep

end Progress
