import Mathlib.Data.List.Induction

/-! # Runs of a partial step function

A system is a function `step : σ → ι → Option σ`: from a state and an input it gives the
next state, or `none` when the step cannot be taken (the loop has left, or the environment
would not answer so).  A run over a list of inputs is `run step s is`, a fold in `Option`.

* `run_append`, `run_concat` cut a run at a point or take its last step off.
* `run_invariant` is the induction over a run; `run_invariant_rest` is the same induction
  for a property that speaks of the inputs still to come, the form a loop over a fixed list
  needs ("the entries not visited yet are still unset"), and `run_history` the one for a property
  that speaks of the inputs so far.
* `Along step P s is` says that `P` holds of every step the run actually takes, in the state
  the step starts from.  It is how "in every run whose steps all meet the condition" is
  stated: `Along.intro` derives it from an invariant, `Along.imp` carries a condition on the
  steps together with the invariant it maintains, `Along.history` gives an invariant of its
  own to every prefix of such a run, and `along_iff` compares two conditions that agree on
  reachable states. -/

namespace PartialRun

variable {σ ι : Type*} (step : σ → ι → Option σ)

/-- The state after the inputs, if every step could be taken. -/
def run (s : σ) (is : List ι) : Option σ := is.foldlM step s

@[simp] theorem run_nil (s : σ) : run step s [] = some s := rfl

@[simp] theorem run_cons (s : σ) (i : ι) (is : List ι) :
    run step s (i :: is) = (step s i).bind (fun s' => run step s' is) := rfl

theorem run_append (s : σ) (is js : List ι) :
    run step s (is ++ js) = (run step s is).bind (fun s' => run step s' js) :=
  List.foldlM_append

theorem run_concat (s : σ) (is : List ι) (i : ι) :
    run step s (is ++ [i]) = (run step s is).bind (fun s' => step s' i) := by
  rw [run_append]
  congr 1
  funext s'
  simp

variable {step}

/-- A step at the head of a run. -/
theorem run_cons_some {s s' : σ} {i : ι} {is : List ι} (h : run step s (i :: is) = some s') :
    ∃ s₁, step s i = some s₁ ∧ run step s₁ is = some s' := by
  rw [run_cons] at h
  exact Option.bind_eq_some_iff.mp h

/-- A step at the end of a run. -/
theorem run_concat_some {s s' : σ} {i : ι} {is : List ι}
    (h : run step s (is ++ [i]) = some s') :
    ∃ s₁, run step s is = some s₁ ∧ step s₁ i = some s' := by
  rw [run_concat] at h
  exact Option.bind_eq_some_iff.mp h

/-- **Invariant rule for loops**: a property of the state and of the inputs still to come. -/
theorem run_invariant_rest (Inv : List ι → σ → Prop)
    (hstep : ∀ s i is s', step s i = some s' → Inv (i :: is) s → Inv is s') :
    ∀ {is : List ι} {s s' : σ}, run step s is = some s' → Inv is s → Inv [] s'
  | [], s, s', h, hs => by
      obtain rfl : s = s' := Option.some.inj h
      exact hs
  | i :: is, s, s', h, hs => by
      obtain ⟨s₁, h₁, h₂⟩ := run_cons_some h
      exact run_invariant_rest Inv hstep h₂ (hstep s i is s₁ h₁ hs)

/-- **Invariant rule**: what every step preserves, every run preserves. -/
theorem run_invariant (Inv : σ → Prop)
    (hstep : ∀ s i s', step s i = some s' → Inv s → Inv s')
    {is : List ι} {s s' : σ} (h : run step s is = some s') (hs : Inv s) : Inv s' :=
  run_invariant_rest (fun _ => Inv) (fun s i _ s' => hstep s i s') h hs

/-- **Invariant rule with the inputs so far**: `Inv` speaks of them and of the state they lead to. -/
theorem run_history {s₀ : σ} (Inv : List ι → σ → Prop) (h₀ : Inv [] s₀)
    (hstep : ∀ js i s s', Inv js s → step s i = some s' → Inv (js ++ [i]) s') {is : List ι} :
    ∀ {s : σ}, run step s₀ is = some s → Inv is s := by
  induction is using List.reverseRecOn with
  | nil =>
      intro s hrun
      obtain rfl : s₀ = s := Option.some.inj hrun
      exact h₀
  | append_singleton js i ih =>
      intro s' hrun
      obtain ⟨s, hjs, hi⟩ := run_concat_some hrun
      exact hstep js i s s' (ih hjs) hi

/-! ### Conditions on every step of a run -/

variable (step) in
/-- `P` holds of every step the run takes, in the state the step starts from. -/
def Along (P : σ → ι → Prop) : σ → List ι → Prop
  | _, [] => True
  | s, i :: is => P s i ∧ ∀ s', step s i = some s' → Along P s' is

instance Along.decidable {P : σ → ι → Prop} [∀ s i, Decidable (P s i)] :
    ∀ (s : σ) (is : List ι), Decidable (Along step P s is)
  | _, [] => .isTrue trivial
  | s, i :: is =>
      have : ∀ s', Decidable (Along step P s' is) := fun s' => Along.decidable s' is
      inferInstanceAs (Decidable (P s i ∧ ∀ s', step s i = some s' → Along step P s' is))

/-- What holds of every step from a state with the invariant holds along every run. -/
theorem Along.intro {P : σ → ι → Prop} (Inv : σ → Prop)
    (hP : ∀ s i, Inv s → P s i)
    (hstep : ∀ s i s', Inv s → step s i = some s' → Inv s') :
    ∀ (is : List ι) {s : σ}, Inv s → Along step P s is
  | [], _, _ => trivial
  | i :: is, s, hs => ⟨hP s i hs, fun s' h => Along.intro Inv hP hstep is (hstep s i s' hs h)⟩

/-- A condition met by every step gives `Q` of every step, when the condition maintains an
invariant under which it implies `Q`. -/
theorem Along.imp {P Q : σ → ι → Prop} (Inv : σ → Prop)
    (hQ : ∀ s i, Inv s → P s i → Q s i)
    (hstep : ∀ s i s', Inv s → P s i → step s i = some s' → Inv s') :
    ∀ {is : List ι} {s : σ}, Inv s → Along step P s is → Along step Q s is
  | [], _, _, _ => trivial
  | i :: _, s, hs, ⟨h, hrest⟩ =>
      ⟨hQ s i hs h, fun s' h' => Along.imp Inv hQ hstep (hstep s i s' hs h h') (hrest s' h')⟩

/-- Two conditions that agree wherever the invariant holds agree along every run. -/
theorem along_iff {P Q : σ → ι → Prop} (Inv : σ → Prop)
    (h : ∀ s i, Inv s → (P s i ↔ Q s i))
    (hstep : ∀ s i s', Inv s → step s i = some s' → Inv s')
    {is : List ι} {s : σ} (hs : Inv s) : Along step P s is ↔ Along step Q s is :=
  ⟨Along.imp Inv (fun s i hi => (h s i hi).mp) (fun s i s' hi _ => hstep s i s' hi) hs,
    Along.imp Inv (fun s i hi => (h s i hi).mpr) (fun s i s' hi _ => hstep s i s' hi) hs⟩

/-- The condition at the step a prefix of the run leads to. -/
theorem Along.at {P : σ → ι → Prop} {i : ι} {js : List ι} :
    ∀ {is : List ι} {s s' : σ}, Along step P s (is ++ i :: js) → run step s is = some s' →
      P s' i
  | [], s, s', h, hr => by
      obtain rfl : s = s' := Option.some.inj hr
      exact h.1
  | _ :: _, s, s', h, hr => by
      obtain ⟨s₁, h₁, h₂⟩ := run_cons_some hr
      exact Along.at (h.2 s₁ h₁) h₂

/-- **Invariant rule with a history**: what every step that meets the condition preserves holds
after every prefix of a run whose steps meet it; `Inv` may speak of the inputs so far. -/
theorem Along.history {P : σ → ι → Prop} {s₀ : σ} (Inv : List ι → σ → Prop) (h₀ : Inv [] s₀)
    (hstep : ∀ js i s s', run step s₀ js = some s → Inv js s → P s i → step s i = some s' →
      Inv (js ++ [i]) s') {is : List ι} (h : Along step P s₀ is) :
    ∀ {js : List ι} {s : σ}, js <+: is → run step s₀ js = some s → Inv js s := by
  intro js
  induction js using List.reverseRecOn with
  | nil =>
      intro s _ hrun
      obtain rfl : s₀ = s := Option.some.inj hrun
      exact h₀
  | append_singleton js i ih =>
      intro s' hpre hrun
      obtain ⟨s, hjs, hi⟩ := run_concat_some hrun
      obtain ⟨t, rfl⟩ := hpre
      have hP : P s i := by
        rw [List.append_assoc] at h
        exact h.at hjs
      exact hstep js i s s' hjs (ih (List.append_assoc js [i] t ▸ List.prefix_append _ _) hjs) hP hi

end PartialRun
