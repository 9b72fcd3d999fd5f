import Mathlib.Data.List.Basic

/-! # Executions of a machine

A machine is a function `step : σ → Option σ` that gives the next state, or `none` where the
machine has halted.  Some states show something (`obs`), and `Exec n s bs t` says that `n` steps
lead from `s` to `t` and show `bs` on the way, the last state left out.

`Exec.trans` composes executions, `Exec.split` cuts one at the end of a shorter one, and `endless`
says that a machine which keeps coming back to a set of states never halts. -/

variable {σ β : Type*}

/-- `n` steps lead from one state to another and show the observations. -/
inductive Exec (step : σ → Option σ) (obs : σ → Option β) : ℕ → σ → List β → σ → Prop
  | refl (s : σ) : Exec step obs 0 s [] s
  | cons {n : ℕ} {s s' s'' : σ} {bs : List β} (hstep : step s = some s')
      (hrest : Exec step obs n s' bs s'') : Exec step obs (n + 1) s ((obs s).toList ++ bs) s''

namespace Exec

variable {step : σ → Option σ} {obs : σ → Option β} {n m : ℕ} {s t u : σ} {bs cs : List β}

theorem trans (h : Exec step obs n s bs t) (h' : Exec step obs m t cs u) :
    Exec step obs (n + m) s (bs ++ cs) u := by
  induction h with
  | refl s => simpa using h'
  | @cons n s s' s'' bs hstep _ ih =>
      rw [List.append_assoc, Nat.add_right_comm]
      exact .cons hstep (ih h')

/-- A step that shows nothing. -/
theorem silent (hstep : step s = some t) (hobs : obs s = none) : Exec step obs 1 s [] t := by
  have h : Exec step obs (0 + 1) s _ t := .cons hstep (.refl t)
  rwa [hobs] at h

/-- A step that shows `b`. -/
theorem shown {b : β} (hstep : step s = some t) (hobs : obs s = some b) :
    Exec step obs 1 s [b] t := by
  have h : Exec step obs (0 + 1) s _ t := .cons hstep (.refl t)
  rwa [hobs] at h

/-- The machine is deterministic: a longer execution goes on from the end of a shorter one. -/
theorem split (h : Exec step obs n s bs t) (h' : Exec step obs m s cs u) (hle : m ≤ n) :
    ∃ bs', bs = cs ++ bs' ∧ Exec step obs (n - m) u bs' t := by
  induction h' generalizing n bs with
  | refl s => exact ⟨bs, rfl, h⟩
  | @cons m s s' u cs hstep _ ih =>
      cases h with
      | refl => omega
      | @cons n _ s₁ _ bs hstep₁ hrest =>
          obtain rfl := Option.some.inj (hstep.symm.trans hstep₁)
          obtain ⟨bs', rfl, hbs'⟩ := ih hrest (by omega)
          rw [Nat.add_sub_add_right]
          exact ⟨bs', (List.append_assoc _ _ _).symm, hbs'⟩

theorem zero_of_halted (hhalt : step s = none) (h : Exec step obs n s bs t) :
    n = 0 ∧ bs = [] ∧ t = s := by
  cases h with
  | refl => exact ⟨rfl, rfl, rfl⟩
  | cons hstep =>
      rw [hhalt] at hstep
      cases hstep

end Exec

/-- **Endless execution**: a machine that always comes back to `P` never halts. -/
theorem endless {step : σ → Option σ} {obs : σ → Option β} {P : σ → Prop}
    (hback : ∀ s, P s → ∃ n bs s', Exec step obs (n + 1) s bs s' ∧ P s') {m : ℕ} {s t : σ}
    {cs : List β} (hs : P s) (h : Exec step obs m s cs t) : step t ≠ none := by
  induction m using Nat.strongRecOn generalizing s cs with
  | ind m ih =>
      intro hhalt
      obtain ⟨n, bs, s', hs', hP⟩ := hback s hs
      rcases Nat.le_total (n + 1) m with hle | hle
      · obtain ⟨cs', -, hrest⟩ := h.split hs' hle
        exact ih (m - (n + 1)) (by omega) hP hrest hhalt
      · obtain ⟨bs', -, hrest⟩ := hs'.split h hle
        obtain ⟨hzero, -, rfl⟩ := Exec.zero_of_halted hhalt hrest
        -- the machine halts in `s'` itself, but it comes back from there
        obtain ⟨k, ds, s'', hs'', -⟩ := hback s' hP
        have hk := (Exec.zero_of_halted hhalt hs'').1
        omega
