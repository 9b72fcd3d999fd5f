import Mathlib.Algebra.Order.BigOperators.Expect
import Mathlib.Analysis.SpecialFunctions.Complex.Arg
import Mathlib.LinearAlgebra.Matrix.Charpoly.Coeff
import Mathlib.LinearAlgebra.Matrix.PosDef

/-! # Symmetric tensors of order two, and averages

General facts about `!![a, c; c, b]` over the reals, about averages over a finite family, and
about the direction of a plane vector.

* `radius a b c` is the square root in the closed form of the eigenvalues; `tensor_roots` is that
  form, `radius_le` the bound that makes both eigenvalues non-negative.
* `tensor_expect_posSemidef`: averages of `u ^ 2`, `v ^ 2` and `u * v` form a positive
  semidefinite tensor, because its value in a direction is an average of squares;
  `sq_expect_mul_le` and `sq_expect_le` are the two inequalities this contains.
* `arg_mk_eq_iff` compares the directions of two vectors with the same height. -/

open scoped BigOperators

namespace SymmTensor

/-! ### Eigenvalues in closed form -/

/-- The distance of the two eigenvalues of `!![a, c; c, b]`. -/
noncomputable def radius (a b c : ℝ) : ℝ := √((a - b) ^ 2 + (c + c) ^ 2)

theorem radicand_nonneg (a b c : ℝ) : 0 ≤ (a - b) ^ 2 + 4 * c ^ 2 := by positivity

theorem radius_eq (a b c : ℝ) : radius a b c = √((a - b) ^ 2 + 4 * c ^ 2) := by
  unfold radius
  congr 1
  ring

theorem radius_nonneg (a b c : ℝ) : 0 ≤ radius a b c := Real.sqrt_nonneg _

theorem radius_sq (a b c : ℝ) : radius a b c ^ 2 = (a - b) ^ 2 + 4 * c ^ 2 := by
  rw [radius_eq, Real.sq_sqrt (radicand_nonneg a b c)]

/-- Without an off-diagonal entry the square root is a distance. -/
theorem radius_zero (a b : ℝ) : radius a b 0 = |a - b| := by
  rw [radius_eq, ← Real.sqrt_sq_eq_abs]
  congr 1
  ring

/-- The distance of the eigenvalues of a multiple. -/
theorem radius_mul {t : ℝ} (ht : 0 ≤ t) (a b c : ℝ) :
    radius (t * a) (t * b) (t * c) = t * radius a b c := by
  have hscale : (t * a - t * b) ^ 2 + (t * c + t * c) ^ 2 =
      t ^ 2 * ((a - b) ^ 2 + (c + c) ^ 2) := by ring
  unfold radius
  rw [hscale, Real.sqrt_mul (sq_nonneg t), Real.sqrt_sq ht]

theorem radius_le {a b c : ℝ} (hab : 0 ≤ a + b) (hc : c ^ 2 ≤ a * b) : radius a b c ≤ a + b := by
  rw [radius_eq]
  apply Real.sqrt_le_iff.mpr
  refine ⟨hab, ?_⟩
  have : (a + b) ^ 2 = (a - b) ^ 2 + 4 * (a * b) := by ring
  linarith

theorem charpoly_of_sum_mul {a b c μ ν : ℝ} (hsum : a + b = μ + ν)
    (hmul : a * b - c * c = μ * ν) :
    (!![a, c; c, b]).charpoly =
      (Polynomial.X - Polynomial.C μ) * (Polynomial.X - Polynomial.C ν) := by
  rw [Matrix.charpoly_fin_two, Matrix.trace_fin_two_of, Matrix.det_fin_two_of, hsum, hmul,
    Polynomial.C_add, Polynomial.C_mul]
  ring

/-- **The eigenvalues**, with multiplicity. -/
theorem tensor_roots (a b c : ℝ) :
    (!![a, c; c, b]).charpoly.roots =
      {(a + b + radius a b c) / 2, (a + b - radius a b c) / 2} := by
  have hsum : a + b = (a + b + radius a b c) / 2 + (a + b - radius a b c) / 2 := by ring
  have hmul : a * b - c * c = (a + b + radius a b c) / 2 * ((a + b - radius a b c) / 2) := by
    have := radius_sq a b c
    linarith
  rw [charpoly_of_sum_mul hsum hmul, Polynomial.roots_mul (mul_ne_zero (Polynomial.X_sub_C_ne_zero _)
    (Polynomial.X_sub_C_ne_zero _)), Polynomial.roots_X_sub_C, Polynomial.roots_X_sub_C]
  rfl

/-! ### Averages -/

section Averages

/-- The instance all averages over the reals share. -/
instance charZero_real : CharZero ℝ := inferInstance

variable {ι : Type*} [Fintype ι]

theorem expect_sq_nonneg (u : ι → ℝ) : 0 ≤ 𝔼 k, u k ^ 2 :=
  Finset.expect_nonneg fun k _ => sq_nonneg (u k)

theorem expect_sq_eq_zero_iff (u : ι → ℝ) : 𝔼 k, u k ^ 2 = 0 ↔ ∀ k, u k = 0 := by
  rw [Finset.expect_eq_zero_iff_of_nonneg fun k _ => sq_nonneg (u k)]
  simp

theorem sq_expect_mul_le (u v : ι → ℝ) :
    (𝔼 k, u k * v k) ^ 2 ≤ (𝔼 k, u k ^ 2) * 𝔼 k, v k ^ 2 :=
  Finset.expect_mul_sq_le_sq_mul_sq Finset.univ u v

theorem sq_expect_le (u : ι → ℝ) : (𝔼 k, u k) ^ 2 ≤ 𝔼 k, u k ^ 2 := by
  rcases isEmpty_or_nonempty ι with hι | hι
  · simp
  · simpa using sq_expect_mul_le u 1

/-- The value of the averaged tensor in a direction is an average of squares. -/
theorem tensor_expect_apply (u v : ι → ℝ) (x y : ℝ) :
    (𝔼 k, u k ^ 2) * x ^ 2 + 2 * (𝔼 k, u k * v k) * (x * y) + (𝔼 k, v k ^ 2) * y ^ 2 =
      𝔼 k, (u k * x + v k * y) ^ 2 := by
  have hsq : ∀ k, (u k * x + v k * y) ^ 2 =
      u k ^ 2 * x ^ 2 + u k * v k * (2 * (x * y)) + v k ^ 2 * y ^ 2 := fun k => by ring
  simp only [hsq, Finset.expect_add_distrib, ← Finset.expect_mul]
  ring

theorem tensor_expect_posSemidef (u v : ι → ℝ) :
    (!![𝔼 k, u k ^ 2, 𝔼 k, u k * v k; 𝔼 k, u k * v k, 𝔼 k, v k ^ 2]).PosSemidef := by
  refine .of_dotProduct_mulVec_nonneg ?_ fun x => ?_
  · ext i j
    fin_cases i <;> fin_cases j <;> rfl
  · have h := tensor_expect_apply u v (x 0) (x 1)
    have hnonneg : 0 ≤ 𝔼 k, (u k * x 0 + v k * x 1) ^ 2 :=
      Finset.expect_nonneg fun k _ => sq_nonneg _
    simp only [Matrix.mulVec, dotProduct, Fin.sum_univ_two, star_trivial, Pi.star_apply,
      Matrix.of_apply, Matrix.cons_val_zero, Matrix.cons_val_one]
    linarith

end Averages

/-! ### Directions -/

/-- Two vectors of one height have the same direction when they are equal, or when they lie on
the same side of the horizontal axis. -/
theorem arg_mk_eq_iff (x x' y : ℝ) :
    Complex.arg ⟨x, y⟩ = Complex.arg ⟨x', y⟩ ↔ (y ≠ 0 ∧ x = x') ∨ (y = 0 ∧ (x < 0 ↔ x' < 0)) := by
  by_cases hy : y = 0
  · subst hy
    have harg : ∀ t : ℝ, Complex.arg ⟨t, 0⟩ = if t < 0 then Real.pi else 0 := by
      intro t
      split_ifs with ht
      · exact Complex.arg_eq_pi_iff.mpr ⟨ht, rfl⟩
      · exact Complex.arg_eq_zero_iff.mpr ⟨not_lt.mp ht, rfl⟩
    rw [harg, harg]
    split_ifs with hx hx' hx' <;> simp [hx, hx', Real.pi_ne_zero, Real.pi_ne_zero.symm]
  · constructor
    · intro h
      have htan := congrArg Real.tan h
      rw [Complex.tan_arg, Complex.tan_arg, div_eq_mul_inv, div_eq_mul_inv] at htan
      exact .inl ⟨hy, inv_injective (mul_left_cancel₀ hy htan)⟩
    · rintro (⟨-, rfl⟩ | ⟨h, -⟩)
      · rfl
      · exact absurd h hy

/-! ### The values of a tensor -/

/-- The value of `!![a, c; c, b]` in the direction `(cos t, -sin t)`. -/
noncomputable def along (a b c t : ℝ) : ℝ :=
  a * Real.cos t ^ 2 - (c + c) * (Real.sin t * Real.cos t) + b * Real.sin t ^ 2

theorem norm_mk (a b c : ℝ) : ‖(⟨b - a, 2 * c⟩ : ℂ)‖ = radius a b c := by
  rw [Complex.norm_def, Complex.normSq_mk]
  unfold radius
  congr 1
  ring

/-- **The values** go around once in half a turn. -/
theorem along_eq (a b c t : ℝ) : along a b c t =
    (a + b - radius a b c * Real.cos (2 * t - Complex.arg ⟨b - a, 2 * c⟩)) / 2 := by
  have hcos := Complex.norm_mul_cos_arg ⟨b - a, 2 * c⟩
  have hsin := Complex.norm_mul_sin_arg ⟨b - a, 2 * c⟩
  rw [norm_mk] at hcos hsin
  have hsq := Real.sin_sq_add_cos_sq t
  have hsplit : radius a b c * Real.cos (2 * t - Complex.arg ⟨b - a, 2 * c⟩) =
      (b - a) * Real.cos (2 * t) + 2 * c * Real.sin (2 * t) := by
    calc radius a b c * Real.cos (2 * t - Complex.arg ⟨b - a, 2 * c⟩)
        = radius a b c * Real.cos (Complex.arg ⟨b - a, 2 * c⟩) * Real.cos (2 * t) +
            radius a b c * Real.sin (Complex.arg ⟨b - a, 2 * c⟩) * Real.sin (2 * t) := by
          rw [Real.cos_sub]
          ring
      _ = (b - a) * Real.cos (2 * t) + 2 * c * Real.sin (2 * t) := by rw [hcos, hsin]
  rw [hsplit, Real.cos_two_mul, Real.sin_two_mul]
  unfold along
  have hsin_sq : Real.sin t ^ 2 = 1 - Real.cos t ^ 2 := by linarith
  rw [hsin_sq]
  ring

/-- No value is below the smaller eigenvalue. -/
theorem le_along (a b c t : ℝ) : (a + b - radius a b c) / 2 ≤ along a b c t := by
  rw [along_eq]
  have := mul_le_mul_of_nonneg_left (Real.cos_le_one (2 * t - Complex.arg ⟨b - a, 2 * c⟩))
    (radius_nonneg a b c)
  linarith

theorem along_quarter (a b c t : ℝ) : along a b c (t + Real.pi / 2) = a + b - along a b c t := by
  have hsq := Real.sin_sq_add_cos_sq t
  unfold along
  rw [Real.cos_add_pi_div_two, Real.sin_add_pi_div_two]
  have hsin_sq : Real.sin t ^ 2 = 1 - Real.cos t ^ 2 := by linarith
  rw [neg_sq, hsin_sq]
  ring

/-- A direction of the smaller eigenvalue. -/
theorem along_of_cos {a b c t : ℝ} (h : Real.cos (2 * t - Complex.arg ⟨b - a, 2 * c⟩) = 1) :
    along a b c t = (a + b - radius a b c) / 2 := by
  rw [along_eq, h, mul_one]

/-- **The smallest value** is the smaller eigenvalue. -/
theorem least_iff (a b c t : ℝ) :
    (∀ s, along a b c t ≤ along a b c s) ↔ along a b c t = (a + b - radius a b c) / 2 := by
  constructor
  · intro h
    apply le_antisymm _ (le_along a b c t)
    have hhalf : along a b c (Complex.arg ⟨b - a, 2 * c⟩ / 2) = (a + b - radius a b c) / 2 := by
      apply along_of_cos
      rw [mul_div_cancel₀ _ two_ne_zero, sub_self, Real.cos_zero]
    exact hhalf ▸ h _
  · intro h s
    rw [h]
    exact le_along a b c s

/-- Two different eigenvalues: the directions of the smaller one are half a turn apart. -/
theorem cos_of_along {a b c t : ℝ} (hne : radius a b c ≠ 0)
    (h : along a b c t = (a + b - radius a b c) / 2) :
    Real.cos (2 * t - Complex.arg ⟨b - a, 2 * c⟩) = 1 := by
  rw [along_eq] at h
  have hmul : radius a b c * Real.cos (2 * t - Complex.arg ⟨b - a, 2 * c⟩) = radius a b c * 1 := by
    linarith
  exact mul_left_cancel₀ hne hmul

end SymmTensor
