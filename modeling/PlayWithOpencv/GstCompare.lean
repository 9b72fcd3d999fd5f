import PlayWithOpencv.CalcGst

/-! # The two functions `calcGST`

`calcGST` of `anisotropic_image_segmentation.cpp` filters the gradients where that of
`image_segment.cpp` filters their squares.  Their outputs agree on an image exactly when, over
every window, the averages of the gradients are one multiple of the averages of their squares
(`Proportional`, `calcGST_agree_iff`); on a falling ramp they do not (`calcGST_ramp`). -/

open scoped BigOperators

namespace PlayWithOpencv.Gst

open SymmTensor

variable {rows cols : ℕ}

/-- The averages of `u`, `v` are a multiple, not zero, of the averages of `u ^ 2`, `v ^ 2`: the
same where the products do not average to zero, and a positive one unless the squares have one
average. -/
def Proportional {ι : Type} [Fintype ι] (u v : ι → ℝ) : Prop :=
  ∃ t : ℝ, t ≠ 0 ∧ 𝔼 k, u k = t * 𝔼 k, u k ^ 2 ∧ 𝔼 k, v k = t * 𝔼 k, v k ^ 2 ∧
    (𝔼 k, u k * v k ≠ 0 → t = 1) ∧ (𝔼 k, u k ^ 2 ≠ 𝔼 k, v k ^ 2 → 0 < t)

/-! ### Angles and coherencies -/

theorem angle_injective {x y x' y' : ℝ} (h : angle x y = angle x' y') :
    Complex.arg ⟨x, y⟩ = Complex.arg ⟨x', y'⟩ := by
  have hscale : (0 : ℝ) < 180 / Real.pi := div_pos (by norm_num) Real.pi_pos
  have hturn : 360 = 2 * Real.pi * (180 / Real.pi) := by
    field_simp
    norm_num
  have hlt := Complex.neg_pi_lt_arg ⟨x, y⟩
  have hle := Complex.arg_le_pi ⟨x, y⟩
  have hlt' := Complex.neg_pi_lt_arg ⟨x', y'⟩
  have hle' := Complex.arg_le_pi ⟨x', y'⟩
  unfold angle at h
  rw [hturn] at h
  -- angles below zero are moved up by a whole turn, which no two others are apart
  split_ifs at h with hneg hneg' hneg'
  · exact mul_right_cancel₀ hscale.ne' (add_right_cancel h)
  · rw [← add_mul] at h
    have := mul_right_cancel₀ hscale.ne' h
    linarith
  · rw [← add_mul] at h
    have := mul_right_cancel₀ hscale.ne' h
    linarith
  · exact mul_right_cancel₀ hscale.ne' h

/-- Two vectors of one height have the same angle when they are equal, or lie on the same side of
the horizontal axis. -/
theorem angle_eq_iff (x x' y : ℝ) :
    angle x y = angle x' y ↔ (y ≠ 0 ∧ x = x') ∨ (y = 0 ∧ (x < 0 ↔ x' < 0)) := by
  rw [← arg_mk_eq_iff]
  constructor
  · exact angle_injective
  · intro h
    unfold angle
    rw [h]

/-- A tensor with an off-diagonal entry has a direction and a coherency that fix it. -/
theorem agree_of_ne {a b p q c : ℝ} (hc : c ≠ 0) (hp : 0 ≤ p) (hq : 0 ≤ q) (hpq : c ^ 2 ≤ p * q)
    (hcoh : coherency a b c = coherency p q c)
    (hang : angle (b - a) (2 * c) = angle (q - p) (2 * c)) :
    a = p ∧ b = q := by
  have hdiff : b - a = q - p := by
    rcases (angle_eq_iff _ _ _).mp hang with ⟨-, h⟩ | ⟨h, -⟩
    · exact h
    · exact absurd h (mul_ne_zero two_ne_zero hc)
  have hprod : 0 < p * q := lt_of_lt_of_le (by positivity) hpq
  have hsum : p + q ≠ 0 := by
    intro h
    obtain ⟨rfl, rfl⟩ := (add_eq_zero_iff_of_nonneg hp hq).mp h
    simp at hprod
  have hradius : radius a b c = radius p q c := by
    unfold radius
    rw [← neg_sub b a, ← neg_sub q p, hdiff]
  have hpos : radius p q c ≠ 0 := by
    intro h
    have hsq := radius_sq p q c
    rw [h] at hsq
    have : 0 < c ^ 2 := by positivity
    nlinarith [sq_nonneg (p - q)]
  unfold coherency at hcoh
  rw [if_neg hsum] at hcoh
  split_ifs at hcoh with h
  rw [hradius, Option.some.injEq, div_eq_div_iff h hsum] at hcoh
  have := mul_left_cancel₀ hpos hcoh
  exact ⟨by linarith, by linarith⟩

/-- Without one, coherency and direction fix the diagonal up to a factor. -/
theorem agree_of_zero {a b p q : ℝ} (hp : 0 ≤ p) (hq : 0 ≤ q) (hpq : p + q ≠ 0)
    (hcoh : coherency a b 0 = coherency p q 0) (hang : angle (b - a) 0 = angle (q - p) 0) :
    ∃ t : ℝ, t ≠ 0 ∧ a = t * p ∧ b = t * q ∧ (p ≠ q → 0 < t) := by
  have hpos : 0 < p + q := lt_of_le_of_ne (add_nonneg hp hq) hpq.symm
  have hside : b < a ↔ q < p := by
    rcases (angle_eq_iff _ _ _).mp hang with ⟨h, -⟩ | ⟨-, h⟩
    · exact absurd rfl h
    · rwa [sub_neg, sub_neg] at h
  unfold coherency at hcoh
  rw [if_neg hpq, radius_zero, radius_zero] at hcoh
  split_ifs at hcoh with hab
  rw [Option.some.injEq, div_eq_div_iff hab hpq] at hcoh
  have hcross : a * q = b * p := by
    by_cases h : q < p
    · rw [abs_of_pos (sub_pos.mpr (hside.mpr h)), abs_of_pos (sub_pos.mpr h)] at hcoh
      linarith
    · have h' : a ≤ b := not_lt.mp fun hba => h (hside.mp hba)
      rw [abs_of_nonpos (sub_nonpos.mpr h'), abs_of_nonpos (sub_nonpos.mpr (not_lt.mp h))] at hcoh
      linarith
  refine ⟨(a + b) / (p + q), div_ne_zero hab hpq, ?_, ?_, fun hne => ?_⟩
  · rw [div_mul_eq_mul_div, eq_div_iff hpq]
    linarith
  · rw [div_mul_eq_mul_div, eq_div_iff hpq]
    linarith
  · -- both sides of the equation of the quotients are non-negative
    have hgap : 0 < |p - q| := abs_pos.mpr (sub_ne_zero.mpr hne)
    have hnonneg : 0 ≤ |p - q| * (a + b) := hcoh ▸ mul_nonneg (abs_nonneg _) hpos.le
    have hab' : 0 ≤ a + b := nonneg_of_mul_nonneg_right hnonneg hgap
    exact div_pos (lt_of_le_of_ne hab' (Ne.symm hab)) hpos

theorem agree_of_multiple {p q t : ℝ} (ht : t ≠ 0) (hpos : p ≠ q → 0 < t) :
    coherency (t * p) (t * q) 0 = coherency p q 0 ∧
      angle (t * q - t * p) 0 = angle (q - p) 0 := by
  by_cases hpq : p = q
  · subst hpq
    constructor
    · unfold coherency
      simp [radius_zero, ← mul_add, ht]
    · rw [sub_self, sub_self]
  · have hpos := hpos hpq
    constructor
    · unfold coherency
      rw [radius_zero, radius_zero, ← mul_add, ← mul_sub, abs_mul, abs_of_pos hpos,
        mul_div_mul_left _ _ ht]
      simp [ht]
    · rw [angle_eq_iff, ← mul_sub]
      refine .inr ⟨rfl, fun h => not_le.mp fun hle => ?_, mul_neg_of_pos_of_neg hpos⟩
      exact absurd h (not_lt.mpr (mul_nonneg hpos.le hle))

/-! ### One pixel, and all -/

theorem agree_iff {ι : Type} [Fintype ι] (u v : ι → ℝ) :
    (coherency (𝔼 k, u k) (𝔼 k, v k) (𝔼 k, u k * v k) =
        coherency (𝔼 k, u k ^ 2) (𝔼 k, v k ^ 2) (𝔼 k, u k * v k) ∧
      angle ((𝔼 k, v k) - 𝔼 k, u k) (2 * 𝔼 k, u k * v k) =
        angle ((𝔼 k, v k ^ 2) - 𝔼 k, u k ^ 2) (2 * 𝔼 k, u k * v k)) ↔ Proportional u v := by
  have hp := expect_sq_nonneg u
  have hq := expect_sq_nonneg v
  have hu := sq_expect_le u
  have hv := sq_expect_le v
  constructor
  · rintro ⟨hcoh, hang⟩
    by_cases hc : 𝔼 k, u k * v k = 0
    · rw [hc, mul_zero] at hang
      rw [hc] at hcoh
      by_cases hpq : (𝔼 k, u k ^ 2) + 𝔼 k, v k ^ 2 = 0
      · -- no gradient in the window: all the averages are zero
        obtain ⟨hp0, hq0⟩ := (add_eq_zero_iff_of_nonneg hp hq).mp hpq
        rw [hp0] at hu
        rw [hq0] at hv
        refine ⟨1, one_ne_zero, ?_, ?_, fun h => absurd hc h, fun _ => one_pos⟩
        · rw [hp0, mul_zero]
          exact pow_eq_zero_iff two_ne_zero |>.mp (le_antisymm hu (sq_nonneg _))
        · rw [hq0, mul_zero]
          exact pow_eq_zero_iff two_ne_zero |>.mp (le_antisymm hv (sq_nonneg _))
      · obtain ⟨t, ht, hut, hvt, hpos⟩ := agree_of_zero hp hq hpq hcoh hang
        exact ⟨t, ht, hut, hvt, fun h => absurd hc h, hpos⟩
    · obtain ⟨hup, hvq⟩ := agree_of_ne hc hp hq (sq_expect_mul_le u v) hcoh hang
      refine ⟨1, one_ne_zero, ?_, ?_, fun _ => rfl, fun _ => one_pos⟩
      · rw [hup, one_mul]
      · rw [hvq, one_mul]
  · rintro ⟨t, ht, hut, hvt, hone, hpos⟩
    rw [hut, hvt]
    by_cases hc : 𝔼 k, u k * v k = 0
    · rw [hc, mul_zero]
      exact agree_of_multiple ht hpos
    · rw [hone hc, one_mul, one_mul]
      exact ⟨rfl, rfl⟩

section AtPixel

variable {cv : Cv ℝ rows cols} {border : Border rows cols} (hcv : cv.Documented border)
  (inputImg : Image ℝ rows cols) (w : ℕ) (p : Pixel rows cols)
include hcv

theorem imageSegment_coherency : (ImageSegment.calcGST cv inputImg w).imgCoherencyOut p =
    coherency (𝔼 k, gradX cv border inputImg w p k ^ 2) (𝔼 k, gradY cv border inputImg w p k ^ 2)
      (𝔼 k, gradX cv border inputImg w p k * gradY cv border inputImg w p k) := by
  rw [← imageSegment_J11 hcv, ← imageSegment_J22 hcv, ← imageSegment_J12 hcv]
  exact fromTensor_coherency hcv.pixelwise p _ _ _

theorem imageSegment_orientation : (ImageSegment.calcGST cv inputImg w).imgOrientationOut p =
    angle ((𝔼 k, gradY cv border inputImg w p k ^ 2) - 𝔼 k, gradX cv border inputImg w p k ^ 2)
      (2 * 𝔼 k, gradX cv border inputImg w p k * gradY cv border inputImg w p k) / 2 := by
  rw [← imageSegment_J11 hcv, ← imageSegment_J22 hcv, ← imageSegment_J12 hcv]
  exact fromTensor_orientation hcv p _ _ _

theorem anisotropic_coherency : (Anisotropic.calcGST cv inputImg w).imgCoherencyOut p =
    coherency (𝔼 k, gradX cv border inputImg w p k) (𝔼 k, gradY cv border inputImg w p k)
      (𝔼 k, gradX cv border inputImg w p k * gradY cv border inputImg w p k) := by
  rw [← anisotropic_J11 hcv, ← anisotropic_J22 hcv, ← anisotropic_J12 hcv]
  exact fromTensor_coherency hcv.pixelwise p _ _ _

theorem anisotropic_orientation : (Anisotropic.calcGST cv inputImg w).imgOrientationOut p =
    angle ((𝔼 k, gradY cv border inputImg w p k) - 𝔼 k, gradX cv border inputImg w p k)
      (2 * 𝔼 k, gradX cv border inputImg w p k * gradY cv border inputImg w p k) / 2 := by
  rw [← anisotropic_J11 hcv, ← anisotropic_J22 hcv, ← anisotropic_J12 hcv]
  exact fromTensor_orientation hcv p _ _ _

end AtPixel

/-- **Main.** The outputs of the two functions agree at every pixel exactly when the gradients of
the image are proportional to their squares, on average over every window. -/
theorem calcGST_agree_iff {cv : Cv ℝ rows cols} {border : Border rows cols}
    (hcv : cv.Documented border) (inputImg : Image ℝ rows cols) (w : ℕ) :
    (∀ p, (Anisotropic.calcGST cv inputImg w).imgCoherencyOut p =
          (ImageSegment.calcGST cv inputImg w).imgCoherencyOut p ∧
        (Anisotropic.calcGST cv inputImg w).imgOrientationOut p =
          (ImageSegment.calcGST cv inputImg w).imgOrientationOut p) ↔
      ∀ p, Proportional (gradX cv border inputImg w p) (gradY cv border inputImg w p) := by
  refine forall_congr' fun p => ?_
  rw [← agree_iff, anisotropic_coherency hcv, imageSegment_coherency hcv,
    anisotropic_orientation hcv, imageSegment_orientation hcv, div_left_inj' two_ne_zero]

/-! ### Ramps -/

/-- The derivatives of an image of one row.  Beyond its border the row is mirrored. -/
theorem grad_row (f : Fin 3 → ℝ) (p : Pixel 1 3) (k : Fin 1 × Fin 1) :
    gradX (exactCv (border101 1 3)) (border101 1 3) (fun q => f q.2) 1 p k =
        4 * (f (![1, 2, 1] p.2) - f (![1, 0, 1] p.2)) ∧
      gradY (exactCv (border101 1 3)) (border101 1 3) (fun q => f q.2) 1 p k = 0 := by
  have hself : ∀ (q : Pixel 1 3) (k : Fin 1 × Fin 1), (border101 1 3).neighbour 1 q k = q := by
    decide
  have hcol : ∀ (q : Pixel 1 3) (m : Fin 3 × Fin 3), ((border101 1 3).neighbour 3 q m).2 =
      ![![1, 0, 1] q.2, q.2, ![1, 2, 1] q.2] m.2 := by
    decide
  constructor
  · show ∑ m : Fin 3 × Fin 3, ![1, 2, 1] m.1 * ![-1, 0, 1] m.2 *
      f ((border101 1 3).neighbour 3 ((border101 1 3).neighbour 1 p k) m).2 = _
    simp only [hself, hcol, Fintype.sum_prod_type, Fin.sum_univ_three, Matrix.cons_val]
    ring
  · show ∑ m : Fin 3 × Fin 3, ![-1, 0, 1] m.1 * ![1, 2, 1] m.2 *
      f ((border101 1 3).neighbour 3 ((border101 1 3).neighbour 1 p k) m).2 = _
    simp only [hself, hcol, Fintype.sum_prod_type, Fin.sum_univ_three, Matrix.cons_val]
    ring

/-- One row of three pixels, rising. -/
def risingRamp : Image ℝ 1 3 := fun p => (p.2 : ℕ)

/-- One row of three pixels, falling. -/
def fallingRamp : Image ℝ 1 3 := fun p => ![1, 0, 0] p.2

/-- In the middle of the rising ramp the derivative in x is 8, an eighth of its square. -/
theorem calcGST_agree_iff_rising :
    (Anisotropic.calcGST (exactCv (border101 1 3)) risingRamp 1).imgCoherencyOut (0, 1) =
        (ImageSegment.calcGST (exactCv (border101 1 3)) risingRamp 1).imgCoherencyOut (0, 1) ∧
      (Anisotropic.calcGST (exactCv (border101 1 3)) risingRamp 1).imgOrientationOut (0, 1) =
        (ImageSegment.calcGST (exactCv (border101 1 3)) risingRamp 1).imgOrientationOut (0, 1) := by
  refine (calcGST_agree_iff (exactCv_documented _) risingRamp 1).mpr (fun p => ?_) (0, 1)
  have hgrad : ∀ k, gradX (exactCv (border101 1 3)) (border101 1 3) risingRamp 1 p k =
        4 * ((![1, 2, 1] p.2 : Fin 3).val - (![1, 0, 1] p.2 : Fin 3).val) ∧
      gradY (exactCv (border101 1 3)) (border101 1 3) risingRamp 1 p k = 0 :=
    grad_row (fun j => (j : ℕ)) p
  obtain ⟨row, col⟩ := p
  refine ⟨1 / 8, by norm_num, ?_, by simp [hgrad], by simp [hgrad], fun _ => by norm_num⟩
  simp only [hgrad]
  fin_cases col <;> norm_num

/-- In the middle of the falling ramp the derivative in x is negative. -/
theorem grad_fallingRamp (k : Fin 1 × Fin 1) :
    gradX (exactCv (border101 1 3)) (border101 1 3) fallingRamp 1 (0, 1) k = -4 ∧
      gradY (exactCv (border101 1 3)) (border101 1 3) fallingRamp 1 (0, 1) k = 0 := by
  obtain ⟨hx, hy⟩ := grad_row ![1, 0, 0] (0, 1) k
  refine ⟨hx.trans ?_, hy⟩
  simp

/-- In the middle of the ramp the coherency of one is -1 and that of the other is 1. -/
theorem coherency_ramp :
    (Anisotropic.calcGST (exactCv (border101 1 3)) fallingRamp 1).imgCoherencyOut (0, 1) =
        some (-1) ∧
      (ImageSegment.calcGST (exactCv (border101 1 3)) fallingRamp 1).imgCoherencyOut (0, 1) =
        some 1 := by
  rw [anisotropic_coherency (exactCv_documented _), imageSegment_coherency (exactCv_documented _)]
  simp only [grad_fallingRamp]
  unfold coherency
  constructor
  · simp [radius_zero]
  · simp [radius_zero]

theorem calcGST_ramp :
    ¬ ∀ p, (Anisotropic.calcGST (exactCv (border101 1 3)) fallingRamp 1).imgCoherencyOut p =
          (ImageSegment.calcGST (exactCv (border101 1 3)) fallingRamp 1).imgCoherencyOut p ∧
        (Anisotropic.calcGST (exactCv (border101 1 3)) fallingRamp 1).imgOrientationOut p =
          (ImageSegment.calcGST (exactCv (border101 1 3)) fallingRamp 1).imgOrientationOut p := by
  intro h
  have hmiddle := (h (0, 1)).1
  rw [coherency_ramp.1, coherency_ramp.2, Option.some.injEq] at hmiddle
  norm_num at hmiddle

end PlayWithOpencv.Gst
