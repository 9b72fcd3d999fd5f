import PlayWithOpencv.CalcGst

/-! # The segmentation

`main` of `demo/image_segment.cpp` computes the coherency and the orientation of an image over
windows of size 52, and selects the pixels whose coherency is above a threshold and whose
orientation is between two others.

This has a meaning in terms of the image.  Its `change` around a pixel in a direction is the
average square of the derivative in it.  The orientation of a pixel is a direction in which the
image changes least, and the direction across is one in which it changes most
(`orientation_least`).  So a pixel is selected exactly if there is such a direction between 35 and
57 degrees, with a change across it of more than 143/57 of the change along it (`main_iff`). -/

open scoped BigOperators

namespace PlayWithOpencv.Gst

open SymmTensor

variable {rows cols : ℕ}

/-! ### Directions -/

/-- How much the image changes around a pixel in a direction, which is given in degrees from the x
axis up. -/
noncomputable def change (cv : Cv ℝ rows cols) (border : Border rows cols)
    (inputImg : Image ℝ rows cols) (w : ℕ) (p : Pixel rows cols) (degrees : ℝ) : ℝ :=
  𝔼 k, (gradX cv border inputImg w p k * Real.cos (rad degrees) +
    gradY cv border inputImg w p k * -Real.sin (rad degrees)) ^ 2

theorem change_nonneg (cv : Cv ℝ rows cols) (border : Border rows cols)
    (inputImg : Image ℝ rows cols) (w : ℕ) (p : Pixel rows cols) (degrees : ℝ) :
    0 ≤ change cv border inputImg w p degrees :=
  expect_sq_nonneg _

/-- Half of the angle of a vector has the direction that it stands for. -/
theorem cos_half_angle (x y : ℝ) :
    Real.cos (2 * rad (angle x y / 2) - Complex.arg ⟨x, y⟩) = 1 := by
  have hpi := Real.pi_ne_zero
  unfold angle rad
  split_ifs with hneg
  · have hturn : 2 * ((Complex.arg ⟨x, y⟩ * (180 / Real.pi) + 360) / 2 * (Real.pi / 180)) -
        Complex.arg ⟨x, y⟩ = 2 * Real.pi := by
      field_simp
      ring
    rw [hturn, Real.cos_two_pi]
  · have hzero : 2 * (Complex.arg ⟨x, y⟩ * (180 / Real.pi) / 2 * (Real.pi / 180)) -
        Complex.arg ⟨x, y⟩ = 0 := by
      field_simp
      ring
    rw [hzero, Real.cos_zero]

theorem angle_mem (x y : ℝ) : 0 ≤ angle x y ∧ angle x y < 360 := by
  have hscale : (0 : ℝ) < 180 / Real.pi := div_pos (by norm_num) Real.pi_pos
  have hhalf : Real.pi * (180 / Real.pi) = 180 := mul_div_cancel₀ 180 Real.pi_ne_zero
  have hle := mul_le_mul_of_nonneg_right (Complex.arg_le_pi ⟨x, y⟩) hscale.le
  have hlt := mul_lt_mul_of_pos_right (Complex.neg_pi_lt_arg ⟨x, y⟩) hscale
  unfold angle
  split_ifs with hneg
  · have := mul_neg_of_neg_of_pos hneg hscale
    constructor <;> linarith
  · have := mul_nonneg (not_lt.mp hneg) hscale.le
    constructor <;> linarith

/-- Two directions of one vector less than half a turn apart are the same. -/
theorem eq_of_cos {α β φ : ℝ} (hα : Real.cos (2 * rad α - φ) = 1)
    (hβ : Real.cos (2 * rad β - φ) = 1) (hlow : α - 180 < β) (hhigh : β < α + 180) : α = β := by
  obtain ⟨m, hm⟩ := (Real.cos_eq_one_iff _).mp hα
  obtain ⟨n, hn⟩ := (Real.cos_eq_one_iff _).mp hβ
  have hpi := Real.pi_pos
  have hdiff : β - α = 180 * ((n - m : ℤ) : ℝ) := by
    have hrad : (β - α) * (Real.pi / 180) = ((n - m : ℤ) : ℝ) * Real.pi := by
      unfold rad at hm hn
      push_cast
      linarith
    field_simp at hrad
    linarith
  have hupper : ((n - m : ℤ) : ℝ) < 1 := by linarith
  have hlower : (-1 : ℝ) < ((n - m : ℤ) : ℝ) := by linarith
  have hzero : n - m = 0 := by
    have h1 : n - m < 1 := by exact_mod_cast hupper
    have h2 : -1 < n - m := by exact_mod_cast hlower
    omega
  rw [hzero] at hdiff
  push_cast at hdiff
  linarith

/-! ### The orientation -/

section AtPixel

variable {cv : Cv ℝ rows cols} {border : Border rows cols} (hcv : cv.Documented border)
  (inputImg : Image ℝ rows cols) (w : ℕ) (p : Pixel rows cols)
include hcv

theorem calcGST_lambda2 : (ImageSegment.calcGST cv inputImg w).lambda2 p =
    (ImageSegment.calcGST cv inputImg w).J11 p + (ImageSegment.calcGST cv inputImg w).J22 p -
      radius ((ImageSegment.calcGST cv inputImg w).J11 p)
        ((ImageSegment.calcGST cv inputImg w).J22 p)
        ((ImageSegment.calcGST cv inputImg w).J12 p) :=
  fromTensor_lambda2 hcv.pixelwise p _ _ _

theorem calcGST_trace : (ImageSegment.calcGST cv inputImg w).lambda1 p +
    (ImageSegment.calcGST cv inputImg w).lambda2 p =
      2 * ((ImageSegment.calcGST cv inputImg w).J11 p +
        (ImageSegment.calcGST cv inputImg w).J22 p) :=
  fromTensor_trace hcv.pixelwise p _ _ _

theorem calcGST_orientation : (ImageSegment.calcGST cv inputImg w).imgOrientationOut p =
    angle ((ImageSegment.calcGST cv inputImg w).J22 p - (ImageSegment.calcGST cv inputImg w).J11 p)
      (2 * (ImageSegment.calcGST cv inputImg w).J12 p) / 2 :=
  fromTensor_orientation hcv p _ _ _

/-- The change in a direction is a value of the tensor. -/
theorem change_eq (degrees : ℝ) : change cv border inputImg w p degrees =
    along ((ImageSegment.calcGST cv inputImg w).J11 p) ((ImageSegment.calcGST cv inputImg w).J22 p)
      ((ImageSegment.calcGST cv inputImg w).J12 p) (rad degrees) := by
  rw [imageSegment_J11 hcv, imageSegment_J22 hcv, imageSegment_J12 hcv]
  unfold change along
  rw [← tensor_expect_apply]
  ring

/-- The directions in which the image changes least. -/
theorem change_least_iff (degrees : ℝ) :
    (∀ other, change cv border inputImg w p degrees ≤ change cv border inputImg w p other) ↔
      change cv border inputImg w p degrees =
        (ImageSegment.calcGST cv inputImg w).lambda2 p / 2 := by
  rw [change_eq hcv, calcGST_lambda2 hcv]
  refine Iff.trans ?_ (least_iff _ _ _ _)
  constructor
  · intro h s
    have hscale : Real.pi / 180 ≠ 0 := (div_pos Real.pi_pos (by norm_num)).ne'
    have hrad : rad (s / (Real.pi / 180)) = s := div_mul_cancel₀ s hscale
    have hs := h (s / (Real.pi / 180))
    rwa [change_eq hcv, hrad] at hs
  · intro h other
    rw [change_eq hcv]
    exact h _

/-- The changes in two directions across add up to the trace. -/
theorem change_across (degrees : ℝ) : change cv border inputImg w p (degrees + 90) =
    ((ImageSegment.calcGST cv inputImg w).lambda1 p +
      (ImageSegment.calcGST cv inputImg w).lambda2 p) / 2 -
      change cv border inputImg w p degrees := by
  have hrad : rad (degrees + 90) = rad degrees + Real.pi / 2 := by
    unfold rad
    ring
  rw [calcGST_trace hcv, change_eq hcv, change_eq hcv, hrad, along_quarter,
    mul_div_cancel_left₀ _ two_ne_zero]

theorem change_orientation :
    change cv border inputImg w p ((ImageSegment.calcGST cv inputImg w).imgOrientationOut p) =
      (ImageSegment.calcGST cv inputImg w).lambda2 p / 2 := by
  rw [change_eq hcv, calcGST_lambda2 hcv, calcGST_orientation hcv]
  exact along_of_cos (cos_half_angle _ _)

theorem orientation_mem : 0 ≤ (ImageSegment.calcGST cv inputImg w).imgOrientationOut p ∧
    (ImageSegment.calcGST cv inputImg w).imgOrientationOut p < 180 := by
  have hmem := angle_mem
    ((ImageSegment.calcGST cv inputImg w).J22 p - (ImageSegment.calcGST cv inputImg w).J11 p)
    (2 * (ImageSegment.calcGST cv inputImg w).J12 p)
  rw [calcGST_orientation hcv]
  constructor <;> linarith

theorem change_orientation_across :
    change cv border inputImg w p
        ((ImageSegment.calcGST cv inputImg w).imgOrientationOut p + 90) =
      (ImageSegment.calcGST cv inputImg w).lambda1 p / 2 := by
  rw [change_across hcv, change_orientation hcv]
  ring

/-- **The orientation** is between 0 and 180 degrees, and a direction in which the image changes
least; the two eigenvalues are twice the changes along it and across it. -/
theorem orientation_least :
    (0 ≤ (ImageSegment.calcGST cv inputImg w).imgOrientationOut p ∧
      (ImageSegment.calcGST cv inputImg w).imgOrientationOut p < 180) ∧
    (∀ other,
      change cv border inputImg w p ((ImageSegment.calcGST cv inputImg w).imgOrientationOut p) ≤
        change cv border inputImg w p other) ∧
    (∀ other, change cv border inputImg w p other ≤
      change cv border inputImg w p
        ((ImageSegment.calcGST cv inputImg w).imgOrientationOut p + 90)) ∧
    (ImageSegment.calcGST cv inputImg w).lambda2 p = 2 * change cv border inputImg w p
      ((ImageSegment.calcGST cv inputImg w).imgOrientationOut p) ∧
    (ImageSegment.calcGST cv inputImg w).lambda1 p = 2 * change cv border inputImg w p
      ((ImageSegment.calcGST cv inputImg w).imgOrientationOut p + 90) := by
  have hleast := change_orientation hcv inputImg w p
  have hmost := change_orientation_across hcv inputImg w p
  have hmin := (change_least_iff hcv inputImg w p _).mpr hleast
  refine ⟨orientation_mem hcv inputImg w p, hmin, fun other => ?_, ?_, ?_⟩
  · -- the change across another direction is not below the least one either
    have hother := change_across hcv inputImg w p other
    have := hmin (other + 90)
    linarith
  · rw [hleast]
    ring
  · rw [hmost]
    ring

/-! ### The selected pixels -/

theorem calcGST_coherency : (ImageSegment.calcGST cv inputImg w).imgCoherencyOut p =
    coherency ((ImageSegment.calcGST cv inputImg w).J11 p)
      ((ImageSegment.calcGST cv inputImg w).J22 p) ((ImageSegment.calcGST cv inputImg w).J12 p) :=
  fromTensor_coherency hcv.pixelwise p _ _ _

theorem imageSegment_radius_le : radius ((ImageSegment.calcGST cv inputImg w).J11 p)
    ((ImageSegment.calcGST cv inputImg w).J22 p) ((ImageSegment.calcGST cv inputImg w).J12 p) ≤
      (ImageSegment.calcGST cv inputImg w).J11 p + (ImageSegment.calcGST cv inputImg w).J22 p := by
  rw [imageSegment_J11 hcv, imageSegment_J22 hcv, imageSegment_J12 hcv]
  exact radius_le (add_nonneg (expect_sq_nonneg _) (expect_sq_nonneg _)) (sq_expect_mul_le _ _)

theorem trace_nonneg : 0 ≤ (ImageSegment.calcGST cv inputImg w).J11 p +
    (ImageSegment.calcGST cv inputImg w).J22 p := by
  rw [imageSegment_J11 hcv, imageSegment_J22 hcv]
  exact add_nonneg (expect_sq_nonneg _) (expect_sq_nonneg _)

/-- The threshold of the coherency, as one of the two eigenvalues. -/
theorem coherency_above_iff :
    (∃ c ∈ (ImageSegment.calcGST cv inputImg w).imgCoherencyOut p, (C_Thr : ℝ) < c) ↔
      143 * (ImageSegment.calcGST cv inputImg w).lambda2 p <
        57 * (ImageSegment.calcGST cv inputImg w).lambda1 p := by
  have htrace := calcGST_trace hcv inputImg w p
  have hlambda2 := calcGST_lambda2 hcv inputImg w p
  have hsound := imageSegment_radius_le hcv inputImg w p
  have hnonneg := trace_nonneg hcv inputImg w p
  rw [calcGST_coherency hcv]
  unfold coherency
  split_ifs with hzero
  · -- without a gradient both eigenvalues are zero
    rw [hzero] at hsound htrace hlambda2
    have hradius := radius_nonneg ((ImageSegment.calcGST cv inputImg w).J11 p)
      ((ImageSegment.calcGST cv inputImg w).J22 p) ((ImageSegment.calcGST cv inputImg w).J12 p)
    constructor
    · rintro ⟨c, hc, -⟩
      cases hc
    · intro h
      linarith
  · have hpos := lt_of_le_of_ne hnonneg (Ne.symm hzero)
    simp only [Option.mem_some_iff, exists_eq_left']
    rw [C_Thr, lt_div_iff₀ hpos]
    constructor
    · intro h
      linarith
    · intro h
      linarith

/-- The direction of a selected pixel is the orientation. -/
theorem least_eq_orientation {degrees : ℝ} (hlow : 0 ≤ degrees) (hhigh : degrees < 180)
    (hleast : ∀ other, change cv border inputImg w p degrees ≤ change cv border inputImg w p other)
    (hne : (ImageSegment.calcGST cv inputImg w).lambda1 p ≠
      (ImageSegment.calcGST cv inputImg w).lambda2 p) :
    (ImageSegment.calcGST cv inputImg w).imgOrientationOut p = degrees := by
  have htrace := calcGST_trace hcv inputImg w p
  have hlambda2 := calcGST_lambda2 hcv inputImg w p
  have hvalue := (change_least_iff hcv inputImg w p _).mp hleast
  rw [change_eq hcv, hlambda2] at hvalue
  have hradius : radius ((ImageSegment.calcGST cv inputImg w).J11 p)
      ((ImageSegment.calcGST cv inputImg w).J22 p)
      ((ImageSegment.calcGST cv inputImg w).J12 p) ≠ 0 := by
    intro h
    apply hne
    linarith
  have hrange := orientation_mem hcv inputImg w p
  refine eq_of_cos ?_ (cos_of_along hradius hvalue) ?_ ?_
  · rw [calcGST_orientation hcv]
    exact cos_half_angle _ _
  · linarith
  · linarith

/-- **The selected pixels** are those where the image changes least in a direction between 35 and
57 degrees, and more than 143/57 times as much across it. -/
theorem main_iff (hthr : cv.Thresholds) : ∃ out, ImageSegment.main cv (some inputImg) = some out ∧
    ∀ p, out.imgBin p = true ↔ ∃ degrees, 35 ≤ degrees ∧ degrees ≤ 57 ∧
      (∀ other, change cv border inputImg W p degrees ≤ change cv border inputImg W p other) ∧
      143 * change cv border inputImg W p degrees <
        57 * change cv border inputImg W p (degrees + 90) := by
  refine ⟨_, rfl, fun p => ?_⟩
  have hleast := change_orientation hcv inputImg W p
  have hmost := change_orientation_across hcv inputImg W p
  show (cv.greater _ C_Thr p && cv.inRange _ LowThr HighThr p) = true ↔ _
  rw [Bool.and_eq_true, hthr.greater_apply, hthr.inRange_apply, coherency_above_iff hcv, LowThr,
    HighThr]
  constructor
  · rintro ⟨hcoherent, hlow, hhigh⟩
    refine ⟨_, hlow, hhigh, (change_least_iff hcv inputImg W p _).mpr hleast, ?_⟩
    rw [hleast, hmost]
    linarith
  · rintro ⟨degrees, hlow, hhigh, hmin, hacross⟩
    have hvalue := (change_least_iff hcv inputImg W p _).mp hmin
    have htrace := change_across hcv inputImg W p degrees
    have hcoherent : 143 * (ImageSegment.calcGST cv inputImg W).lambda2 p <
        57 * (ImageSegment.calcGST cv inputImg W).lambda1 p := by
      linarith
    have hne : (ImageSegment.calcGST cv inputImg W).lambda1 p ≠
        (ImageSegment.calcGST cv inputImg W).lambda2 p := by
      intro heq
      have := change_nonneg cv border inputImg W p degrees
      linarith
    have hdirection := least_eq_orientation hcv inputImg W p (by linarith) (by linarith) hmin hne
    rw [hdirection]
    exact ⟨hcoherent, hlow, hhigh⟩

end AtPixel

theorem orientation_least_ramp :
    0 ≤ (ImageSegment.calcGST (exactCv (border101 1 3)) (fun p => ![1, 0, 0] p.2) 1).imgOrientationOut
        (0, 1) ∧
      (ImageSegment.calcGST (exactCv (border101 1 3)) (fun p => ![1, 0, 0] p.2) 1).imgOrientationOut
        (0, 1) < 180 :=
  (orientation_least (exactCv_documented _) _ 1 (0, 1)).1

theorem main_iff_ramp : ∃ out, ImageSegment.main (exactCv (border101 1 3))
      (some fun p => ![1, 0, 0] p.2) = some out ∧
    ∀ p, out.imgBin p = true ↔ ∃ degrees, 35 ≤ degrees ∧ degrees ≤ 57 ∧
      (∀ other, change (exactCv (border101 1 3)) (border101 1 3) (fun p => ![1, 0, 0] p.2) W p degrees ≤
        change (exactCv (border101 1 3)) (border101 1 3) (fun p => ![1, 0, 0] p.2) W p other) ∧
      143 * change (exactCv (border101 1 3)) (border101 1 3) (fun p => ![1, 0, 0] p.2) W p degrees <
        57 * change (exactCv (border101 1 3)) (border101 1 3) (fun p => ![1, 0, 0] p.2) W p
          (degrees + 90) :=
  main_iff (exactCv_documented _) _ (exactCv_thresholds _)

end PlayWithOpencv.Gst
