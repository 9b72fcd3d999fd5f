import PlayWithOpencv.CalcGst

/-! # The tensor of `image_segment.cpp`

`calcGST` of `image_segment.cpp` averages products of gradients, so its tensor is positive
semidefinite at every pixel, for every image and window (`calcGST_sound`): the closed form of the
source takes the square root of a non-negative number and gives the two eigenvalues, doubled;
their sum is zero only over a window without any gradient; and wherever the quotient exists the
coherency is between 0 and 1. -/

open scoped BigOperators

namespace PlayWithOpencv.Gst

open SymmTensor

variable {rows cols : ℕ}

/-- What the images of `calcGST` should be at a pixel whose window has the gradients `u`, `v`. -/
structure Stages.Sound {ι : Type} (g : Stages ℝ rows cols) (p : Pixel rows cols)
    (u v : ι → ℝ) : Prop where
  posSemidef : (!![g.J11 p, g.J12 p; g.J12 p, g.J22 p]).PosSemidef
  eigenvalues : (!![g.J11 p, g.J12 p; g.J12 p, g.J22 p]).charpoly.roots =
    {g.lambda1 p / 2, g.lambda2 p / 2}
  lambda2_nonneg : 0 ≤ g.lambda2 p
  lambda2_le : g.lambda2 p ≤ g.lambda1 p
  radicand_nonneg : 0 ≤ g.radicand p
  sum_eq_zero_iff : g.lambda1 p + g.lambda2 p = 0 ↔ ∀ k, u k = 0 ∧ v k = 0
  coherency_mem : g.lambda1 p + g.lambda2 p ≠ 0 →
    ∃ c, g.imgCoherencyOut p = some c ∧ c ∈ Set.Icc 0 1

/-- Where the trace is positive the coherency is a ratio between 0 and 1. -/
theorem coherency_mem_Icc {a b c : ℝ} (ha : 0 ≤ a) (hb : 0 ≤ b) (hc : c ^ 2 ≤ a * b)
    (hne : a + b ≠ 0) : ∃ r, coherency a b c = some r ∧ r ∈ Set.Icc 0 1 := by
  have hpos : 0 < a + b := lt_of_le_of_ne (add_nonneg ha hb) hne.symm
  refine ⟨radius a b c / (a + b), if_neg hne, ?_, ?_⟩
  · exact div_nonneg (radius_nonneg a b c) hpos.le
  · exact (div_le_one hpos).mpr (radius_le hpos.le hc)

/-- The trace of the averaged tensor vanishes with the gradients only. -/
theorem trace_expect_eq_zero_iff {ι : Type} [Fintype ι] (u v : ι → ℝ) :
    (𝔼 k, u k ^ 2) + (𝔼 k, v k ^ 2) = 0 ↔ ∀ k, u k = 0 ∧ v k = 0 := by
  rw [add_eq_zero_iff_of_nonneg (expect_sq_nonneg u) (expect_sq_nonneg v), expect_sq_eq_zero_iff,
    expect_sq_eq_zero_iff]
  exact forall_and.symm

/-- The images from a tensor on, where the tensor is the average over a window. -/
theorem fromTensor_sound {ι : Type} [Fintype ι] {cv : Cv ℝ rows cols} {border : Border rows cols}
    (hcv : cv.Documented border) {J11 J22 J12 : Image ℝ rows cols} {p : Pixel rows cols}
    {u v : ι → ℝ} (h11 : J11 p = 𝔼 k, u k ^ 2) (h22 : J22 p = 𝔼 k, v k ^ 2)
    (h12 : J12 p = 𝔼 k, u k * v k) : (fromTensor cv J11 J22 J12).Sound p u v := by
  have ha : 0 ≤ J11 p := h11 ▸ expect_sq_nonneg u
  have hb : 0 ≤ J22 p := h22 ▸ expect_sq_nonneg v
  have hc : J12 p ^ 2 ≤ J11 p * J22 p := by
    rw [h11, h22, h12]
    exact sq_expect_mul_le u v
  have h1 := fromTensor_lambda1 hcv.pixelwise p J11 J22 J12
  have h2 := fromTensor_lambda2 hcv.pixelwise p J11 J22 J12
  have hsum := fromTensor_trace hcv.pixelwise p J11 J22 J12
  constructor
  · show (!![J11 p, J12 p; J12 p, J22 p]).PosSemidef
    rw [h11, h22, h12]
    exact tensor_expect_posSemidef u v
  · rw [h1, h2]
    exact tensor_roots (J11 p) (J22 p) (J12 p)
  · rw [h2]
    exact sub_nonneg.mpr (radius_le (add_nonneg ha hb) hc)
  · rw [h1, h2]
    have := radius_nonneg (J11 p) (J22 p) (J12 p)
    linarith
  · rw [fromTensor_radicand hcv.pixelwise]
    exact radicand_nonneg _ _ _
  · rw [hsum, mul_eq_zero_iff_left two_ne_zero, h11, h22]
    exact trace_expect_eq_zero_iff u v
  · intro hne
    rw [hsum] at hne
    rw [fromTensor_coherency hcv.pixelwise]
    exact coherency_mem_Icc ha hb hc (right_ne_zero_of_mul hne)

/-- **Main.** The images of `calcGST` are sound at every pixel of every image, for every window. -/
theorem calcGST_sound {cv : Cv ℝ rows cols} {border : Border rows cols}
    (hcv : cv.Documented border) (inputImg : Image ℝ rows cols) (w : ℕ) (p : Pixel rows cols) :
    (ImageSegment.calcGST cv inputImg w).Sound p (gradX cv border inputImg w p)
      (gradY cv border inputImg w p) :=
  fromTensor_sound hcv (imageSegment_J11 hcv inputImg w p) (imageSegment_J22 hcv inputImg w p)
    (imageSegment_J12 hcv inputImg w p)

theorem calcGST_sound_ramp :
    (ImageSegment.calcGST (exactCv (border101 1 3)) (fun p => ![1, 0, 0] p.2) 1).Sound (0, 1)
      (gradX (exactCv (border101 1 3)) (border101 1 3) (fun p => ![1, 0, 0] p.2) 1 (0, 1))
      (gradY (exactCv (border101 1 3)) (border101 1 3) (fun p => ![1, 0, 0] p.2) 1 (0, 1)) :=
  calcGST_sound (exactCv_documented _) _ _ _

end PlayWithOpencv.Gst
