import PlayWithOpencv.CalcGst

/-! # Brightness and contrast

`calcGST` of `image_segment.cpp` gives the same segmentation for an image and for `a * I + b`, the
same image with another contrast `a`, which may be negative, and another brightness `b`
(`calcGST_affine`).  The derivatives lose `b` and are multiplied by `a`, the tensor and its
eigenvalues by `a * a`; the quotient of two eigenvalues and the direction of the angle lose that
factor (`fromTensor_smul`).

What this relies on is `Cv.Linear`: of `Sobel`, that it is linear and blind to constants, and of
`phase`, that it depends on the direction of its arguments only. -/

open scoped BigOperators

namespace PlayWithOpencv.Gst

open SymmTensor

variable {rows cols : ℕ}

/-- The documented behaviour brightness and contrast rely on. -/
structure Cv.Linear (cv : Cv ℝ rows cols) (border : Border rows cols) : Prop where
  Sobel_add : ∀ I J dx dy k, cv.Sobel (I + J) dx dy k = cv.Sobel I dx dy k + cv.Sobel J dx dy k
  Sobel_smul : ∀ (a : ℝ) I dx dy k, cv.Sobel (a • I) dx dy k = a • cv.Sobel I dx dy k
  Sobel_const : ∀ (b : ℝ) dx dy k, 0 < dx + dy → cv.Sobel (fun _ => b) dx dy k = 0
  multiply_apply : ∀ I J p, cv.multiply I J p = I p * J p
  boxFilter_apply : ∀ I w p, cv.boxFilter I w p = 𝔼 k, I (border.neighbour w p k)
  sqrt_apply : ∀ I p, 0 ≤ I p → cv.sqrt I p = √(I p)
  divide_apply : ∀ I J p, cv.divide I J p = if J p = 0 then none else some (I p / J p)
  phase_direction : ∀ X Y X' Y' p (t : ℝ), 0 < t → X' p = t * X p → Y' p = t * Y p →
    cv.phase X' Y' true p = cv.phase X Y true p

theorem Cv.Linear.pixelwise {cv : Cv ℝ rows cols} {border : Border rows cols}
    (h : cv.Linear border) : cv.Pixelwise :=
  ⟨h.multiply_apply, h.sqrt_apply, h.divide_apply⟩

/-- The coherency of a multiple of a tensor. -/
theorem coherency_mul {t : ℝ} (ht : 0 < t) (a b c : ℝ) :
    coherency (t * a) (t * b) (t * c) = coherency a b c := by
  unfold coherency
  rw [radius_mul ht.le, ← mul_add, mul_div_mul_left _ _ ht.ne']
  simp only [mul_eq_zero, ht.ne', false_or]

section Scaling

variable {cv : Cv ℝ rows cols} {border : Border rows cols} (hcv : cv.Linear border)
include hcv

/-! ### Gradients and the tensor -/

theorem Sobel_affine {I I' : Image ℝ rows cols} {a b : ℝ} (hI : ∀ p, I' p = a * I p + b)
    {dx dy : ℕ} (hd : 0 < dx + dy) (k : ℕ) : cv.Sobel I' dx dy k = a • cv.Sobel I dx dy k := by
  have hI' : I' = a • I + fun _ => b := funext hI
  rw [hI', hcv.Sobel_add, hcv.Sobel_smul, hcv.Sobel_const b dx dy k hd, add_zero]

/-- A filtered product of two scaled images. -/
theorem boxFilter_multiply_smul (a : ℝ) (I J : Image ℝ rows cols) (w : ℕ) :
    cv.boxFilter (cv.multiply (a • I) (a • J)) w =
      (a * a) • cv.boxFilter (cv.multiply I J) w := by
  funext p
  rw [Pi.smul_apply, hcv.boxFilter_apply, hcv.boxFilter_apply, smul_eq_mul, Finset.mul_expect]
  refine Finset.expect_congr rfl fun k _ => ?_
  rw [hcv.multiply_apply, hcv.multiply_apply, Pi.smul_apply, Pi.smul_apply, smul_eq_mul,
    smul_eq_mul]
  ring

/-! ### From the tensor on -/

variable (J11 J22 J12 : Image ℝ rows cols)

theorem orientation_smul {t : ℝ} (ht : 0 < t) (p : Pixel rows cols) :
    (fromTensor cv (t • J11) (t • J22) (t • J12)).imgOrientationOut p =
      (fromTensor cv J11 J22 J12).imgOrientationOut p := by
  show 1 / 2 * cv.phase _ _ true p = 1 / 2 * cv.phase _ _ true p
  rw [hcv.phase_direction (J22 - J11) ((2 : ℝ) • J12) _ _ p t ht]
  · show t * J22 p - t * J11 p = t * (J22 p - J11 p)
    ring
  · show 2 * (t * J12 p) = t * (2 * J12 p)
    ring

/-- **A tensor and a positive multiple of it** give one segmentation. -/
theorem fromTensor_smul {t : ℝ} (ht : 0 < t) (p : Pixel rows cols) :
    (fromTensor cv (t • J11) (t • J22) (t • J12)).imgOrientationOut p =
        (fromTensor cv J11 J22 J12).imgOrientationOut p ∧
      ((fromTensor cv (t • J11) (t • J22) (t • J12)).lambda1 p +
          (fromTensor cv (t • J11) (t • J22) (t • J12)).lambda2 p = 0 ↔
        (fromTensor cv J11 J22 J12).lambda1 p + (fromTensor cv J11 J22 J12).lambda2 p = 0) ∧
      ((fromTensor cv J11 J22 J12).lambda1 p + (fromTensor cv J11 J22 J12).lambda2 p ≠ 0 →
        ∃ c, (fromTensor cv (t • J11) (t • J22) (t • J12)).imgCoherencyOut p = some c ∧
          (fromTensor cv J11 J22 J12).imgCoherencyOut p = some c) := by
  have htrace := fromTensor_trace hcv.pixelwise p J11 J22 J12
  have htrace' := fromTensor_trace hcv.pixelwise p (t • J11) (t • J22) (t • J12)
  have hsum : (t • J11) p + (t • J22) p = t * (J11 p + J22 p) := (mul_add t _ _).symm
  refine ⟨orientation_smul hcv J11 J22 J12 ht p, ?_, fun hne => ?_⟩
  · rw [htrace, htrace', hsum, mul_left_comm, mul_eq_zero, or_iff_right ht.ne']
  · have hne : J11 p + J22 p ≠ 0 := by
      rw [htrace] at hne
      exact right_ne_zero_of_mul hne
    rw [fromTensor_coherency hcv.pixelwise, fromTensor_coherency hcv.pixelwise]
    refine ⟨_, ?_, if_neg hne⟩
    exact (coherency_mul ht (J11 p) (J22 p) (J12 p)).trans (if_neg hne)

end Scaling

/-- The derivatives of `a * I + b` give the tensor of `I`, multiplied by `a * a`. -/
theorem calcGST_tensor_smul {cv : Cv ℝ rows cols} {border : Border rows cols}
    (hcv : cv.Linear border) {I I' : Image ℝ rows cols} {a b : ℝ} (hI : ∀ p, I' p = a * I p + b)
    (w : ℕ) :
    ImageSegment.calcGST cv I' w = fromTensor cv ((a * a) • (ImageSegment.calcGST cv I w).J11)
      ((a * a) • (ImageSegment.calcGST cv I w).J22)
      ((a * a) • (ImageSegment.calcGST cv I w).J12) := by
  have hx : cv.Sobel I' 1 0 3 = a • cv.Sobel I 1 0 3 := Sobel_affine hcv hI (by norm_num) 3
  have hy : cv.Sobel I' 0 1 3 = a • cv.Sobel I 0 1 3 := Sobel_affine hcv hI (by norm_num) 3
  simp only [ImageSegment.calcGST, hx, hy, boxFilter_multiply_smul hcv]
  rfl

/-- **Main.** Another brightness and another contrast, negative ones included, leave the
orientation as it is at every pixel, and the coherency wherever it is defined, which is at the same
pixels. -/
theorem calcGST_affine {cv : Cv ℝ rows cols} {border : Border rows cols} (hcv : cv.Linear border)
    {I I' : Image ℝ rows cols} {a b : ℝ} (ha : a ≠ 0) (hI : ∀ p, I' p = a * I p + b) (w : ℕ)
    (p : Pixel rows cols) :
    (ImageSegment.calcGST cv I' w).imgOrientationOut p =
        (ImageSegment.calcGST cv I w).imgOrientationOut p ∧
      ((ImageSegment.calcGST cv I' w).lambda1 p + (ImageSegment.calcGST cv I' w).lambda2 p = 0 ↔
        (ImageSegment.calcGST cv I w).lambda1 p + (ImageSegment.calcGST cv I w).lambda2 p = 0) ∧
      ((ImageSegment.calcGST cv I w).lambda1 p + (ImageSegment.calcGST cv I w).lambda2 p ≠ 0 →
        ∃ c, (ImageSegment.calcGST cv I' w).imgCoherencyOut p = some c ∧
          (ImageSegment.calcGST cv I w).imgCoherencyOut p = some c) := by
  rw [calcGST_tensor_smul hcv hI]
  exact fromTensor_smul hcv _ _ _ (mul_self_pos.mpr ha) p

/-! ### The exact library -/

theorem angle_mul {t : ℝ} (ht : 0 < t) (x y : ℝ) : angle (t * x) (t * y) = angle x y := by
  have harg : Complex.arg ⟨t * x, t * y⟩ = Complex.arg ⟨x, y⟩ := by
    rw [← Complex.arg_real_mul ⟨x, y⟩ ht]
    congr 1
    apply Complex.ext <;> simp
  unfold angle
  rw [harg]

theorem sepFilter_add (border : Border rows cols) (kx ky : Fin 3 → ℝ) (I J : Image ℝ rows cols) :
    sepFilter border kx ky (I + J) = sepFilter border kx ky I + sepFilter border kx ky J := by
  funext p
  simp only [sepFilter, Pi.add_apply, mul_add, Finset.sum_add_distrib]

theorem sepFilter_smul (border : Border rows cols) (kx ky : Fin 3 → ℝ) (a : ℝ)
    (I : Image ℝ rows cols) : sepFilter border kx ky (a • I) = a • sepFilter border kx ky I := by
  funext p
  simp only [sepFilter, Pi.smul_apply, smul_eq_mul, Finset.mul_sum]
  exact Finset.sum_congr rfl fun k _ => by ring

theorem exactCv_Sobel (border : Border rows cols) (I : Image ℝ rows cols) (dx dy k : ℕ) :
    (exactCv border).Sobel I dx dy k =
      if dx = 1 then sepFilter border ![-1, 0, 1] ![1, 2, 1] I
      else sepFilter border ![1, 2, 1] ![-1, 0, 1] I := rfl

theorem exactCv_linear (border : Border rows cols) : (exactCv border).Linear border where
  Sobel_add I J dx dy k := by
    simp only [exactCv_Sobel]
    split_ifs <;> exact sepFilter_add border _ _ I J
  Sobel_smul a I dx dy k := by
    simp only [exactCv_Sobel]
    split_ifs <;> exact sepFilter_smul border _ _ a I
  Sobel_const b dx dy k _ := by
    rw [exactCv_Sobel]
    split_ifs
    · exact funext (sepFilter_const border sobel_kernels.1 b)
    · exact funext (sepFilter_const border sobel_kernels.2 b)
  multiply_apply _ _ _ := rfl
  boxFilter_apply _ _ _ := rfl
  sqrt_apply _ _ _ := rfl
  divide_apply _ _ _ := rfl
  phase_direction X Y X' Y' p t ht hX hY := by
    show angle (X' p) (Y' p) = angle (X p) (Y p)
    rw [hX, hY, angle_mul ht]

theorem calcGST_affine_negative :
    (ImageSegment.calcGST (exactCv (border101 1 3))
        (fun p => -2 * ![4, 2, 1] p.2 + 9) 1).imgOrientationOut (0, 1) =
      (ImageSegment.calcGST (exactCv (border101 1 3))
        (fun p => ![4, 2, 1] p.2) 1).imgOrientationOut (0, 1) :=
  (calcGST_affine (exactCv_linear _) (by norm_num : (-2 : ℝ) ≠ 0) (fun _ => rfl) 1 (0, 1)).1

end PlayWithOpencv.Gst
