import Mathlib
import PlayWithOpencv.SymmTensor

/-! # The gradient structure tensor, twice

The embedding of the two functions `calcGST`: of `demo/image_segment.cpp` and of
`demo/anisotropic_image_segmentation.cpp`.  Arithmetic is exact: numbers come from a field `K`,
and the theorems are about the reals.  An image is a function of the pixel, so the matrix
expressions of the source are the pointwise ones.

The OpenCV functions are not part of the repository; they are the fields of `Cv`, and
`Cv.Documented` is what their documentation says, with `boxFilter` the average over the `w * w`
neighbours of a border-extended image.  A quotient by zero is `none`.

From the tensor on the two functions are the same text, `fromTensor`; the lemmas
`fromTensor_orientation` to `fromTensor_coherency` give its images at a pixel.  `segment` is what
`main` makes of the images, with the comparisons of `Cv.Thresholds`. -/

open scoped BigOperators

namespace PlayWithOpencv.Gst

open SymmTensor

/-! ### Images and the library -/

abbrev Pixel (rows cols : ℕ) := Fin rows × Fin cols
abbrev Image (α : Type) (rows cols : ℕ) := Pixel rows cols → α

variable {K : Type} {rows cols : ℕ}

/-- The OpenCV functions that `calcGST` and `main` call. -/
structure Cv (K : Type) (rows cols : ℕ) where
  /-- The derivative of order `dx` in x and `dy` in y, with the given kernel size. -/
  Sobel : Image K rows cols → (dx dy ksize : ℕ) → Image K rows cols
  multiply : Image K rows cols → Image K rows cols → Image K rows cols
  /-- With `Size(w, w)`. -/
  boxFilter : Image K rows cols → (w : ℕ) → Image K rows cols
  sqrt : Image K rows cols → Image K rows cols
  divide : Image K rows cols → Image K rows cols → Image (Option K) rows cols
  phase : Image K rows cols → Image K rows cols → (angleInDegrees : Bool) → Image K rows cols
  /-- `I > c`. -/
  greater : Image (Option K) rows cols → (c : K) → Image Bool rows cols
  inRange : Image K rows cols → (low high : K) → Image Bool rows cols

/-- How the coordinates of an image are extended beyond its border. -/
structure Border (rows cols : ℕ) where
  row : ℤ → Fin rows
  col : ℤ → Fin cols

/-- The pixels of the window of size `w` around a pixel. -/
def Border.neighbour (border : Border rows cols) (w : ℕ) (p : Pixel rows cols)
    (k : Fin w × Fin w) : Pixel rows cols :=
  (border.row ((p.1 : ℕ) + (k.1 : ℕ) - (w / 2 : ℕ)),
    border.col ((p.2 : ℕ) + (k.2 : ℕ) - (w / 2 : ℕ)))

/-- The direction of a vector, from 0 up to 360 degrees. -/
noncomputable def angle (x y : ℝ) : ℝ :=
  if Complex.arg ⟨x, y⟩ < 0 then Complex.arg ⟨x, y⟩ * (180 / Real.pi) + 360
  else Complex.arg ⟨x, y⟩ * (180 / Real.pi)

noncomputable def rad (degrees : ℝ) : ℝ := degrees * (Real.pi / 180)

/-- The documented behaviour `calcGST` relies on. -/
structure Cv.Documented (cv : Cv ℝ rows cols) (border : Border rows cols) : Prop where
  multiply_apply : ∀ I J p, cv.multiply I J p = I p * J p
  boxFilter_apply : ∀ I w p, cv.boxFilter I w p = 𝔼 k, I (border.neighbour w p k)
  sqrt_apply : ∀ I p, 0 ≤ I p → cv.sqrt I p = √(I p)
  divide_apply : ∀ I J p, cv.divide I J p = if J p = 0 then none else some (I p / J p)
  phase_apply : ∀ X Y p, cv.phase X Y true p = angle (X p) (Y p)

/-- The operations between images, pixel by pixel. -/
structure Cv.Pixelwise (cv : Cv ℝ rows cols) : Prop where
  multiply_apply : ∀ I J p, cv.multiply I J p = I p * J p
  sqrt_apply : ∀ I p, 0 ≤ I p → cv.sqrt I p = √(I p)
  divide_apply : ∀ I J p, cv.divide I J p = if J p = 0 then none else some (I p / J p)

theorem Cv.Documented.pixelwise {cv : Cv ℝ rows cols} {border : Border rows cols}
    (h : cv.Documented border) : cv.Pixelwise :=
  ⟨h.multiply_apply, h.sqrt_apply, h.divide_apply⟩

/-- The documented behaviour of the comparisons; the quotient `0 / 0` is above no number. -/
structure Cv.Thresholds (cv : Cv ℝ rows cols) : Prop where
  greater_apply : ∀ I c p, cv.greater I c p = true ↔ ∃ x ∈ I p, c < x
  inRange_apply : ∀ I low high p, cv.inRange I low high p = true ↔ low ≤ I p ∧ I p ≤ high

/-! ### `calcGST` -/

/-- The images of `calcGST` from the tensor on. -/
structure Stages (K : Type) (rows cols : ℕ) where
  J11 : Image K rows cols
  J22 : Image K rows cols
  J12 : Image K rows cols
  /-- What the square root is taken of. -/
  radicand : Image K rows cols
  lambda1 : Image K rows cols
  lambda2 : Image K rows cols
  imgCoherencyOut : Image (Option K) rows cols
  imgOrientationOut : Image K rows cols

/-- From the eigenvalue calculation to the orientation. -/
def fromTensor [Field K] (cv : Cv K rows cols) (J11 J22 J12 : Image K rows cols) :
    Stages K rows cols :=
  let tmp1 := J11 + J22
  let tmp2 := J11 - J22
  let tmp2 := cv.multiply tmp2 tmp2
  let tmp3 := cv.multiply J12 J12
  let radicand := tmp2 + (4 : K) • tmp3
  let tmp4 := cv.sqrt radicand
  let lambda1 := tmp1 + tmp4
  let lambda2 := tmp1 - tmp4
  let imgCoherencyOut := cv.divide (lambda1 - lambda2) (lambda1 + lambda2)
  let imgOrientationOut := cv.phase (J22 - J11) ((2 : K) • J12) true
  { J11, J22, J12, radicand, lambda1, lambda2, imgCoherencyOut
    imgOrientationOut := (1 / 2 : K) • imgOrientationOut }

namespace ImageSegment

/-- `calcGST` of `image_segment.cpp`. -/
def calcGST [Field K] (cv : Cv K rows cols) (inputImg : Image K rows cols) (w : ℕ) :
    Stages K rows cols :=
  let imgDiffX := cv.Sobel inputImg 1 0 3
  let imgDiffY := cv.Sobel inputImg 0 1 3
  let imgDiffXY := cv.multiply imgDiffX imgDiffY
  let imgDiffXX := cv.multiply imgDiffX imgDiffX
  let imgDiffYY := cv.multiply imgDiffY imgDiffY
  let J11 := cv.boxFilter imgDiffXX w
  let J22 := cv.boxFilter imgDiffYY w
  let J12 := cv.boxFilter imgDiffXY w
  fromTensor cv J11 J22 J12

end ImageSegment

namespace Anisotropic

/-- `calcGST` of `anisotropic_image_segmentation.cpp`. -/
def calcGST [Field K] (cv : Cv K rows cols) (inputImg : Image K rows cols) (w : ℕ) :
    Stages K rows cols :=
  let dx := cv.Sobel inputImg 1 0 3
  let dy := cv.Sobel inputImg 0 1 3
  let dxy := cv.multiply dx dy
  let _dxx := cv.multiply dx dx
  let _dyy := cv.multiply dy dy
  -- the first two filters are given the gradients, not their squares
  let J11 := cv.boxFilter dx w
  let J22 := cv.boxFilter dy w
  let J12 := cv.boxFilter dxy w
  fromTensor cv J11 J22 J12

end Anisotropic

/-! ### The segmentation -/

section Segmentation

variable [Field K]

def W : ℕ := 52

/-- The threshold of the coherency, 0.43. -/
def C_Thr : K := 43 / 100

def LowThr : K := 35
def HighThr : K := 57

/-- What `main` makes of its image: the selected pixels, and the picture of the result. -/
structure Segmented (K : Type) (rows cols : ℕ) where
  imgBin : Image Bool rows cols
  result : Image K rows cols

/-- From the two images of `calcGST` on. -/
def segment (cv : Cv K rows cols) (imgIn : Image K rows cols) (g : Stages K rows cols) :
    Segmented K rows cols :=
  let imgCoherencyBin := cv.greater g.imgCoherencyOut C_Thr
  let imgOrientationBin := cv.inRange g.imgOrientationOut LowThr HighThr
  let imgBin : Image Bool rows cols := fun p => imgCoherencyBin p && imgOrientationBin p
  { imgBin, result := fun p => 1 / 2 * (imgIn p + if imgBin p then 255 else 0) }

/-- `main` of `image_segment.cpp`; without an image it ends with an error. -/
def ImageSegment.main (cv : Cv K rows cols) (imgIn : Option (Image K rows cols)) :
    Option (Segmented K rows cols) :=
  imgIn.map fun imgIn => segment cv imgIn (ImageSegment.calcGST cv imgIn W)

end Segmentation

/-! ### The gradients of a window -/

/-- The derivative in x over the window of a pixel. -/
def gradX (cv : Cv K rows cols) (border : Border rows cols) (inputImg : Image K rows cols) (w : ℕ)
    (p : Pixel rows cols) (k : Fin w × Fin w) : K :=
  cv.Sobel inputImg 1 0 3 (border.neighbour w p k)

/-- The derivative in y over the window of a pixel. -/
def gradY (cv : Cv K rows cols) (border : Border rows cols) (inputImg : Image K rows cols) (w : ℕ)
    (p : Pixel rows cols) (k : Fin w × Fin w) : K :=
  cv.Sobel inputImg 0 1 3 (border.neighbour w p k)

/-- The coherency of a tensor, where its trace is not zero. -/
noncomputable def coherency (a b c : ℝ) : Option ℝ :=
  if a + b = 0 then none else some (radius a b c / (a + b))

section AtPixel

variable {cv : Cv ℝ rows cols} {border : Border rows cols} (hcv : cv.Documented border)
include hcv

/-! ### The tensors at a pixel -/

variable (inputImg : Image ℝ rows cols) (w : ℕ) (p : Pixel rows cols)

/-- A filtered product is an average over the window. -/
theorem boxFilter_multiply (I J : Image ℝ rows cols) : cv.boxFilter (cv.multiply I J) w p =
    𝔼 k, I (border.neighbour w p k) * J (border.neighbour w p k) := by
  simp only [hcv.boxFilter_apply, hcv.multiply_apply]

theorem imageSegment_J11 : (ImageSegment.calcGST cv inputImg w).J11 p =
    𝔼 k, gradX cv border inputImg w p k ^ 2 := by
  simp only [sq]
  exact boxFilter_multiply hcv w p _ _

theorem imageSegment_J22 : (ImageSegment.calcGST cv inputImg w).J22 p =
    𝔼 k, gradY cv border inputImg w p k ^ 2 := by
  simp only [sq]
  exact boxFilter_multiply hcv w p _ _

theorem imageSegment_J12 : (ImageSegment.calcGST cv inputImg w).J12 p =
    𝔼 k, gradX cv border inputImg w p k * gradY cv border inputImg w p k :=
  boxFilter_multiply hcv w p _ _

theorem anisotropic_J11 : (Anisotropic.calcGST cv inputImg w).J11 p =
    𝔼 k, gradX cv border inputImg w p k :=
  hcv.boxFilter_apply _ w p

theorem anisotropic_J22 : (Anisotropic.calcGST cv inputImg w).J22 p =
    𝔼 k, gradY cv border inputImg w p k :=
  hcv.boxFilter_apply _ w p

theorem anisotropic_J12 : (Anisotropic.calcGST cv inputImg w).J12 p =
    𝔼 k, gradX cv border inputImg w p k * gradY cv border inputImg w p k :=
  boxFilter_multiply hcv w p _ _

theorem fromTensor_orientation (J11 J22 J12 : Image ℝ rows cols) :
    (fromTensor cv J11 J22 J12).imgOrientationOut p =
      angle (J22 p - J11 p) (2 * J12 p) / 2 := by
  show (1 / 2) * cv.phase _ _ true p = _
  rw [hcv.phase_apply, one_div, mul_comm, ← div_eq_mul_inv]
  rfl

end AtPixel

/-! ### The images from the tensor on, at a pixel -/

section FromTensor

variable {cv : Cv ℝ rows cols} (hcv : cv.Pixelwise) (p : Pixel rows cols)
  (J11 J22 J12 : Image ℝ rows cols)
include hcv

theorem fromTensor_radicand : (fromTensor cv J11 J22 J12).radicand p =
    (J11 p - J22 p) ^ 2 + 4 * J12 p ^ 2 := by
  show cv.multiply _ _ p + 4 * cv.multiply _ _ p = _
  rw [hcv.multiply_apply, hcv.multiply_apply, ← sq, ← sq]
  rfl

theorem fromTensor_sqrt : cv.sqrt (fromTensor cv J11 J22 J12).radicand p =
    radius (J11 p) (J22 p) (J12 p) := by
  have h := fromTensor_radicand hcv p J11 J22 J12
  rw [hcv.sqrt_apply _ _ (h ▸ radicand_nonneg _ _ _), h, radius_eq]

theorem fromTensor_lambda1 : (fromTensor cv J11 J22 J12).lambda1 p =
    J11 p + J22 p + radius (J11 p) (J22 p) (J12 p) := by
  rw [← fromTensor_sqrt hcv]
  rfl

theorem fromTensor_lambda2 : (fromTensor cv J11 J22 J12).lambda2 p =
    J11 p + J22 p - radius (J11 p) (J22 p) (J12 p) := by
  rw [← fromTensor_sqrt hcv]
  rfl

theorem fromTensor_trace : (fromTensor cv J11 J22 J12).lambda1 p +
    (fromTensor cv J11 J22 J12).lambda2 p = 2 * (J11 p + J22 p) := by
  rw [fromTensor_lambda1 hcv, fromTensor_lambda2 hcv]
  ring

theorem fromTensor_coherency : (fromTensor cv J11 J22 J12).imgCoherencyOut p =
    coherency (J11 p) (J22 p) (J12 p) := by
  show cv.divide ((fromTensor cv J11 J22 J12).lambda1 - (fromTensor cv J11 J22 J12).lambda2)
    ((fromTensor cv J11 J22 J12).lambda1 + (fromTensor cv J11 J22 J12).lambda2) p = _
  rw [hcv.divide_apply, Pi.sub_apply, Pi.add_apply, fromTensor_trace hcv, fromTensor_lambda1 hcv,
    fromTensor_lambda2 hcv]
  have hdiff : J11 p + J22 p + radius (J11 p) (J22 p) (J12 p) -
      (J11 p + J22 p - radius (J11 p) (J22 p) (J12 p)) = 2 * radius (J11 p) (J22 p) (J12 p) := by
    ring
  unfold coherency
  rw [hdiff, mul_div_mul_left _ _ two_ne_zero]
  simp only [mul_eq_zero, two_ne_zero, false_or]

end FromTensor

/-! ### An exact library -/

/-- `BORDER_REFLECT_101` on `n` coordinates: the image is mirrored at its first and last one. -/
def reflect101 (n : ℕ) [NeZero n] (i : ℤ) : Fin n :=
  let m := (i % (2 * (n - 1))).toNat
  Fin.ofNat n (if m < n then m else 2 * (n - 1) - m)

def border101 (rows cols : ℕ) [NeZero rows] [NeZero cols] : Border rows cols where
  row := reflect101 rows
  col := reflect101 cols

/-- The product of a kernel in y and one in x, applied at every pixel. -/
noncomputable def sepFilter (border : Border rows cols) (kx ky : Fin 3 → ℝ)
    (I : Image ℝ rows cols) : Image ℝ rows cols :=
  fun p => ∑ k : Fin 3 × Fin 3, ky k.1 * kx k.2 * I (border.neighbour 3 p k)

/-- A kernel without a mean is blind to constants. -/
theorem sepFilter_const (border : Border rows cols) {kx ky : Fin 3 → ℝ}
    (hzero : ∑ k : Fin 3 × Fin 3, ky k.1 * kx k.2 = 0) (b : ℝ) (p : Pixel rows cols) :
    sepFilter border kx ky (fun _ => b) p = 0 := by
  show ∑ k : Fin 3 × Fin 3, ky k.1 * kx k.2 * b = 0
  rw [← Finset.sum_mul, hzero, zero_mul]

theorem sobel_kernels : ∑ k : Fin 3 × Fin 3, ![1, 2, 1] k.1 * (![-1, 0, 1] k.2 : ℝ) = 0 ∧
    ∑ k : Fin 3 × Fin 3, ![-1, 0, 1] k.1 * (![1, 2, 1] k.2 : ℝ) = 0 := by
  constructor
  · simp [Fintype.sum_prod_type, Fin.sum_univ_three]
  · simp [Fintype.sum_prod_type, Fin.sum_univ_three]
    norm_num

/-- The library in exact arithmetic, with `Sobel` for the two calls that `calcGST` makes. -/
noncomputable def exactCv (border : Border rows cols) : Cv ℝ rows cols where
  Sobel I dx _ _ :=
    if dx = 1 then sepFilter border ![-1, 0, 1] ![1, 2, 1] I
    else sepFilter border ![1, 2, 1] ![-1, 0, 1] I
  multiply I J := fun p => I p * J p
  boxFilter I w := fun p => 𝔼 k, I (border.neighbour w p k)
  sqrt I := fun p => √(I p)
  divide I J := fun p => if J p = 0 then none else some (I p / J p)
  phase X Y _ := fun p => angle (X p) (Y p)
  greater I c := fun p => (I p).any fun x => decide (c < x)
  inRange I low high := fun p => decide (low ≤ I p ∧ I p ≤ high)

theorem exactCv_documented (border : Border rows cols) : (exactCv border).Documented border where
  multiply_apply _ _ _ := rfl
  boxFilter_apply _ _ _ := rfl
  sqrt_apply _ _ _ := rfl
  divide_apply _ _ _ := rfl
  phase_apply _ _ _ := rfl

theorem exactCv_thresholds (border : Border rows cols) : (exactCv border).Thresholds where
  greater_apply I c p := by
    show ((I p).any fun x => decide (c < x)) = true ↔ _
    cases I p <;> simp
  inRange_apply _ _ _ _ := decide_eq_true_iff

end PlayWithOpencv.Gst
