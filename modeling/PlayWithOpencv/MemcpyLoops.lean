import PlayWithOpencv.CheckedLoop
import Mathlib.Data.Nat.Log
import Mathlib.Tactic

/-! # The complexity benchmarks of `memcpy.cpp`

`bench_N`, `bench_LogN` and `bench_Square` have one shape (`bench`): an `int n` that is declared
before the timed loop, and in each timed iteration a loop that adds 2 to it and counts an index up.
The operations are those of the source with their widths: `n`, and the index of `bench_N` and
`bench_LogN`, have 32 bits, and the index and the bound of `bench_Square` have 64.

The indices run as the benchmarks mean them to (`Indices`), so that each timed iteration executes
its body `r`, `⌈log₂ r⌉` or `r² - 1` times.  But `n` is never reset: it goes up by twice that number
in every iteration, and overflows unless the sum over all iterations fits in an `int`
(`benches_runExactly_iff`).  With its largest argument `bench_Square` overflows in its first
iteration (`bench_Square_overflows`). -/

namespace PlayWithOpencv.Memcpy

open CheckedLoop

/-! ### The benchmarks -/

/-- The variables of a benchmark's loop. -/
structure Locals where
  i : ℤ
  n : ℤ

/-- `for (i = init; test; step) n += 2`. -/
def addLoop (init : ℤ) (test : ℤ → Except Fault Bool) (step : ℤ → Except Fault ℤ) (fuel : ℕ)
    (n : ℤ) : Except Fault (Locals × ℕ) :=
  loop (fun s : Locals => test s.i)
    (fun s => do
      let n ← checked 32 (s.n + 2)
      let i ← step s.i
      return ⟨i, n⟩)
    fuel ⟨init, n⟩

/-- `for (auto _ : state)`: the last `n`, and how often each iteration executed its body. -/
def timed (inner : ℤ → Except Fault (Locals × ℕ)) : ℕ → ℤ → Except Fault (ℤ × List ℕ)
  | 0, n => .ok (n, [])
  | iterations + 1, n => do
      let (s, count) ← inner n
      let (n, counts) ← timed inner iterations s.n
      return (n, count :: counts)

/-- What is left of a benchmark when it returns. -/
structure Report where
  counts : List ℕ
  complexityN : ℤ
deriving DecidableEq

/-- The body of the benchmarks; `n` is not reset between the timed iterations. -/
def bench (init : ℤ) (test : ℤ → Except Fault Bool) (step : ℤ → Except Fault ℤ) (range : ℤ)
    (iterations fuel : ℕ) : Except Fault Report := do
  let (_, counts) ← timed (addLoop init test step fuel) iterations 0
  return ⟨counts, range⟩

/-- `bench_N`. -/
def bench_N (range : ℤ) : ℕ → ℕ → Except Fault Report :=
  bench 0 (fun i => .ok (decide (i < range))) (fun i => checked 32 (i + 1)) range

/-- `bench_LogN`. -/
def bench_LogN (range : ℤ) : ℕ → ℕ → Except Fault Report :=
  bench 1 (fun i => .ok (decide (i < range))) (fun i => checked 32 (i * 2)) range

/-- `bench_Square`; its index is an `int64_t`, and so is `len`. -/
def bench_Square (len : ℤ) : ℕ → ℕ → Except Fault Report :=
  bench 1 (fun i => do return decide (i < (← checked 64 (len * len)))) (fun i => checked 64 (i + 1))
    len

example : bench_LogN 10 3 5 = .ok ⟨[4, 4, 4], 10⟩ := by decide

/-- The largest `int`. -/
def intMax : ℕ := 2 ^ 31 - 1

/-- The benchmark overflows no `int`, and each timed iteration executes its body `count` times. -/
structure RunsExactly (run : ℕ → Except Fault Report) (iterations count : ℕ) : Prop where
  safe : ∀ fuel, run fuel ≠ .error (.overflow 32)
  returns : ∃ enough, ∀ fuel, enough ≤ fuel → ∃ report, run fuel = .ok report ∧
    report.counts = List.replicate iterations count

/-! ### One timed iteration -/

/-- The index of a loop: its values, and at which of them the loop ends. -/
structure Indices (init : ℤ) (test : ℤ → Except Fault Bool) (step : ℤ → Except Fault ℤ)
    (index : ℕ → ℤ) (count : ℕ) : Prop where
  starts : index 0 = init
  goesOn : ∀ j < count, test (index j) = .ok true
  steps : ∀ j < count, step (index j) = .ok (index (j + 1))
  ends : test (index count) = .ok false

theorem checked_add_two {n : ℕ} (h : n + 2 ≤ intMax) : checked 32 ((n : ℤ) + 2) = .ok (n + 2) := by
  unfold intMax at h
  apply checked_fits
  · omega
  · omega

theorem checked_add_two_overflows {n : ℕ} (h : intMax < n + 2) :
    checked 32 ((n : ℤ) + 2) = .error (.overflow 32) := by
  unfold intMax at h
  apply checked_overflows
  omega

section Iteration

variable {init range : ℤ} {test : ℤ → Except Fault Bool} {step : ℤ → Except Fault ℤ}
  {index : ℕ → ℤ} {count fuel iterations n : ℕ}

/-- The loop adds 2 to `n` at every index, as long as there is room for it. -/
theorem addLoop_visits (h : Indices init test step index count) {rounds : ℕ} (hle : rounds ≤ count)
    (hfits : n + 2 * rounds ≤ intMax) :
    Visits (fun s : Locals => test s.i)
      (fun s => do
        let n ← checked 32 (s.n + 2)
        let i ← step s.i
        return (⟨i, n⟩ : Locals))
      (fun j => ⟨index j, ((n + 2 * j : ℕ) : ℤ)⟩) rounds where
  test := fun j hj => h.goesOn j (by omega)
  body := by
    intro j hj
    have hroom : n + 2 * j + 2 ≤ intMax := by omega
    simp only [checked_add_two hroom, h.steps j (by omega)]
    rfl

theorem addLoop_fits (h : Indices init test step index count) (hfits : n + 2 * count ≤ intMax)
    (hfuel : count < fuel) :
    addLoop init test step fuel n = .ok (⟨index count, ((n + 2 * count : ℕ) : ℤ)⟩, count) := by
  unfold addLoop
  rw [← h.starts]
  exact loop_returns (addLoop_visits h le_rfl hfits) h.ends hfuel

theorem addLoop_overflows (h : Indices init test step index count) (hn : n ≤ intMax)
    (hover : intMax < n + 2 * count) (hfuel : count < fuel) :
    addLoop init test step fuel n = .error (.overflow 32) := by
  -- the first index at which there is no room for 2 more
  have hlt : (intMax - n) / 2 < count := by omega
  have hfits : n + 2 * ((intMax - n) / 2) ≤ intMax := by omega
  have hnext : intMax < n + 2 * ((intMax - n) / 2) + 2 := by omega
  unfold addLoop
  rw [← h.starts]
  refine loop_faults (addLoop_visits h hlt.le hfits) (h.goesOn _ hlt) ?_ (hlt.trans hfuel)
  simp only [checked_add_two_overflows hnext]
  rfl

theorem addLoop_outOfFuel (h : Indices init test step index count)
    (hfits : n + 2 * count ≤ intMax) (hfuel : fuel ≤ count) :
    addLoop init test step fuel n = .error .outOfFuel := by
  unfold addLoop
  rw [← h.starts]
  exact loop_outOfFuel (addLoop_visits h le_rfl hfits) hfuel

/-! ### The timed loop -/

theorem timed_succ {inner : ℤ → Except Fault (Locals × ℕ)} {n : ℤ} {s : Locals}
    (h : inner n = .ok (s, count)) : timed inner (iterations + 1) n =
      (timed inner iterations s.n).map fun r => (r.1, count :: r.2) := by
  simp only [timed, h]
  change (do let r ← timed inner iterations s.n; return (r.1, count :: r.2)) = _
  cases timed inner iterations s.n <;> rfl

theorem timed_error {inner : ℤ → Except Fault (Locals × ℕ)} {n : ℤ} {e : Fault}
    (h : inner n = .error e) : timed inner (iterations + 1) n = .error e := by
  simp only [timed, h]
  rfl

/-- One iteration less, from the `n` that the first one leaves. -/
theorem rounds_succ : n + 2 * count * (iterations + 1) =
    n + 2 * count + 2 * count * iterations := by ring

theorem timed_fits (h : Indices init test step index count)
    (hfits : n + 2 * count * iterations ≤ intMax) (hfuel : count < fuel) :
    timed (addLoop init test step fuel) iterations n =
      .ok (((n + 2 * count * iterations : ℕ) : ℤ), List.replicate iterations count) := by
  induction iterations generalizing n with
  | zero => simp [timed]
  | succ iterations ih =>
      rw [rounds_succ] at hfits ⊢
      have hfirst : n + 2 * count ≤ intMax := by omega
      rw [timed_succ (addLoop_fits h hfirst hfuel), ih hfits]
      rfl

theorem timed_overflows (h : Indices init test step index count) (hn : n ≤ intMax)
    (hover : intMax < n + 2 * count * iterations) (hfuel : count < fuel) :
    timed (addLoop init test step fuel) iterations n = .error (.overflow 32) := by
  induction iterations generalizing n with
  | zero => omega
  | succ iterations ih =>
      rw [rounds_succ] at hover
      by_cases hfirst : n + 2 * count ≤ intMax
      · rw [timed_succ (addLoop_fits h hfirst hfuel), ih hfirst hover]
        rfl
      · exact timed_error (addLoop_overflows h hn (by omega) hfuel)

/-- With too little fuel a timed loop that has room enough does not overflow. -/
theorem timed_safe (h : Indices init test step index count)
    (hfits : n + 2 * count * iterations ≤ intMax) (hfuel : fuel ≤ count) :
    timed (addLoop init test step fuel) iterations n ≠ .error (.overflow 32) := by
  cases iterations with
  | zero => simp [timed]
  | succ iterations =>
      rw [rounds_succ] at hfits
      have hfirst : n + 2 * count ≤ intMax := by omega
      rw [timed_error (addLoop_outOfFuel h hfirst hfuel)]
      simp

theorem bench_eq : bench init test step range iterations fuel =
    (timed (addLoop init test step fuel) iterations (0 : ℕ)).map fun r => ⟨r.2, range⟩ := by
  unfold bench
  rw [Nat.cast_zero]
  cases timed (addLoop init test step fuel) iterations 0 <;> rfl

theorem bench_fits (h : Indices init test step index count)
    (hfits : 2 * count * iterations ≤ intMax) (hfuel : count < fuel) :
    bench init test step range iterations fuel = .ok ⟨List.replicate iterations count, range⟩ := by
  rw [bench_eq, timed_fits h (by omega) hfuel]
  rfl

theorem bench_safe (h : Indices init test step index count)
    (hfits : 2 * count * iterations ≤ intMax) :
    bench init test step range iterations fuel ≠ .error (.overflow 32) := by
  rcases Nat.lt_or_ge count fuel with hfuel | hfuel
  · rw [bench_fits h hfits hfuel]
    simp
  · have hroom : 0 + 2 * count * iterations ≤ intMax := by omega
    have hsafe := timed_safe h hroom hfuel
    rw [bench_eq]
    cases htimed : timed (addLoop init test step fuel) iterations (0 : ℕ) with
    | error e =>
        rintro ⟨⟩
        exact hsafe htimed
    | ok r => simp [Except.map]

/-- **The accumulator decides**: a benchmark whose index runs as it should is right when twice the
number of body executions of all iterations fits in an `int`. -/
theorem bench_runsExactly_iff (h : Indices init test step index count) :
    RunsExactly (bench init test step range iterations) iterations count ↔
      2 * count * iterations ≤ intMax := by
  constructor
  · intro hrun
    by_contra hover
    apply hrun.safe (count + 1)
    rw [bench_eq, timed_overflows h (Nat.zero_le _) (by omega) (by omega)]
    rfl
  · intro hfits
    exact
      { safe := fun fuel => bench_safe h hfits
        returns := ⟨count + 1, fun fuel hfuel => ⟨_, bench_fits h hfits hfuel, rfl⟩⟩ }

end Iteration

/-! ### The three benchmarks -/

section Benchmarks

variable {r : ℕ}

theorem indices_N (hmax : r ≤ 10 ^ 7) :
    Indices 0 (fun i => .ok (decide (i < (r : ℤ)))) (fun i => checked 32 (i + 1)) (fun j => j) r where
  starts := rfl
  goesOn := by
    intro j hj
    simp [hj]
  steps := by
    intro j hj
    rw [checked_fits (by omega) (by omega)]
    push_cast
    rfl
  ends := by simp

/-- The index of `bench_LogN` is a power of two; the first one from `r` on ends the loop. -/
theorem indices_LogN (hpos : 1 ≤ r) (hmax : r ≤ 10 ^ 7) :
    Indices 1 (fun i => .ok (decide (i < (r : ℤ)))) (fun i => checked 32 (i * 2))
      (fun j => ((2 ^ j : ℕ) : ℤ)) (Nat.clog 2 r) where
  starts := rfl
  goesOn := by
    intro j hj
    have hlt : 2 ^ j < r := Nat.pow_lt_of_lt_clog hj
    simp only [Nat.cast_lt, hlt, decide_true]
  steps := by
    intro j hj
    have hlt : 2 ^ j < r := Nat.pow_lt_of_lt_clog hj
    have hdouble : ((2 ^ (j + 1) : ℕ) : ℤ) = ((2 ^ j : ℕ) : ℤ) * 2 := by
      rw [Nat.pow_succ, Nat.cast_mul]
      rfl
    simp only [hdouble]
    generalize 2 ^ j = i at hlt
    rw [checked_fits (by omega) (by omega)]
  ends := by
    have hle : r ≤ 2 ^ Nat.clog 2 r := Nat.le_pow_clog (by omega) r
    simp only [Nat.cast_lt, hle.not_gt, decide_false]

theorem indices_Square (hpos : 1 ≤ r) (hmax : r ≤ 100000) :
    Indices 1 (fun i => do return decide (i < (← checked 64 ((r : ℤ) * r))))
      (fun i => checked 64 (i + 1)) (fun j => ((j + 1 : ℕ) : ℤ)) (r * r - 1) := by
  have hsq : r * r ≤ 100000 * 100000 := Nat.mul_le_mul hmax hmax
  have hpos : 1 ≤ r * r := Nat.mul_pos hpos hpos
  have hchecked : checked 64 ((r : ℤ) * r) = .ok ((r * r : ℕ) : ℤ) := by
    rw [← Nat.cast_mul]
    generalize r * r = sq at hsq
    exact checked_fits (by omega) (by omega)
  simp only [hchecked]
  generalize r * r = sq at hsq hpos
  exact
    { starts := rfl
      goesOn := by
        intro j hj
        have hlt : j + 1 < sq := by omega
        change Except.ok (decide (((j + 1 : ℕ) : ℤ) < (sq : ℤ))) = _
        simp only [Nat.cast_lt, hlt, decide_true]
      steps := by
        intro j hj
        rw [checked_fits (by omega) (by omega)]
        rfl
      ends := by
        change Except.ok (decide (((sq - 1 + 1 : ℕ) : ℤ) < (sq : ℤ))) = _
        rw [Nat.sub_add_cancel hpos]
        simp }

/-- **The benchmarks**: they overflow no `int`, and execute their bodies `r`, `⌈log₂ r⌉` and
`r² - 1` times in each timed iteration, exactly when twice the number of executions over all
iterations fits in an `int`. -/
theorem benches_runExactly_iff {r : ℕ} (hmin : 10 ≤ r) (hmax : r ≤ 10 ^ 7) (iterations : ℕ) :
    (RunsExactly (bench_N r iterations) iterations r ↔ 2 * r * iterations ≤ intMax) ∧
      (RunsExactly (bench_LogN r iterations) iterations (Nat.clog 2 r) ↔
        2 * Nat.clog 2 r * iterations ≤ intMax) ∧
      (r ≤ 100000 → (RunsExactly (bench_Square r iterations) iterations (r * r - 1) ↔
        2 * (r * r - 1) * iterations ≤ intMax)) := by
  have hpos : 1 ≤ r := by omega
  refine ⟨?_, ?_, fun hsquare => ?_⟩
  · exact bench_runsExactly_iff (indices_N hmax)
  · exact bench_runsExactly_iff (indices_LogN hpos hmax)
  · exact bench_runsExactly_iff (indices_Square hpos hsquare)

theorem benches_runExactly_iff_ten : RunsExactly (bench_N (10 : ℕ) 1000) 1000 10 ∧
    RunsExactly (bench_LogN (10 : ℕ) 1000) 1000 (Nat.clog 2 10) ∧
      RunsExactly (bench_Square (10 : ℕ) 1000) 1000 (10 * 10 - 1) := by
  obtain ⟨hN, hLogN, hSquare⟩ := benches_runExactly_iff (r := 10) (by decide) (by decide) 1000
  exact ⟨hN.mpr (by decide), hLogN.mpr (by decide), (hSquare (by decide)).mpr (by decide)⟩

/-- With its largest argument `bench_Square` adds 2 too often for an `int` in one iteration. -/
theorem bench_Square_overflows :
    ¬ RunsExactly (bench_Square (100000 : ℕ) 1) 1 (100000 * 100000 - 1) := by
  unfold bench_Square
  rw [bench_runsExactly_iff (indices_Square (by decide) le_rfl)]
  decide

end Benchmarks

end PlayWithOpencv.Memcpy
