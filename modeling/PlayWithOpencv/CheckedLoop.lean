import Mathlib.Algebra.Order.Ring.Int

/-! # Loops over checked machine integers

A signed operation of a language without defined overflow gives its value when the width has room
for it, and is a fault otherwise (`checked`).  A loop `while test do body` whose operations may
fault is run on fuel, and counts the executions of its body (`loop`).

The rules start from the states that the loop goes through (`Visits`).  The loop on `count + fuel`
units goes through `count` of them and continues on `fuel` units from there (`loop_visits`).  So
it returns when the test fails (`loop_returns`), stops where the body faults (`loop_faults`), and
with too little fuel does neither (`loop_outOfFuel`). -/

namespace CheckedLoop

/-- What stops a program before its end. -/
inductive Fault where
  | overflow (bits : ℕ)
  | outOfFuel
deriving DecidableEq, Repr

/-- The result of a signed operation on `bits` bits whose value is `v`. -/
def checked (bits : ℕ) (v : ℤ) : Except Fault ℤ :=
  if -2 ^ (bits - 1) ≤ v ∧ v < 2 ^ (bits - 1) then .ok v else .error (.overflow bits)

theorem checked_fits {bits : ℕ} {v : ℤ} (hmin : -2 ^ (bits - 1) ≤ v) (hmax : v < 2 ^ (bits - 1)) :
    checked bits v = .ok v := if_pos ⟨hmin, hmax⟩

theorem checked_overflows {bits : ℕ} {v : ℤ} (hmax : 2 ^ (bits - 1) ≤ v) :
    checked bits v = .error (.overflow bits) := by
  apply if_neg
  rintro ⟨-, hlt⟩
  omega

variable {σ : Type}

/-- `while test do body`: the last state, and how often the body was executed. -/
def loop (test : σ → Except Fault Bool) (body : σ → Except Fault σ) :
    ℕ → σ → Except Fault (σ × ℕ)
  | 0, _ => .error .outOfFuel
  | fuel + 1, s => do
      if ← test s then
        let s' ← body s
        let (last, count) ← loop test body fuel s'
        return (last, count + 1)
      else
        return (s, 0)

variable {test : σ → Except Fault Bool} {body : σ → Except Fault σ} {fuel count : ℕ} {s : ℕ → σ}

theorem loop_exit {s : σ} (h : test s = .ok false) : loop test body (fuel + 1) s = .ok (s, 0) := by
  simp only [loop, h]
  rfl

theorem loop_step {s s' : σ} (ht : test s = .ok true) (hb : body s = .ok s') :
    loop test body (fuel + 1) s = (loop test body fuel s').map fun r => (r.1, r.2 + 1) := by
  simp only [loop, ht, hb]
  change (do let r ← loop test body fuel s'; return (r.1, r.2 + 1)) = _
  cases loop test body fuel s' <;> rfl

theorem loop_error {s : σ} {e : Fault} (ht : test s = .ok true) (hb : body s = .error e) :
    loop test body (fuel + 1) s = .error e := by
  simp only [loop, ht, hb]
  rfl

/-- The loop goes through the first `count` of the states `s`, and reaches the next. -/
structure Visits (test : σ → Except Fault Bool) (body : σ → Except Fault σ) (s : ℕ → σ)
    (count : ℕ) : Prop where
  test : ∀ j < count, test (s j) = .ok true
  body : ∀ j < count, body (s j) = .ok (s (j + 1))

theorem Visits.mono (h : Visits test body s count) {count' : ℕ} (hle : count' ≤ count) :
    Visits test body s count' :=
  ⟨fun j hj => h.test j (by omega), fun j hj => h.body j (by omega)⟩

theorem Visits.tail (h : Visits test body s (count + 1)) :
    Visits test body (fun j => s (j + 1)) count :=
  ⟨fun j hj => h.test (j + 1) (by omega), fun j hj => h.body (j + 1) (by omega)⟩

/-- **Step rule**: the loop is cut at a state it goes through. -/
theorem loop_visits (h : Visits test body s count) :
    loop test body (count + fuel) (s 0) =
      (loop test body fuel (s count)).map fun r => (r.1, r.2 + count) := by
  induction count generalizing s with
  | zero =>
      rw [Nat.zero_add]
      cases loop test body fuel (s 0) <;> rfl
  | succ count ih =>
      have hfuel : count + 1 + fuel = count + fuel + 1 := by omega
      rw [hfuel, loop_step (h.test 0 (by omega)) (h.body 0 (by omega)), ih h.tail]
      cases loop test body fuel (s (count + 1)) <;> rfl

/-- The loop returns when the test fails. -/
theorem loop_returns (h : Visits test body s count) (hexit : test (s count) = .ok false)
    (hfuel : count < fuel) : loop test body fuel (s 0) = .ok (s count, count) := by
  obtain ⟨rest, rfl⟩ := Nat.exists_eq_add_of_le hfuel
  have hsplit : count + 1 + rest = count + (rest + 1) := by omega
  rw [hsplit, loop_visits h, loop_exit hexit]
  simp [Except.map]

/-- The loop stops where the body faults. -/
theorem loop_faults {e : Fault} (h : Visits test body s count) (htest : test (s count) = .ok true)
    (hbody : body (s count) = .error e) (hfuel : count < fuel) :
    loop test body fuel (s 0) = .error e := by
  obtain ⟨rest, rfl⟩ := Nat.exists_eq_add_of_le hfuel
  have hsplit : count + 1 + rest = count + (rest + 1) := by omega
  rw [hsplit, loop_visits h, loop_error htest hbody]
  rfl

/-- The loop needs a unit of fuel for every state it goes through, and one for its end. -/
theorem loop_outOfFuel (h : Visits test body s count) (hfuel : fuel ≤ count) :
    loop test body fuel (s 0) = .error .outOfFuel := by
  have hcut : loop test body (fuel + 0) (s 0) =
      (loop test body 0 (s fuel)).map fun r => (r.1, r.2 + fuel) := loop_visits (h.mono hfuel)
  rw [Nat.add_zero] at hcut
  rw [hcut]
  rfl

end CheckedLoop
