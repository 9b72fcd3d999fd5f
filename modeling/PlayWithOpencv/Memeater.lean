import Mathlib.Algebra.Order.Ring.Int
import Mathlib.Data.Nat.Find
import PlayWithOpencv.CheckedLoop
import PlayWithOpencv.Descriptors
import PlayWithOpencv.PartialRun

/-! # The memory eater

`perftest/memeater.c` goes into the background, allocates the megabytes it is asked for, at most
500 at a time, fills them, and points its standard descriptors to `/dev/null`.

* `eat_blocks`: whatever `malloc` answers, and for every size that an `int` holds, no operation
  overflows and no write leaves its block.  The blocks that are planned add up to the size, those up
  to the first one that it does not get are filled, and there the program gives up.
* `descriptors_eq`: the program keeps no descriptor of its caller below 256, and its standard
  descriptors are all on `/dev/null` exactly if it could open that in the beginning. -/

namespace PlayWithOpencv.Memeater

open CheckedLoop Descriptors PartialRun

/-! ### The loop -/

/-- `malloc`: what the block of a round holds, if it can be had. -/
abbrev Malloc := ℕ → ℕ → Option (List ℕ)

/-- A block has the size that was asked for. -/
def Malloc.Documented (malloc : Malloc) : Prop := ∀ k n p, malloc k n = some p → p.length = n

/-- `p[j] = j & 0xFF`. -/
def fillStep (p : List ℕ) (j : ℕ) : Option (List ℕ) :=
  if j < p.length then some (p.set j (j % 256)) else none

/-- The loop that fills a block; `none` for a write outside of it. -/
def fill (p : List ℕ) (bytesToAllocate : ℕ) : Option (List ℕ) :=
  run fillStep p (List.range bytesToAllocate)

/-- The variables of the loop, the blocks it has filled, and whether it has given up. -/
structure State where
  numMb : ℤ
  blocks : List (Option (List ℕ))
  exited : Bool

/-- `numMb > 0`, unless the program has exited. -/
def test (s : State) : Except Fault Bool := .ok (!s.exited && decide (s.numMb > 0))

/-- 500 megabytes at a time at most. -/
def mbToAllocate (numMb : ℤ) : ℤ := if numMb > 500 then 500 else numMb

/-- The body of the loop. -/
def body (malloc : Malloc) (s : State) : Except Fault State := do
  let kb ← checked 32 (mbToAllocate s.numMb * 1024)
  let bytesToAllocate ← checked 32 (kb * 1024)
  match malloc s.blocks.length bytesToAllocate.toNat with
  | none => return { s with exited := true }
  | some p =>
      let numMb ← checked 32 (s.numMb - mbToAllocate s.numMb)
      return { s with numMb, blocks := s.blocks ++ [fill p bytesToAllocate.toNat] }

def eat (malloc : Malloc) (fuel : ℕ) (numMb : ℤ) : Except Fault (State × ℕ) :=
  loop test (body malloc) fuel ⟨numMb, [], false⟩

/-! ### Blocks -/

/-- The number of blocks, and the megabytes of each. -/
def chunks (numMb : ℕ) : ℕ := (numMb + 499) / 500
def chunk (numMb k : ℕ) : ℕ := min 500 (numMb - 500 * k)

/-- The bytes of a megabyte. -/
def megabyte : ℕ := 1024 * 1024

/-- What a block of `n` bytes is filled with. -/
def pattern (n : ℕ) : List ℕ := (List.range n).map (· % 256)

theorem chunk_sum (numMb : ℕ) : ((List.range (chunks numMb)).map (chunk numMb)).sum = numMb := by
  have hsum : ∀ k, ((List.range k).map (chunk numMb)).sum = min numMb (500 * k) := by
    intro k
    induction k with
    | zero => simp
    | succ k ih =>
        rw [List.range_succ, List.map_append, List.sum_append, ih, List.map_singleton,
          List.sum_singleton, chunk]
        omega
  rw [hsum, chunks]
  omega

/-- A block is filled without a write outside of it. -/
theorem fill_eq {p : List ℕ} {n : ℕ} (hp : p.length = n) : fill p n = some (pattern n) := by
  have hprefix : ∀ k ≤ p.length,
      run fillStep p (List.range k) = some (pattern k ++ p.drop k) := by
    intro k
    induction k with
    | zero => exact fun _ => rfl
    | succ k ih =>
        intro hk
        have hlen : (pattern k).length = k := by simp [pattern]
        have hlt : k < (pattern k ++ p.drop k).length := by
          rw [List.length_append, hlen, List.length_drop]
          omega
        rw [List.range_succ, run_concat, ih (by omega), Option.bind_some, fillStep, if_pos hlt,
          List.set_append_right _ _ (by omega), hlen, Nat.sub_self,
          List.drop_eq_getElem_cons (show k < p.length by omega), List.set_cons_zero]
        simp [pattern, List.range_succ]
  subst hp
  rw [fill, hprefix _ (Nat.le_refl _), List.drop_length, List.append_nil]

/-! ### Rounds -/

/-- The size of the block of a round. -/
def bytes (numMb k : ℕ) : ℕ := chunk numMb k * megabyte

/-- The blocks of `k` rounds. -/
def filled (numMb k : ℕ) : List (Option (List ℕ)) :=
  (List.range k).map fun i => some (pattern (bytes numMb i))

/-- The state after `k` rounds. -/
def reached (numMb k : ℕ) : State := ⟨((numMb - 500 * k : ℕ) : ℤ), filled numMb k, false⟩

section Rounds

variable {malloc : Malloc} {numMb k : ℕ}

theorem test_reached : test (reached numMb k) = .ok (decide (500 * k < numMb)) := by
  have hiff : ((numMb - 500 * k : ℕ) : ℤ) > 0 ↔ 500 * k < numMb := by omega
  unfold test reached
  rw [decide_eq_decide.mpr hiff]
  rfl

theorem filled_succ : filled numMb (k + 1) =
    filled numMb k ++ [some (pattern (bytes numMb k))] := by
  simp [filled, List.range_succ]

theorem length_filled : (filled numMb k).length = k := by simp [filled]

theorem mbToAllocate_eq : mbToAllocate ((numMb - 500 * k : ℕ) : ℤ) = (chunk numMb k : ℤ) := by
  rw [chunk, mbToAllocate]
  split_ifs <;> omega

/-- The size of a block is computed without overflow. -/
theorem checked_bytes (numMb k : ℕ) : ∃ kb bytesToAllocate,
    checked 32 ((chunk numMb k : ℤ) * 1024) = .ok kb ∧
      checked 32 (kb * 1024) = .ok bytesToAllocate ∧
        bytesToAllocate.toNat = bytes numMb k := by
  have hle : chunk numMb k ≤ 500 := Nat.min_le_left _ _
  refine ⟨(chunk numMb k : ℤ) * 1024, (chunk numMb k : ℤ) * 1024 * 1024, ?_, ?_, ?_⟩
  · apply checked_fits <;> omega
  · apply checked_fits <;> omega
  · rw [bytes, megabyte]
    omega

/-- So is what is left after it. -/
theorem checked_rest (hfit : numMb < 2 ^ 31) :
    checked 32 (((numMb - 500 * k : ℕ) : ℤ) - (chunk numMb k : ℤ)) =
      .ok ((numMb - 500 * (k + 1) : ℕ) : ℤ) := by
  have hvalue : ((numMb - 500 * k : ℕ) : ℤ) - (chunk numMb k : ℤ) =
      ((numMb - 500 * (k + 1) : ℕ) : ℤ) := by
    rw [chunk]
    omega
  rw [hvalue]
  apply checked_fits <;> omega

/-- The state when a block cannot be had. -/
def gaveUp (numMb k : ℕ) : State := ⟨((numMb - 500 * k : ℕ) : ℤ), filled numMb k, true⟩

theorem test_gaveUp : test (gaveUp numMb k) = .ok false := by
  unfold test gaveUp
  rw [Bool.not_true, Bool.false_and]

theorem body_none (hnone : malloc k (bytes numMb k) = none) :
    body malloc (reached numMb k) = .ok (gaveUp numMb k) := by
  obtain ⟨kb, bytesToAllocate, hkb, hbytes, hnat⟩ := checked_bytes numMb k
  unfold body reached gaveUp
  simp only [mbToAllocate_eq, hkb, hbytes, hnat, length_filled, hnone, bind, Except.bind, pure,
    Except.pure]

/-- **A round** that gets its block. -/
theorem body_some (hmalloc : malloc.Documented) (hfit : numMb < 2 ^ 31)
    (hgot : (malloc k (bytes numMb k)).isSome) :
    body malloc (reached numMb k) = .ok (reached numMb (k + 1)) := by
  obtain ⟨kb, bytesToAllocate, hkb, hbytes, hnat⟩ := checked_bytes numMb k
  obtain ⟨p, hp⟩ := Option.isSome_iff_exists.mp hgot
  have hfill := fill_eq (hmalloc _ _ _ hp)
  unfold body reached
  simp only [mbToAllocate_eq, hkb, hbytes, hnat, length_filled, hp, checked_rest hfit, hfill,
    filled_succ, bind, Except.bind, pure, Except.pure]

theorem visits (hmalloc : malloc.Documented) (hfit : numMb < 2 ^ 31) {m : ℕ}
    (hm : m ≤ chunks numMb) (hgot : ∀ k < m, (malloc k (bytes numMb k)).isSome) :
    Visits test (body malloc) (reached numMb) m := by
  have hlt : ∀ k < m, 500 * k < numMb := by
    intro k hk
    rw [chunks] at hm
    omega
  constructor
  · intro k hk
    rw [test_reached, decide_eq_true (hlt k hk)]
  · intro k hk
    exact body_some hmalloc hfit (hgot k hk)

/-- **The loop** after `m` blocks: it has all of them, or does not get the next one. -/
theorem eat_nat (hmalloc : malloc.Documented) (hfit : numMb < 2 ^ 31) {m : ℕ}
    (hm : m ≤ chunks numMb) (hgot : ∀ k < m, (malloc k (bytes numMb k)).isSome)
    (hlast : m < chunks numMb → malloc m (bytes numMb m) = none) {fuel : ℕ}
    (hfuel : chunks numMb + 1 < fuel) :
    ∃ last rounds, eat malloc fuel numMb = .ok (last, rounds) ∧ last.blocks = filled numMb m ∧
      last.exited = decide (m < chunks numMb) := by
  have hvisits := visits hmalloc hfit hm hgot
  have hstart : (⟨(numMb : ℤ), [], false⟩ : State) = reached numMb 0 := rfl
  by_cases hall : m < chunks numMb
  · obtain ⟨rest, rfl⟩ : ∃ rest, fuel = m + (rest + 1 + 1) := ⟨fuel - m - 2, by omega⟩
    have hlt : 500 * m < numMb := by
      rw [chunks] at hall
      omega
    have htest : test (reached numMb m) = .ok true := by
      rw [test_reached, decide_eq_true hlt]
    refine ⟨gaveUp numMb m, 1 + m, ?_, Eq.refl _, (decide_eq_true hall).symm⟩
    rw [eat, hstart, loop_visits hvisits, loop_step htest (body_none (hlast hall)),
      loop_exit test_gaveUp]
    simp [Except.map]
  · refine ⟨reached numMb m, m, ?_, Eq.refl _, (decide_eq_false hall).symm⟩
    rw [eat, hstart]
    refine loop_returns hvisits ?_ (by omega)
    have hdone : ¬ 500 * m < numMb := by
      rw [chunks] at hall hm
      omega
    rw [test_reached, decide_eq_false hdone]

end Rounds

/-- **The blocks**: those that are planned add up to the size; there is none for a negative size.
The loop overflows nothing and ends; it has filled the blocks up to the first one that it does not
get, and gives up there. -/
theorem eat_blocks {malloc : Malloc} (hmalloc : malloc.Documented) {numMb : ℤ}
    (hfit : numMb < 2 ^ 31) :
    ((List.range (chunks numMb.toNat)).map (chunk numMb.toNat)).sum = numMb.toNat ∧
      ∃ m ≤ chunks numMb.toNat, (∀ k < m, (malloc k (bytes numMb.toNat k)).isSome) ∧
        (m < chunks numMb.toNat → malloc m (bytes numMb.toNat m) = none) ∧
        ∀ fuel, chunks numMb.toNat + 1 < fuel → ∃ last rounds,
          eat malloc fuel numMb = .ok (last, rounds) ∧ last.blocks = filled numMb.toNat m ∧
            last.exited = decide (m < chunks numMb.toNat) := by
  refine ⟨chunk_sum _, ?_⟩
  rcases lt_or_ge 0 numMb with hpos | hneg
  · obtain ⟨n, rfl⟩ := Int.eq_ofNat_of_zero_le (Int.le_of_lt hpos)
    rw [Int.toNat_natCast]
    have hfit : n < 2 ^ 31 := by omega
    by_cases hfail : ∃ k, k < chunks n ∧ malloc k (bytes n k) = none
    · have hfirst := Nat.find_spec hfail
      have hgot : ∀ k < Nat.find hfail, (malloc k (bytes n k)).isSome := by
        intro k hk
        rw [Option.isSome_iff_ne_none]
        intro hnone
        exact Nat.find_min hfail hk ⟨by omega, hnone⟩
      exact ⟨Nat.find hfail, Nat.le_of_lt hfirst.1, hgot, fun _ => hfirst.2, fun fuel hfuel =>
        eat_nat hmalloc hfit (Nat.le_of_lt hfirst.1) hgot (fun _ => hfirst.2) hfuel⟩
    · have hgot : ∀ k < chunks n, (malloc k (bytes n k)).isSome := by
        intro k hk
        rw [Option.isSome_iff_ne_none]
        exact fun hnone => hfail ⟨k, hk, hnone⟩
      exact ⟨chunks n, Nat.le_refl _, hgot, fun h => absurd h (Nat.lt_irrefl _), fun fuel hfuel =>
        eat_nat hmalloc hfit (Nat.le_refl _) hgot (fun h => absurd h (Nat.lt_irrefl _)) hfuel⟩
  · -- nothing is asked for
    rw [Int.toNat_of_nonpos hneg]
    refine ⟨0, Nat.le_refl _, fun k hk => absurd hk (Nat.not_lt_zero k),
      fun h => absurd h (Nat.lt_irrefl _), fun fuel hfuel => ?_⟩
    obtain ⟨rest, rfl⟩ : ∃ rest, fuel = rest + 1 := ⟨fuel - 1, by omega⟩
    have htest : test ⟨numMb, [], false⟩ = .ok false := by
      have hnot : ¬ numMb > 0 := by omega
      simp [test, hnot]
    exact ⟨_, 0, loop_exit htest, rfl, rfl⟩

theorem eat_blocks_zeroed :
    ∃ m ≤ chunks 1200, ∀ fuel, chunks 1200 + 1 < fuel → ∃ last rounds,
      eat (fun _ n => some (List.replicate n 0)) fuel 1200 = .ok (last, rounds) ∧
        last.blocks = filled 1200 m ∧ last.exited = decide (m < chunks 1200) := by
  have hmalloc : Malloc.Documented fun _ n => some (List.replicate n 0) := by
    intro k n p hp
    obtain rfl := Option.some.inj hp
    exact List.length_replicate
  obtain ⟨-, m, hm, -, -, hrun⟩ := eat_blocks hmalloc (by decide : (1200 : ℤ) < 2 ^ 31)
  exact ⟨m, hm, hrun⟩

/-! ### The descriptors -/

section Standard

variable {α : Type*} (limit : ℕ) (devNull : α)

/-- `open("/dev/null", ...)`, which may fail. -/
def openNull (can : Bool) (t : Table α) : Option (ℕ × Table α) :=
  if can then openFile limit devNull t else none

/-- What the second child does to its descriptors before it eats; a failed `open` goes unnoticed. -/
def detach (can : Bool) (t : Table α) : Table α :=
  let t := close t 0
  let t := ((openNull limit devNull can t).map Prod.snd).getD t
  (List.range' 3 253).foldl close t

/-- What it does after that; the program exits if it cannot open `/dev/null` now. -/
def redirect (can : Bool) (t : Table α) : Option (Table α) := do
  let t := close t 1
  let (_, t) ← openNull limit devNull can t
  let t := close t 2
  return ((dup limit t 1).map Prod.snd).getD t

variable {limit devNull}

theorem foldl_close (n : ℕ) : ∀ (first : ℕ) (t : Table α) (fd : ℕ),
    (List.range' first n).foldl close t fd = if first ≤ fd ∧ fd < first + n then none else t fd := by
  induction n with
  | zero =>
      intro first t fd
      have hempty : ¬ (first ≤ fd ∧ fd < first + 0) := by omega
      rw [if_neg hempty]
      rfl
  | succ n ih =>
      intro first t fd
      rw [List.range'_succ, List.foldl_cons, ih]
      by_cases hfd : fd = first
      · subst hfd
        have hin : fd ≤ fd ∧ fd < fd + (n + 1) := by omega
        rw [if_pos hin, close_self]
        split_ifs <;> rfl
      · rw [close_of_ne t hfd]
        have hiff : (first + 1 ≤ fd ∧ fd < first + 1 + n) ↔ (first ≤ fd ∧ fd < first + (n + 1)) := by
          omega
        simp only [hiff]

/-- The descriptor that is freed is the next one, if those below it are in use. -/
theorem openFile_close (t : Table α) {fd : ℕ} (hlt : fd < limit) (hlow : ∀ x < fd, t x ≠ none)
    (a : α) : openFile limit a (close t fd) = some (fd, Function.update (close t fd) fd (some a)) := by
  have hlowest : lowest limit (close t fd) = some fd := by
    refine lowest_eq_some_iff.mpr ⟨close_self t fd, hlt, fun x hx => ?_⟩
    rw [close_of_ne t (by omega)]
    exact hlow x hx
  rw [openFile, hlowest, Option.map_some]

theorem detach_apply (hlimit : 3 ≤ limit) (can : Bool) (t : Table α) (fd : ℕ) :
    detach limit devNull can t fd = if 3 ≤ fd ∧ fd < 256 then none else
      if fd = 0 then (if can then some devNull else none) else t fd := by
  unfold detach
  rw [foldl_close]
  have hopen : ((openNull limit devNull can (close t 0)).map Prod.snd).getD (close t 0) fd =
      if fd = 0 then (if can then some devNull else none) else t fd := by
    cases can with
    | false =>
        by_cases hfd : fd = 0
        · simp [openNull, hfd]
        · simp [openNull, hfd, close_of_ne t hfd]
    | true =>
        rw [openNull, if_pos rfl,
          openFile_close t (by omega) fun x hx => absurd hx (Nat.not_lt_zero x)]
        by_cases hfd : fd = 0
        · simp [hfd]
        · simp [hfd, close_of_ne t hfd]
  rw [hopen]

/-- `/dev/null` could not be opened before: it gets the first descriptor now, and there is nothing
to duplicate. -/
theorem redirect_closed (hlimit : 0 < limit) (t : Table α) {t₁ : Table α}
    (hdetach : ∀ fd, t₁ fd = if 3 ≤ fd ∧ fd < 256 then none else if fd = 0 then none else t fd)
    (hzero : t₁ 0 = none) : redirect limit devNull true t₁ = some fun fd =>
      if 256 ≤ fd then t fd else if fd = 0 then some devNull else none := by
  have hfree : close t₁ 1 0 = none := by rw [close_of_ne t₁ (by decide), hzero]
  have hopen := openFile_close (close t₁ 1) hlimit
    (fun x hx => absurd hx (Nat.not_lt_zero x)) devNull
  rw [close_of_none hfree] at hopen
  have hdup : dup limit (close (Function.update (close t₁ 1) 0 (some devNull)) 2) 1 = none := by
    rw [dup, close_of_ne _ (by decide), Function.update_of_ne (by decide), close_self]
    rfl
  unfold redirect
  simp only [openNull, if_true, hopen, hdup, Option.bind_eq_bind, Option.bind_some, Option.map_none,
    Option.getD_none, Option.pure_def, Option.some.injEq]
  funext fd
  by_cases h2 : fd = 2
  · simp [h2]
  · rw [close_of_ne _ h2]
    by_cases h0 : fd = 0
    · simp [h0]
    · rw [Function.update_of_ne h0]
      by_cases h1 : fd = 1
      · simp [h1]
      · rw [close_of_ne _ h1, hdetach, if_neg h0, if_neg h0]
        split_ifs with hin hout hout <;> first | rfl | omega

/-- It could: the other two get it as well. -/
theorem redirect_open (hlimit : 3 ≤ limit) (t : Table α) {t₁ : Table α}
    (hdetach : ∀ fd, t₁ fd = if 3 ≤ fd ∧ fd < 256 then none else
      if fd = 0 then some devNull else t fd)
    (hzero : t₁ 0 = some devNull) : redirect limit devNull true t₁ = some fun fd =>
      if 256 ≤ fd then t fd else if fd ≤ 2 then some devNull else none := by
  have hopen := openFile_close t₁ (show 1 < limit by omega) (fun x hx => by
    obtain rfl : x = 0 := by omega
    rw [hzero]
    exact Option.some_ne_none _) devNull
  have hone : close (Function.update (close t₁ 1) 1 (some devNull)) 2 1 = some devNull := by
    rw [close_of_ne _ (by decide), Function.update_self]
  have hopen' := openFile_close (Function.update (close t₁ 1) 1 (some devNull))
    (show 2 < limit by omega) (fun x hx => by
      rcases (by omega : x = 0 ∨ x = 1) with rfl | rfl
      · rw [Function.update_of_ne (by decide), close_of_ne _ (by decide), hzero]
        exact Option.some_ne_none _
      · rw [Function.update_self]
        exact Option.some_ne_none _) devNull
  unfold redirect
  simp only [openNull, if_true, hopen, dup, hone, hopen', Option.bind_eq_bind, Option.bind_some,
    Option.map_some, Option.getD_some, Option.pure_def, Option.some.injEq]
  funext fd
  by_cases h2 : fd = 2
  · simp [h2]
  · rw [Function.update_of_ne h2, close_of_ne _ h2]
    by_cases h1 : fd = 1
    · simp [h1]
    · rw [Function.update_of_ne h1, close_of_ne _ h1, hdetach]
      split_ifs <;> first | rfl | omega

/-- **The descriptors** in the end, if `/dev/null` can be opened then: those from 256 on are the
caller's, and of the others the standard ones are open, on `/dev/null`, unless it could not be
opened before; then the first one is. -/
theorem descriptors_eq (hlimit : 3 ≤ limit) (can can' : Bool) (t : Table α) :
    redirect limit devNull can' (detach limit devNull can t) =
      if can' then some fun fd =>
        if 256 ≤ fd then t fd
        else if fd = 0 ∨ (can = true ∧ fd ≤ 2) then some devNull else none
      else none := by
  have hdetach : ∀ fd, detach limit devNull can t fd = _ := detach_apply hlimit can t
  generalize detach limit devNull can t = t₁ at hdetach
  have hzero := hdetach 0
  cases can' with
  | false => rfl
  | true =>
      cases can with
      | false =>
          rw [redirect_closed (Nat.lt_of_lt_of_le (by decide) hlimit) t hdetach hzero]
          simp
      | true =>
          rw [redirect_open hlimit t hdetach hzero]
          have hstandard : ∀ fd : ℕ, (fd = 0 ∨ fd ≤ 2) ↔ fd ≤ 2 := by
            intro fd
            omega
          simp only [if_true, true_and, hstandard]

/-- The output of a caller without standard input, when `/dev/null` is missing at first. -/
theorem descriptors_eq_closed :
    redirect 8 "null" true (detach 8 "null" false fun fd => if fd = 1 then some "tty" else none) =
      some fun fd => if 256 ≤ fd then (if fd = 1 then some "tty" else none)
        else if fd = 0 ∨ (false = true ∧ fd ≤ 2) then some "null" else none :=
  descriptors_eq (by decide) false true _

end Standard

end PlayWithOpencv.Memeater
