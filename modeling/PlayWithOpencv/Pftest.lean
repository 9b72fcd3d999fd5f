import Mathlib.Algebra.Order.Ring.Int
import Mathlib.Tactic.Ring
import PlayWithOpencv.PartialRun

/-! # The page fault test

`perftest/pftest.c` lays a cycle of pointers through the first words of some pages of a block, and
follows it.  Memory is a map from addresses to words; an access fails outside the block, and a
read fails where nothing was written.

* `build_ring`: the first loop writes into the block only, and leaves the cycle of the pages
  behind (`Ring`), whatever the memory held before.
* `chase_ring`: after `k` steps along the cycle of `n` pages the pointer is at page `k % n`.
* `pftest_rows`: for every list of page numbers between 1 and `N_PAGES` the program makes no
  access that fails, and each row ends where its steps lead. -/

namespace PlayWithOpencv.Pftest

open PartialRun

def N_PAGES : ℕ := 4096
def WARMUP : ℕ := 2 ^ 10
def WORKLOAD : ℕ := 2 ^ 24

def numPagesList : List ℕ :=
  [1, 2, 3, 4, 5, 6, 7, 8, 9, 10,
    12, 14, 16, 18, 20, 24, 28, 30, 32, 34, 48, 62, 64, 66, 80,
    96, 112, 128, 144, 160, 320, 480, 496, 512, 528, 544, 576, 640, 960,
    1024, 2048, 3072, 4000]

/-! ### Memory -/

/-- The words that were written, by their addresses. -/
abbrev Memory := ℕ → Option ℕ

/-- The block `malloc` gave: where it begins, and the size of a word. -/
structure Block where
  addr : ℕ
  word : ℕ

/-- `malloc((N_PAGES+1) * 4096)`. -/
def Block.size (_ : Block) : ℕ := (N_PAGES + 1) * 4096

/-- A word at the address is inside the block. -/
def Block.Holds (b : Block) (a : ℕ) : Prop := b.addr ≤ a ∧ a + b.word ≤ b.addr + b.size

instance (b : Block) (a : ℕ) : Decidable (b.Holds a) := inferInstanceAs (Decidable (_ ∧ _))

def store (b : Block) (m : Memory) (a v : ℕ) : Option Memory :=
  if b.Holds a then some (Function.update m a (some v)) else none

def load (b : Block) (m : Memory) (a : ℕ) : Option ℕ := if b.Holds a then m a else none

/-! ### The program -/

/-- `mem`, aligned to the start of a page: `(mem + 4096) & ~0xfff`. -/
def Block.mem (b : Block) : ℕ := (b.addr + 4096) / 4096 * 4096

/-- The variables of the first loop. -/
structure Build where
  memory : Memory
  pageIdx : ℕ
  entryOffset : ℕ

/-- A pass of the loop that lays the pointers. -/
def buildStep (b : Block) (numPages : ℕ) (s : Build) (i : ℕ) : Option Build := do
  let nextPageIdx := (s.pageIdx + 1) % numPages
  let nextEntryOffset := s.entryOffset
  let memory ← store b s.memory (b.mem + 4096 * s.pageIdx + s.entryOffset)
    (if i ≠ numPages - 1 then b.mem + 4096 * nextPageIdx + nextEntryOffset else b.mem)
  return ⟨memory, nextPageIdx, nextEntryOffset⟩

/-- `p = (intptr_t *) *p`. -/
def chaseStep (b : Block) (m : Memory) (p : ℕ) (_ : ℕ) : Option ℕ := load b m p

/-- A row: lay the pointers, warm up, and measure; the memory and the last pointer. -/
def row (b : Block) (m : Memory) (numPages : ℕ) : Option (Memory × ℕ) := do
  let s ← run (buildStep b numPages) ⟨m, 0, 0⟩ (List.range numPages)
  let p ← run (chaseStep b s.memory) b.mem (List.range WARMUP)
  let p ← run (chaseStep b s.memory) p (List.range WORKLOAD)
  return (s.memory, p)

/-- The rows of a list of page numbers: the memory, and the last pointers. -/
def rows (b : Block) (m : Memory) (ns : List ℕ) : Option (Memory × List ℕ) :=
  run (fun s n => (row b s.1 n).map fun r => (r.1, s.2 ++ [r.2])) (m, []) ns

/-! ### The cycle -/

variable {b : Block} {m : Memory} {n : ℕ}

/-- The aligned pages are inside the block. -/
theorem mem_holds (hw : b.word ≤ 4096) {i : ℕ} (hi : i < N_PAGES) : b.Holds (b.mem + 4096 * i) := by
  have hlow : b.addr < b.mem := by
    rw [Block.mem]
    omega
  have hhigh : b.mem ≤ b.addr + 4096 := by
    rw [Block.mem]
    exact Nat.div_mul_le_self _ _
  have hi : i < 4096 := hi
  have hsize : b.size = 4097 * 4096 := rfl
  exact ⟨by omega, by rw [hsize]; omega⟩

/-- Each of the first `n` pages points to the next one, and the last to the first. -/
def Ring (b : Block) (m : Memory) (n : ℕ) : Prop :=
  ∀ i < n, m (b.mem + 4096 * i) = some (b.mem + 4096 * ((i + 1) % n))

/-- The pointer that pass `i` writes. -/
theorem pointer_eq {i : ℕ} (hi : i < n) :
    (if i ≠ n - 1 then b.mem + 4096 * ((i + 1) % n) else b.mem) =
      b.mem + 4096 * ((i + 1) % n) := by
  split_ifs with hlast
  · exact Eq.refl _
  · have hwrap : i + 1 = n := by omega
    rw [hwrap, Nat.mod_self, Nat.mul_zero, Nat.add_zero]

/-- After `k` passes the first `k` pages have their pointers. -/
theorem build_run (hw : b.word ≤ 4096) (hn : n ≤ N_PAGES) {k : ℕ} (hk : k ≤ n) :
    ∃ s, run (buildStep b n) ⟨m, 0, 0⟩ (List.range k) = some s ∧ s.pageIdx = k % n ∧
      s.entryOffset = 0 ∧ ∀ i < k, s.memory (b.mem + 4096 * i) =
        some (b.mem + 4096 * ((i + 1) % n)) := by
  induction k with
  | zero => exact ⟨_, rfl, (Nat.zero_mod n).symm, rfl, by simp⟩
  | succ k ih =>
      obtain ⟨s, hrun, hpage, hoffset, hring⟩ := ih (by omega)
      have hlt : k < n := hk
      rw [Nat.mod_eq_of_lt hlt] at hpage
      have hstep : buildStep b n s k = some
          ⟨Function.update s.memory (b.mem + 4096 * k) (some (b.mem + 4096 * ((k + 1) % n))),
            (k + 1) % n, 0⟩ := by
        have hholds := mem_holds hw (Nat.lt_of_lt_of_le hlt hn)
        simp only [buildStep, hpage, hoffset, Nat.add_zero, pointer_eq hlt, store, if_pos hholds,
          Option.bind_eq_bind, Option.bind_some, Option.pure_def]
      refine ⟨⟨Function.update s.memory (b.mem + 4096 * k)
        (some (b.mem + 4096 * ((k + 1) % n))), (k + 1) % n, 0⟩, ?_, Eq.refl _, Eq.refl _,
        fun i hi => ?_⟩
      · rw [List.range_succ, run_concat, hrun]
        exact hstep
      · by_cases hik : i = k
        · rw [hik]
          exact Function.update_self _ _ _
        · have hne : b.mem + 4096 * i ≠ b.mem + 4096 * k := by omega
          exact (Function.update_of_ne hne _ _).trans (hring i (by omega))

/-- **The cycle is laid**: no access outside the block, and the pages are linked. -/
theorem build_ring (hw : b.word ≤ 4096) (hn : n ≤ N_PAGES) :
    ∃ s, run (buildStep b n) ⟨m, 0, 0⟩ (List.range n) = some s ∧ Ring b s.memory n := by
  obtain ⟨s, hrun, -, -, hring⟩ := build_run hw hn (Nat.le_refl n)
  exact ⟨s, hrun, hring⟩

/-- **The cycle is followed**: `k` steps from page `j` lead to page `(j + k) % n`. -/
theorem chase_ring (hw : b.word ≤ 4096) (hn : n ≤ N_PAGES) (hring : Ring b m n) {j : ℕ}
    (hj : j < n) (k : ℕ) :
    run (chaseStep b m) (b.mem + 4096 * j) (List.range k) =
      some (b.mem + 4096 * ((j + k) % n)) := by
  induction k with
  | zero => rw [Nat.add_zero, Nat.mod_eq_of_lt hj]; rfl
  | succ k ih =>
      have hlt : (j + k) % n < n := Nat.mod_lt _ (by omega)
      have hholds : b.Holds (b.mem + 4096 * ((j + k) % n)) :=
        mem_holds hw (Nat.lt_of_lt_of_le hlt hn)
      rw [List.range_succ, run_concat, ih, Option.bind_some, chaseStep, load, if_pos hholds,
        hring _ hlt, Nat.mod_add_mod, Nat.add_assoc]

/-! ### The rows -/

/-- A row leaves the cycle of its pages behind, and ends where its steps lead. -/
theorem row_eq (hw : b.word ≤ 4096) (hpos : 0 < n) (hn : n ≤ N_PAGES) :
    ∃ m', row b m n = some (m', b.mem + 4096 * ((WARMUP + WORKLOAD) % n)) ∧ Ring b m' n := by
  unfold row
  -- whatever the numbers of steps
  generalize WARMUP = warmup, WORKLOAD = workload
  obtain ⟨s, hrun, hring⟩ := build_ring (m := m) hw hn
  have hwarm := chase_ring hw hn hring hpos warmup
  rw [Nat.mul_zero, Nat.add_zero, Nat.zero_add] at hwarm
  have hwork := chase_ring hw hn hring (Nat.mod_lt warmup hpos) workload
  rw [Nat.mod_add_mod] at hwork
  refine ⟨s.memory, ?_, hring⟩
  rw [hrun, Option.bind_eq_bind, Option.bind_some, hwarm, Option.bind_eq_bind, Option.bind_some,
    hwork, Option.bind_some, Option.pure_def]

/-- **Rows**: whatever the block and the memory, the program reads and writes inside its block
and reads what it wrote, for every list of page numbers.  A row goes around its pages in turn, the
`k`-th step to page `k % n`, and ends where its `WARMUP + WORKLOAD` steps lead. -/
theorem pftest_rows (b : Block) (m : Memory) (ns : List ℕ) (hw : b.word ≤ 4096)
    (hns : ∀ n ∈ ns, 0 < n ∧ n ≤ N_PAGES) :
    (∃ m', rows b m ns =
      some (m', ns.map fun n => b.mem + 4096 * ((WARMUP + WORKLOAD) % n))) ∧
    ∀ n ∈ ns, ∀ m₀, ∃ m' p, row b m₀ n = some (m', p) ∧
      ∀ k, run (chaseStep b m') b.mem (List.range k) = some (b.mem + 4096 * (k % n)) := by
  constructor
  · induction ns using List.reverseRecOn with
    | nil => exact ⟨m, run_nil _ _⟩
    | append_singleton ns n ih =>
        obtain ⟨m', hm'⟩ := ih fun n hn => hns n (List.mem_append_left _ hn)
        obtain ⟨hpos, hle⟩ := hns n (List.mem_append_right _ List.mem_cons_self)
        obtain ⟨m'', hrow, -⟩ := row_eq (m := m') hw hpos hle
        refine ⟨m'', ?_⟩
        unfold rows at hm' ⊢
        rw [run_concat, hm', Option.bind_some, hrow, List.map_append, Option.map_some,
          List.map_singleton]
  · intro n hn m₀
    obtain ⟨hpos, hle⟩ := hns n hn
    obtain ⟨m', hrow, hring⟩ := row_eq (m := m₀) hw hpos hle
    refine ⟨m', _, hrow, fun k => ?_⟩
    have hchase := chase_ring hw hle hring hpos k
    rwa [Nat.mul_zero, Nat.add_zero, Nat.zero_add] at hchase

/-- The list of the program. -/
theorem pftest_rows_list : ∃ m', rows ⟨0x10000010, 8⟩ (fun _ => none) numPagesList =
    some (m', numPagesList.map fun n =>
      (Block.mk 0x10000010 8).mem + 4096 * ((WARMUP + WORKLOAD) % n)) :=
  (pftest_rows _ _ _ (by decide) (by decide)).1

end PlayWithOpencv.Pftest
