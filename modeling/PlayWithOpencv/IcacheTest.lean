import Mathlib.Tactic
import PlayWithOpencv.Execution

/-! # The instruction cache test

`icache_test` of `perftest/icachetest/icache.S` as a program of a small machine with the registers
and the flags it uses, and the rows of `icache_main.cpp` that call it.  The routine counts its
first argument down by the second, and for each count runs through as many blocks of 16
instructions, one after the other in memory, as the second argument says.

An execution shows the number of each block it enters.

* `icache_test_trace`: for every count below `2 ^ 31` and every positive step below it, the routine
  returns, after `count / step` passes over the first `min step 2048` blocks in their order.
* `icache_test_endless`: with step zero it never returns, and there is always a next step.
* `icache_rows`: what the rows of the report measure: row `i` enters `i` different blocks, as many
  bytes as it prints, and it divides by the number of blocks entered only where `i` is a power of
  two. -/

namespace PlayWithOpencv.Icache

/-! ### The machine -/

inductive Reg where
  | r0
  | r1
  | r2
deriving DecidableEq, Repr

inductive Operand where
  | reg (r : Reg)
  | imm (n : ℕ)
deriving DecidableEq, Repr

/-- The instructions of the routine; a branch names the place it goes to. -/
inductive Instr where
  | mov (d s : Reg)
  | subs (d a : Reg) (b : Operand)
  | beq (target : ℕ)
  | bxmiLr
  | b (target : ℕ)
deriving DecidableEq, Repr

/-- The registers, the flags, and the place of the next instruction, if the routine has not
returned. -/
structure Cpu where
  regs : Reg → BitVec 32
  n : Bool
  z : Bool
  pc : Option ℕ

def Operand.value (regs : Reg → BitVec 32) : Operand → BitVec 32
  | reg r => regs r
  | imm n => BitVec.ofNat 32 n

def Instr.exec (c : Cpu) (pc : ℕ) : Instr → Cpu
  | mov d s => { c with regs := Function.update c.regs d (c.regs s), pc := some (pc + 1) }
  | subs d a o =>
      let v := c.regs a - o.value c.regs
      { c with regs := Function.update c.regs d v, n := v.msb, z := v == 0, pc := some (pc + 1) }
  | beq target => { c with pc := some (if c.z then target else pc + 1) }
  | bxmiLr => { c with pc := if c.n then none else some (pc + 1) }
  | b target => { c with pc := some target }

/-! ### The routine -/

def nop : Instr := .mov .r0 .r0

/-- The place of the label `end_loop`. -/
def end_loop : ℕ := 13

/-- `#define LOOP`. -/
def LOOP : List Instr :=
  .subs .r2 .r2 (.imm 1) :: List.replicate 13 nop ++ [.beq end_loop, nop]

/-- Up to the first block. -/
def entry : List Instr :=
  List.replicate 13 nop ++ [.subs .r0 .r0 (.reg .r1), .mov .r2 .r1, .bxmiLr]

/-- `icache_test`. -/
def icache_test : List Instr := entry ++ (List.replicate 2048 LOOP).flatten ++ [.b end_loop]

def step (c : Cpu) : Option Cpu :=
  c.pc.bind fun pc => (icache_test[pc]?).map (Instr.exec c pc)

/-- The block that is entered. -/
def block (c : Cpu) : Option ℕ :=
  c.pc.bind fun pc =>
    if 16 ≤ pc ∧ pc < 16 + 16 * 2048 ∧ pc % 16 = 0 then some ((pc - 16) / 16) else none

/-- The machine at a place. -/
def Cpu.goto (c : Cpu) (pc : ℕ) : Cpu := { c with pc := some pc }

@[simp] theorem goto_pc (c : Cpu) (pc : ℕ) : (c.goto pc).pc = some pc := rfl

@[simp] theorem goto_regs (c : Cpu) (pc : ℕ) : (c.goto pc).regs = c.regs := rfl

/-! ### Where the instructions are -/

theorem flatten_replicate_getElem? {α : Type*} (l : List α) {n k j : ℕ} (hk : k < n)
    (hj : j < l.length) : (List.replicate n l).flatten[l.length * k + j]? = l[j]? := by
  induction n generalizing k with
  | zero => omega
  | succ n ih =>
      rw [List.replicate_succ, List.flatten_cons]
      cases k with
      | zero =>
          rw [Nat.mul_zero, Nat.zero_add]
          exact List.getElem?_append_left hj
      | succ k =>
          have hle : l.length ≤ l.length * (k + 1) + j := by
            rw [Nat.mul_succ]
            omega
          have hrest : l.length * (k + 1) + j - l.length = l.length * k + j := by
            rw [Nat.mul_succ]
            omega
          rw [List.getElem?_append_right hle, hrest]
          exact ih (by omega)

theorem length_LOOP : LOOP.length = 16 := by decide

theorem length_blocks : ((List.replicate 2048 LOOP).flatten).length = 16 * 2048 := by
  rw [List.length_flatten, List.map_replicate, List.sum_replicate, length_LOOP]
  rfl

theorem length_entry : entry.length = 16 := by decide

theorem fetch_entry (pc : ℕ) (hpc : pc < 16) : icache_test[pc]? = entry[pc]? := by
  unfold icache_test
  rw [List.getElem?_append_left, List.getElem?_append_left]
  · rw [length_entry]
    exact hpc
  · rw [List.length_append, length_entry]
    omega

theorem fetch_block {k j : ℕ} (hk : k < 2048) (hj : j < 16) :
    icache_test[16 + 16 * k + j]? = LOOP[j]? := by
  unfold icache_test
  rw [List.getElem?_append_left, List.getElem?_append_right]
  · have hindex : 16 + 16 * k + j - entry.length = LOOP.length * k + j := by
      rw [length_LOOP, length_entry]
      omega
    rw [hindex]
    exact flatten_replicate_getElem? LOOP hk (by rw [length_LOOP]; exact hj)
  · rw [length_entry]
    omega
  · rw [List.length_append, length_blocks, length_entry]
    omega

theorem fetch_last : icache_test[16 + 16 * 2048]? = some (.b end_loop) := by
  unfold icache_test
  rw [List.getElem?_append_right]
  · rw [List.length_append, length_blocks, length_entry]
    rfl
  · rw [List.length_append, length_blocks, length_entry]

/-! ### Runs through the routine -/

/-- Execute one instruction that is no start of a block. -/
theorem exec_instr {c : Cpu} {pc : ℕ} {i : Instr} (hi : icache_test[pc]? = some i)
    (hb : block (c.goto pc) = none) : Exec step block 1 (c.goto pc) [] (i.exec c pc) := by
  refine .silent ?_ hb
  simp only [step, goto_pc, Option.bind_some, hi, Option.map_some]
  cases i <;> rfl

theorem block_eq_none {c : Cpu} {pc : ℕ} (h : pc < 16 ∨ pc % 16 ≠ 0) :
    block (c.goto pc) = none := by
  have hnot : ¬ (16 ≤ pc ∧ pc < 16 + 16 * 2048 ∧ pc % 16 = 0) := by omega
  simp [block, hnot]

theorem exec_nop (c : Cpu) (pc : ℕ) : nop.exec c pc = c.goto (pc + 1) := by
  simp [nop, Instr.exec, Cpu.goto, Function.update_eq_self]

theorem exec_beq (c : Cpu) (pc target : ℕ) :
    (Instr.beq target).exec c pc = c.goto (if c.z then target else pc + 1) := rfl

/-- Execute instructions that do nothing. -/
theorem exec_nops (c : Cpu) (pc m : ℕ)
    (h : ∀ i < m, icache_test[pc + i]? = some nop ∧ (pc + i < 16 ∨ (pc + i) % 16 ≠ 0)) :
    Exec step block m (c.goto pc) [] (c.goto (pc + m)) := by
  induction m with
  | zero => exact .refl _
  | succ m ih =>
      obtain ⟨hi, hb⟩ := h m (Nat.lt_succ_self m)
      have hlast := exec_instr (c := c) hi (block_eq_none hb)
      rw [exec_nop] at hlast
      exact (ih fun i hi => h i (Nat.lt_succ_of_lt hi)).trans hlast

/-- What a block does to the machine. -/
def Cpu.countDown (c : Cpu) : Cpu :=
  { c with
    regs := Function.update c.regs .r2 (c.regs .r2 - 1)
    n := (c.regs .r2 - 1).msb
    z := c.regs .r2 - 1 == 0 }

theorem nop_of_LOOP : ∀ i < 13, LOOP[1 + i]? = some nop := by decide

/-- A block: it counts `r2` down, and goes back to `end_loop` when it is zero. -/
theorem exec_block {c : Cpu} {k : ℕ} (hk : k < 2048) :
    ∃ n, Exec step block n (c.goto (16 + 16 * k)) [k]
      (c.countDown.goto (if c.regs .r2 - 1 = 0 then end_loop else 16 + 16 * (k + 1))) := by
  -- `subs`
  have hfirst : Exec step block 1 (c.goto (16 + 16 * k)) [k]
      (c.countDown.goto (16 + 16 * k + 1)) := by
    have hi := fetch_block hk (j := 0) (by decide)
    refine .shown ?_ ?_
    · rw [Nat.add_zero] at hi
      simp only [step, goto_pc, Option.bind_some, hi]
      rfl
    · have hstart : 16 ≤ 16 + 16 * k ∧ 16 + 16 * k < 16 + 16 * 2048 ∧ (16 + 16 * k) % 16 = 0 := by
        omega
      simp [block, hstart]
  have hnops := exec_nops c.countDown (16 + 16 * k + 1) 13 fun i hi => by
    refine ⟨?_, .inr (by omega)⟩
    rw [Nat.add_assoc (16 + 16 * k) 1 i, fetch_block hk (by omega)]
    exact nop_of_LOOP i hi
  have hbeq : Exec step block 1 (c.countDown.goto (16 + 16 * k + 14)) []
      ((Instr.beq end_loop).exec c.countDown (16 + 16 * k + 14)) :=
    exec_instr (fetch_block hk (j := 14) (by decide)) (block_eq_none (.inr (by omega)))
  have hthree := (hfirst.trans hnops).trans hbeq
  by_cases hz : c.regs .r2 - 1 = 0
  · refine ⟨1 + 13 + 1, ?_⟩
    rw [if_pos hz]
    have hflag : c.countDown.z = true := by simpa [Cpu.countDown] using hz
    rw [exec_beq, hflag, if_pos rfl] at hthree
    exact hthree
  · refine ⟨1 + 13 + 1 + 1, ?_⟩
    rw [if_neg hz]
    have hflag : c.countDown.z = false := by simpa [Cpu.countDown] using hz
    rw [exec_beq, hflag, if_neg Bool.false_ne_true] at hthree
    have hlast := exec_instr (c := c.countDown) (fetch_block hk (j := 15) (by decide))
      (block_eq_none (.inr (by omega)))
    rw [exec_nop] at hlast
    exact hthree.trans hlast

/-- What the blocks leave alone. -/
structure Same (c c' : Cpu) : Prop where
  r0 : c'.regs .r0 = c.regs .r0
  r1 : c'.regs .r1 = c.regs .r1

/-- Through `k` blocks, as long as `r2` does not come to zero in one of them. -/
theorem exec_blocks {c : Cpu} {k : ℕ} (hk : k ≤ 2048)
    (hr2 : ∀ j < k, c.regs .r2 ≠ BitVec.ofNat 32 (j + 1)) :
    ∃ n c', Exec step block n (c.goto 16) (List.range k) (c'.goto (16 + 16 * k)) ∧ Same c c' ∧
      c'.regs .r2 = c.regs .r2 - BitVec.ofNat 32 k := by
  induction k with
  | zero => exact ⟨0, c, .refl _, ⟨rfl, rfl⟩, (BitVec.sub_zero _).symm⟩
  | succ k ih =>
      obtain ⟨n, c', hexec, hsame, hcount⟩ := ih (by omega) fun j hj => hr2 j (by omega)
      obtain ⟨m, hblock⟩ := exec_block (c := c') (k := k) (by omega)
      have hne : c'.regs .r2 - 1 ≠ 0 := by
        have hk := hr2 k (Nat.lt_succ_self k)
        rw [hcount]
        bv_omega
      rw [if_neg hne] at hblock
      refine ⟨n + m, c'.countDown, ?_, ⟨hsame.r0, hsame.r1⟩, ?_⟩
      · rw [List.range_succ]
        exact hexec.trans hblock
      · show c'.regs .r2 - 1 = _
        rw [hcount]
        bv_omega

/-- Through all blocks, and the branch back to `end_loop`. -/
theorem exec_all {c : Cpu} (hr2 : ∀ j < 2048, c.regs .r2 ≠ BitVec.ofNat 32 (j + 1)) :
    ∃ n c', Exec step block n (c.goto 16) (List.range 2048) (c'.goto end_loop) ∧ Same c c' := by
  obtain ⟨n, c', hexec, hsame, -⟩ := exec_blocks (Nat.le_refl 2048) hr2
  have hlast := exec_instr (c := c') fetch_last (by simp [block])
  have hall := hexec.trans hlast
  rw [List.append_nil] at hall
  exact ⟨n + 1, c', hall, hsame⟩

/-- **A pass**: from the first block back to `end_loop`, through as many blocks as `r2` says and
there are. -/
theorem exec_pass {c : Cpu} (hr2 : 0 < (c.regs .r2).toNat) :
    ∃ n c', Exec step block n (c.goto 16) (List.range (min (c.regs .r2).toNat 2048))
      (c'.goto end_loop) ∧ Same c c' := by
  by_cases hle : (c.regs .r2).toNat ≤ 2048
  · -- the last block finds one and counts it down to zero
    obtain ⟨k, hk⟩ : ∃ k, (c.regs .r2).toNat = k + 1 := ⟨_, (Nat.succ_pred_eq_of_pos hr2).symm⟩
    obtain ⟨n, c', hexec, hsame, hcount⟩ := exec_blocks (c := c) (k := k) (by omega)
      fun j hj => by bv_omega
    obtain ⟨m, hblock⟩ := exec_block (c := c') (k := k) (by omega)
    have hz : c'.regs .r2 - 1 = 0 := by
      rw [hcount]
      bv_omega
    rw [if_pos hz] at hblock
    refine ⟨n + m, c'.countDown, ?_, ⟨hsame.r0, hsame.r1⟩⟩
    rw [Nat.min_eq_left hle, hk, List.range_succ]
    exact hexec.trans hblock
  · rw [Nat.min_eq_right (by omega)]
    exact exec_all fun j hj => by bv_omega

/-- What `end_loop` does to the machine. -/
def Cpu.takeStep (c : Cpu) : Cpu :=
  { c with
    regs := Function.update (Function.update c.regs .r0 (c.regs .r0 - c.regs .r1)) .r2 (c.regs .r1)
    n := (c.regs .r0 - c.regs .r1).msb
    z := c.regs .r0 - c.regs .r1 == 0 }

/-- `end_loop`: return when the count is negative, else begin a pass. -/
theorem exec_end_loop (c : Cpu) : Exec step block 3 (c.goto end_loop) []
    (if (c.regs .r0 - c.regs .r1).msb then { c.takeStep with pc := none }
      else c.takeStep.goto 16) := by
  have hsubs := exec_instr (c := c) (fetch_entry 13 (by decide))
    (block_eq_none (.inl (by decide)))
  have hmov := exec_instr (c := (Instr.subs .r0 .r0 (.reg .r1)).exec c 13)
    (fetch_entry 14 (by decide)) (block_eq_none (.inl (by decide)))
  have hbx := exec_instr (c := c.takeStep) (fetch_entry 15 (by decide))
    (block_eq_none (.inl (by decide)))
  have hall := (hsubs.trans hmov).trans hbx
  have hend : Instr.bxmiLr.exec c.takeStep 15 = if (c.regs .r0 - c.regs .r1).msb then
      { c.takeStep with pc := none } else c.takeStep.goto 16 := by
    simp only [Instr.exec, Cpu.takeStep, Cpu.goto]
    split_ifs with hneg <;> simp [hneg]
  rw [← hend]
  exact hall

/-! ### The whole routine -/

/-- The rounds of `end_loop` from a count that is not negative. -/
theorem exec_rounds {step : ℕ} (hstep : 0 < step) (hstep' : step < 2 ^ 31) {count : ℕ}
    (hcount : count < 2 ^ 31) {c : Cpu} (hr0 : (c.regs .r0).toNat = count)
    (hr1 : (c.regs .r1).toNat = step) :
    ∃ n c', Exec Icache.step block n (c.goto end_loop)
      (List.replicate (count / step) (List.range (min step 2048))).flatten c' ∧ c'.pc = none := by
  induction count using Nat.strongRecOn generalizing c with
  | ind count ih =>
      have hend := exec_end_loop c
      by_cases hlt : count < step
      · -- the difference is negative: return
        have hmsb : (c.regs .r0 - c.regs .r1).msb = true := by
          rw [BitVec.msb_eq_decide, decide_eq_true_eq, BitVec.toNat_sub]
          omega
        rw [hmsb, if_pos rfl] at hend
        rw [Nat.div_eq_of_lt hlt]
        exact ⟨3, _, hend, rfl⟩
      · have hsub : (c.regs .r0 - c.regs .r1).toNat = count - step := by
          rw [BitVec.toNat_sub]
          omega
        have hmsb : (c.regs .r0 - c.regs .r1).msb = false := by
          rw [BitVec.msb_eq_decide, decide_eq_false_iff_not, hsub]
          omega
        rw [hmsb, if_neg Bool.false_ne_true] at hend
        obtain ⟨n, c₁, hpass, hsame⟩ := exec_pass (c := c.takeStep)
          (show 0 < (c.regs .r1).toNat by omega)
        obtain ⟨m, c', hrest, hpc⟩ := ih (count - step) (by omega) (by omega)
          (c := c₁) (by rw [hsame.r0]; exact hsub) (by rw [hsame.r1]; exact hr1)
        refine ⟨3 + n + m, c', ?_, hpc⟩
        have hdiv : count / step = (count - step) / step + 1 :=
          Nat.div_eq_sub_div hstep (by omega)
        rw [hdiv, List.replicate_succ, List.flatten_cons]
        have hr2 : c.takeStep.regs .r2 = c.regs .r1 := rfl
        rw [hr2, hr1] at hpass
        exact (hend.trans hpass).trans hrest

/-- From the entry to `end_loop` nothing happens. -/
theorem exec_entry (c : Cpu) : Exec step block 13 (c.goto 0) [] (c.goto end_loop) := by
  have hnops := exec_nops c 0 13 fun i hi => by
    refine ⟨?_, .inl (by omega)⟩
    rw [Nat.zero_add, fetch_entry _ (by omega)]
    revert i
    decide
  exact hnops

/-- A call, from the entry on. -/
theorem exec_call {c : Cpu} {count step : ℕ} (hpc : c.pc = some 0)
    (hr0 : (c.regs .r0).toNat = count) (hr1 : (c.regs .r1).toNat = step)
    (hcount : count < 2 ^ 31) (hstep : 0 < step) (hstep' : step < 2 ^ 31) :
    ∃ n c', Exec Icache.step block n c
      (List.replicate (count / step) (List.range (min step 2048))).flatten c' ∧ c'.pc = none := by
  have hstart : c = c.goto 0 := by rw [Cpu.goto, ← hpc]
  obtain ⟨n, c', hexec, hret⟩ := exec_rounds hstep hstep' hcount hr0 hr1
  refine ⟨13 + n, c', ?_, hret⟩
  rw [hstart]
  exact (exec_entry c).trans hexec

theorem toNat_ofNat_lt {n : ℕ} (h : n < 2 ^ 31) : (BitVec.ofNat 32 n).toNat = n := by
  rw [BitVec.toNat_ofNat]
  exact Nat.mod_eq_of_lt (by omega)

/-- **Trace**: the routine returns, after `count / step` passes over the first blocks. -/
theorem icache_test_trace {c : Cpu} {count step : ℕ} (hpc : c.pc = some 0)
    (hr0 : c.regs .r0 = BitVec.ofNat 32 count) (hr1 : c.regs .r1 = BitVec.ofNat 32 step)
    (hcount : count < 2 ^ 31) (hstep : 0 < step) (hstep' : step < 2 ^ 31) :
    ∃ n c', Exec Icache.step block n c
      (List.replicate (count / step) (List.range (min step 2048))).flatten c' ∧ c'.pc = none :=
  exec_call hpc (by rw [hr0, toNat_ofNat_lt hcount]) (by rw [hr1, toNat_ofNat_lt hstep']) hcount
    hstep hstep'

/-- The machine at the entry of a call `icache_test(count, step)`. -/
def calling (count step : ℕ) : Cpu where
  regs
    | .r0 => BitVec.ofNat 32 count
    | .r1 => BitVec.ofNat 32 step
    | .r2 => 0
  n := false
  z := false
  pc := some 0

theorem icache_test_trace_three : ∃ n c', Exec Icache.step block n (calling 7 3)
    (List.replicate (7 / 3) (List.range (min 3 2048))).flatten c' ∧ c'.pc = none := by
  exact icache_test_trace rfl rfl rfl (by decide) (by decide) (by decide)

/-- **Step zero**: the routine never returns and never stops, for any count that is not negative. -/
theorem icache_test_endless {c c' : Cpu} {count n : ℕ} {bs : List ℕ} (hpc : c.pc = some 0)
    (hr0 : c.regs .r0 = BitVec.ofNat 32 count) (hr1 : c.regs .r1 = 0) (hcount : count < 2 ^ 31)
    (hexec : Exec step block n c bs c') : c'.pc ≠ none ∧ step c' ≠ none := by
  -- at the entry and at `end_loop`, with a count that is not negative and step zero
  let P : Cpu → Prop := fun c => (c.pc = some 0 ∨ c.pc = some end_loop) ∧
    (c.regs .r0).toNat < 2 ^ 31 ∧ c.regs .r1 = 0
  have hback : ∀ s, P s → ∃ n bs s', Exec step block (n + 1) s bs s' ∧ P s' := by
    rintro s ⟨hs | hs, hneg, hzero⟩
    · have hstart : s = s.goto 0 := by rw [Cpu.goto, ← hs]
      rw [hstart]
      exact ⟨12, [], s.goto end_loop, exec_entry s, .inr rfl, hneg, hzero⟩
    · have hstart : s = s.goto end_loop := by rw [Cpu.goto, ← hs]
      have hend := exec_end_loop s
      have hsub : s.regs .r0 - s.regs .r1 = s.regs .r0 := by
        rw [hzero]
        exact BitVec.sub_zero _
      have hmsb : (s.regs .r0 - s.regs .r1).msb = false := by
        rw [hsub, BitVec.msb_eq_decide, decide_eq_false_iff_not]
        omega
      rw [hmsb, if_neg Bool.false_ne_true] at hend
      obtain ⟨m, s', hpass, hsame⟩ := exec_all (c := s.takeStep) fun j hj => by
        show s.regs .r1 ≠ _
        rw [hzero]
        bv_omega
      refine ⟨2 + m, List.range 2048, s'.goto end_loop, ?_, .inr rfl, ?_, ?_⟩
      · have hall := hend.trans hpass
        rw [List.nil_append] at hall
        have hsteps : 2 + m + 1 = 3 + m := by omega
        rwa [hstart, hsteps]
      · rw [goto_regs, hsame.r0]
        show (s.regs .r0 - s.regs .r1).toNat < _
        rw [hsub]
        exact hneg
      · rw [goto_regs, hsame.r1]
        exact hzero
  have hne : step c' ≠ none := by
    refine endless hback (P := P) ⟨.inl hpc, ?_, hr1⟩ hexec
    rw [hr0, BitVec.toNat_ofNat]
    omega
  refine ⟨fun hret => ?_, hne⟩
  exact hne (by simp [step, hret])

theorem icache_test_endless_entry : ((calling 7 0).goto end_loop).pc ≠ none ∧
    step ((calling 7 0).goto end_loop) ≠ none := by
  exact icache_test_endless (c := calling 7 0) rfl rfl rfl (by decide) (exec_entry (calling 7 0))

/-! ### The report -/

def MAX_CODE_SIZE : ℕ := 128 * 1024
def CACHE_LINE_SIZE : ℕ := 64
def MAX_ITERATIONS_COUNT : ℕ := MAX_CODE_SIZE / CACHE_LINE_SIZE
def REPETITIONS : ℕ := 0x800000
def stepInBytes : ℕ := 1024

/-- `for (size_t i=step ; i <= MAX_ITERATIONS_COUNT ; i += step)`. -/
def rowsFrom (step : ℕ) : ℕ → ℕ → List ℕ
  | 0, _ => []
  | fuel + 1, i =>
      if i ≤ MAX_ITERATIONS_COUNT then i :: rowsFrom step fuel (i + step) else []

/-- The rows of `main`. -/
def rows : List ℕ :=
  rowsFrom (stepInBytes / CACHE_LINE_SIZE) (MAX_ITERATIONS_COUNT + 1)
    (stepInBytes / CACHE_LINE_SIZE)

/-- The first column of a row. -/
def kib (i : ℕ) : ℕ := i * CACHE_LINE_SIZE / 1024

theorem rowsFrom_spec {step fuel i j : ℕ} (h : j ∈ rowsFrom step fuel i) :
    j ≤ MAX_ITERATIONS_COUNT ∧ ∃ k, j = i + step * k := by
  induction fuel generalizing i with
  | zero => cases h
  | succ fuel ih =>
      unfold rowsFrom at h
      split_ifs at h with hle
      · rcases List.mem_cons.mp h with rfl | h
        · exact ⟨hle, 0, rfl⟩
        · obtain ⟨hmax, k, rfl⟩ := ih h
          refine ⟨hmax, k + 1, ?_⟩
          rw [Nat.mul_succ]
          omega
      · cases h

theorem REPETITIONS_eq : REPETITIONS = 2 ^ 23 := by decide

/-- Divisors of the number of repetitions. -/
theorem mod_REPETITIONS_iff {i : ℕ} (hle : i ≤ 2048) :
    REPETITIONS % i = 0 ↔ ∃ k, i = 2 ^ k := by
  rw [← Nat.dvd_iff_mod_eq_zero, REPETITIONS_eq, Nat.dvd_prime_pow Nat.prime_two]
  constructor
  · rintro ⟨k, -, hk⟩
    exact ⟨k, hk⟩
  · rintro ⟨k, rfl⟩
    have hk : 2 ^ k ≤ 2 ^ 11 := hle
    exact ⟨k, Nat.le_trans ((Nat.pow_le_pow_iff_right (by decide)).mp hk) (by decide), rfl⟩

/-- **Rows**: the call of row `i` returns; it enters the first `i` blocks, which take the number
of KiB the row prints, and their number over the whole call is the one the row divides by
exactly where `i` is a power of two. -/
theorem icache_rows {i : ℕ} {c : Cpu} (hi : i ∈ rows) (hpc : c.pc = some 0)
    (hr0 : c.regs .r0 = BitVec.ofNat 32 REPETITIONS) (hr1 : c.regs .r1 = BitVec.ofNat 32 i) :
    ∃ n c' bs, Exec step block n c bs c' ∧ c'.pc = none ∧ (∀ k, k ∈ bs ↔ k < i) ∧
      i * (LOOP.length * 4) = kib i * 1024 ∧ bs.length = REPETITIONS - REPETITIONS % i ∧
      (bs.length = REPETITIONS ↔ ∃ k, i = 2 ^ k) := by
  obtain ⟨hmax, k, hk⟩ := rowsFrom_spec hi
  have hk : i = 16 * (k + 1) := by
    rw [hk]
    simp only [stepInBytes, CACHE_LINE_SIZE]
    omega
  have hle : i ≤ 2048 := hmax
  obtain ⟨n, c', hexec, hret⟩ := exec_call hpc (by rw [hr0, toNat_ofNat_lt (by decide)])
    (by rw [hr1, toNat_ofNat_lt (by omega)]) (by decide) (by omega) (by omega)
  rw [Nat.min_eq_left hle] at hexec
  have hlen : (List.replicate (REPETITIONS / i) (List.range i)).flatten.length =
      REPETITIONS - REPETITIONS % i := by
    rw [List.length_flatten, List.map_replicate, List.sum_replicate, List.length_range, smul_eq_mul]
    have := Nat.div_add_mod' REPETITIONS i
    omega
  have hrounds : REPETITIONS / i ≠ 0 := by
    have : 0 < REPETITIONS / i := Nat.div_pos (by rw [REPETITIONS_eq]; omega) (by omega)
    omega
  refine ⟨n, c', _, hexec, hret, fun j => ?_, ?_, hlen, ?_⟩
  · simp [List.mem_flatten, List.mem_replicate, hrounds]
  · rw [length_LOOP, kib, CACHE_LINE_SIZE, hk]
    omega
  · have hmod : REPETITIONS % i ≤ REPETITIONS := Nat.mod_le _ _
    rw [hlen, ← mod_REPETITIONS_iff hle]
    have hpos : 0 < REPETITIONS := by decide
    omega

theorem icache_rows_first : ∃ n c' bs, Exec step block n (calling REPETITIONS 16) bs c' ∧
    c'.pc = none ∧ (∀ k, k ∈ bs ↔ k < 16) ∧ 16 * (LOOP.length * 4) = kib 16 * 1024 ∧
    bs.length = REPETITIONS - REPETITIONS % 16 ∧ (bs.length = REPETITIONS ↔ ∃ k, 16 = 2 ^ k) := by
  exact icache_rows (by exact List.mem_cons_self) rfl rfl rfl

end PlayWithOpencv.Icache
