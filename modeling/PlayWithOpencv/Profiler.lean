import PlayWithOpencv.PartialRun
import PlayWithOpencv.PerfKernel

/-! # `utils::Profiler`

The embedding of `perftest/Profiler.h` and `perftest/Profiler.cpp` (their Linux branch).  A
`Profiler` is the object with its three members.  It runs against an operating system that
is left abstract: a type `κ` of system states and `call : κ → Syscall → Option κ`, the
transition the system makes on a call, `none` when the system would not take it.  Instances are
the kernel of `PerfKernel.lean`, and a log of calls.

The kernel's answers to the `perf_event_open` calls of one `resetEvents` are a function
`answer : Event → ℤ`: every event is opened at most once in it, and `call` decides which answers
are possible.  The seven blocks of `resetEvents` that open a member differ in the event and its
type and configuration only; they are `openMember` at the seven events, in the order of the
source (`memberOrder`).  Loops over the array are runs in the sense of `PartialRun.lean`. -/

namespace PlayWithOpencv.Perf

open PartialRun

/-- The private enumeration of `Profiler`; `idx` is the enumerator's value. -/
inductive Event where
  | instructions
  | cpuCycles
  | dcacheRefs
  | dcacheMisses
  | branches
  | branchMisses
  | icacheRefs
  | icacheMisses
deriving DecidableEq, Repr

namespace Event

def idx : Event → ℕ
  | instructions => 0
  | cpuCycles => 1
  | dcacheRefs => 2
  | dcacheMisses => 3
  | branches => 4
  | branchMisses => 5
  | icacheRefs => 6
  | icacheMisses => 7

/-- The indices of the arrays of length `EVENT_COUNT`, in order. -/
def all : List Event :=
  [instructions, cpuCycles, dcacheRefs, dcacheMisses, branches, branchMisses, icacheRefs,
    icacheMisses]

/-- `1 << e`. -/
def bit (e : Event) : BitVec 32 := BitVec.twoPow 32 e.idx

theorem mem_all (e : Event) : e ∈ all := by cases e <;> decide

theorem idx_injective : Function.Injective idx := by
  intro a b h
  cases a <;> cases b <;> first | rfl | (simp [idx] at h)

theorem idx_lt (e : Event) : e.idx < 32 := by cases e <;> decide

end Event

/-! ### Masks -/

def EV_CPU_CYCLES : BitVec 32 := Event.bit .cpuCycles
def EV_L1D_REFS : BitVec 32 := Event.bit .dcacheRefs
def EV_L1D_MISSES : BitVec 32 := Event.bit .dcacheMisses
def EV_BPU_REFS : BitVec 32 := Event.bit .branches
def EV_BPU_MISSES : BitVec 32 := Event.bit .branchMisses
def EV_L1I_REFS : BitVec 32 := Event.bit .icacheRefs
def EV_L1I_MISSES : BitVec 32 := Event.bit .icacheMisses
def EV_L1D_RATES : BitVec 32 := EV_L1D_REFS ||| EV_L1D_MISSES
def EV_L1I_RATES : BitVec 32 := EV_L1I_REFS ||| EV_L1I_MISSES
def EV_BPU_RATES : BitVec 32 := EV_BPU_REFS ||| EV_BPU_MISSES

/-- The test `mask & (1 << e)`. -/
def requested (mask : BitVec 32) (e : Event) : Bool := decide (mask &&& e.bit ≠ 0#32)

/-! ### The object -/

/-- The members of the object: `mIds` and `mCountersFd` are arrays indexed by the events. -/
structure Profiler where
  mIds : Event → ℕ
  mCountersFd : Event → ℤ
  mEnabledEvents : BitVec 32

namespace Profiler

/-- `isValid`. -/
def isValid (p : Profiler) : Bool := decide (0 ≤ p.mCountersFd .instructions)

/-- `getEnabledEvents`. -/
def getEnabledEvents (p : Profiler) : BitVec 32 := p.mEnabledEvents

/-- `hasBranchRates`. -/
def hasBranchRates (p : Profiler) : Bool :=
  decide (0 ≤ p.mCountersFd .branches) && decide (0 ≤ p.mCountersFd .branchMisses)

/-- `hasICacheRates`. -/
def hasICacheRates (p : Profiler) : Bool :=
  decide (0 ≤ p.mCountersFd .icacheRefs) && decide (0 ≤ p.mCountersFd .icacheMisses)

/-- `mCountersFd[e] = fd`. -/
def setFd (p : Profiler) (e : Event) (fd : ℤ) : Profiler :=
  { p with mCountersFd := Function.update p.mCountersFd e fd }

/-- `mIds[e] = id`. -/
def setId (p : Profiler) (e : Event) (id : ℕ) : Profiler :=
  { p with mIds := Function.update p.mIds e id }

@[simp] theorem setFd_mCountersFd (p : Profiler) (e : Event) (fd : ℤ) :
    (p.setFd e fd).mCountersFd = Function.update p.mCountersFd e fd := rfl
@[simp] theorem setFd_mIds (p : Profiler) (e : Event) (fd : ℤ) :
    (p.setFd e fd).mIds = p.mIds := rfl
@[simp] theorem setFd_mEnabledEvents (p : Profiler) (e : Event) (fd : ℤ) :
    (p.setFd e fd).mEnabledEvents = p.mEnabledEvents := rfl
@[simp] theorem setId_mCountersFd (p : Profiler) (e : Event) (id : ℕ) :
    (p.setId e id).mCountersFd = p.mCountersFd := rfl
@[simp] theorem setId_mIds (p : Profiler) (e : Event) (id : ℕ) :
    (p.setId e id).mIds = Function.update p.mIds e id := rfl
@[simp] theorem setId_mEnabledEvents (p : Profiler) (e : Event) (id : ℕ) :
    (p.setId e id).mEnabledEvents = p.mEnabledEvents := rfl

end Profiler

/-- The object together with the operating system it runs on. -/
structure Sys (κ : Type*) where
  prof : Profiler
  os : κ

/-! ### `resetEvents` -/

/-- `__ARM_ARCH` selects how the instruction cache events are opened. -/
inductive Arch where
  | arm
  | other
deriving DecidableEq, Repr

def ARMV8_PMUV3_PERFCTR_L1_ICACHE_REFILL : ℕ := 0x01
def ARMV8_PMUV3_PERFCTR_L1_ICACHE_ACCESS : ℕ := 0x14

/-- The `type` and `config` an event is opened with. -/
def eventKind (arch : Arch) : Event → Kind
  | .instructions => (PERF_TYPE_HARDWARE, PERF_COUNT_HW_INSTRUCTIONS)
  | .cpuCycles => (PERF_TYPE_HARDWARE, PERF_COUNT_HW_CPU_CYCLES)
  | .dcacheRefs => (PERF_TYPE_HARDWARE, PERF_COUNT_HW_CACHE_REFERENCES)
  | .dcacheMisses => (PERF_TYPE_HARDWARE, PERF_COUNT_HW_CACHE_MISSES)
  | .branches => (PERF_TYPE_HARDWARE, PERF_COUNT_HW_BRANCH_INSTRUCTIONS)
  | .branchMisses => (PERF_TYPE_HARDWARE, PERF_COUNT_HW_BRANCH_MISSES)
  | .icacheRefs =>
      match arch with
      | .arm => (PERF_TYPE_RAW, ARMV8_PMUV3_PERFCTR_L1_ICACHE_ACCESS)
      | .other => (PERF_TYPE_HW_CACHE, PERF_COUNT_HW_CACHE_L1I |||
          (PERF_COUNT_HW_CACHE_OP_READ <<< 8) ||| (PERF_COUNT_HW_CACHE_RESULT_ACCESS <<< 16))
  | .icacheMisses =>
      match arch with
      | .arm => (PERF_TYPE_RAW, ARMV8_PMUV3_PERFCTR_L1_ICACHE_REFILL)
      | .other => (PERF_TYPE_HW_CACHE, PERF_COUNT_HW_CACHE_L1I |||
          (PERF_COUNT_HW_CACHE_OP_READ <<< 8) ||| (PERF_COUNT_HW_CACHE_RESULT_MISS <<< 16))

/-- The attributes the leader is opened with. -/
def leaderAttr (arch : Arch) : PerfEventAttr where
  type := (eventKind arch .instructions).1
  config := (eventKind arch .instructions).2
  disabled := true
  excludeKernel := true
  excludeHv := true
  readFormat := ⟨true, true, true, true⟩

/-- The events after the leader, in the order `resetEvents` opens them. -/
def memberOrder : List Event :=
  [.cpuCycles, .dcacheRefs, .dcacheMisses, .branches, .branchMisses, .icacheRefs, .icacheMisses]

theorem mem_memberOrder {e : Event} (h : e ≠ .instructions) : e ∈ memberOrder := by
  cases e <;> first | exact absurd rfl h | decide

section resetEvents

variable {κ : Type*} (call : κ → Syscall → Option κ)

/-- The body of the closing loop at one entry of `mCountersFd`. -/
def closeEntry (s : Sys κ) (e : Event) : Option (Sys κ) :=
  if 0 ≤ s.prof.mCountersFd e then do
    let os ← call s.os (.close (s.prof.mCountersFd e))
    return ⟨s.prof.setFd e (-1), os⟩
  else return s

/-- Close all counters. -/
def closeAll (s : Sys κ) : Option (Sys κ) := run (closeEntry call) s Event.all

/-- The local variables of `resetEvents` while it opens the members: the object and the
system, the attributes `pe` (one struct, reused), and `count`. -/
structure Opening (κ : Type*) where
  prof : Profiler
  os : κ
  pe : PerfEventAttr
  count : ℕ

variable (arch : Arch) (answer : Event → ℤ) (eventMask : BitVec 32)

/-- The reused struct with the type and configuration of `e`. -/
def memberAttr (pe : PerfEventAttr) (e : Event) : PerfEventAttr :=
  { pe with type := (eventKind arch e).1, config := (eventKind arch e).2 }

/-- One `if (eventMask & EV_...)` block. -/
def openMember (groupFd : ℤ) (s : Opening κ) (e : Event) : Option (Opening κ) :=
  if requested eventMask e then do
    let pe := memberAttr arch s.pe e
    let os ← call s.os (.perfEventOpen pe groupFd (answer e))
    let prof := s.prof.setFd e (answer e)
    if 0 < prof.mCountersFd e then
      let prof := prof.setId e s.count
      return ⟨{ prof with mEnabledEvents := prof.mEnabledEvents ||| e.bit }, os, pe, s.count + 1⟩
    else return ⟨prof, os, pe, s.count⟩
  else return s

/-- The leader is stored, and the members are opened with the shorter read format. -/
def storeLeader (prof : Profiler) (os : κ) (pe : PerfEventAttr) (fd : ℤ) : Opening κ where
  prof := (prof.setId .instructions 0).setFd .instructions fd
  os := os
  pe := { pe with readFormat := ⟨true, true, false, false⟩ }
  count := 1

/-- `resetEvents`.  The value it returns is `mEnabledEvents` of the new object. -/
def resetEvents (s : Sys κ) : Option (Sys κ) := do
  let s ← closeAll call s
  let prof := { s.prof with mEnabledEvents := 0#32 }
  let pe := leaderAttr arch
  let fd := answer .instructions
  let os ← call s.os (.perfEventOpen pe (-1) fd)
  if 0 ≤ fd then
    let o ← run (openMember call arch answer eventMask fd) (storeLeader prof os pe fd) memberOrder
    return ⟨o.prof, o.os⟩
  else return ⟨prof, os⟩

/-- The constructor: every entry of `mCountersFd` starts at `-1`, `mIds` is whatever the
storage held. -/
def construct (mIds : Event → ℕ) (os : κ) : Option (Sys κ) :=
  resetEvents call arch answer (EV_CPU_CYCLES ||| EV_L1D_RATES ||| EV_BPU_RATES)
    ⟨⟨mIds, fun _ => -1, 0#32⟩, os⟩

/-- The body of the destructor's loop. -/
def closeFd (prof : Profiler) (os : κ) (e : Event) : Option κ :=
  if 0 ≤ prof.mCountersFd e then call os (.close (prof.mCountersFd e)) else some os

/-- The destructor. -/
def destroy (s : Sys κ) : Option κ := run (closeFd call s.prof) s.os Event.all

/-! ### Counting -/

/-- An `ioctl` on the leader. -/
def ioctlLeader (req : IocRequest) (s : Sys κ) : Option (Sys κ) := do
  let os ← call s.os (.ioctl (s.prof.mCountersFd .instructions) req)
  return { s with os := os }

/-- `reset`. -/
def reset (s : Sys κ) : Option (Sys κ) := ioctlLeader call .reset s

/-- `start`. -/
def start (s : Sys κ) : Option (Sys κ) := ioctlLeader call .enable s

/-- `stop`. -/
def stop (s : Sys κ) : Option (Sys κ) := ioctlLeader call .disable s

/-! ### What one step can do -/

variable {call arch answer eventMask}

theorem closeEntry_cases {s s' : Sys κ} {e : Event} (h : closeEntry call s e = some s') :
    (s.prof.mCountersFd e < 0 ∧ s' = s) ∨
    (0 ≤ s.prof.mCountersFd e ∧ call s.os (.close (s.prof.mCountersFd e)) = some s'.os ∧
      s'.prof = s.prof.setFd e (-1)) := by
  unfold closeEntry at h
  split_ifs at h with h0
  · obtain ⟨os, hos, h⟩ := Option.bind_eq_some_iff.mp h
    obtain rfl := Option.some.inj h
    exact Or.inr ⟨h0, hos, rfl⟩
  · exact Or.inl ⟨by omega, (Option.some.inj h).symm⟩

/-- A block skips its event, opens it and gives it the next slot, or stores a descriptor it does
not accept. -/
theorem openMember_cases {groupFd : ℤ} {o o' : Opening κ} {e : Event}
    (h : openMember call arch answer eventMask groupFd o e = some o') :
    (requested eventMask e = false ∧ o' = o) ∨
    (requested eventMask e = true ∧
      call o.os (.perfEventOpen (memberAttr arch o.pe e) groupFd (answer e)) = some o'.os ∧
      o'.pe = memberAttr arch o.pe e ∧
      o'.prof.mCountersFd = Function.update o.prof.mCountersFd e (answer e) ∧
      ((0 < answer e ∧ o'.prof.mIds = Function.update o.prof.mIds e o.count ∧
          o'.prof.mEnabledEvents = o.prof.mEnabledEvents ||| e.bit ∧ o'.count = o.count + 1) ∨
        (answer e ≤ 0 ∧ o'.prof.mIds = o.prof.mIds ∧
          o'.prof.mEnabledEvents = o.prof.mEnabledEvents ∧ o'.count = o.count))) := by
  unfold openMember at h
  split_ifs at h with hreq
  · obtain ⟨os, hos, h⟩ := Option.bind_eq_some_iff.mp h
    simp only [Profiler.setFd_mCountersFd, Function.update_self] at h
    split_ifs at h with hpos
    · obtain rfl := Option.some.inj h
      exact Or.inr ⟨hreq, hos, rfl, rfl, Or.inl ⟨hpos, rfl, rfl, rfl⟩⟩
    · obtain rfl := Option.some.inj h
      exact Or.inr ⟨hreq, hos, rfl, rfl, Or.inr ⟨by omega, rfl, rfl, rfl⟩⟩
  · exact Or.inl ⟨by simpa using hreq, (Option.some.inj h).symm⟩

theorem resetEvents_cases {s s' : Sys κ}
    (h : resetEvents call arch answer eventMask s = some s') :
    ∃ s₁ os, closeAll call s = some s₁ ∧
      call s₁.os (.perfEventOpen (leaderAttr arch) (-1) (answer .instructions)) = some os ∧
      ((answer .instructions < 0 ∧ s' = ⟨{ s₁.prof with mEnabledEvents := 0#32 }, os⟩) ∨
        (0 ≤ answer .instructions ∧ ∃ o,
          run (openMember call arch answer eventMask (answer .instructions))
            (storeLeader { s₁.prof with mEnabledEvents := 0#32 } os (leaderAttr arch)
              (answer .instructions)) memberOrder = some o ∧
          s' = ⟨o.prof, o.os⟩)) := by
  unfold resetEvents at h
  obtain ⟨s₁, hclose, h⟩ := Option.bind_eq_some_iff.mp h
  obtain ⟨os, hos, h⟩ := Option.bind_eq_some_iff.mp h
  refine ⟨s₁, os, hclose, hos, ?_⟩
  split_ifs at h with h0
  · obtain ⟨o, ho, h⟩ := Option.bind_eq_some_iff.mp h
    exact Or.inr ⟨h0, o, ho, (Option.some.inj h).symm⟩
  · exact Or.inl ⟨by omega, (Option.some.inj h).symm⟩

theorem ioctlLeader_cases {req : IocRequest} {s s' : Sys κ}
    (h : ioctlLeader call req s = some s') :
    s'.prof = s.prof ∧
      call s.os (.ioctl (s.prof.mCountersFd .instructions) req) = some s'.os := by
  unfold ioctlLeader at h
  obtain ⟨os, hos, h⟩ := Option.bind_eq_some_iff.mp h
  obtain rfl := Option.some.inj h
  exact ⟨rfl, hos⟩

/-- After the closing loop no entry is open, whatever it held before. -/
theorem closeAll_neg {s s' : Sys κ} (h : closeAll call s = some s') :
    ∀ e, s'.prof.mCountersFd e < 0 := by
  have := run_invariant_rest
    (fun rest (s : Sys κ) => ∀ e, e ∉ rest → s.prof.mCountersFd e < 0)
    (by
      intro s e rest s' h hs e' he'
      by_cases hee : e' = e
      · subst hee
        obtain ⟨hneg, rfl⟩ | ⟨-, -, hprof⟩ := closeEntry_cases h
        · exact hneg
        · simp [hprof]
      · have hold := hs e' (by simp [hee, he'])
        obtain ⟨-, rfl⟩ | ⟨-, -, hprof⟩ := closeEntry_cases h
        · exact hold
        · simpa [hprof, hee] using hold) h
    (fun e he => absurd e.mem_all he)
  exact fun e => this e List.not_mem_nil

end resetEvents

/-- One call of `resetEvents`: its mask and the kernel's answers during it. -/
structure ResetCall where
  eventMask : BitVec 32
  answer : Event → ℤ

/-! ### `readCounters` -/

/-- `Profiler::Counters` as the getters see it: the array indexed by the events. -/
structure Counters where
  nr : ℕ
  timeEnabled : ℕ
  timeRunning : ℕ
  counters : Event → Entry

/-- `memset(outCounters, 0, sizeof(Counters))`. -/
def Counters.zero : Counters := ⟨0, 0, 0, fun _ => ⟨0, 0⟩⟩

/-- `readCounters` on the result of `read` (`none` for a result that is not positive).  The
local buffer is not initialised: slots the kernel did not write hold what the stack held. -/
def Profiler.readCounters (p : Profiler) (stack : ℕ → Entry) : Option GroupRecord → Counters
  | none => Counters.zero
  | some r =>
      { nr := r.nr
        timeEnabled := r.timeEnabled
        timeRunning := r.timeRunning
        counters := fun e =>
          if 0 ≤ p.mCountersFd e then (r.entries[p.mIds e]?).getD (stack (p.mIds e))
          else ⟨0, 0⟩ }

end PlayWithOpencv.Perf
