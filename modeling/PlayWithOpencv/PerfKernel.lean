import Mathlib.Tactic

/-! # The kernel's side of `perf_event_open`

`Profiler.cpp` and `Profiler.h` talk to the Linux kernel through five calls:
`perf_event_open`, `close`, `ioctl` (RESET, ENABLE and DISABLE, always with
`PERF_IOC_FLAG_GROUP`), and `read`.  The kernel is not part of the repository; this module
states the documented behaviour the code relies on.

* A process owns descriptors.  Some are ordinary (`others`), some stand for perf events.
  `perf_event_open` answers with a negative number or with a free descriptor: any free one
  (`Kernel.fresh`), or the lowest free one as POSIX prescribes (`Kernel.lowestFree`).
* Perf events live in groups: `group_fd = -1` starts a group, the descriptor of a leader adds a
  member at the end.  A `Group` is its leader together with its members, so an event cannot be
  in a group that has no leader.
* A new event has count zero and is enabled unless `attr.disabled` is set.  An event counts the
  occurrences of its own kind (type and configuration) exactly while it is enabled.
* With `PERF_IOC_FLAG_GROUP` an `ioctl` acts on every event of the leader's group.
* Reading a leader yields one `{value, id}` entry per event of its group, the leader first and
  then the members in opening order.

The calls are `Syscall`, the kernel's transition on one of them is `Kernel.exec`, with `none`
for an answer this kernel would not give.  A `Machine` is a kernel together with the hardware
activity of the time before each call. -/

namespace PlayWithOpencv.Perf

/-- The `type` of an event, numbered as in `linux/perf_event.h`. -/
def PERF_TYPE_HARDWARE : ℕ := 0
def PERF_TYPE_HW_CACHE : ℕ := 3
def PERF_TYPE_RAW : ℕ := 4

/-- The `config` of a `PERF_TYPE_HARDWARE` event. -/
def PERF_COUNT_HW_CPU_CYCLES : ℕ := 0
def PERF_COUNT_HW_INSTRUCTIONS : ℕ := 1
def PERF_COUNT_HW_CACHE_REFERENCES : ℕ := 2
def PERF_COUNT_HW_CACHE_MISSES : ℕ := 3
def PERF_COUNT_HW_BRANCH_INSTRUCTIONS : ℕ := 4
def PERF_COUNT_HW_BRANCH_MISSES : ℕ := 5

/-- The parts of the `config` of a `PERF_TYPE_HW_CACHE` event. -/
def PERF_COUNT_HW_CACHE_L1I : ℕ := 1
def PERF_COUNT_HW_CACHE_OP_READ : ℕ := 0
def PERF_COUNT_HW_CACHE_RESULT_ACCESS : ℕ := 0
def PERF_COUNT_HW_CACHE_RESULT_MISS : ℕ := 1

/-- The `read_format` bits of an event. -/
structure ReadFormat where
  group : Bool
  id : Bool
  totalTimeEnabled : Bool
  totalTimeRunning : Bool
deriving DecidableEq, Repr

/-- The fields of `struct perf_event_attr` the program sets. -/
structure PerfEventAttr where
  type : ℕ
  config : ℕ
  disabled : Bool
  excludeKernel : Bool
  excludeHv : Bool
  readFormat : ReadFormat
deriving DecidableEq, Repr

/-- What an event counts: its type and configuration. -/
abbrev Kind := ℕ × ℕ

def PerfEventAttr.kind (pe : PerfEventAttr) : Kind := (pe.type, pe.config)

/-- The requests of `ioctl`, each made with `PERF_IOC_FLAG_GROUP`. -/
inductive IocRequest where
  | reset
  | enable
  | disable
deriving DecidableEq, Repr

/-- A system call of the profiler, with the kernel's answer where the program looks at it. -/
inductive Syscall where
  | perfEventOpen (pe : PerfEventAttr) (groupFd : ℤ) (fd : ℤ)
  | close (fd : ℤ)
  | ioctl (fd : ℤ) (req : IocRequest)
  | read (fd : ℤ)
deriving DecidableEq, Repr

/-- An open event. -/
structure PerfEvent where
  fd : ℕ
  attr : PerfEventAttr
  id : ℕ
  enabled : Bool
  count : ℕ
deriving DecidableEq, Repr

namespace PerfEvent

def onRequest : IocRequest → PerfEvent → PerfEvent
  | .reset, ev => { ev with count := 0 }
  | .enable, ev => { ev with enabled := true }
  | .disable, ev => { ev with enabled := false }

/-- One hardware occurrence of kind `κ`. -/
def occur (κ : Kind) (ev : PerfEvent) : PerfEvent :=
  if ev.enabled = true ∧ ev.attr.kind = κ then { ev with count := ev.count + 1 } else ev

/-- A transformation of an event that leaves alone what it was opened as. -/
def Keeps (f : PerfEvent → PerfEvent) : Prop :=
  ∀ ev, (f ev).fd = ev.fd ∧ (f ev).attr = ev.attr ∧ (f ev).id = ev.id

theorem keeps_onRequest (req : IocRequest) : Keeps (onRequest req) := by
  intro ev
  cases req <;> exact ⟨rfl, rfl, rfl⟩

theorem keeps_occur (κ : Kind) : Keeps (occur κ) := by
  intro ev
  unfold occur
  split_ifs <;> exact ⟨rfl, rfl, rfl⟩

end PerfEvent

/-- A leader and its members in opening order. -/
structure Group where
  leader : PerfEvent
  members : List PerfEvent
deriving DecidableEq, Repr

namespace Group

def events (g : Group) : List PerfEvent := g.leader :: g.members

def mapEvents (f : PerfEvent → PerfEvent) (g : Group) : Group :=
  ⟨f g.leader, g.members.map f⟩

def addMember (g : Group) (ev : PerfEvent) : Group := { g with members := g.members ++ [ev] }

@[simp] theorem events_mapEvents (f : PerfEvent → PerfEvent) (g : Group) :
    (g.mapEvents f).events = g.events.map f := rfl

theorem forall_mapEvents {f : PerfEvent → PerfEvent} {g : Group} {P : PerfEvent → Prop} :
    (∀ ev ∈ (g.mapEvents f).events, P ev) ↔ ∀ ev ∈ g.events, P (f ev) := by
  rw [events_mapEvents, List.forall_mem_map]

@[simp] theorem events_addMember (g : Group) (ev : PerfEvent) :
    (g.addMember ev).events = g.events ++ [ev] := rfl

@[simp] theorem leader_mapEvents (f : PerfEvent → PerfEvent) (g : Group) :
    (g.mapEvents f).leader = f g.leader := rfl

theorem leader_mem_events (g : Group) : g.leader ∈ g.events := List.mem_cons_self

end Group

/-- The descriptors of the process and its perf events. -/
structure Kernel where
  others : List ℕ
  groups : List Group
  nextId : ℕ
deriving DecidableEq, Repr

namespace Kernel

variable (k : Kernel)

/-- The descriptors in use. -/
def inUse : List ℕ := k.others ++ (k.groups.flatMap Group.events).map PerfEvent.fd

/-- Any descriptor that is not open may be handed out. -/
def fresh (fd : ℕ) : Bool := decide (fd ∉ k.inUse)

/-- The lowest descriptor that is not open is handed out. -/
def lowestFree (fd : ℕ) : Bool :=
  decide (fd ∉ k.inUse) && (List.range fd).all (fun n => decide (n ∈ k.inUse))

/-- The group led by descriptor `fd`. -/
def group? (fd : ℤ) : Option Group := k.groups.find? (fun g => decide ((g.leader.fd : ℤ) = fd))

/-- A new event: count zero, enabled unless it was opened with `disabled`. -/
def newEvent (fd : ℕ) (pe : PerfEventAttr) : PerfEvent := ⟨fd, pe, k.nextId, !pe.disabled, 0⟩

def addGroup (fd : ℕ) (pe : PerfEventAttr) : Kernel :=
  { k with groups := k.groups ++ [⟨k.newEvent fd pe, []⟩], nextId := k.nextId + 1 }

/-- Apply `f` to the group led by `fd`. -/
def mapGroup (fd : ℤ) (f : Group → Group) : Kernel :=
  { k with groups := k.groups.map (fun g => if (g.leader.fd : ℤ) = fd then f g else g) }

def addMember (leader : ℤ) (fd : ℕ) (pe : PerfEventAttr) : Kernel :=
  { k.mapGroup leader (fun g => g.addMember (k.newEvent fd pe)) with nextId := k.nextId + 1 }

/-- Closing a leader leaves its members as groups of their own. -/
def close (fd : ℤ) : Kernel :=
  { k with
    others := k.others.filter (fun n => decide ((n : ℤ) ≠ fd))
    groups := k.groups.flatMap (fun g =>
      if (g.leader.fd : ℤ) = fd then g.members.map (fun ev => ⟨ev, []⟩)
      else [{ g with members := g.members.filter (fun ev => decide ((ev.fd : ℤ) ≠ fd)) }]) }

/-- Apply `f` to every event of every group. -/
def mapEvents (f : PerfEvent → PerfEvent) : Kernel :=
  { k with groups := k.groups.map (Group.mapEvents f) }

/-- Hardware activity: the occurrences in order. -/
def occurAll (κs : List Kind) : Kernel := κs.foldl (fun k κ => k.mapEvents (PerfEvent.occur κ)) k

/-- The kernel's transition on a call; `alloc` says which descriptors it may hand out. -/
def exec (alloc : Kernel → ℕ → Bool) (k : Kernel) : Syscall → Option Kernel
  | .perfEventOpen pe groupFd fd =>
      if fd < 0 then some k
      else if alloc k fd.toNat then
        if groupFd < 0 then some (k.addGroup fd.toNat pe)
        else if (k.group? groupFd).isSome then some (k.addMember groupFd fd.toNat pe)
        else none
      else none
  | .close fd => some (k.close fd)
  | .ioctl fd req => some (k.mapGroup fd (Group.mapEvents (PerfEvent.onRequest req)))
  | .read _ => some k

end Kernel

/-- A kernel, and the hardware activity before each of the calls to come. -/
structure Machine where
  kernel : Kernel
  gaps : List (List Kind)
deriving DecidableEq, Repr

/-- The next gap passes, then the kernel serves the call; descriptors are handed out lowest
first. -/
def Machine.call (m : Machine) (c : Syscall) : Option Machine :=
  ((m.kernel.occurAll (m.gaps.headD [])).exec Kernel.lowestFree c).map (⟨·, m.gaps.tail⟩)

/-! ### Reading a group -/

/-- One `{value, id}` entry of a group record, and of the array in `Profiler::Counters`. -/
structure Entry where
  value : ℕ
  id : ℕ
deriving DecidableEq, Repr

/-- The entry of an event with its own count. -/
def PerfEvent.entry (ev : PerfEvent) : Entry := ⟨ev.count, ev.id⟩

/-- What `read` on a leader writes. -/
structure GroupRecord where
  timeEnabled : ℕ
  timeRunning : ℕ
  entries : List Entry
deriving DecidableEq, Repr

/-- The number of entries the kernel reports. -/
def GroupRecord.nr (r : GroupRecord) : ℕ := r.entries.length

namespace Kernel

/-- The record of the group led by `fd`, when an event stands at `entry`; `none` when `fd` leads
no group. -/
def readGroup (k : Kernel) (fd : ℤ) (entry : PerfEvent → Entry) (timeEnabled timeRunning : ℕ) :
    Option GroupRecord :=
  (k.group? fd).map (fun g => ⟨timeEnabled, timeRunning, g.events.map entry⟩)

end Kernel

/-! ### Looking a group up after a transition -/

namespace Kernel

variable {k : Kernel} {L : ℤ}

theorem leader_of_group? {g : Group} (h : k.group? L = some g) : (g.leader.fd : ℤ) = L := by
  have := List.find?_some h
  simpa using this

theorem mem_inUse_of_group? {g : Group} (h : k.group? L = some g) {ev : PerfEvent}
    (hev : ev ∈ g.events) : ev.fd ∈ k.inUse := by
  refine List.mem_append_right _ (List.mem_map_of_mem ?_)
  exact List.mem_flatMap.mpr ⟨g, List.mem_of_find?_eq_some h, hev⟩

theorem group?_addGroup {fd : ℕ} {pe : PerfEventAttr} (hfree : fd ∉ k.inUse) :
    (k.addGroup fd pe).group? fd = some ⟨k.newEvent fd pe, []⟩ := by
  have hnone : k.group? (fd : ℤ) = none := by
    cases hg : k.group? (fd : ℤ) with
    | none => rfl
    | some g =>
        have hmem := mem_inUse_of_group? hg g.leader_mem_events
        have hfd : g.leader.fd = fd := by exact_mod_cast leader_of_group? hg
        exact absurd (hfd ▸ hmem) hfree
  have e : (k.addGroup fd pe).group? fd =
      (k.group? (fd : ℤ)).or ([⟨k.newEvent fd pe, []⟩].find?
        (fun g => decide ((g.leader.fd : ℤ) = fd))) := List.find?_append
  rw [e, hnone]
  simp [newEvent]

theorem group?_mapGroup {f : Group → Group} (hf : ∀ g, (f g).leader.fd = g.leader.fd) :
    (k.mapGroup L f).group? L = (k.group? L).map f := by
  have e : (fun g : Group => decide ((g.leader.fd : ℤ) = L)) ∘
      (fun g : Group => if (g.leader.fd : ℤ) = L then f g else g) =
      fun g : Group => decide ((g.leader.fd : ℤ) = L) := by
    funext g
    simp only [Function.comp_apply]
    split_ifs with h
    · rw [hf]
    · rfl
  unfold group? mapGroup
  rw [List.find?_map, e]
  cases hg : k.groups.find? (fun g => decide ((g.leader.fd : ℤ) = L)) with
  | none => rfl
  | some g =>
      have hL : (g.leader.fd : ℤ) = L := leader_of_group? hg
      simp [hL]

theorem group?_addMember {fd : ℕ} {pe : PerfEventAttr} {g : Group} (h : k.group? L = some g) :
    (k.addMember L fd pe).group? L = some (g.addMember (k.newEvent fd pe)) := by
  have := group?_mapGroup (k := k) (L := L) (f := fun g => g.addMember (k.newEvent fd pe))
    (fun g => rfl)
  rw [h] at this
  exact this

theorem group?_mapEvents {f : PerfEvent → PerfEvent} (hf : PerfEvent.Keeps f) :
    (k.mapEvents f).group? L = (k.group? L).map (Group.mapEvents f) := by
  have e : (fun g : Group => decide ((g.leader.fd : ℤ) = L)) ∘ Group.mapEvents f =
      fun g : Group => decide ((g.leader.fd : ℤ) = L) := by
    funext g
    simp [(hf g.leader).1]
  unfold group? mapEvents
  rw [List.find?_map, e]

theorem group?_ioctl (req : IocRequest) :
    (k.mapGroup L (Group.mapEvents (PerfEvent.onRequest req))).group? L =
      (k.group? L).map (Group.mapEvents (PerfEvent.onRequest req)) :=
  group?_mapGroup (fun g => (PerfEvent.keeps_onRequest req g.leader).1)

theorem inUse_addGroup (fd : ℕ) (pe : PerfEventAttr) :
    (k.addGroup fd pe).inUse = k.inUse ++ [fd] := by
  simp [inUse, addGroup, Group.events, newEvent]

/-- What is in use stays in use when a member is opened. -/
theorem mem_inUse_addMember {n fd : ℕ} {pe : PerfEventAttr} (h : n ∈ k.inUse) :
    n ∈ (k.addMember L fd pe).inUse := by
  simp only [inUse, addMember, mapGroup, List.mem_append, List.mem_map, List.mem_flatMap,
    exists_exists_and_eq_and] at h ⊢
  rcases h with h | ⟨ev, ⟨g, hg, hev⟩, rfl⟩
  · exact Or.inl h
  · refine Or.inr ⟨ev, ⟨g, hg, ?_⟩, rfl⟩
    split_ifs with hL
    · rw [Group.events_addMember]
      exact List.mem_append_left _ hev
    · exact hev

theorem inUse_mapEvents {f : PerfEvent → PerfEvent} (hf : PerfEvent.Keeps f) :
    (k.mapEvents f).inUse = k.inUse := by
  have hfd : PerfEvent.fd ∘ f = PerfEvent.fd := funext fun ev => (hf ev).1
  simp only [inUse, mapEvents, List.flatMap_map, Group.events_mapEvents, List.map_flatMap,
    List.map_map, hfd]

theorem occurAll_cons (κ : Kind) (κs : List Kind) :
    k.occurAll (κ :: κs) = (k.mapEvents (PerfEvent.occur κ)).occurAll κs := rfl

theorem inUse_occurAll (κs : List Kind) : (k.occurAll κs).inUse = k.inUse := by
  induction κs generalizing k with
  | nil => rfl
  | cons κ κs ih =>
      rw [occurAll_cons, ih, inUse_mapEvents (PerfEvent.keeps_occur κ)]

/-- Activity, seen by the group led by `L`. -/
theorem group?_occurAll (κs : List Kind) :
    (k.occurAll κs).group? L =
      (k.group? L).map (fun g => κs.foldl (fun g κ => g.mapEvents (PerfEvent.occur κ)) g) := by
  induction κs generalizing k with
  | nil => simp [occurAll]
  | cons κ κs ih =>
      rw [occurAll_cons, ih, group?_mapEvents (PerfEvent.keeps_occur κ), Option.map_map]
      rfl

/-- What a successful or failed `perf_event_open` does to the kernel. -/
theorem exec_perfEventOpen {alloc : Kernel → ℕ → Bool} {k' : Kernel} {pe : PerfEventAttr}
    {groupFd fd : ℤ} (h : exec alloc k (.perfEventOpen pe groupFd fd) = some k') :
    (fd < 0 ∧ k' = k) ∨
    (0 ≤ fd ∧ alloc k fd.toNat = true ∧
      ((groupFd < 0 ∧ k' = k.addGroup fd.toNat pe) ∨
        (0 ≤ groupFd ∧ k' = k.addMember groupFd fd.toNat pe))) := by
  simp only [exec] at h
  split_ifs at h with hneg halloc hg hgroup
  · exact Or.inl ⟨hneg, (Option.some.inj h).symm⟩
  · exact Or.inr ⟨by omega, halloc, Or.inl ⟨hg, (Option.some.inj h).symm⟩⟩
  · exact Or.inr ⟨by omega, halloc, Or.inr ⟨by omega, (Option.some.inj h).symm⟩⟩

theorem lowestFree_iff {fd : ℕ} :
    k.lowestFree fd = true ↔ fd ∉ k.inUse ∧ ∀ n < fd, n ∈ k.inUse := by
  simp [lowestFree]

end Kernel

theorem Machine.call_some {m m' : Machine} {c : Syscall} (h : m.call c = some m') :
    (m.kernel.occurAll (m.gaps.headD [])).exec Kernel.lowestFree c = some m'.kernel := by
  obtain ⟨k, hk, rfl⟩ := Option.map_eq_some_iff.mp h
  exact hk

/-! ### Groups that are switched off -/

/-- No event of the group is enabled. -/
def Group.Quiet (g : Group) : Prop := ∀ ev ∈ g.events, ev.enabled = false

/-- Activity leaves a group that is switched off as it is. -/
theorem Group.Quiet.occur {g : Group} (hg : g.Quiet) (κ : Kind) :
    g.mapEvents (PerfEvent.occur κ) = g := by
  have hev : ∀ ev ∈ g.events, PerfEvent.occur κ ev = ev := by
    intro ev hev
    simp [PerfEvent.occur, hg ev hev]
  obtain ⟨leader, members⟩ := g
  simp only [Group.mapEvents, Group.mk.injEq]
  refine ⟨hev leader List.mem_cons_self, ?_⟩
  calc members.map (PerfEvent.occur κ) = members.map id :=
        List.map_congr_left fun ev h => hev ev (List.mem_cons_of_mem _ h)
    _ = members := List.map_id members

theorem Group.Quiet.group?_occurAll {k : Kernel} {L : ℤ} {g : Group} (hg : g.Quiet)
    (h : k.group? L = some g) (κs : List Kind) : (k.occurAll κs).group? L = some g := by
  rw [Kernel.group?_occurAll, h, Option.map_some]
  congr 1
  induction κs with
  | nil => rfl
  | cons κ κs ih => rw [List.foldl_cons, hg.occur κ, ih]

end PlayWithOpencv.Perf
