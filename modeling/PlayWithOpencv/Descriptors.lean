import Mathlib.Data.Finset.Card
import Mathlib.Data.List.Find
import Mathlib.Logic.Function.Basic

/-! # The descriptors of a process

A process has a table that says what each of its descriptors is open on.  A new descriptor is the
lowest one that is free, below the limit of the process; `close` frees one, and `dup2` has one
stand for what another is open on.

`lowest_eq_some_iff` characterises the number a new descriptor gets, `openFile_some` and
`pipe_some` what a successful call leaves behind, and `pipe_isSome_iff` when a pipe can be had.
`Extends` compares the tables before and after, and `opened` counts what is open. -/

namespace Descriptors

variable {α : Type*}

/-- What the descriptors are open on. -/
abbrev Table (α : Type*) := ℕ → Option α

/-- `close(fd)`; on a descriptor that is not open it fails and changes nothing. -/
def close (t : Table α) (fd : ℕ) : Table α := Function.update t fd none

/-- `dup2(fd, fd')`. -/
def dup2 (t : Table α) (fd fd' : ℕ) : Table α :=
  match t fd with
  | none => t
  | some a => Function.update t fd' (some a)

/-- The number of the next descriptor. -/
def lowest (limit : ℕ) (t : Table α) : Option ℕ :=
  (List.range limit).find? fun fd => (t fd).isNone

/-- Open `a`: the descriptor, and the table. -/
def openFile (limit : ℕ) (a : α) (t : Table α) : Option (ℕ × Table α) :=
  (lowest limit t).map fun fd => (fd, Function.update t fd (some a))

/-- `dup(fd)`. -/
def dup (limit : ℕ) (t : Table α) (fd : ℕ) : Option (ℕ × Table α) :=
  (t fd).bind fun a => openFile limit a t

/-- `pipe(fds)`: the read end, the write end, and the table. -/
def pipe (limit : ℕ) (rd wr : α) (t : Table α) : Option (ℕ × ℕ × Table α) := do
  let (r, t) ← openFile limit rd t
  let (w, t) ← openFile limit wr t
  return (r, w, t)

@[simp] theorem close_self (t : Table α) (fd : ℕ) : close t fd fd = none := by simp [close]

theorem close_of_ne {fd x : ℕ} (t : Table α) (h : x ≠ fd) : close t fd x = t x := by
  simp [close, h]

theorem close_of_none {fd : ℕ} {t : Table α} (h : t fd = none) : close t fd = t := by
  rw [close, ← h, Function.update_eq_self]

theorem dup2_self_of_some {fd fd' : ℕ} {t : Table α} {a : α} (h : t fd = some a) :
    dup2 t fd fd' fd' = some a := by
  simp [dup2, h]

theorem dup2_of_ne {fd fd' x : ℕ} (t : Table α) (h : x ≠ fd') : dup2 t fd fd' x = t x := by
  unfold dup2
  cases t fd with
  | none => rfl
  | some a => simp [h]

/-- What a descriptor is open on after `dup2`, it or the duplicated one was before. -/
theorem dup2_eq_some {fd fd' x : ℕ} {t : Table α} {a : α} (h : dup2 t fd fd' x = some a) :
    t x = some a ∨ t fd = some a := by
  by_cases hx : x = fd'
  · subst hx
    unfold dup2 at h
    cases hfd : t fd with
    | none => exact .inl (by simpa [hfd] using h)
    | some b => exact .inr (by simpa [hfd] using h)
  · rw [dup2_of_ne t hx] at h
    exact .inl h

theorem close_eq_some {fd x : ℕ} {t : Table α} {a : α} (h : close t fd x = some a) :
    x ≠ fd ∧ t x = some a := by
  by_cases hx : x = fd
  · subst hx
    simp at h
  · exact ⟨hx, by rwa [close_of_ne t hx] at h⟩

/-- The lowest free descriptor: it is free, below the limit, and those below it are open. -/
theorem lowest_eq_some_iff {limit fd : ℕ} {t : Table α} :
    lowest limit t = some fd ↔ t fd = none ∧ fd < limit ∧ ∀ x < fd, t x ≠ none := by
  unfold lowest
  rw [List.find?_range_eq_some]
  simp [List.mem_range, Option.ne_none_iff_isSome]

theorem lowest_eq_none_iff {limit : ℕ} {t : Table α} :
    lowest limit t = none ↔ ∀ x < limit, t x ≠ none := by
  simp [lowest, Option.ne_none_iff_isSome]

theorem openFile_some {limit fd : ℕ} {a : α} {t t' : Table α}
    (h : openFile limit a t = some (fd, t')) :
    t fd = none ∧ fd < limit ∧ (∀ x < fd, t x ≠ none) ∧ t' = Function.update t fd (some a) := by
  obtain ⟨fd', hfd, heq⟩ := Option.map_eq_some_iff.mp h
  obtain ⟨rfl, rfl⟩ := Prod.mk.inj heq
  obtain ⟨hfree, hlt, hlow⟩ := lowest_eq_some_iff.mp hfd
  exact ⟨hfree, hlt, hlow, rfl⟩

/-- The ends of a new pipe: two free descriptors, the read end first, and below them only what
was open before. -/
theorem pipe_some {limit r w : ℕ} {rd wr : α} {t t' : Table α}
    (h : pipe limit rd wr t = some (r, w, t')) :
    t r = none ∧ t w = none ∧ r < w ∧ w < limit ∧ (∀ x < w, x ≠ r → t x ≠ none) ∧
      t' = Function.update (Function.update t r (some rd)) w (some wr) := by
  obtain ⟨⟨r', t₁⟩, h₁, h⟩ := Option.bind_eq_some_iff.mp h
  obtain ⟨⟨w', t₂⟩, h₂, h⟩ := Option.bind_eq_some_iff.mp h
  obtain ⟨rfl, heq⟩ := Prod.mk.inj (Option.some.inj h)
  obtain ⟨rfl, rfl⟩ := Prod.mk.inj heq
  obtain ⟨hr, -, hlow, rfl⟩ := openFile_some h₁
  obtain ⟨hw, hlt, hlow', rfl⟩ := openFile_some h₂
  have hne : w' ≠ r' := by
    rintro rfl
    simp at hw
  rw [Function.update_of_ne hne] at hw
  refine ⟨hr, hw, ?_, hlt, fun x hx hxr => ?_, rfl⟩
  · -- the write end is not below the read end, where nothing was free
    rcases Nat.lt_trichotomy r' w' with hlt | heq | hgt
    · exact hlt
    · exact absurd heq.symm hne
    · exact absurd hw (hlow w' hgt)
  · have := hlow' x hx
    rwa [Function.update_of_ne hxr] at this

/-- A pipe takes two free descriptors. -/
theorem pipe_isSome_iff {limit : ℕ} {rd wr : α} {t : Table α} :
    (pipe limit rd wr t).isSome ↔ ∃ x y, x < y ∧ y < limit ∧ t x = none ∧ t y = none := by
  constructor
  · intro h
    obtain ⟨⟨r, w, t'⟩, h⟩ := Option.isSome_iff_exists.mp h
    obtain ⟨hr, hw, hlt, hlimit, -⟩ := pipe_some h
    exact ⟨r, w, hlt, hlimit, hr, hw⟩
  · rintro ⟨x, y, hlt, hlimit, hx, hy⟩
    -- the first end takes `x` or a lower one, which leaves `y` for the second
    obtain ⟨r, hr⟩ : ∃ r, lowest limit t = some r := by
      refine Option.ne_none_iff_exists'.mp fun hnone => ?_
      exact lowest_eq_none_iff.mp hnone y hlimit hy
    have hry : y ≠ r := by
      rintro rfl
      exact (lowest_eq_some_iff.mp hr).2.2 x hlt hx
    obtain ⟨w, hw⟩ : ∃ w, lowest limit (Function.update t r (some rd)) = some w := by
      refine Option.ne_none_iff_exists'.mp fun hnone => ?_
      refine lowest_eq_none_iff.mp hnone y hlimit ?_
      rw [Function.update_of_ne hry]
      exact hy
    simp [pipe, openFile, hr, hw]

/-! ### Tables before and after -/

/-- What was open is open still, on the same. -/
def Extends (t t' : Table α) : Prop := ∀ x, t x ≠ none → t' x = t x

theorem Extends.refl (t : Table α) : Extends t t := fun _ _ => rfl

theorem Extends.trans {t t' t'' : Table α} (h : Extends t t') (h' : Extends t' t'') :
    Extends t t'' := by
  intro x hx
  rw [h' x (by rwa [h x hx]), h x hx]

/-- A new descriptor. -/
theorem extends_update {t : Table α} {fd : ℕ} (h : t fd = none) (a : Option α) :
    Extends t (Function.update t fd a) := by
  intro x hx
  rw [Function.update_of_ne]
  rintro rfl
  exact hx h

/-- Room for a pipe with more files open is room with fewer. -/
theorem Extends.pipe_isSome {limit : ℕ} {rd wr rd' wr' : α} {t t' : Table α} (h : Extends t t')
    (hpipe : (pipe limit rd wr t').isSome) : (pipe limit rd' wr' t).isSome := by
  obtain ⟨x, y, hlt, hlimit, hx, hy⟩ := pipe_isSome_iff.mp hpipe
  have hfree : ∀ z, t' z = none → t z = none := by
    intro z hz
    by_contra hne
    exact hne (h z hne ▸ hz)
  exact pipe_isSome_iff.mpr ⟨x, y, hlt, hlimit, hfree x hx, hfree y hy⟩

/-- The descriptors that are open. -/
def opened (limit : ℕ) (t : Table α) : Finset ℕ :=
  (Finset.range limit).filter fun fd => (t fd).isSome

theorem card_opened_update {limit fd : ℕ} {t : Table α} (h : t fd = none) (hlt : fd < limit)
    (a : α) : (opened limit (Function.update t fd (some a))).card = (opened limit t).card + 1 := by
  have hinsert : opened limit (Function.update t fd (some a)) = insert fd (opened limit t) := by
    ext x
    by_cases hx : x = fd
    · simp [opened, hx, hlt]
    · simp [opened, hx]
  rw [hinsert, Finset.card_insert_of_notMem (by simp [opened, h])]

end Descriptors
