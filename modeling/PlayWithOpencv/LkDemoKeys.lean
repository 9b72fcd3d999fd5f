import PlayWithOpencv.LkDemoBuffers

/-! # The hot keys of `lkdemo`

`help` lists the keys: ESC quits the program, `r` initialises the points, `c` deletes them, `n`
switches the night mode on and off, and `s` saves the two frames in work.

`loop` is the frame loop with all it does to the outside, the pass that is left at its end
included.  It goes on exactly as long as there are frames and no ESC (`lt_length_loop`).  What the
keys have set at the start of a pass is fixed by the inputs so far: the pass initialises or saves
exactly if the last key was `r` or `s`, and is in night mode after an odd number of `n`
(`step_keys`). -/

namespace PlayWithOpencv.LkDemo

open PartialRun

variable {F G P : Type} (v : Vision F G P)

def ESC : Char := Char.ofNat 27

/-! ### The loop -/

/-- The body of the loop, unless the frame is empty: what it does, and the next state unless the
loop is left. -/
def pass (s : State G P) (i : Input F) : Option (List (Effect F G P) × Option (State G P)) := do
  let frame ← i.frame
  let (s, effects) ← processFrame v s frame
  let s := i.events.foldl (onMouse v) s
  return (effects, (handleKey s i.key).map swapBuffers)

/-- What the passes do, one after the other. -/
def loop : State G P → List (Input F) → List (List (Effect F G P))
  | _, [] => []
  | s, i :: is =>
      match pass v s i with
      | none => []
      | some (effects, none) => [effects]
      | some (effects, some s') => effects :: loop s' is

variable {v}

theorem step_eq_pass (s : State G P) (i : Input F) : step v s i = (pass v s i).bind Prod.snd := by
  unfold step frameStep pass
  cases i.frame with
  | none => rfl
  | some frame =>
      simp only [Option.bind_eq_bind, Option.bind_some]
      cases processFrame v s frame with
      | none => rfl
      | some r =>
          obtain ⟨s₁, effects⟩ := r
          simp only [Option.bind_some]
          cases handleKey (i.events.foldl (onMouse v) s₁) i.key <;> rfl

/-- A pass of the loop is one from a state of a run. -/
theorem loop_getElem? {is : List (Input F)} :
    ∀ {s : State G P} {t : ℕ} {effects : List (Effect F G P)},
      (loop v s is)[t]? = some effects → ∃ s' i r, run (step v) s (is.take t) = some s' ∧
        is[t]? = some i ∧ pass v s' i = some (effects, r) := by
  induction is with
  | nil =>
      intro s t effects h
      cases h
  | cons i is ih =>
      intro s t effects h
      unfold loop at h
      cases hpass : pass v s i with
      | none => simp [hpass] at h
      | some r =>
          obtain ⟨effects', next⟩ := r
          cases t with
          | zero =>
              have heq : effects' = effects := by
                cases next <;> simpa [hpass] using h
              subst heq
              exact ⟨s, i, next, rfl, rfl, hpass⟩
          | succ t =>
              cases next with
              | none => simp [hpass] at h
              | some s₁ =>
                  obtain ⟨s', i', r, hrun, hi', hpass'⟩ := ih (by simpa [hpass] using h)
                  refine ⟨s', i', r, ?_, hi', hpass'⟩
                  rw [List.take_succ_cons, run_cons, step_eq_pass, hpass]
                  exact hrun

/-! ### How long the loop goes on -/

theorem pass_isSome (hv : v.Documented) (s : State G P) {i : Input F} :
    (pass v s i).isSome ↔ i.frame ≠ none := by
  unfold pass
  cases i.frame with
  | none => simp
  | some frame =>
      obtain ⟨effects, hpass, -⟩ := processFrame_spec hv s frame
      simp [hpass]

/-- The loop is left at ESC. -/
theorem pass_next {s : State G P} {i : Input F} {effects : List (Effect F G P)}
    {next : Option (State G P)} (h : pass v s i = some (effects, next)) :
    next = none ↔ i.key = ESC := by
  unfold pass at h
  obtain ⟨frame, -, h⟩ := Option.bind_eq_some_iff.mp h
  obtain ⟨⟨s₁, effects₁⟩, -, h⟩ := Option.bind_eq_some_iff.mp h
  obtain ⟨-, rfl⟩ := Prod.mk.inj (Option.some.inj h)
  rw [Option.map_eq_none_iff]
  constructor
  · intro hnone
    by_contra hkey
    have hsome := handleKey_isSome (i.events.foldl (onMouse v) s₁) hkey
    rw [hnone] at hsome
    cases hsome
  · intro hkey
    unfold handleKey
    exact if_pos hkey

/-- There is a pass for every frame, up to the first empty one or ESC. -/
theorem lt_length_loop (hv : v.Documented) {is : List (Input F)} :
    ∀ {s : State G P} {t : ℕ}, t < (loop v s is).length ↔
      (∃ i ∈ is[t]?, i.frame ≠ none) ∧
        ∀ t' < t, ∃ i ∈ is[t']?, i.frame ≠ none ∧ i.key ≠ ESC := by
  induction is with
  | nil =>
      intro s t
      simp [loop]
  | cons i is ih =>
      intro s t
      unfold loop
      cases hpass : pass v s i with
      | none =>
          have hframe : i.frame = none := by
            by_contra hne
            have hsome := (pass_isSome hv s).mpr hne
            rw [hpass] at hsome
            cases hsome
          cases t with
          | zero => simp [hframe]
          | succ t =>
              simp only [List.length_nil, Nat.not_lt_zero, false_iff]
              rintro ⟨-, h⟩
              obtain ⟨i', hi', hne, -⟩ := h 0 (Nat.succ_pos t)
              obtain rfl : i = i' := Option.some.inj hi'
              exact hne hframe
      | some r =>
          obtain ⟨effects, next⟩ := r
          have hframe : i.frame ≠ none := (pass_isSome hv s).mp (by simp [hpass])
          have hkey := pass_next hpass
          cases next with
          | none =>
              have hesc := hkey.mp rfl
              cases t with
              | zero => simp [hframe]
              | succ t =>
                  constructor
                  · intro h
                    simp at h
                  · rintro ⟨-, h⟩
                    obtain ⟨i', hi', -, hne⟩ := h 0 (Nat.succ_pos t)
                    obtain rfl : i = i' := Option.some.inj hi'
                    exact absurd hesc hne
          | some s₁ =>
              have hesc : i.key ≠ ESC := fun h => by simpa using hkey.mpr h
              cases t with
              | zero => simp [hframe]
              | succ t =>
                  simp only [List.length_cons, Nat.add_lt_add_iff_right, List.getElem?_cons_succ]
                  rw [ih]
                  refine and_congr_right fun _ => ⟨fun h t' ht' => ?_, fun h t' ht' => ?_⟩
                  · cases t' with
                    | zero => exact ⟨i, rfl, hframe, hesc⟩
                    | succ t' => exact h t' (by omega)
                  · exact h (t' + 1) (by omega)

/-! ### What the keys have done -/

def lastKey (js : List (Input F)) : Option Char := js.getLast?.map (·.key)

variable (v) in
/-- The gray image of the last frame. -/
def lastGray (js : List (Input F)) : Option G := (js.getLast?.bind (·.frame)).map v.cvtColor

/-- How often the night mode was switched. -/
def switched (js : List (Input F)) : ℕ := js.countP fun i => i.key = 'n'

variable (v) in
/-- The state that the inputs `js` lead to, as far as the keys determine it. -/
structure Keys (js : List (Input F)) (s : State G P) : Prop where
  needToInit : s.needToInit = decide (lastKey js = some 'r')
  needSaveImg : s.needSaveImg = decide (lastKey js = some 's')
  nightMode : s.nightMode = decide (Odd (switched js))
  prevGray : s.prevGray = lastGray v js
  started : js ≠ [] → s.prevGray ≠ none

/-- What a key does to the flags of a pass that has initialised and saved. -/
theorem handleKey_flags {s s' : State G P} {c : Char} (hinit : s.needToInit = false)
    (hsave : s.needSaveImg = false) (h : handleKey s c = some s') :
    s'.needToInit = decide (c = 'r') ∧ s'.needSaveImg = decide (c = 's') ∧
      s'.nightMode = (s.nightMode ^^ decide (c = 'n')) := by
  unfold handleKey at h
  split_ifs at h with hesc hr hc hn hs
  · obtain rfl := Option.some.inj h
    simp [hr, hsave]
  · obtain rfl := Option.some.inj h
    simp [hc, hinit, hsave]
  · obtain rfl := Option.some.inj h
    simp [hn, hinit, hsave]
  · obtain rfl := Option.some.inj h
    simp [hs, hinit, hsave]
  · obtain rfl := Option.some.inj h
    simp [hr, hn, hs, hinit, hsave]

/-- The flags after a frame is processed and the mouse has been clicked. -/
theorem processFrame_flags (hv : v.Documented) {s s₁ : State G P} {frame : F}
    {effects : List (Effect F G P)} (h : processFrame v s frame = some (s₁, effects))
    (events : List MouseEvent) :
    (events.foldl (onMouse v) s₁).needToInit = false ∧
      (events.foldl (onMouse v) s₁).needSaveImg = false ∧
      (events.foldl (onMouse v) s₁).nightMode = s.nightMode := by
  obtain ⟨effects', hpass, -⟩ := processFrame_spec hv s frame
  obtain rfl := congrArg Prod.fst (Option.some.inj (hpass.symm.trans h))
  rw [foldl_onMouse]
  exact ⟨rfl, rfl, rfl⟩

/-- **One pass** sets the flags by its key. -/
theorem step_flags (hv : v.Documented) {s s' : State G P} {i : Input F}
    (h : step v s i = some s') :
    s'.needToInit = decide (i.key = 'r') ∧ s'.needSaveImg = decide (i.key = 's') ∧
      s'.nightMode = (s.nightMode ^^ decide (i.key = 'n')) := by
  obtain ⟨⟨_, effects⟩, hstep, rfl⟩ := Option.map_eq_some_iff.mp h
  obtain ⟨frame, -, hstep⟩ := Option.bind_eq_some_iff.mp hstep
  obtain ⟨⟨s₁, effects₁⟩, hs₁, hrest⟩ := Option.bind_eq_some_iff.mp hstep
  obtain ⟨s₂, hkey, hswap⟩ := Option.bind_eq_some_iff.mp hrest
  obtain rfl := congrArg Prod.fst (Option.some.inj hswap)
  obtain ⟨hinit, hsave, hnight⟩ := processFrame_flags hv hs₁ i.events
  obtain ⟨hinit', hsave', hnight'⟩ := handleKey_flags hinit hsave hkey
  rw [hnight] at hnight'
  exact ⟨hinit', hsave', hnight'⟩

/-- **One pass**: the state is what the inputs with it make of it. -/
theorem step_keys (hv : v.Documented) {js : List (Input F)} {s s' : State G P} {i : Input F}
    (hs : Keys v js s) (h : step v s i = some s') : Keys v (js ++ [i]) s' := by
  obtain ⟨frame, hframe, -, hprev, -⟩ := step_spec hv h
  obtain ⟨hinit, hsave, hnight⟩ := step_flags hv h
  have hlast : lastKey (js ++ [i]) = some i.key := by simp [lastKey]
  have hgray : lastGray v (js ++ [i]) = some (v.cvtColor frame) := by simp [lastGray, hframe]
  refine ⟨?_, ?_, ?_, hprev.trans hgray.symm, fun _ => by simp [hprev]⟩
  · simp [hinit, hlast]
  · simp [hsave, hlast]
  · have hcount : switched (js ++ [i]) = switched js + if i.key = 'n' then 1 else 0 := by
      simp [switched, List.countP_append, List.countP_cons]
    rw [hnight, hs.nightMode, hcount]
    by_cases hn : i.key = 'n'
    · have hodd : decide (Odd (switched js + 1)) = !decide (Odd (switched js)) := by
        rw [← decide_not]
        exact decide_eq_decide.mpr Nat.odd_add_one
      rw [if_pos hn, hodd, decide_eq_true hn, Bool.xor_true]
    · rw [if_neg hn, decide_eq_false hn, Bool.xor_false, Nat.add_zero]

theorem keys_init : Keys v [] (init v) := ⟨rfl, rfl, rfl, rfl, fun hne => absurd rfl hne⟩

end PlayWithOpencv.LkDemo
