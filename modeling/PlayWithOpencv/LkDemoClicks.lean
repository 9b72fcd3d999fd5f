import PlayWithOpencv.LkDemoHandover

/-! # What a click does in `lkdemo`

A click leaves a flag behind, `addRemovePt`, which the next pass of the loop tests at three places:
initialising drops it, the compaction loop takes it for the first position near the click, and what
is left of it adds a point while there is room.

* `keepTracked_eq` is the compaction in closed form.  A click should remove the first point near
  it that is still tracked (`ClickRule`).  The loop tests the click before the status, so the rule
  holds exactly when the first position near the click is not that of a lost point
  (`trackLoop_click_iff`); otherwise the click is gone without an effect (`lost_point_takes_click`).
* A click should have acted once its pass is done (`ClickActs`).  A whole run keeps to that exactly
  when every pass that neither initialises nor takes the click has room for a point (`Room`,
  `clicks_act_iff`); a click on a full vector waits for a later frame (`click_waits`). -/

namespace PlayWithOpencv.LkDemo

open PartialRun

variable {F G P : Type}

/-! ### The compaction in closed form -/

/-- The points with a status, in their order. -/
def survivors {α : Type} (ps : List (α × Bool)) : List α := (ps.filter Prod.snd).map Prod.fst

theorem survivors_cons {α : Type} (q : α) (found : Bool) (ps : List (α × Bool)) :
    survivors ((q, found) :: ps) = if found then q :: survivors ps else survivors ps := by
  cases found <;> simp [survivors]

theorem survivors_length {α : Type} (ps : List (α × Bool)) :
    (survivors ps).length = (ps.map Prod.snd).count true := by
  unfold survivors
  rw [List.length_map, ← List.countP_eq_length_filter, List.count, List.countP_map]
  congr 1
  funext p
  obtain ⟨q, found⟩ := p
  cases found <;> rfl

/-- A pending click removes the first position near it, and then the lost points go. -/
theorem keepTracked_eq {α : Type} (near : α → Bool) :
    ∀ (pending : Bool) (ps : List (α × Bool)), keepTracked near pending ps =
      (survivors (if pending then ps.eraseP (near ·.1) else ps),
        pending && !ps.any (near ·.1))
  | pending, [] => by cases pending <;> simp [keepTracked, survivors]
  | pending, (q, found) :: ps => by
      have ih := fun pending' => keepTracked_eq near pending' ps
      cases pending with
      | false => cases found <;> simp [keepTracked, survivors_cons, ih]
      | true =>
          by_cases hq : near q = true
          · simp [keepTracked, hq, ih]
          · cases found <;> simp [keepTracked, survivors_cons, hq, ih]

/-! ### Which point a click removes -/

/-- What the loop should do: the points with a status stay, a pending click removes the first of
them that is near it, and is taken exactly when there is one. -/
structure ClickRule (near : P → Bool) (pending : Bool) (pts : List P) (status : List Bool)
    (t : Track P) : Prop where
  points : t.pts = if pending then (survivors (pts.zip status)).eraseP near
    else survivors (pts.zip status)
  pending : t.addRemovePt = (pending && !(survivors (pts.zip status)).any near)

/-- The first position near a pending click, if there is one, has a status. -/
def FirstNearTracked {α : Type} (near : α → Bool) (pending : Bool) (ps : List (α × Bool)) : Prop :=
  pending = true → ∀ p ∈ ps.find? (near ·.1), p.2 = true

/-- Removing the first position near the click before the lost points go, or after. -/
theorem survivors_eraseP {α : Type} {near : α → Bool} :
    ∀ {ps : List (α × Bool)}, FirstNearTracked near true ps →
      survivors (ps.eraseP (near ·.1)) = (survivors ps).eraseP near ∧
        ps.any (near ·.1) = (survivors ps).any near
  | [], _ => by simp [survivors]
  | (q, found) :: ps, h => by
      by_cases hq : near q = true
      · -- the head is the first one near the click, so it is tracked
        have hfound : found = true := h rfl (q, found) (by simp [hq])
        simp [survivors_cons, hq, hfound]
      · have hrest : FirstNearTracked near true ps := by
          intro _ p hp
          exact h rfl p (by simpa [hq] using hp)
        obtain ⟨hpts, hany⟩ := survivors_eraseP hrest
        cases found <;> simp [survivors_cons, hq, hpts, hany]

/-- A lost point that is the first near the click takes it from the others. -/
theorem survivors_eraseP_lost {α : Type} {near : α → Bool} :
    ∀ {ps : List (α × Bool)} {q : α}, ps.find? (near ·.1) = some (q, false) →
      survivors (ps.eraseP (near ·.1)) = survivors ps ∧ ps.any (near ·.1) = true
  | (q', found) :: ps, q, h => by
      by_cases hq : near q' = true
      · obtain ⟨rfl, rfl⟩ : q' = q ∧ found = false := by simpa [hq] using h
        simp [survivors_cons, hq]
      · have hrest : ps.find? (near ·.1) = some (q, false) := by simpa [hq] using h
        obtain ⟨hpts, hany⟩ := survivors_eraseP_lost hrest
        cases found <;> simp [survivors_cons, hq, hpts, hany]

theorem keepTracked_rule_iff {α : Type} (near : α → Bool) (pending : Bool)
    (ps : List (α × Bool)) :
    ((keepTracked near pending ps).1 =
        (if pending then (survivors ps).eraseP near else survivors ps) ∧
      (keepTracked near pending ps).2 = (pending && !(survivors ps).any near)) ↔
      FirstNearTracked near pending ps := by
  rw [keepTracked_eq]
  cases pending with
  | false => simp [FirstNearTracked]
  | true =>
      constructor
      · rintro ⟨hpts, hflag⟩ _ ⟨q, found⟩ hfirst
        cases found with
        | true => rfl
        | false =>
            obtain ⟨hsame, hany⟩ := survivors_eraseP_lost hfirst
            simp only [if_true, hsame] at hpts
            simp only [hany, Bool.true_and, Bool.not_true] at hflag
            -- the rule removes a survivor, and the loop did not
            have hmem : (survivors ps).any near = true := by simpa using hflag.symm
            obtain ⟨p, hp, hnear⟩ := List.any_eq_true.mp hmem
            have hlen := congrArg List.length hpts
            rw [List.length_eraseP_of_mem hp hnear] at hlen
            have hpos := List.length_pos_of_mem hp
            omega
      · intro h
        obtain ⟨hpts, hany⟩ := survivors_eraseP h
        simp [hpts, hany]

/-- **Main.** The compaction loop lets a click remove the first surviving point near it, and takes
the click exactly then, if and only if the first position near the click is that of a surviving
point. -/
theorem trackLoop_click_iff (v : Vision F G P) (point : P) (pending : Bool) {pts : List P}
    {status : List Bool} (hlen : pts.length = status.length) :
    ∃ t, trackLoop v point pending pts status = some t ∧
      (ClickRule (v.within5 point) pending pts status t ↔
        FirstNearTracked (v.within5 point) pending (pts.zip status)) := by
  obtain ⟨t, hrun, hpts, hflag⟩ := trackLoop_eq (v := v) point pending hlen
  refine ⟨t, hrun, ?_⟩
  rw [← keepTracked_rule_iff, ← hpts, ← hflag]
  exact ⟨fun h => ⟨h.points, h.pending⟩, fun h => ⟨h.1, h.2⟩⟩

theorem trackLoop_click_iff_near :
    ∃ t, trackLoop still (10, 10) true [(40, 40), (12, 10)] [false, true] = some t ∧
      (ClickRule (still.within5 (10, 10)) true [(40, 40), (12, 10)] [false, true] t ↔
        FirstNearTracked (still.within5 (10, 10)) true
          ([(40, 40), (12, 10)].zip [false, true])) :=
  trackLoop_click_iff still (10, 10) true rfl

/-- A click where a point has just been lost is taken, although no surviving point is near. -/
theorem lost_point_takes_click :
    ∃ t, trackLoop still (10, 10) true [(10, 10), (40, 40)] [false, true] = some t ∧
      ¬ ClickRule (still.within5 (10, 10)) true [(10, 10), (40, 40)] [false, true] t := by
  refine ⟨⟨[(40, 40)], 1, false, [(40, 40)]⟩, rfl, fun h => ?_⟩
  exact absurd h.pending (by decide)

/-! ### When a click acts -/

variable (v : Vision F G P)

/-- Once a pass has initialised or tracked, and added its point, no click is pending. -/
def ClickActs (s : State G P) (i : Input F) : Prop :=
  ∀ frame s' effects, i.frame = some frame → processFrame v s frame = some (s', effects) →
    s'.addRemovePt = false

/-- A pass that finds a click and does not initialise takes it for a position near it, or ends with
room for a point. -/
def Room (s : State G P) (i : Input F) : Prop :=
  ∀ frame ∈ i.frame, s.addRemovePt = true → s.needToInit = false →
    if s.points0 ≠ [] then
      (flow v s (v.cvtColor frame)).1.any (v.within5 s.point) = true ∨
        (flow v s (v.cvtColor frame)).2.count true < MAX_COUNT
    else s.points1.length < MAX_COUNT

instance (s : State G P) (i : Input F) : Decidable (Room v s i) :=
  inferInstanceAs (Decidable (∀ _ ∈ _, _))

variable {v}

/-- The click after tracking, and how many points there are if it is still pending. -/
theorem arrived_tracked (hv : v.Documented) {s : State G P} (gray : G) (idle : List P)
    (hinit : s.needToInit = false) (hpts : s.points0 ≠ []) (hclick : s.addRemovePt = true) :
    (arrived v s gray idle).2 = !(flow v s gray).1.any (v.within5 s.point) ∧
      ((flow v s gray).1.any (v.within5 s.point) = false →
        (arrived v s gray idle).1.length = (flow v s gray).2.count true) := by
  have hlen : (flow v s gray).1.length = (flow v s gray).2.length :=
    (hv.flow_length _ _ _).trans (hv.status_length _ _ _).symm
  have hany : ((flow v s gray).1.zip (flow v s gray).2).any (fun p => v.within5 s.point p.1) =
      (flow v s gray).1.any (v.within5 s.point) := by
    conv_rhs => rw [← List.map_fst_zip hlen.le, List.any_map]
    rfl
  unfold arrived
  rw [if_neg (by simp [hinit]), if_pos hpts, keepTracked_eq, hclick]
  refine ⟨by simp [hany], fun hnone => ?_⟩
  rw [← hany] at hnone
  have hkeep : ((flow v s gray).1.zip (flow v s gray).2).eraseP (fun p => v.within5 s.point p.1) =
      (flow v s gray).1.zip (flow v s gray).2 :=
    List.eraseP_of_forall_not (by simpa using hnone)
  rw [if_pos rfl, hkeep, survivors_length, List.map_snd_zip hlen.ge]

/-- A pass that initialises, or finds no click, has none pending. -/
theorem arrived_not_pending {s : State G P} {gray : G} {idle : List P}
    (h : s.needToInit = true ∨ s.addRemovePt = false) : (arrived v s gray idle).2 = false := by
  unfold arrived
  split_ifs with hinit hpts
  · rfl
  · have hclick := h.resolve_left hinit
    rw [keepTracked_eq, hclick, Bool.false_and]
  · exact h.resolve_left hinit

/-- What is left of the click after a pass that finds one and does not initialise. -/
theorem pending_iff (hv : v.Documented) {s : State G P} {gray : G} (hclick : s.addRemovePt = true)
    (hinit : s.needToInit = false) :
    ((arrived v s gray s.points1).2 &&
        !decide ((arrived v s gray s.points1).1.length < MAX_COUNT)) = false ↔
      if s.points0 ≠ [] then
        (flow v s gray).1.any (v.within5 s.point) = true ∨
          (flow v s gray).2.count true < MAX_COUNT
      else s.points1.length < MAX_COUNT := by
  by_cases hpts : s.points0 = []
  · rw [arrived_of_idle gray s.points1 (by simp [hinit, hpts]), hclick]
    simp [hpts]
  · obtain ⟨hflag, hlen⟩ := arrived_tracked hv gray s.points1 hinit hpts hclick
    rw [if_pos hpts, hflag]
    by_cases hnear : (flow v s gray).1.any (v.within5 s.point) = true
    · simp [hnear]
    · have hnone := Bool.eq_false_iff.mpr hnear
      rw [hlen hnone, hnone]
      simp

/-- One pass: a click has acted exactly when there was room for it. -/
theorem clickActs_iff (hv : v.Documented) (s : State G P) (i : Input F) :
    ClickActs v s i ↔ Room v s i := by
  refine forall_congr' fun frame => ?_
  obtain ⟨effects, hpass, -⟩ := processFrame_spec hv s frame
  constructor
  · intro h hframe hclick hinit
    exact (pending_iff hv hclick hinit).mp (h _ effects hframe hpass)
  · intro h s' effects' hframe hpass'
    obtain rfl := congrArg Prod.fst (Option.some.inj (hpass.symm.trans hpass'))
    by_cases hidle : s.needToInit = true ∨ s.addRemovePt = false
    · show (_ && _) = false
      rw [arrived_not_pending hidle, Bool.false_and]
    · rw [not_or, Bool.not_eq_true, Bool.not_eq_false] at hidle
      exact (pending_iff hv hidle.2 hidle.1).mpr (h hframe hidle.2 hidle.1)

/-- **Main.** In a run every click acts on the next frame exactly when every pass has room for
the click it finds. -/
theorem clicks_act_iff (hv : v.Documented) (is : List (Input F)) :
    Along (step v) (ClickActs v) (init v) is ↔ Along (step v) (Room v) (init v) is :=
  along_iff (fun _ => True) (fun s i _ => clickActs_iff hv s i) (fun _ _ _ _ _ => trivial) trivial

theorem clicks_act_iff_added :
    Along (step still) (ClickActs still) (init still)
      [⟨some 0, [⟨EVENT_LBUTTONDOWN, 7, 7⟩], ' '⟩, frame 3 ' ', frame 3 ' '] :=
  (clicks_act_iff still_documented _).mpr (by decide)

/-! ### A full vector -/

/-- Five hundred positions, far apart from each other. -/
@[irreducible] def grid : List (ℤ × ℤ) :=
  (List.range MAX_COUNT).map fun k => (12 * ((k % 25 : ℕ) : ℤ), 12 * ((k / 25 : ℕ) : ℤ))

/-- Every image has the corners of the grid, and no point is ever lost. -/
def crowded : Vision ℕ ℕ (ℤ × ℤ) where
  cvtColor := id
  goodFeaturesToTrack _ n := grid.take n
  cornerSubPix _ pts _ := pts
  calcOpticalFlowPyrLK _ _ pts := (pts, pts.map fun _ => true)
  point2f x y := (x, y)
  within5 p q := decide ((p.1 - q.1) ^ 2 + (p.2 - q.2) ^ 2 ≤ 25)

theorem crowded_documented : crowded.Documented where
  goodFeatures_le _ n := List.length_take_le n _
  cornerSubPix_length _ _ _ := rfl
  flow_length _ _ _ := rfl
  status_length _ _ _ := List.length_map _

theorem grid_length : grid.length = MAX_COUNT := by
  unfold grid
  rw [List.length_map, List.length_range]

/-- The grid is within 300 pixels of the left border. -/
theorem grid_far {q : ℤ × ℤ} (hq : q ∈ grid) : crowded.within5 (1000, 0) q = false := by
  unfold grid at hq
  obtain ⟨k, -, rfl⟩ := List.mem_map.mp hq
  have hk : k % 25 < 25 := Nat.mod_lt k (by norm_num)
  show decide ((1000 - 12 * ((k % 25 : ℕ) : ℤ)) ^ 2 + (0 - 12 * ((k / 25 : ℕ) : ℤ)) ^ 2 ≤ 25) = false
  have hx : 700 ≤ 1000 - 12 * ((k % 25 : ℕ) : ℤ) := by omega
  rw [decide_eq_false_iff_not]
  nlinarith [sq_nonneg (0 - 12 * ((k / 25 : ℕ) : ℤ))]

/-- A click away from five hundred tracked points is still pending after the next frame. -/
theorem click_waits :
    ¬ Along (step crowded) (ClickActs crowded) (init crowded)
      [frame 0 'r', ⟨some 1, [⟨EVENT_LBUTTONDOWN, 1000, 0⟩], ' '⟩, frame 2 ' '] := by
  intro h
  have hlaw : Along (step crowded) (ClickActs crowded) (init crowded)
      ([frame 0 'r', ⟨some 1, [⟨EVENT_LBUTTONDOWN, 1000, 0⟩], ' '⟩] ++ [frame 2 ' ']) := h
  have hrun : run (step crowded) (init crowded)
      [frame 0 'r', ⟨some 1, [⟨EVENT_LBUTTONDOWN, 1000, 0⟩], ' '⟩] =
      some ⟨(1000, 0), true, false, false, false, some 0, some 1, grid.take MAX_COUNT, []⟩ := rfl
  rw [← grid_length, List.take_length] at hrun
  have hroom := (clickActs_iff crowded_documented _ _).mp (hlaw.at hrun) 2 rfl rfl rfl
  have hpts : grid ≠ [] := List.ne_nil_of_length_pos (by rw [grid_length]; decide)
  rw [if_pos hpts] at hroom
  rcases hroom with hnear | hcount
  · obtain ⟨q, hq, hnear⟩ := List.any_eq_true.mp hnear
    rw [grid_far hq] at hnear
    cases hnear
  · have hall : (flow crowded ⟨(1000, 0), true, false, false, false, some 0, some 1, grid, []⟩
        (crowded.cvtColor 2)).2 = grid.map fun _ => true := rfl
    rw [hall, List.map_const', List.count_replicate_self, grid_length] at hcount
    exact absurd hcount (lt_irrefl _)

end PlayWithOpencv.LkDemo
