import PlayWithOpencv.LkDemo

/-! # What `lkdemo` hands from frame to frame

The loop keeps two point vectors and swaps them at the end of every pass, also of a pass that
wrote neither.  What a pass settled on (`settled`) is then not what the next one starts from:
a pass that neither initialises nor tracks hands on whatever `points[1]` still held.

* `HandsOn` is the law of one pass, `Lineage` the points with an unbroken history of detection or
  click and surviving tracking steps, `Located` the positions that belong to an image, and
  `Handover` the three together, over a run from the start of the program.
* `NoStale` is the condition of one pass: it is left or cleared, or it initialises or tracks, or
  there is nothing in `points[1]`.
* `handover_iff`: a run is a `Handover` exactly when every pass of it meets `NoStale`, and
  `lost_point_returns` a run of four frames where one does not. -/

namespace PlayWithOpencv.LkDemo

open PartialRun

variable {F G P : Type} (v : Vision F G P)

/-! ### The law of a pass -/

/-- The points a pass settles on: the corners if it initialises, the tracked points it keeps if
it tracks, nothing otherwise, and the point a click adds. -/
def settled (s : State G P) (gray : G) : List P := withClick v gray s.point (arrived v s gray [])

/-- The next pass starts from the points this one settled on, or from none after `'c'`. -/
def HandsOn (s : State G P) (i : Input F) : Prop :=
  ∀ frame s', i.frame = some frame → step v s i = some s' →
    s'.points0 = if i.key = 'c' then [] else settled v s (v.cvtColor frame)

/-- No pass that goes on finds points in `points[1]` that it does not overwrite. -/
def NoStale (s : State G P) (i : Input F) : Prop :=
  i.frame = none ∨ i.key = Char.ofNat 27 ∨ i.key = 'c' ∨
    s.needToInit = true ∨ s.points0 ≠ [] ∨ s.points1 = []

instance (s : State G P) (i : Input F) : Decidable (NoStale s i) :=
  inferInstanceAs (Decidable (_ ∨ _))

/-! ### The law of a run -/

/-- The mouse was clicked at a position during the inputs. -/
def Clicked (js : List (Input F)) (p : P) : Prop :=
  ∃ i ∈ js, ∃ e ∈ i.events, e.event = EVENT_LBUTTONDOWN ∧ p = v.point2f e.x e.y

/-- A point in an image, after the inputs `js`: a corner found there, the refined position of one of
their clicks, or where a point of an earlier image was found. -/
inductive Located (js : List (Input F)) : G → P → Prop
  | corner {g : G} {q : P}
      (h : q ∈ v.cornerSubPix g (v.goodFeaturesToTrack g MAX_COUNT) subPixWinSize) :
      Located js g q
  | click {g : G} {q p : P} (hp : Clicked v js p) (h : q ∈ v.cornerSubPix g [p] winSize) :
      Located js g q
  | flow {g g' : G} {q : P} {pts : List P} (hpts : ∀ p ∈ pts, Located js g p)
      (h : q ∈ (v.calcOpticalFlowPyrLK g g' pts).1) : Located js g' q

/-- The points a pass keeps hold of, as pairs: where it was, and where it is found. -/
def kept (s : State G P) (gray : G) : List (P × P) :=
  (keepTracked (fun m : P × P => v.within5 s.point m.2) s.addRemovePt
    ((s.points0.zip (flow v s gray).1).zip (flow v s gray).2)).1

/-- The points a run has kept hold of: one is detected, or added by a click, and then kept in
every frame up to the present one. -/
inductive Lineage : List (Input F) → P → Prop
  | corner {is : List (Input F)} {s : State G P} {i : Input F} {frame : F} {q : P}
      (hrun : run (step v) (init v) is = some s) (hframe : i.frame = some frame)
      (hinit : s.needToInit = true)
      (h : q ∈ v.cornerSubPix (v.cvtColor frame)
        (v.goodFeaturesToTrack (v.cvtColor frame) MAX_COUNT) subPixWinSize) :
      Lineage (is ++ [i]) q
  | click {is : List (Input F)} {s : State G P} {i : Input F} {frame : F} {q : P}
      (hrun : run (step v) (init v) is = some s) (hframe : i.frame = some frame)
      (hclick : s.addRemovePt = true)
      (h : q ∈ v.cornerSubPix (v.cvtColor frame) [s.point] winSize) : Lineage (is ++ [i]) q
  | kept {is : List (Input F)} {s : State G P} {i : Input F} {frame : F} {p q : P}
      (hrun : run (step v) (init v) is = some s) (hframe : i.frame = some frame)
      (hinit : s.needToInit = false) (hp : Lineage is p)
      (h : (p, q) ∈ kept v s (v.cvtColor frame)) : Lineage (is ++ [i]) q

/-- What a run should guarantee: every pass hands on what it settled on, every point it hands on
has an unbroken history, and tracking is always given points of the image it is given. -/
structure Handover (is : List (Input F)) : Prop where
  handsOn : Along (step v) (HandsOn v) (init v) is
  lineage : ∀ js s, js <+: is → run (step v) (init v) js = some s → ∀ p ∈ s.points0, Lineage v js p
  located : ∀ js s frame s' effects, js <+: is → run (step v) (init v) js = some s →
    processFrame v s frame = some (s', effects) →
      ∀ g g' pts, .opticalFlow g g' pts ∈ effects → ∀ p ∈ pts, Located v js g p

variable {v}

/-! ### One pass -/

theorem withClick_length (hv : v.Documented) (gray : G) (point : P) (r : List P × Bool) :
    (withClick v gray point r).length =
      r.1.length + if r.2 ∧ r.1.length < MAX_COUNT then 1 else 0 := by
  unfold withClick
  split <;> simp [hv.cornerSubPix_length]

/-- The stale points show in the outcome: they make it longer than one click can. -/
theorem withClick_nil_iff (hv : v.Documented) (gray : G) (point : P) (pts : List P)
    (pending : Bool) :
    withClick v gray point (pts, pending) = withClick v gray point ([], pending) ↔ pts = [] := by
  constructor
  · intro h
    have hlen := congrArg List.length h
    rw [withClick_length hv, withClick_length hv] at hlen
    apply List.eq_nil_of_length_eq_zero
    show pts.length = 0
    cases pending with
    | false => simpa using hlen
    | true =>
        have hlen' : pts.length + (if pts.length < 500 then 1 else 0) = 1 := by
          simpa [MAX_COUNT] using hlen
        split at hlen' <;> omega
  · rintro rfl
    rfl

/-- A pass that initialises or tracks overwrites what it finds. -/
theorem arrived_idle {s : State G P} (gray : G) (pts pts' : List P)
    (h : s.needToInit = true ∨ s.points0 ≠ []) :
    arrived v s gray pts = arrived v s gray pts' := by
  unfold arrived
  split_ifs with hinit hpts
  · rfl
  · rfl
  · exact absurd h (by simp [hinit, hpts])

theorem arrived_of_idle {s : State G P} (gray : G) (pts : List P)
    (h : ¬ (s.needToInit = true ∨ s.points0 ≠ [])) :
    arrived v s gray pts = (pts, s.addRemovePt) := by
  unfold arrived
  rw [if_neg (fun hinit => h (.inl hinit)), if_neg (fun hpts => h (.inr hpts))]

/-- The law of a pass that goes on, as an equation about the state it starts from. -/
theorem handsOn_iff_of_step (hv : v.Documented) {s s' : State G P} {i : Input F} {frame : F}
    (hframe : i.frame = some frame) (hc : i.key ≠ 'c') (hs' : step v s i = some s') :
    HandsOn v s i ↔ withClick v (v.cvtColor frame) s.point
      (arrived v s (v.cvtColor frame) s.points1) = settled v s (v.cvtColor frame) := by
  obtain ⟨f, hf, _, _, hpts, -⟩ := step_spec hv hs'
  obtain rfl : frame = f := Option.some.inj (hframe.symm.trans hf)
  rw [if_neg hc] at hpts
  constructor
  · intro h
    rw [← hpts, h frame s' hframe hs', if_neg hc]
  · intro h f' s'' hf' hs''
    obtain rfl : frame = f' := Option.some.inj (hframe.symm.trans hf')
    obtain rfl : s' = s'' := Option.some.inj (hs'.symm.trans hs'')
    rw [hpts, if_neg hc, h]

/-- A pass hands on what it settled on exactly when it finds nothing stale. -/
theorem handsOn_iff (hv : v.Documented) (s : State G P) (i : Input F) :
    HandsOn v s i ↔ NoStale s i := by
  cases hframe : i.frame with
  | none => simp [HandsOn, NoStale, hframe]
  | some frame =>
      by_cases hesc : i.key = Char.ofNat 27
      · refine iff_of_true (fun f s' _ h => ?_) (.inr (.inl hesc))
        obtain ⟨_, _, hkey, -⟩ := step_spec hv h
        exact absurd hesc hkey
      · by_cases hc : i.key = 'c'
        · refine iff_of_true (fun f s' _ h => ?_) (.inr (.inr (.inl hc)))
          obtain ⟨_, _, _, _, hpts, -⟩ := step_spec hv h
          rw [hpts, if_pos hc, if_pos hc]
        · obtain ⟨s', hs'⟩ := Option.isSome_iff_exists.mp (step_isSome hv s hframe hesc)
          rw [handsOn_iff_of_step hv hframe hc hs']
          unfold settled
          by_cases hwrites : s.needToInit = true ∨ s.points0 ≠ []
          · refine iff_of_true ?_ (.inr (.inr (.inr (hwrites.imp id .inl))))
            rw [arrived_idle _ s.points1 [] hwrites]
          · rw [arrived_of_idle _ _ hwrites, arrived_of_idle _ _ hwrites, withClick_nil_iff hv]
            rw [not_or] at hwrites
            simp [NoStale, hframe, hesc, hc, hwrites]

/-! ### Where the points a pass settles on come from -/

theorem mem_withClick {gray : G} {point q : P} {r : List P × Bool}
    (h : q ∈ withClick v gray point r) :
    q ∈ r.1 ∨ r.2 = true ∧ q ∈ v.cornerSubPix gray [point] winSize := by
  unfold withClick at h
  rcases List.mem_append.mp h with h | h
  · exact .inl h
  · split_ifs at h with hclick
    · exact .inr ⟨hclick.1, h⟩
    · simp at h

theorem mem_keepTracked {α : Type} {near : α → Bool} {q : α} :
    ∀ {l : List (α × Bool)} {pending : Bool}, q ∈ (keepTracked near pending l).1 → (q, true) ∈ l
  | [], _, h => by simp [keepTracked] at h
  | (p, found) :: l, pending, h => by
      unfold keepTracked at h
      split_ifs at h with hclick hfound
      · exact List.mem_cons_of_mem _ (mem_keepTracked h)
      · exact List.mem_cons_of_mem _ (mem_keepTracked h)
      · rcases List.mem_cons.mp h with rfl | h
        · simp_all
        · exact List.mem_cons_of_mem _ (mem_keepTracked h)

/-- The loop does not start a click. -/
theorem keepTracked_pending {α : Type} {near : α → Bool} :
    ∀ {l : List (α × Bool)} {pending : Bool}, (keepTracked near pending l).2 = true →
      pending = true
  | [], _, h => h
  | (p, found) :: l, pending, h => by
      unfold keepTracked at h
      split_ifs at h with hclick hfound
      · exact hclick.1
      · exact keepTracked_pending h
      · exact keepTracked_pending h

theorem keepTracked_map {α β : Type} (f : α → β) (near : β → Bool) :
    ∀ (l : List (α × Bool)) (pending : Bool),
      (keepTracked near pending (l.map (Prod.map f id))).1 =
        (keepTracked (near ∘ f) pending l).1.map f
  | [], _ => rfl
  | (p, found) :: l, pending => by
      simp only [List.map_cons, Prod.map_apply, id_eq, keepTracked, Function.comp_apply]
      split_ifs
      · exact keepTracked_map f near l false
      · exact keepTracked_map f near l pending
      · rw [List.map_cons, keepTracked_map f near l pending]

/-- The loop keeps the new positions of `kept`. -/
theorem kept_map_snd (hv : v.Documented) (s : State G P) (gray : G) :
    (kept v s gray).map Prod.snd = (keepTracked (v.within5 s.point) s.addRemovePt
      ((flow v s gray).1.zip (flow v s gray).2)).1 := by
  have hlen : (flow v s gray).1.length = s.points0.length := hv.flow_length _ _ _
  have hzip : (flow v s gray).1.zip (flow v s gray).2 =
      ((s.points0.zip (flow v s gray).1).zip (flow v s gray).2).map (Prod.map Prod.snd id) := by
    rw [← List.zip_map_left, List.map_snd_zip hlen.le]
  rw [hzip, keepTracked_map]
  rfl

/-- **The sources of a settled point.** -/
theorem mem_settled (hv : v.Documented) {s : State G P} {gray : G} {q : P}
    (h : q ∈ settled v s gray) :
    (s.needToInit = true ∧
        q ∈ v.cornerSubPix gray (v.goodFeaturesToTrack gray MAX_COUNT) subPixWinSize) ∨
      (s.addRemovePt = true ∧ q ∈ v.cornerSubPix gray [s.point] winSize) ∨
      (s.needToInit = false ∧ ∃ p, (p, q) ∈ kept v s gray) := by
  unfold settled at h
  have hcases := mem_withClick h
  unfold arrived at hcases
  split_ifs at hcases with hinit hpts
  · rcases hcases with hq | ⟨hpending, -⟩
    · exact .inl ⟨hinit, hq⟩
    · cases hpending
  · rcases hcases with hq | ⟨hpending, hq⟩
    · rw [← kept_map_snd hv] at hq
      obtain ⟨⟨p, q'⟩, hmem, rfl⟩ := List.mem_map.mp hq
      exact .inr (.inr ⟨by simpa using hinit, p, hmem⟩)
    · exact .inr (.inl ⟨keepTracked_pending hpending, hq⟩)
  · rcases hcases with hq | ⟨hpending, hq⟩
    · simp at hq
    · exact .inr (.inl ⟨hpending, hq⟩)

theorem mem_of_kept {s : State G P} {gray : G} {p q : P} (h : (p, q) ∈ kept v s gray) :
    p ∈ s.points0 ∧ q ∈ (flow v s gray).1 :=
  List.of_mem_zip (List.of_mem_zip (mem_keepTracked h)).1

/-! ### A whole run -/

/-- Between passes, the points are positions in `prevGray`, and a pending click is one of the
inputs. -/
structure InPrevGray (v : Vision F G P) (js : List (Input F)) (s : State G P) : Prop where
  points : s.points0 ≠ [] → ∃ g, s.prevGray = some g ∧ ∀ p ∈ s.points0, Located v js g p
  click : s.addRemovePt = true → Clicked v js s.point

theorem settled_located (hv : v.Documented) {js : List (Input F)} {s : State G P} {gray : G}
    (hs : InPrevGray v js s) {q : P} (hq : q ∈ settled v s gray) : Located v js gray q := by
  rcases mem_settled hv hq with ⟨-, hq⟩ | ⟨hclick, hq⟩ | ⟨-, p, hkept⟩
  · exact .corner hq
  · exact .click (hs.click hclick) hq
  · obtain ⟨hp, hq⟩ := mem_of_kept hkept
    obtain ⟨g, hg, hpts⟩ := hs.points (List.ne_nil_of_mem hp)
    unfold flow at hq
    rw [hg, Option.getD_some] at hq
    exact .flow hpts hq

theorem Clicked.mono {js js' : List (Input F)} (hsub : js ⊆ js') {p : P} (h : Clicked v js p) :
    Clicked v js' p := by
  obtain ⟨i, hi, hclick⟩ := h
  exact ⟨i, hsub hi, hclick⟩

theorem Located.mono {js js' : List (Input F)} (hsub : js ⊆ js') {g : G} {p : P}
    (h : Located v js g p) : Located v js' g p := by
  induction h with
  | corner h => exact .corner h
  | click hp h => exact .click (hp.mono hsub) h
  | flow _ h ih => exact .flow ih h

/-- The last click of a pass is a click of its inputs. -/
theorem clicked_of_lastClick {js : List (Input F)} {i : Input F} (hi : i ∈ js) {p : P}
    (h : lastClick v i.events = some p) : Clicked v js p := by
  obtain ⟨e, he, rfl⟩ := Option.map_eq_some_iff.mp h
  obtain ⟨hmem, hevent⟩ := List.mem_filter.mp (List.mem_of_getLast? he)
  exact ⟨i, hi, e, hmem, by simpa using hevent, rfl⟩

/-- A pass does not start a click. -/
theorem arrived_pending {s : State G P} {gray : G} {idle : List P}
    (h : (arrived v s gray idle).2 = true) : s.addRemovePt = true := by
  unfold arrived at h
  split_ifs at h with hinit hpts
  · exact keepTracked_pending h
  · exact h

theorem step_inPrevGray (hv : v.Documented) {js : List (Input F)} {s s' : State G P} {i : Input F}
    (hs : InPrevGray v js s) (hon : HandsOn v s i) (h : step v s i = some s') :
    InPrevGray v (js ++ [i]) s' := by
  obtain ⟨frame, hframe, -, hprev, -, -, hpoint, hflag⟩ := step_spec hv h
  have hsub : js ⊆ js ++ [i] := List.subset_append_left js [i]
  refine ⟨fun _ => ⟨v.cvtColor frame, hprev, fun p hp => ?_⟩, fun hclick => ?_⟩
  · rw [hon frame s' hframe h] at hp
    split_ifs at hp with hc
    · simp at hp
    · exact (settled_located hv hs hp).mono hsub
  · rw [hpoint]
    cases hlast : lastClick v i.events with
    | some p => exact clicked_of_lastClick List.mem_concat_self hlast
    | none =>
        -- the click is older
        rw [hflag, hlast, Option.isSome_none, Bool.or_false] at hclick
        exact (hs.click (arrived_pending (Bool.and_eq_true_iff.mp hclick).1)).mono hsub

theorem step_lineage (hv : v.Documented) {js : List (Input F)} {s s' : State G P} {i : Input F}
    (hrun : run (step v) (init v) js = some s) (hs : ∀ p ∈ s.points0, Lineage v js p)
    (hon : HandsOn v s i) (h : step v s i = some s') :
    ∀ p ∈ s'.points0, Lineage v (js ++ [i]) p := by
  obtain ⟨frame, hframe, -⟩ := step_spec hv h
  intro q hq
  rw [hon frame s' hframe h] at hq
  split_ifs at hq with hc
  · simp at hq
  · rcases mem_settled hv hq with ⟨hinit, hq⟩ | ⟨hclick, hq⟩ | ⟨hinit, p, hkept⟩
    · exact .corner hrun hframe hinit hq
    · exact .click hrun hframe hclick hq
    · exact .kept hrun hframe hinit (hs p (mem_of_kept hkept).1) hkept

/-- **Main.** A run hands on what each frame settled on, tracks only points with an unbroken
history and only in their own image, exactly when no pass of it finds stale points. -/
theorem handover_iff (hv : v.Documented) (is : List (Input F)) :
    Handover v is ↔ Along (step v) NoStale (init v) is := by
  have hlaw : Along (step v) (HandsOn v) (init v) is ↔ Along (step v) NoStale (init v) is :=
    along_iff (fun _ => True) (fun s i _ => handsOn_iff hv s i) (fun _ _ _ _ _ => trivial) trivial
  constructor
  · intro h
    exact hlaw.mp h.handsOn
  · intro h
    have hon := hlaw.mpr h
    refine ⟨hon, fun js s hpre hrun => ?_,
      fun js s frame s' effects hpre hrun hpass g g' pts hmem => ?_⟩
    · exact Along.history (fun js s => ∀ p ∈ s.points0, Lineage v js p) (by simp [init])
        (fun js i s s' hjs hs hi => step_lineage hv hjs hs hi) hon hpre hrun
    · -- the images and points of the call, and the invariant at the state before it
      have hs : InPrevGray v js s := Along.history (InPrevGray v)
        ⟨fun hne => absurd rfl hne, fun hclick => by cases hclick⟩
        (fun js i s s' _ hs hi => step_inPrevGray hv hs hi) hon hpre hrun
      obtain ⟨effects', hpass', hflow⟩ := processFrame_spec hv s frame
      obtain rfl := congrArg Prod.snd (Option.some.inj (hpass'.symm.trans hpass))
      obtain ⟨hne, rfl, -, rfl⟩ := hflow g g' pts hmem
      obtain ⟨g₀, hg₀, hpts⟩ := hs.points hne
      rw [hg₀, Option.getD_some]
      exact hpts

/-! ### A library for runs on fixed frames -/

/-- Frames and images are numbers: the corners of image 1 are one point, and every point is lost
in image 2 and stays where it is in the others. -/
def still : Vision ℕ ℕ (ℤ × ℤ) where
  cvtColor := id
  goodFeaturesToTrack g n := (if g = 1 then [(10, 10)] else []).take n
  cornerSubPix _ pts _ := pts
  calcOpticalFlowPyrLK _ g' pts := (pts, pts.map fun _ => decide (g' ≠ 2))
  point2f x y := (x, y)
  within5 p q := decide ((p.1 - q.1) ^ 2 + (p.2 - q.2) ^ 2 ≤ 25)

theorem still_documented : still.Documented where
  goodFeatures_le _ n := List.length_take_le n _
  cornerSubPix_length _ _ _ := rfl
  flow_length _ _ _ := rfl
  status_length _ _ _ := List.length_map _

/-- A frame without mouse events. -/
def frame (n : ℕ) (key : Char) : Input ℕ := ⟨some n, [], key⟩

theorem handover_iff_tracked : Handover still [frame 0 'r', frame 1 ' ', frame 3 ' '] := by
  exact (handover_iff still_documented _).mpr (by decide)

/-- All points are lost in image 2.  Two frames later the point of image 1 is back, neither
detected nor clicked again. -/
theorem lost_point_returns :
    (run (step still) (init still) [frame 0 'r', frame 1 ' ', frame 2 ' ', frame 3 ' ']).map
        State.points0 = some [(10, 10)] ∧
      ¬ Handover still [frame 0 'r', frame 1 ' ', frame 2 ' ', frame 3 ' '] := by
  refine ⟨by decide, fun h => ?_⟩
  have hlaw : Along (step still) (HandsOn still) (init still)
      ([frame 0 'r', frame 1 ' ', frame 2 ' '] ++ [frame 3 ' ']) := h.handsOn
  exact absurd (hlaw.at rfl 3 _ rfl rfl) (by decide)

end PlayWithOpencv.LkDemo
