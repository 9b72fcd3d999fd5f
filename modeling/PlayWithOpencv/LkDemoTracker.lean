import PlayWithOpencv.LkDemoClicks
import PlayWithOpencv.LkDemoKeys

/-! # What every pass of `lkdemo` does

What a pass does is fixed by the inputs before it.  `doing` says what that is, without the variables
of the loop: the last key, the last frame, how often `n` was pressed, and what the inputs leave to
be tracked (`tracker`).

The points a pass tracks are what the last pass has arrived at: corners after `r`; else the points
that it kept of those it tracked; and if it had none to track, the points that the pass before it
had, since the two vectors are swapped whether or not they are written.  A click adds a point or
removes one.

* `tracker_run`: after every run the variables of the loop hold what `tracker` says.
* `loop_does`: there is a pass for every frame up to the first empty one or ESC, and it does what
  `doing` says. -/

namespace PlayWithOpencv.LkDemo

open PartialRun

variable {F G P : Type} (v : Vision F G P)

/-! ### What the inputs leave -/

/-- What the inputs leave for the next pass. -/
structure Tracker (P : Type) where
  /-- The points to be tracked. -/
  points : List P
  /-- The points that the last pass had to track. -/
  before : List P
  /-- A click that has not acted. -/
  click : Option P

/-- What is kept of positions with their statuses: a click takes the first position near it, and
then the lost ones go. -/
def keep (click : Option P) (ps : List (P × Bool)) : List P :=
  match click with
  | none => survivors ps
  | some c => survivors (ps.eraseP fun p => v.within5 c p.1)

/-- The click, unless one of the positions was near it. -/
def unused (click : Option P) (ps : List (P × Bool)) : Option P :=
  click.filter fun c => !ps.any fun p => v.within5 c p.1

/-- Where points of the last image are in this one, and which of them are found. -/
def found (js : List (Input F)) (frame : F) (pts : List P) : List (P × Bool) :=
  match lastGray v js with
  | none => []
  | some g =>
      let (positions, status) := v.calcOpticalFlowPyrLK g (v.cvtColor frame) pts
      positions.zip status

namespace Tracker

/-- The points a pass arrives at, and the click that is left. -/
def arrives (t : Tracker P) (js : List (Input F)) (frame : F) : List P × Option P :=
  if lastKey js = some 'r' then
    (v.cornerSubPix (v.cvtColor frame) (v.goodFeaturesToTrack (v.cvtColor frame) MAX_COUNT)
      subPixWinSize, none)
  else if t.points ≠ [] then
    (keep v t.click (found v js frame t.points), unused v t.click (found v js frame t.points))
  -- the vector still holds what the last pass had to track
  else (t.before, t.click)

end Tracker

/-- The click adds a point while there is room. -/
def addClick (frame : F) (r : List P × Option P) : List P × Option P :=
  match r.2 with
  | none => r
  | some c =>
      if r.1.length < MAX_COUNT then (r.1 ++ v.cornerSubPix (v.cvtColor frame) [c] winSize, none)
      else r

/-- What a pass leaves; a new click replaces an old one. -/
def Tracker.next (t : Tracker P) (js : List (Input F)) (i : Input F) (frame : F) : Tracker P :=
  let (points, click) := addClick v frame (t.arrives v js frame)
  if i.key = 'c' then ⟨[], [], (lastClick v i.events).or click⟩
  else ⟨points, t.points, (lastClick v i.events).or click⟩

/-- What the inputs leave, the latest being first. -/
def trackerOf : List (Input F) → Tracker P
  | [] => ⟨[], [], none⟩
  | i :: past =>
      match i.frame with
      | none => trackerOf past
      | some frame => (trackerOf past).next v past.reverse i frame

def tracker (js : List (Input F)) : Tracker P := trackerOf v js.reverse

/-! ### What a pass does -/

/-- The saved images: those of the last frame and of this one, after `s`. -/
def saved (js : List (Input F)) (frame : F) : List (Effect F G P) :=
  if lastKey js = some 's' then
    [.imwrite "pre_gray.jpg" (lastGray v js), .imwrite "gray.jpg" (some (v.cvtColor frame))]
  else []

/-- The frame, or black in night mode. -/
def shown (js : List (Input F)) (frame : F) : Option F :=
  if Odd (switched js) then none else some frame

/-- A pass tracks unless it initialises or there is nothing to track. -/
def Tracks (js : List (Input F)) : Prop := lastKey js ≠ some 'r' ∧ (tracker v js).points ≠ []

instance (js : List (Input F)) : Decidable (Tracks v js) := inferInstanceAs (Decidable (_ ∧ _))

/-- What a pass tracks, from the image of the last frame. -/
def tracked (js : List (Input F)) (frame : F) : List (Effect F G P) :=
  if Tracks v js then
    (lastGray v js).toList.map fun g => .opticalFlow g (v.cvtColor frame) (tracker v js).points
  else []

/-- The circles a pass draws: the points that it keeps of those it tracks. -/
def circles (js : List (Input F)) (frame : F) : List P :=
  if Tracks v js then keep v (tracker v js).click (found v js frame (tracker v js).points) else []

/-- What a pass does after the inputs `js`: it tracks, saves and shows. -/
def doing (js : List (Input F)) (frame : F) : List (Effect F G P) :=
  tracked v js frame ++ saved v js frame ++ [.imshow (shown js frame) (circles v js frame)]

/-! ### The variables of the loop -/

/-- The variables of the loop hold what the inputs leave. -/
structure Agrees (js : List (Input F)) (s : State G P) : Prop extends Keys v js s where
  points : s.points0 = (tracker v js).points
  before : s.points1 = (tracker v js).before
  click : (if s.addRemovePt then some s.point else none) = (tracker v js).click

variable {v} {js : List (Input F)} {s : State G P}

theorem tracker_concat {i : Input F} {frame : F} (hframe : i.frame = some frame) :
    tracker v (js ++ [i]) = (tracker v js).next v js i frame := by
  unfold tracker
  rw [List.reverse_concat, trackerOf, hframe]
  simp only [List.reverse_reverse]

/-- The compaction loop, with the click as one value. -/
theorem keepTracked_keep (point : P) (pending : Bool) (ps : List (P × Bool)) :
    keep v (if pending then some point else none) ps =
        (keepTracked (v.within5 point) pending ps).1 ∧
      unused v (if pending then some point else none) ps =
        if (keepTracked (v.within5 point) pending ps).2 then some point else none := by
  rw [keepTracked_eq]
  cases pending with
  | false => exact ⟨rfl, rfl⟩
  | true =>
      refine ⟨rfl, ?_⟩
      cases hany : ps.any fun p => v.within5 point p.1 <;>
        simp only [unused, if_true, Option.filter_some, hany] <;> rfl

/-- There is a last image where there are points to track. -/
theorem Agrees.lastGray (hs : Agrees v js s) (hpts : (tracker v js).points ≠ []) :
    ∃ g, s.prevGray = some g ∧ lastGray v js = some g := by
  have hjs : js ≠ [] := by
    rintro rfl
    exact hpts rfl
  obtain ⟨g, hg⟩ := Option.ne_none_iff_exists'.mp (hs.started hjs)
  exact ⟨g, hg, hs.prevGray.symm.trans hg⟩

theorem Agrees.found (hs : Agrees v js s) (hpts : (tracker v js).points ≠ []) (frame : F) :
    found v js frame (tracker v js).points =
      (flow v s (v.cvtColor frame)).1.zip (flow v s (v.cvtColor frame)).2 := by
  obtain ⟨g, hprev, hlast⟩ := hs.lastGray hpts
  unfold LkDemo.found flow
  rw [hlast, hprev, hs.points]
  rfl

/-- **Arriving**: the pass keeps, of the points it tracks, what the inputs say. -/
theorem Agrees.arrives (hs : Agrees v js s) (frame : F) :
    (tracker v js).arrives v js frame = ((arrived v s (v.cvtColor frame) s.points1).1,
      if (arrived v s (v.cvtColor frame) s.points1).2 then some s.point else none) := by
  unfold Tracker.arrives arrived
  by_cases hr : lastKey js = some 'r'
  · have hinit : s.needToInit = true := by
      rw [hs.needToInit]
      exact decide_eq_true hr
    rw [if_pos hr, if_pos hinit]
    rfl
  · have hinit : ¬ s.needToInit = true := by
      rw [hs.needToInit]
      simpa using hr
    rw [if_neg hr, if_neg hinit, hs.points]
    by_cases hpts : (tracker v js).points = []
    · rw [if_neg (by simpa using hpts), if_neg (by simpa using hpts), hs.before, hs.click]
    · obtain ⟨hkeep, hunused⟩ := keepTracked_keep (v := v) s.point s.addRemovePt
        ((flow v s (v.cvtColor frame)).1.zip (flow v s (v.cvtColor frame)).2)
      rw [if_pos hpts, if_pos hpts, hs.found hpts, ← hs.click, hkeep, hunused]

theorem addClick_eq (frame : F) (point : P) (r : List P × Bool) :
    addClick v frame (r.1, if r.2 then some point else none) =
      (withClick v (v.cvtColor frame) point r,
        if r.2 && !decide (r.1.length < MAX_COUNT) then some point else none) := by
  obtain ⟨pts, pending⟩ := r
  unfold addClick withClick
  cases pending with
  | false => simp
  | true => by_cases hroom : pts.length < MAX_COUNT <;> simp [hroom]

/-- **One pass** leaves what the inputs with it say. -/
theorem step_agrees (hv : v.Documented) {s' : State G P} {i : Input F} (hs : Agrees v js s)
    (h : step v s i = some s') : Agrees v (js ++ [i]) s' := by
  obtain ⟨frame, hframe, -, -, hpts0, hpts1, hpoint, hflag⟩ := step_spec hv h
  have hnext : addClick v frame ((tracker v js).arrives v js frame) =
      (withClick v (v.cvtColor frame) s.point (arrived v s (v.cvtColor frame) s.points1),
        if (arrived v s (v.cvtColor frame) s.points1).2 &&
          !decide ((arrived v s (v.cvtColor frame) s.points1).1.length < MAX_COUNT)
        then some s.point else none) := by
    rw [hs.arrives, addClick_eq]
  -- the last click of the pass, or the one that is left
  have hclick : (if s'.addRemovePt then some s'.point else none) =
      (lastClick v i.events).or (addClick v frame ((tracker v js).arrives v js frame)).2 := by
    rw [hnext, hpoint, hflag]
    cases lastClick v i.events with
    | none => simp
    | some p => simp
  have htracker : tracker v (js ++ [i]) = (tracker v js).next v js i frame := tracker_concat hframe
  unfold Tracker.next at htracker
  by_cases hc : i.key = 'c'
  · rw [if_pos hc] at hpts0 hpts1
    simp only [if_pos hc] at htracker
    exact { step_keys hv hs.toKeys h with
      points := by rw [hpts0, htracker]
      before := by rw [hpts1, htracker]
      click := by rw [hclick, htracker] }
  · rw [if_neg hc] at hpts0 hpts1
    simp only [if_neg hc] at htracker
    exact { step_keys hv hs.toKeys h with
      points := by rw [hpts0, htracker, hnext]
      before := by rw [hpts1, htracker, hs.points]
      click := by rw [hclick, htracker] }

/-- **The run**: the variables of the loop hold what the inputs leave. -/
theorem tracker_run (hv : v.Documented) (h : run (step v) (init v) js = some s) :
    Agrees v js s := by
  apply run_history (Agrees v) _ _ h
  · exact { keys_init with points := rfl, before := rfl, click := rfl }
  · intro js i s s' hs hstep
    exact step_agrees hv hs hstep

/-! ### What a pass does to the outside -/

/-- The compaction loop draws a circle at each point it keeps. -/
theorem trackLoop_circles {point : P} {pending : Bool} {pts : List P} {status : List Bool}
    {t : Track P} (h : trackLoop v point pending pts status = some t) : t.circles = t.pts := by
  obtain ⟨t₁, hrun, h⟩ := Option.bind_eq_some_iff.mp h
  obtain rfl := Option.some.inj h
  have hinv : t₁.k ≤ t₁.pts.length ∧ t₁.circles = t₁.pts.take t₁.k := by
    refine run_invariant (fun t : Track P => t.k ≤ t.pts.length ∧ t.circles = t.pts.take t.k)
      (fun t i t' hstep ht => ?_) hrun ⟨Nat.zero_le _, rfl⟩
    obtain ⟨q, -, hstep⟩ := Option.bind_eq_some_iff.mp hstep
    by_cases hclick : t.addRemovePt = true ∧ v.within5 point q = true
    · obtain rfl : { t with addRemovePt := false } = t' := by simpa [hclick] using hstep
      exact ht
    · rw [if_neg hclick] at hstep
      obtain ⟨found, -, hstep⟩ := Option.bind_eq_some_iff.mp hstep
      split_ifs at hstep with hlost hlt
      · obtain rfl := Option.some.inj hstep
        exact ht
      · obtain rfl := Option.some.inj hstep
        refine ⟨by simpa using hlt, ?_⟩
        rw [ht.2, List.take_add_one, List.take_set_of_le le_rfl, List.getElem?_set_self hlt]
        rfl
  exact hinv.2

/-- What initialising or tracking does to the outside. -/
theorem initOrTrack_effects {s₁ : State G P} {gray : G} {cs : List P}
    {effects : List (Effect F G P)} (h : initOrTrack v s gray = some (s₁, cs, effects)) :
    (¬ (s.needToInit = false ∧ s.points0 ≠ []) ∧ effects = [] ∧ cs = []) ∨
      ((s.needToInit = false ∧ s.points0 ≠ []) ∧
        effects = [.opticalFlow (s.prevGray.getD gray) gray s.points0] ∧ cs = s₁.points1) := by
  unfold initOrTrack at h
  split_ifs at h with hinit hpts
  · obtain ⟨-, rfl, rfl⟩ := by simpa using h
    exact .inl ⟨by simp [hinit], rfl, rfl⟩
  · obtain ⟨t, ht, h⟩ := Option.bind_eq_some_iff.mp h
    obtain ⟨rfl, rfl, rfl⟩ := by simpa using h
    exact .inr ⟨⟨by simpa using hinit, hpts⟩, rfl, trackLoop_circles ht⟩
  · obtain ⟨-, rfl, rfl⟩ := by simpa using h
    exact .inl ⟨fun hboth => hpts hboth.2, rfl, rfl⟩

theorem Agrees.tracks_iff (hs : Agrees v js s) :
    Tracks v js ↔ s.needToInit = false ∧ s.points0 ≠ [] := by
  unfold Tracks
  rw [hs.needToInit, hs.points, decide_eq_false_iff_not]

/-- **Tracking**: the pass tracks, and draws, what the inputs say. -/
theorem initOrTrack_does (hv : v.Documented) {s₁ : State G P} {frame : F} {cs : List P}
    {effects : List (Effect F G P)} (hs : Agrees v js s)
    (h : initOrTrack v { s with gray := some (v.cvtColor frame) } (v.cvtColor frame) =
      some (s₁, cs, effects)) : effects = tracked v js frame ∧ cs = circles v js frame := by
  unfold tracked circles
  rcases initOrTrack_effects h with ⟨hidle, rfl, rfl⟩ | ⟨htrack, rfl, rfl⟩
  · have hidle : ¬ Tracks v js := fun ht => hidle (hs.tracks_iff.mp ht)
    rw [if_neg hidle, if_neg hidle]
    exact ⟨rfl, rfl⟩
  · have htracks : Tracks v js := hs.tracks_iff.mpr htrack
    obtain ⟨g, hprev, hlast⟩ := hs.lastGray htracks.2
    rw [if_pos htracks, if_pos htracks]
    constructor
    · show [Effect.opticalFlow (s.prevGray.getD _) _ s.points0] = _
      rw [hprev, hlast, hs.points]
      rfl
    · obtain ⟨circles', effects', hspec, -⟩ :=
        initOrTrack_spec hv { s with gray := some (v.cvtColor frame) } (v.cvtColor frame)
      obtain rfl := congrArg Prod.fst (Option.some.inj (hspec.symm.trans h))
      show (arrived v s (v.cvtColor frame) s.points1).1 = _
      have harrives := congrArg Prod.fst (hs.arrives frame)
      rw [← harrives, Tracker.arrives, if_neg htracks.1, if_pos htracks.2]

/-- What a pass saves. -/
theorem saveImages_saved {frame : F} {gray : Option G} (hs : Keys v js s) {s₁ : State G P}
    (hsave : s₁.needSaveImg = s.needSaveImg) (hprev : s.prevGray ≠ none → s₁.prevGray = s.prevGray)
    (hgray : s₁.gray = gray) (hcur : gray = some (v.cvtColor frame)) :
    (saveImages (F := F) s₁).2 = saved v js frame := by
  unfold saveImages saved
  rw [hsave, hs.needSaveImg]
  by_cases hkey : lastKey js = some 's'
  · have hjs : js ≠ [] := by
      rintro rfl
      cases hkey
    simp [hkey, hprev (hs.started hjs), hs.prevGray, hgray, hcur]
  · simp [hkey]

theorem processFrame_does (hv : v.Documented) {s' : State G P} {frame : F}
    {effects : List (Effect F G P)} (hs : Agrees v js s)
    (h : processFrame v s frame = some (s', effects)) : effects = doing v js frame := by
  obtain ⟨⟨s₁, cs, flow⟩, htrack, h⟩ := Option.bind_eq_some_iff.mp h
  obtain ⟨s₂, hadd, h⟩ := Option.bind_eq_some_iff.mp h
  obtain ⟨-, rfl⟩ := Prod.mk.inj (Option.some.inj h)
  obtain ⟨hgray₁, hsave₁, hprev₁, -⟩ := initOrTrack_images htrack
  obtain ⟨hgray₂, hprev₂, hsave₂⟩ := addPoint_images hadd
  obtain ⟨rfl, rfl⟩ := initOrTrack_does hv hs htrack
  have hshown : (if s.nightMode then none else some frame) = shown js frame := by
    unfold shown
    rw [hs.nightMode]
    simp
  have hsaved : (saveImages (F := F) s₂).2 = saved v js frame :=
    saveImages_saved hs.toKeys (hsave₂.trans hsave₁) (fun hp => hprev₂.trans (hprev₁ hp))
      (hgray₂.trans hgray₁) rfl
  show tracked v js frame ++ (saveImages (F := F) s₂).2 ++
    [.imshow (if s.nightMode then none else some frame) (circles v js frame)] = _
  rw [hshown, hsaved]
  rfl

/-! ### The whole loop -/

/-- **The loop**, whatever the library does: there is a pass for every frame, up to the first empty
one or ESC, and each of them does what the inputs before it say. -/
theorem loop_does (hv : v.Documented) (is : List (Input F)) :
    (∀ t, t < (loop v (init v) is).length ↔ (∃ i ∈ is[t]?, i.frame ≠ none) ∧
      ∀ t' < t, ∃ i ∈ is[t']?, i.frame ≠ none ∧ i.key ≠ ESC) ∧
    ∀ t effects, (loop v (init v) is)[t]? = some effects → ∃ i ∈ is[t]?, ∃ frame,
      i.frame = some frame ∧ effects = doing v (is.take t) frame := by
  refine ⟨fun t => lt_length_loop hv, fun t effects h => ?_⟩
  obtain ⟨s, i, r, hrun, hi, hpass⟩ := loop_getElem? h
  obtain ⟨frame, hframe, hpass⟩ := Option.bind_eq_some_iff.mp hpass
  obtain ⟨⟨s₁, effects₁⟩, hframe₁, hpass⟩ := Option.bind_eq_some_iff.mp hpass
  obtain ⟨rfl, -⟩ := Prod.mk.inj (Option.some.inj hpass)
  exact ⟨i, hi, frame, hframe, processFrame_does hv (tracker_run hv hrun) hframe₁⟩

/-- Image 2 loses the corner of image 1; the fourth pass has nothing to track, and the fifth tracks
that corner again, from image 3. -/
def lostInputs : List (Input ℕ) :=
  [frame 0 'r', frame 1 ' ', frame 2 ' ', frame 3 's', frame 4 ESC, frame 5 ' ']

theorem loop_does_lost :
    (loop still (init still) lostInputs)[4]? = some (doing still (lostInputs.take 4) 4) ∧
      doing still (lostInputs.take 4) 4 = [.opticalFlow 3 4 [(10, 10)],
        .imwrite "pre_gray.jpg" (some 3), .imwrite "gray.jpg" (some 4),
        .imshow (some 4) [(10, 10)]] ∧
      ¬ 5 < (loop still (init still) lostInputs).length := by
  obtain ⟨hlen, hdoes⟩ := loop_does still_documented lostInputs
  obtain ⟨i, hi, n, hn, h⟩ := hdoes 4 _ rfl
  cases hi
  cases hn
  refine ⟨congrArg some h, rfl, fun hlt => ?_⟩
  obtain ⟨i, hi, -, hesc⟩ := ((hlen 5).mp hlt).2 4 (by decide)
  cases hi
  exact hesc rfl

end PlayWithOpencv.LkDemo
