import Mathlib.Tactic
import PlayWithOpencv.PartialRun

/-! # The frame loop of `lkdemo`

The embedding of `demo/lkdemo.cpp`.  The OpenCV functions are not part of the repository; they
are the fields of `Vision`, over a type `F` of frames, a type `G` of gray images and a type `P`
of points, and `Vision.Documented` is what the loop relies on.

A pass of the loop is `frameStep`: `processFrame` up to `imshow`, the mouse events that
`waitKey` delivers, `handleKey`, and the two swaps.  It gives no next state when the loop is
left (an empty frame or ESC) or when a vector would be read outside its bounds.  The compaction
of `points[1]` is the loop of the source, with its read index and its write index on one vector
(`trackBody`); `keepTracked` is what it computes (`trackLoop_eq`). -/

namespace PlayWithOpencv.LkDemo

open PartialRun

/-! ### The library -/

/-- The OpenCV functions the loop calls. -/
structure Vision (F G P : Type) where
  cvtColor : F → G
  /-- The corners of an image, at most the given number of them. -/
  goodFeaturesToTrack : G → ℕ → List P
  /-- Refine positions in an image, within a search window. -/
  cornerSubPix : G → List P → ℕ × ℕ → List P
  /-- Positions in the second image of points of the first, and their statuses. -/
  calcOpticalFlowPyrLK : G → G → List P → List P × List Bool
  /-- `Point2f((float)x, (float)y)`. -/
  point2f : ℤ → ℤ → P
  /-- `norm(p - q) <= 5`. -/
  within5 : P → P → Bool

/-- The documented behaviour the loop relies on. -/
structure Vision.Documented {F G P : Type} (v : Vision F G P) : Prop where
  goodFeatures_le : ∀ g n, (v.goodFeaturesToTrack g n).length ≤ n
  cornerSubPix_length : ∀ g pts win, (v.cornerSubPix g pts win).length = pts.length
  flow_length : ∀ g g' pts, (v.calcOpticalFlowPyrLK g g' pts).1.length = pts.length
  status_length : ∀ g g' pts, (v.calcOpticalFlowPyrLK g g' pts).2.length = pts.length

def MAX_COUNT : ℕ := 500
def subPixWinSize : ℕ × ℕ := (10, 10)
def winSize : ℕ × ℕ := (31, 31)
def EVENT_LBUTTONDOWN : ℕ := 1

/-! ### The state -/

/-- The variables of the loop; an image is `none` while it is empty. -/
structure State (G P : Type) where
  point : P
  addRemovePt : Bool
  needToInit : Bool
  nightMode : Bool
  needSaveImg : Bool
  gray : Option G
  prevGray : Option G
  points0 : List P
  points1 : List P

/-- A call of the mouse callback. -/
structure MouseEvent where
  event : ℕ
  x : ℤ
  y : ℤ
deriving DecidableEq, Repr

/-- What a pass of the loop receives: the frame (`none` when it is empty), the mouse events
during `waitKey`, and the key. -/
structure Input (F : Type) where
  frame : Option F
  events : List MouseEvent
  key : Char
deriving DecidableEq

/-- What a pass does to the outside. -/
inductive Effect (F G P : Type) where
  | opticalFlow (prevGray gray : G) (points : List P)
  | imwrite (file : String) (image : Option G)
  /-- The frame, or black in night mode, with a circle at each point. -/
  | imshow (frame : Option F) (circles : List P)
deriving DecidableEq

variable {F G P : Type} (v : Vision F G P)

/-- The variables before the loop. -/
def init : State G P where
  point := v.point2f 0 0
  addRemovePt := false
  needToInit := false
  nightMode := false
  needSaveImg := false
  gray := none
  prevGray := none
  points0 := []
  points1 := []

/-- `onMouse`. -/
def onMouse (s : State G P) (e : MouseEvent) : State G P :=
  if e.event = EVENT_LBUTTONDOWN then { s with point := v.point2f e.x e.y, addRemovePt := true }
  else s

/-! ### Tracking -/

/-- The variables of the compaction loop: `points[1]`, the write index, the flag, and the circles
drawn so far. -/
structure Track (P : Type) where
  pts : List P
  k : ℕ
  addRemovePt : Bool
  circles : List P

/-- The loop's body at read index `i`; `none` for an access out of bounds. -/
def trackBody (point : P) (status : List Bool) (t : Track P) (i : ℕ) : Option (Track P) := do
  let q ← t.pts[i]?
  if t.addRemovePt ∧ v.within5 point q then return { t with addRemovePt := false }
  else
    let found ← status[i]?
    if !found then return t
    else if t.k < t.pts.length then
      return { t with pts := t.pts.set t.k q, k := t.k + 1, circles := t.circles ++ [q] }
    else none

/-- The loop, and `points[1].resize(k)`. -/
def trackLoop (point : P) (pending : Bool) (pts : List P) (status : List Bool) :
    Option (Track P) := do
  let t ← run (trackBody v point status) ⟨pts, 0, pending, []⟩ (List.range pts.length)
  return { t with pts := t.pts.take t.k }

/-- What the loop computes: a point near a pending click is dropped and takes the click with it,
then a lost point is dropped.  The second component says whether the click is still pending. -/
def keepTracked {α : Type} (near : α → Bool) : Bool → List (α × Bool) → List α × Bool
  | pending, [] => ([], pending)
  | pending, (q, found) :: rest =>
      if pending ∧ near q then keepTracked near false rest
      else if !found then keepTracked near pending rest
      else (q :: (keepTracked near pending rest).1, (keepTracked near pending rest).2)

/-! ### A pass of the loop -/

/-- Initialise or track; the circles drawn and the calls made are returned beside the state. -/
def initOrTrack (s : State G P) (gray : G) : Option (State G P × List P × List (Effect F G P)) :=
  if s.needToInit then
    let corners := v.goodFeaturesToTrack gray MAX_COUNT
    some ({ s with points1 := v.cornerSubPix gray corners subPixWinSize, addRemovePt := false },
      [], [])
  else if s.points0 ≠ [] then do
    -- `if (prevGray.empty()) gray.copyTo(prevGray);`
    let prevGray := s.prevGray.getD gray
    let (pts, status) := v.calcOpticalFlowPyrLK prevGray gray s.points0
    let t ← trackLoop v s.point s.addRemovePt pts status
    return ({ s with prevGray := some prevGray, points1 := t.pts, addRemovePt := t.addRemovePt },
      t.circles, [.opticalFlow prevGray gray s.points0])
  else some (s, [], [])

/-- Add the clicked point while there is room. -/
def addPoint (s : State G P) (gray : G) : Option (State G P) :=
  if s.addRemovePt ∧ s.points1.length < MAX_COUNT then do
    let tmp := v.cornerSubPix gray [s.point] winSize
    let q ← tmp[0]?
    return { s with points1 := s.points1 ++ [q], addRemovePt := false }
  else some s

/-- Save the two gray images on request. -/
def saveImages (s : State G P) : State G P × List (Effect F G P) :=
  if s.needSaveImg then
    ({ s with needSaveImg := false },
      [.imwrite "pre_gray.jpg" s.prevGray, .imwrite "gray.jpg" s.gray])
  else (s, [])

/-- The pass up to and including `imshow`. -/
def processFrame (s : State G P) (frame : F) : Option (State G P × List (Effect F G P)) := do
  let gray := v.cvtColor frame
  let shown := if s.nightMode then none else some frame
  let (s, circles, flow) ← initOrTrack v { s with gray := some gray } gray
  let s ← addPoint v s gray
  let (s, saved) := saveImages s
  return ({ s with needToInit := false }, flow ++ saved ++ [.imshow shown circles])

/-- The reaction to a key; ESC leaves the loop. -/
def handleKey (s : State G P) (c : Char) : Option (State G P) :=
  if c = Char.ofNat 27 then none
  else if c = 'r' then some { s with needToInit := true }
  else if c = 'c' then some { s with points0 := [], points1 := [] }
  else if c = 'n' then some { s with nightMode := !s.nightMode }
  else if c = 's' then some { s with needSaveImg := !s.needSaveImg }
  else some s

/-- `std::swap(points[1], points[0]); cv::swap(prevGray, gray);`. -/
def swapBuffers (s : State G P) : State G P :=
  { s with points0 := s.points1, points1 := s.points0, prevGray := s.gray, gray := s.prevGray }

/-- A pass of the loop, with what it did to the outside. -/
def frameStep (s : State G P) (i : Input F) : Option (State G P × List (Effect F G P)) := do
  let frame ← i.frame
  let (s, effects) ← processFrame v s frame
  let s := i.events.foldl (onMouse v) s
  let s ← handleKey s i.key
  return (swapBuffers s, effects)

/-- The state after a pass. -/
def step (s : State G P) (i : Input F) : Option (State G P) := (frameStep v s i).map Prod.fst

/-! ### The compaction loop computes `keepTracked` -/

variable {v}

/-- A step of the loop at the head of what is still to read.  What is written and what will be kept
of the rest are together what was to be kept before, and the write index stays behind the read
index, so that the rest is not overwritten. -/
theorem trackBody_step {point : P} {status : List Bool} {t : Track P} {i : ℕ} {q : P} {found : Bool}
    {rest : List (P × Bool)} (hk : t.k ≤ i) (hpts : t.pts.drop i = q :: rest.map Prod.fst)
    (hstatus : status.drop i = found :: rest.map Prod.snd) :
    ∃ t', trackBody v point status t i = some t' ∧ t'.k ≤ i + 1 ∧
      t'.pts.drop (i + 1) = rest.map Prod.fst ∧
      t'.pts.take t'.k ++ (keepTracked (v.within5 point) t'.addRemovePt rest).1 =
        t.pts.take t.k ++ (keepTracked (v.within5 point) t.addRemovePt ((q, found) :: rest)).1 ∧
      (keepTracked (v.within5 point) t'.addRemovePt rest).2 =
        (keepTracked (v.within5 point) t.addRemovePt ((q, found) :: rest)).2 := by
  have hlt : i < t.pts.length := by
    have := congrArg List.length hpts
    simp only [List.length_drop, List.length_cons] at this
    omega
  have hq : t.pts[i]? = some q := by
    rw [← List.head?_drop, hpts]
    rfl
  have hfound : status[i]? = some found := by
    rw [← List.head?_drop, hstatus]
    rfl
  have hdrop : t.pts.drop (i + 1) = rest.map Prod.fst := by
    rw [← List.tail_drop, hpts]
    rfl
  by_cases hclick : t.addRemovePt = true ∧ v.within5 point q = true
  · -- removed by the click
    refine ⟨{ t with addRemovePt := false }, ?_, ?_, hdrop, ?_, ?_⟩
    · simp [trackBody, hq, hclick]
    · show t.k ≤ i + 1
      omega
    · simp [keepTracked, hclick]
    · simp [keepTracked, hclick]
  · cases found with
    | false =>
        refine ⟨t, ?_, ?_, hdrop, ?_, ?_⟩
        · simp [trackBody, hq, hclick, hfound]
        · omega
        · simp [keepTracked, hclick]
        · simp [keepTracked, hclick]
    | true =>
        have hklt : t.k < t.pts.length := by omega
        have hwrite : (t.pts.set t.k q).take (t.k + 1) = t.pts.take t.k ++ [q] := by
          rw [List.take_add_one, List.take_set_of_le le_rfl, List.getElem?_set_self hklt]
          rfl
        refine ⟨{ t with pts := t.pts.set t.k q, k := t.k + 1, circles := t.circles ++ [q] },
          ?_, ?_, ?_, ?_, ?_⟩
        · simp [trackBody, hq, hclick, hfound, hklt]
        · show t.k + 1 ≤ i + 1
          omega
        · show (t.pts.set t.k q).drop (i + 1) = _
          rw [List.drop_set_of_lt (by omega), hdrop]
        · simp [hwrite, keepTracked, hclick]
        · simp [keepTracked, hclick]

/-- The loop from read index `i` on: `rest` is what is still to read. -/
theorem trackBody_run {point : P} {status : List Bool} :
    ∀ (rest : List (P × Bool)) (i : ℕ) (t : Track P), t.k ≤ i →
      t.pts.drop i = rest.map Prod.fst → status.drop i = rest.map Prod.snd →
      ∃ t', run (trackBody v point status) t (List.range' i rest.length) = some t' ∧
        t'.pts.take t'.k =
          t.pts.take t.k ++ (keepTracked (v.within5 point) t.addRemovePt rest).1 ∧
        t'.addRemovePt = (keepTracked (v.within5 point) t.addRemovePt rest).2
  | [], i, t, _, _, _ => ⟨t, rfl, by simp [keepTracked], rfl⟩
  | (q, found) :: rest, i, t, hk, hpts, hstatus => by
      obtain ⟨t₁, hstep, hk₁, hpts₁, htake₁, hflag₁⟩ := trackBody_step hk hpts hstatus
      have hstatus₁ : status.drop (i + 1) = rest.map Prod.snd := by
        rw [← List.tail_drop, hstatus]
        rfl
      obtain ⟨t', hrun, htake, hflag⟩ := trackBody_run rest (i + 1) t₁ hk₁ hpts₁ hstatus₁
      refine ⟨t', ?_, htake.trans htake₁, hflag.trans hflag₁⟩
      rw [List.length_cons, List.range'_succ, run_cons, hstep]
      exact hrun

/-- **The in-place loop** on vectors of equal length never reads or writes out of bounds and
computes `keepTracked`. -/
theorem trackLoop_eq (point : P) (pending : Bool) {pts : List P} {status : List Bool}
    (hlen : pts.length = status.length) :
    ∃ t, trackLoop v point pending pts status = some t ∧
      t.pts = (keepTracked (v.within5 point) pending (pts.zip status)).1 ∧
      t.addRemovePt = (keepTracked (v.within5 point) pending (pts.zip status)).2 := by
  have hfst : (pts.zip status).map Prod.fst = pts := List.map_fst_zip hlen.le
  have hsnd : (pts.zip status).map Prod.snd = status := List.map_snd_zip hlen.ge
  obtain ⟨t, hrun, htake, hflag⟩ := trackBody_run (v := v) (pts.zip status) 0
    ⟨pts, 0, pending, []⟩ le_rfl (by simpa using hfst.symm) (by simpa using hsnd.symm)
  have hlen' : (pts.zip status).length = pts.length := by simp [hlen]
  rw [hlen', ← List.range_eq_range'] at hrun
  refine ⟨{ t with pts := t.pts.take t.k }, ?_, by simpa using htake, hflag⟩
  unfold trackLoop
  rw [hrun]
  rfl

/-! ### What a pass does -/

variable (v) in
/-- Where the points a pass tracks are found in its image, and which of them are. -/
def flow (s : State G P) (gray : G) : List P × List Bool :=
  v.calcOpticalFlowPyrLK (s.prevGray.getD gray) gray s.points0

variable (v) in
/-- The points a pass arrives at before a click is added, and whether the click is still pending;
`idle` is what a pass that neither initialises nor tracks has. -/
def arrived (s : State G P) (gray : G) (idle : List P) : List P × Bool :=
  if s.needToInit then
    (v.cornerSubPix gray (v.goodFeaturesToTrack gray MAX_COUNT) subPixWinSize, false)
  else if s.points0 ≠ [] then
    keepTracked (v.within5 s.point) s.addRemovePt
      ((flow v s gray).1.zip (flow v s gray).2)
  else (idle, s.addRemovePt)

variable (v) in
/-- The points with the refined click after them, if it is pending and there is room. -/
def withClick (gray : G) (point : P) (r : List P × Bool) : List P :=
  r.1 ++ if r.2 ∧ r.1.length < MAX_COUNT then v.cornerSubPix gray [point] winSize else []

theorem initOrTrack_spec (hv : v.Documented) (s : State G P) (gray : G) :
    ∃ circles effects, initOrTrack v s gray = some
        ({ s with
            prevGray := if s.needToInit = false ∧ s.points0 ≠ [] then some (s.prevGray.getD gray)
              else s.prevGray
            points1 := (arrived v s gray s.points1).1
            addRemovePt := (arrived v s gray s.points1).2 }, circles, effects) ∧
      ∀ e ∈ effects, s.points0 ≠ [] ∧ e = .opticalFlow (s.prevGray.getD gray) gray s.points0 := by
  unfold initOrTrack arrived
  by_cases hinit : s.needToInit = true
  · exact ⟨[], [], by simp [hinit], by simp⟩
  · by_cases hpts : s.points0 = []
    · refine ⟨[], [], ?_, by simp⟩
      cases s
      simp_all
    · -- the frame is tracked
      obtain ⟨t, ht, hkept, hflag⟩ := trackLoop_eq (v := v) s.point s.addRemovePt
        ((hv.flow_length (s.prevGray.getD gray) gray s.points0).trans
          (hv.status_length (s.prevGray.getD gray) gray s.points0).symm)
      refine ⟨t.circles, [.opticalFlow (s.prevGray.getD gray) gray s.points0], ?_, ?_⟩
      · simp [hinit, hpts, ht, hkept, hflag, flow]
      · intro e he
        exact ⟨hpts, List.mem_singleton.mp he⟩

theorem addPoint_spec (hv : v.Documented) (s : State G P) (gray : G) :
    addPoint v s gray = some { s with
      points1 := withClick v gray s.point (s.points1, s.addRemovePt)
      addRemovePt := s.addRemovePt && !decide (s.points1.length < MAX_COUNT) } := by
  unfold addPoint withClick
  by_cases h : s.addRemovePt = true ∧ s.points1.length < MAX_COUNT
  · obtain ⟨q, hq⟩ := List.length_eq_one_iff.mp (hv.cornerSubPix_length gray [s.point] winSize)
    simp [h, hq]
  · have hflag : (s.addRemovePt && !decide (s.points1.length < MAX_COUNT)) = s.addRemovePt := by
      cases hs : s.addRemovePt with
      | false => rfl
      | true => simpa [hs] using h
    simp only [h, if_false, List.append_nil, hflag]

theorem saveImages_fst (s : State G P) :
    (saveImages (F := F) s).1 = { s with needSaveImg := false } := by
  unfold saveImages
  cases hsave : s.needSaveImg with
  | false =>
      cases s
      simp_all
  | true => rfl

theorem opticalFlow_not_saved (s : State G P) (g g' : G) (pts : List P) :
    Effect.opticalFlow (F := F) g g' pts ∉ (saveImages s).2 := by
  unfold saveImages
  split <;> simp

/-- **A pass up to `imshow`**, field by field. -/
theorem processFrame_spec (hv : v.Documented) (s : State G P) (frame : F) :
    ∃ effects, processFrame v s frame = some
        ({ s with
            gray := some (v.cvtColor frame)
            prevGray := if s.needToInit = false ∧ s.points0 ≠ [] then
              some (s.prevGray.getD (v.cvtColor frame)) else s.prevGray
            needToInit := false
            needSaveImg := false
            points1 := withClick v (v.cvtColor frame) s.point
              (arrived v s (v.cvtColor frame) s.points1)
            addRemovePt := (arrived v s (v.cvtColor frame) s.points1).2 &&
              !decide ((arrived v s (v.cvtColor frame) s.points1).1.length < MAX_COUNT) },
          effects) ∧
      ∀ g g' pts, .opticalFlow g g' pts ∈ effects →
        s.points0 ≠ [] ∧ g = s.prevGray.getD (v.cvtColor frame) ∧ g' = v.cvtColor frame ∧
          pts = s.points0 := by
  obtain ⟨circles, effects, htrack, hflow⟩ :=
    initOrTrack_spec hv { s with gray := some (v.cvtColor frame) } (v.cvtColor frame)
  have harrived : arrived v { s with gray := some (v.cvtColor frame) } (v.cvtColor frame)
      s.points1 = arrived v s (v.cvtColor frame) s.points1 := rfl
  simp only [harrived] at htrack
  unfold processFrame
  simp only [htrack, addPoint_spec hv, Option.bind_eq_bind, Option.bind_some]
  refine ⟨_, congrArg some (Prod.ext ?_ rfl), ?_⟩
  · show { (saveImages (F := F) _).1 with needToInit := false } = _
    rw [saveImages_fst]
  · intro g g' pts h
    rcases List.mem_append.mp h with h | h
    · rcases List.mem_append.mp h with h | h
      · obtain ⟨hne, heq⟩ := hflow _ h
        injection heq with h₁ h₂ h₃
        exact ⟨hne, h₁, h₂, h₃⟩
      · exact absurd h (opticalFlow_not_saved _ g g' pts)
    · simp at h

variable (v) in
/-- Where the last click among mouse events was. -/
def lastClick (events : List MouseEvent) : Option P :=
  (events.filter (·.event = EVENT_LBUTTONDOWN)).getLast?.map fun e => v.point2f e.x e.y

theorem lastClick_concat (events : List MouseEvent) (e : MouseEvent) :
    lastClick v (events ++ [e]) =
      if e.event = EVENT_LBUTTONDOWN then some (v.point2f e.x e.y) else lastClick v events := by
  unfold lastClick
  split_ifs with he <;> simp [List.filter_append, he]

/-- The mouse events of a pass leave the last click. -/
theorem foldl_onMouse (s : State G P) (events : List MouseEvent) :
    events.foldl (onMouse v) s = { s with
      point := (lastClick v events).getD s.point
      addRemovePt := s.addRemovePt || (lastClick v events).isSome } := by
  induction events using List.reverseRecOn with
  | nil => simp [lastClick]
  | append_singleton events e ih =>
      rw [List.foldl_concat, ih, lastClick_concat]
      unfold onMouse
      split_ifs with he
      · simp
      · rfl

theorem handleKey_cases {s s' : State G P} {c : Char} (h : handleKey s c = some s') :
    c ≠ Char.ofNat 27 ∧ s' = { s with
      needToInit := s'.needToInit
      nightMode := s'.nightMode
      needSaveImg := s'.needSaveImg
      points0 := if c = 'c' then [] else s.points0
      points1 := if c = 'c' then [] else s.points1 } := by
  unfold handleKey at h
  split_ifs at h with hesc hr hc hn hs
  · obtain rfl := Option.some.inj h
    exact ⟨hesc, by simp [hr]⟩
  · obtain rfl := Option.some.inj h
    exact ⟨hesc, by simp [hc]⟩
  · obtain rfl := Option.some.inj h
    exact ⟨hesc, by simp [hc]⟩
  · obtain rfl := Option.some.inj h
    exact ⟨hesc, by simp [hc]⟩
  · obtain rfl := Option.some.inj h
    exact ⟨hesc, by simp [hc]⟩

theorem handleKey_isSome (s : State G P) {c : Char} (hc : c ≠ Char.ofNat 27) :
    (handleKey s c).isSome := by
  unfold handleKey
  split_ifs <;> first | contradiction | rfl

/-- **A whole pass**: what the next one starts from. -/
theorem step_spec (hv : v.Documented) {s s' : State G P} {i : Input F}
    (h : step v s i = some s') :
    ∃ frame, i.frame = some frame ∧ i.key ≠ Char.ofNat 27 ∧
      s'.prevGray = some (v.cvtColor frame) ∧
      s'.points0 = (if i.key = 'c' then [] else
        withClick v (v.cvtColor frame) s.point (arrived v s (v.cvtColor frame) s.points1)) ∧
      s'.points1 = (if i.key = 'c' then [] else s.points0) ∧
      s'.point = (lastClick v i.events).getD s.point ∧
      s'.addRemovePt = (((arrived v s (v.cvtColor frame) s.points1).2 &&
        !decide ((arrived v s (v.cvtColor frame) s.points1).1.length < MAX_COUNT)) ||
          (lastClick v i.events).isSome) := by
  obtain ⟨⟨_, effects⟩, hstep, rfl⟩ := Option.map_eq_some_iff.mp h
  unfold frameStep at hstep
  cases hframe : i.frame with
  | none => simp [hframe] at hstep
  | some frame =>
      obtain ⟨effects', hpass, -⟩ := processFrame_spec hv s frame
      simp only [hframe, Option.bind_eq_bind, Option.bind_some] at hstep
      obtain ⟨⟨s₁, effects₁⟩, hs₁, hrest⟩ := Option.bind_eq_some_iff.mp hstep
      obtain ⟨s₂, hkey, hswap⟩ := Option.bind_eq_some_iff.mp hrest
      obtain ⟨hesc, hs₂⟩ := handleKey_cases hkey
      obtain rfl := congrArg Prod.fst (Option.some.inj (hpass.symm.trans hs₁))
      obtain rfl := congrArg Prod.fst (Option.some.inj hswap)
      rw [hs₂, foldl_onMouse]
      exact ⟨frame, rfl, hesc, rfl, rfl, rfl, rfl, rfl⟩

theorem step_isSome (hv : v.Documented) (s : State G P) {i : Input F} {frame : F}
    (hframe : i.frame = some frame) (hkey : i.key ≠ Char.ofNat 27) : (step v s i).isSome := by
  obtain ⟨effects, hpass, -⟩ := processFrame_spec hv s frame
  unfold step frameStep
  simp only [hframe, hpass, Option.bind_eq_bind, Option.bind_some, Option.isSome_map]
  obtain ⟨s₂, hs₂⟩ := Option.isSome_iff_exists.mp
    (handleKey_isSome (i.events.foldl (onMouse v) _) hkey)
  rw [hs₂]
  rfl

end PlayWithOpencv.LkDemo
