import PlayWithOpencv.LkDemoHandover

/-! # The buffers of `lkdemo`

What the frame loop keeps to, whatever it is given.

* `WithinCapacity`: neither point vector ever has more than `MAX_COUNT` elements, and the compaction
  loop stays inside its vectors, the write index behind the read index (`passes_withinCapacity`).
  The stale vector is bounded too, since a vector only grows below the bound.
* `ReadsPreceding`: what is tracked from or saved as the previous image is the gray image of the
  frame before, which exists whenever something is tracked or saved (`passes_readPreceding`). -/

namespace PlayWithOpencv.LkDemo

open PartialRun

variable {F G P : Type} (v : Vision F G P)

/-! ### Capacity -/

/-- Both vectors are within the bound. -/
def Bounded (s : State G P) : Prop := s.points0.length ≤ MAX_COUNT ∧ s.points1.length ≤ MAX_COUNT

/-- The compaction loop before its step `n`: it has arrived there without leaving a vector, and
neither will the accesses of this step, at the read index `n` and at the write index. -/
def InBounds (point : P) (pending : Bool) (pts : List P) (status : List Bool) (n : ℕ) : Prop :=
  ∃ t, run (trackBody v point status) ⟨pts, 0, pending, []⟩ (List.range n) = some t ∧
    t.k ≤ n ∧ n < t.pts.length ∧ n < status.length ∧ t.pts.length ≤ MAX_COUNT

/-- The vectors of a pass: at its start, after it has initialised or tracked, after a click has been
added, and at the start of the next one; and the accesses of the compaction loop. -/
structure WithinCapacity (s : State G P) (i : Input F) : Prop where
  start : Bounded s
  tracked : ∀ frame s₁ circles effects, i.frame = some frame →
    initOrTrack v { s with gray := some (v.cvtColor frame) } (v.cvtColor frame) =
      some (s₁, circles, effects) → Bounded s₁
  added : ∀ frame s₁ effects, i.frame = some frame →
    processFrame v s frame = some (s₁, effects) → Bounded s₁
  next : ∀ s', step v s i = some s' → Bounded s'
  accesses : ∀ frame, i.frame = some frame → s.needToInit = false → s.points0 ≠ [] →
    ∀ n < (flow v s (v.cvtColor frame)).1.length,
      InBounds v s.point s.addRemovePt (flow v s (v.cvtColor frame)).1
        (flow v s (v.cvtColor frame)).2 n

variable {v}

theorem keepTracked_length_le {α : Type} (near : α → Bool) :
    ∀ (ps : List (α × Bool)) (pending : Bool), (keepTracked near pending ps).1.length ≤ ps.length
  | [], _ => le_rfl
  | (q, found) :: ps, pending => by
      have hfalse := keepTracked_length_le near ps false
      have hpending := keepTracked_length_le near ps pending
      unfold keepTracked
      split_ifs <;> simp only [List.length_cons] <;> omega

/-- What a pass arrives at is no longer than what it started from, and no more than the corners that
were asked for. -/
theorem arrived_length_le (hv : v.Documented) {s : State G P} (hs : Bounded s) (gray : G) :
    (arrived v s gray s.points1).1.length ≤ MAX_COUNT := by
  unfold arrived
  split_ifs with hinit hpts
  · rw [hv.cornerSubPix_length]
    exact hv.goodFeatures_le gray MAX_COUNT
  · have hkept := keepTracked_length_le (v.within5 s.point)
      ((flow v s gray).1.zip (flow v s gray).2) s.addRemovePt
    have hflow : (flow v s gray).1.length = s.points0.length := hv.flow_length _ _ _
    rw [List.length_zip, hflow] at hkept
    exact (hkept.trans (min_le_left _ _)).trans hs.1
  · exact hs.2

/-- A click is added below the bound only. -/
theorem withClick_length_le (hv : v.Documented) (gray : G) (point : P) {r : List P × Bool}
    (h : r.1.length ≤ MAX_COUNT) : (withClick v gray point r).length ≤ MAX_COUNT := by
  rw [withClick_length hv]
  split_ifs with hroom
  · exact hroom.2
  · exact h

theorem initOrTrack_bounded (hv : v.Documented) {s s₁ : State G P} {gray : G} {circles : List P}
    {effects : List (Effect F G P)} (hs : Bounded s)
    (h : initOrTrack v s gray = some (s₁, circles, effects)) : Bounded s₁ := by
  obtain ⟨circles', effects', hspec, -⟩ := initOrTrack_spec hv s gray
  obtain rfl := congrArg Prod.fst (Option.some.inj (hspec.symm.trans h))
  exact ⟨hs.1, arrived_length_le hv hs gray⟩

theorem processFrame_bounded (hv : v.Documented) {s s₁ : State G P} {frame : F}
    {effects : List (Effect F G P)} (hs : Bounded s)
    (h : processFrame v s frame = some (s₁, effects)) : Bounded s₁ := by
  obtain ⟨effects', hspec, -⟩ := processFrame_spec hv s frame
  obtain rfl := congrArg Prod.fst (Option.some.inj (hspec.symm.trans h))
  exact ⟨hs.1, withClick_length_le hv _ _ (arrived_length_le hv hs _)⟩

/-- One pass keeps both vectors within the bound, the one it does not write included. -/
theorem step_bounded (hv : v.Documented) {s s' : State G P} {i : Input F} (hs : Bounded s)
    (h : step v s i = some s') : Bounded s' := by
  obtain ⟨frame, -, -, -, hpts0, hpts1, -⟩ := step_spec hv h
  unfold Bounded
  rw [hpts0, hpts1]
  split_ifs with hc
  · exact ⟨Nat.zero_le _, Nat.zero_le _⟩
  · exact ⟨withClick_length_le hv _ _ (arrived_length_le hv hs _), hs.1⟩

/-- A step of the compaction loop inside its vectors: the write index moves by one at most, and no
length changes. -/
theorem trackBody_inBounds (point : P) {status : List Bool} {t : Track P} {n : ℕ} (hk : t.k ≤ n)
    (hpts : n < t.pts.length) (hstatus : n < status.length) :
    ∃ t', trackBody v point status t n = some t' ∧ t'.k ≤ n + 1 ∧
      t'.pts.length = t.pts.length := by
  have hq := List.getElem?_eq_getElem hpts
  have hfound := List.getElem?_eq_getElem hstatus
  by_cases hclick : t.addRemovePt = true ∧ v.within5 point t.pts[n] = true
  · refine ⟨{ t with addRemovePt := false }, ?_, Nat.le_succ_of_le hk, rfl⟩
    simp [trackBody, hq, hclick]
  · cases hlost : status[n] with
    | false =>
        refine ⟨t, ?_, Nat.le_succ_of_le hk, rfl⟩
        simp [trackBody, hq, hclick, hfound, hlost]
    | true =>
        have hwrite : t.k < t.pts.length := lt_of_le_of_lt hk hpts
        refine ⟨{ t with pts := t.pts.set t.k t.pts[n], k := t.k + 1,
                         circles := t.circles ++ [t.pts[n]] }, ?_, Nat.succ_le_succ hk, ?_⟩
        · simp [trackBody, hq, hclick, hfound, hlost, hwrite]
        · exact List.length_set ..

/-- The compaction loop up to any read index: it has not left a vector, and the write index is
behind. -/
theorem trackBody_prefix (point : P) (pending : Bool) {pts : List P} {status : List Bool}
    (hlen : pts.length = status.length) {n : ℕ} (hn : n ≤ pts.length) :
    ∃ t, run (trackBody v point status) ⟨pts, 0, pending, []⟩ (List.range n) = some t ∧
      t.k ≤ n ∧ t.pts.length = pts.length := by
  induction n with
  | zero => exact ⟨⟨pts, 0, pending, []⟩, rfl, le_rfl, rfl⟩
  | succ n ih =>
      obtain ⟨t, hrun, hk, hpts⟩ := ih (Nat.le_of_succ_le hn)
      obtain ⟨t', hstep, hk', hpts'⟩ := trackBody_inBounds (v := v) point hk
        (by omega) (show n < status.length by omega)
      refine ⟨t', ?_, hk', hpts'.trans hpts⟩
      rw [List.range_succ, run_concat, hrun]
      exact hstep

theorem flow_inBounds (hv : v.Documented) {s : State G P} (hs : Bounded s) (gray : G) {n : ℕ}
    (hn : n < (flow v s gray).1.length) :
    InBounds v s.point s.addRemovePt (flow v s gray).1 (flow v s gray).2 n := by
  have hflow : (flow v s gray).1.length = s.points0.length := hv.flow_length _ _ _
  have hstatus : (flow v s gray).2.length = s.points0.length := hv.status_length _ _ _
  obtain ⟨t, hrun, hk, hpts⟩ := trackBody_prefix (v := v) s.point s.addRemovePt
    (hflow.trans hstatus.symm) hn.le
  refine ⟨t, hrun, hk, by omega, by omega, ?_⟩
  rw [hpts, hflow]
  exact hs.1

/-- **Main.** In every run, at every step of every pass, both vectors are within the bound, and the
compaction loop accesses its vectors inside their bounds. -/
theorem passes_withinCapacity (hv : v.Documented) (is : List (Input F)) :
    Along (step v) (WithinCapacity v) (init v) is := by
  refine Along.intro Bounded (fun s i hs => ?_) (fun s i s' hs h => step_bounded hv hs h) is
    ⟨Nat.zero_le _, Nat.zero_le _⟩
  constructor
  · exact hs
  · intro frame s₁ circles effects _ h
    exact initOrTrack_bounded hv (s := { s with gray := some (v.cvtColor frame) }) hs h
  · intro frame s₁ effects _ h
    exact processFrame_bounded hv hs h
  · intro s' h
    exact step_bounded hv hs h
  · intro frame _ _ _ n hn
    exact flow_inBounds hv hs _ hn

theorem passes_withinCapacity_tracked :
    Along (step still) (WithinCapacity still) (init still)
      [frame 0 'r', frame 1 ' ', frame 3 ' '] :=
  passes_withinCapacity still_documented _

/-! ### The image of the preceding frame -/

variable (v) in
/-- What a pass after the inputs `js` uses as the previous image is the gray image of the frame
before, and the images it saves are not empty; `prevGray` is not empty when a pass tracks. -/
structure ReadsPreceding (js : List (Input F)) (s : State G P) (frame : F) : Prop where
  nonempty : s.needToInit = false → s.points0 ≠ [] → s.prevGray ≠ none
  tracked : ∀ s' effects g g' pts, processFrame v s frame = some (s', effects) →
    .opticalFlow g g' pts ∈ effects →
      ∃ i f, js.getLast? = some i ∧ i.frame = some f ∧ s.prevGray = some g ∧ g = v.cvtColor f
  saved : ∀ s' effects image, processFrame v s frame = some (s', effects) →
    .imwrite "pre_gray.jpg" image ∈ effects →
      ∃ i f, js.getLast? = some i ∧ i.frame = some f ∧ image = some (v.cvtColor f)
  notEmpty : ∀ s' effects file image, processFrame v s frame = some (s', effects) →
    .imwrite file image ∈ effects → image ≠ none

/-- Initialising or tracking leaves the two images and the save flag alone, but for the copy that is
made when a pass tracks without a previous image. -/
theorem initOrTrack_images {s s₁ : State G P} {gray : G} {circles : List P}
    {effects : List (Effect F G P)} (h : initOrTrack v s gray = some (s₁, circles, effects)) :
    s₁.gray = s.gray ∧ s₁.needSaveImg = s.needSaveImg ∧
      (s.prevGray ≠ none → s₁.prevGray = s.prevGray) ∧
      ∀ e ∈ effects, s.points0 ≠ [] ∧
        e = .opticalFlow (s.prevGray.getD gray) gray s.points0 := by
  unfold initOrTrack at h
  split_ifs at h with hinit hpts
  · obtain ⟨rfl, -, rfl⟩ := by simpa using h
    exact ⟨rfl, rfl, fun _ => rfl, by simp⟩
  · obtain ⟨t, -, h⟩ := Option.bind_eq_some_iff.mp h
    obtain ⟨rfl, -, rfl⟩ := by simpa using h
    refine ⟨rfl, rfl, fun hprev => ?_, fun e he => ⟨hpts, List.mem_singleton.mp he⟩⟩
    obtain ⟨g, hg⟩ := Option.ne_none_iff_exists'.mp hprev
    simp [hg]
  · obtain ⟨rfl, -, rfl⟩ := by simpa using h
    exact ⟨rfl, rfl, fun _ => rfl, by simp⟩

theorem addPoint_images {s s₁ : State G P} {gray : G} (h : addPoint v s gray = some s₁) :
    s₁.gray = s.gray ∧ s₁.prevGray = s.prevGray ∧ s₁.needSaveImg = s.needSaveImg := by
  unfold addPoint at h
  split_ifs at h
  · obtain ⟨q, -, h⟩ := Option.bind_eq_some_iff.mp h
    obtain rfl := Option.some.inj h
    exact ⟨rfl, rfl, rfl⟩
  · obtain rfl := Option.some.inj h
    exact ⟨rfl, rfl, rfl⟩

theorem imwrite_of_saveImages {s : State G P} {file : String} {image : Option G}
    (h : Effect.imwrite (F := F) file image ∈ (saveImages s).2) :
    s.needSaveImg = true ∧
      ((file = "pre_gray.jpg" ∧ image = s.prevGray) ∨ (file = "gray.jpg" ∧ image = s.gray)) := by
  unfold saveImages at h
  split_ifs at h with hsave
  · simpa [hsave] using h
  · simp at h

/-- The images a pass tracks from and saves. -/
theorem processFrame_images {s s' : State G P} {frame : F} {effects : List (Effect F G P)}
    (h : processFrame v s frame = some (s', effects)) :
    s'.gray = some (v.cvtColor frame) ∧
      (∀ g g' pts, .opticalFlow g g' pts ∈ effects →
        s.points0 ≠ [] ∧ g = s.prevGray.getD (v.cvtColor frame)) ∧
      ∀ file image, .imwrite file image ∈ effects → s.needSaveImg = true ∧
        ((file = "pre_gray.jpg" ∧ (s.prevGray ≠ none → image = s.prevGray)) ∨
          (file = "gray.jpg" ∧ image = some (v.cvtColor frame))) := by
  obtain ⟨⟨s₁, circles, flow⟩, htrack, h⟩ := Option.bind_eq_some_iff.mp h
  obtain ⟨s₂, hadd, h⟩ := Option.bind_eq_some_iff.mp h
  obtain ⟨rfl, rfl⟩ := Prod.mk.inj (Option.some.inj h)
  obtain ⟨hgray₁, hsave₁, hprev₁, hflow⟩ := initOrTrack_images htrack
  obtain ⟨hgray₂, hprev₂, hsave₂⟩ := addPoint_images hadd
  refine ⟨?_, fun g g' pts hmem => ?_, fun file image hmem => ?_⟩
  · show (saveImages (F := F) s₂).1.gray = _
    rw [saveImages_fst, hgray₂, hgray₁]
  · rcases List.mem_append.mp hmem with hmem | hmem
    · rcases List.mem_append.mp hmem with hmem | hmem
      · obtain ⟨hpts, heq⟩ := hflow _ hmem
        injection heq with hg
        exact ⟨hpts, hg⟩
      · exact absurd hmem (opticalFlow_not_saved _ g g' pts)
    · simp at hmem
  · rcases List.mem_append.mp hmem with hmem | hmem
    · rcases List.mem_append.mp hmem with hmem | hmem
      · cases (hflow _ hmem).2
      · obtain ⟨hsave, hfile⟩ := imwrite_of_saveImages hmem
        rw [hsave₂, hsave₁] at hsave
        refine ⟨hsave, hfile.imp (fun hpre => ⟨hpre.1, fun hne => ?_⟩) fun hcur => ⟨hcur.1, ?_⟩⟩
        · rw [hpre.2, hprev₂, hprev₁ hne]
        · rw [hcur.2, hgray₂, hgray₁]
    · simp at hmem

/-- After a pass the previous image is that of its frame. -/
theorem step_prevGray {s s' : State G P} {i : Input F} (h : step v s i = some s') :
    ∃ frame, i.frame = some frame ∧ s'.prevGray = some (v.cvtColor frame) := by
  obtain ⟨⟨_, effects⟩, hstep, rfl⟩ := Option.map_eq_some_iff.mp h
  obtain ⟨frame, hframe, h⟩ := Option.bind_eq_some_iff.mp hstep
  obtain ⟨⟨s₁, effects₁⟩, hpass, h⟩ := Option.bind_eq_some_iff.mp h
  obtain ⟨s₂, hkey, h⟩ := Option.bind_eq_some_iff.mp h
  obtain rfl := congrArg Prod.fst (Option.some.inj h)
  refine ⟨frame, hframe, ?_⟩
  show s₂.gray = _
  rw [(handleKey_cases hkey).2, foldl_onMouse]
  exact (processFrame_images hpass).1

/-- Before the first frame there is nothing to track and nothing to save. -/
theorem init_readsPreceding (frame : F) : ReadsPreceding v [] (init v) frame where
  nonempty _ hpts := absurd rfl hpts
  tracked s' effects g g' pts hpass hmem :=
    absurd rfl ((processFrame_images hpass).2.1 g g' pts hmem).1
  saved s' effects image hpass hmem := by
    cases ((processFrame_images hpass).2.2 _ image hmem).1
  notEmpty s' effects file image hpass hmem := by
    cases ((processFrame_images hpass).2.2 file image hmem).1

/-- A pass after another one reads the image that the other has left. -/
theorem step_readsPreceding {s₀ s : State G P} {i : Input F} (h : step v s₀ i = some s)
    (js : List (Input F)) (frame : F) : ReadsPreceding v (js ++ [i]) s frame := by
  obtain ⟨f, hf, hprev⟩ := step_prevGray h
  have hne : s.prevGray ≠ none := by simp [hprev]
  constructor
  · exact fun _ _ => hne
  · intro s' effects g g' pts hpass hmem
    have hg := ((processFrame_images hpass).2.1 g g' pts hmem).2
    rw [hprev, Option.getD_some] at hg
    exact ⟨i, f, List.getLast?_concat, hf, by rw [hprev, hg], hg⟩
  · intro s' effects image hpass hmem
    obtain ⟨-, ⟨-, himage⟩ | ⟨hfile, -⟩⟩ := (processFrame_images hpass).2.2 _ image hmem
    · exact ⟨i, f, List.getLast?_concat, hf, (himage hne).trans hprev⟩
    · exact absurd hfile (by decide)
  · intro s' effects file image hpass hmem
    obtain ⟨-, ⟨-, himage⟩ | ⟨-, himage⟩⟩ := (processFrame_images hpass).2.2 file image hmem
    · rw [himage hne]
      exact hne
    · rw [himage]
      exact Option.some_ne_none _

/-- **Main.** In every run, the previous image of a pass that tracks or saves is the gray image of
the frame before. -/
theorem passes_readPreceding (js : List (Input F)) (s : State G P) (frame : F)
    (hrun : run (step v) (init v) js = some s) : ReadsPreceding v js s frame := by
  rcases List.eq_nil_or_concat js with rfl | ⟨js', i, rfl⟩
  · obtain rfl : init v = s := Option.some.inj hrun
    exact init_readsPreceding frame
  · rw [List.concat_eq_append] at hrun ⊢
    obtain ⟨s₀, -, hlast⟩ := run_concat_some hrun
    exact step_readsPreceding hlast js' frame

theorem passes_readPreceding_tracked :
    ∃ s, run (step still) (init still) [frame 0 'r', frame 1 's'] = some s ∧
      ReadsPreceding still [frame 0 'r', frame 1 's'] s 3 :=
  ⟨_, rfl, passes_readPreceding _ _ 3 rfl⟩

end PlayWithOpencv.LkDemo
