import PlayWithOpencv.SimpleperfInvariant

/-! # Session and recorder agree

* `agreement`: in every interleaving, when no call is in progress and the recorder is there, it is
  recording exactly when the session says so, it has carried out the commands of the calls, each
  once and in their order, and nothing is left in the pipes.
* `aborts_iff`: as long as the recorder stays and the system calls succeed, the session aborts
  exactly on calls that are not allowed, however the two interleave. -/

namespace PlayWithOpencv.Simpleperf

open PartialRun

variable {R : Type} {rec : Recorder R} {cs : List Call} {s s' : System R}

/-- **Agreement**: whatever the order in which session and recorder go on, whenever no call is in
progress and the recorder is there, the session's state is what the recorder does, the recorder
has carried out the commands of the calls, each once and in their order, and nothing is on its
way between the two. -/
theorem agreement (hdoc : rec.Documented) {ls : List Label} {q : Proc R}
    (hrun : run (sysStep rec) {} ls = some s) (hidle : s.session.ctrl = .idle)
    (hproc : s.proc = some q) (halive : q.exit = none) :
    s.session.state_ = (if rec.recording q.st then .started else .paused) ∧
      rec.follow (calls ls) = some q.st ∧ Settled s q := by
  have hq : ∀ q', s.proc = some q' → q' = q := fun q' hq' =>
    Option.some.inj (hq'.symm.trans hproc)
  rcases inv_run hdoc hrun with ⟨why, hab⟩ | hlost | hcore
  · rw [hidle] at hab
    cases hab
  · have hdead := hlost.gone
    rw [alive_iff.mpr ⟨q, hproc, halive⟩] at hdead
    cases hdead
  · cases hcore with
    | fresh _ _ hnone => simp [hnone] at hproc
    | starting q' acc hctrl => exact absurd (hctrl.symm.trans hidle) (by simp)
    | ready q' _ hproc' _ hfollow hstate hset =>
        obtain rfl := hq q' hproc'
        exact ⟨hstate, hfollow, hset⟩
    | requested q' cmd acc hctrl => exact absurd (hctrl.symm.trans hidle) (by simp)
    | answered q' cmd acc hctrl => exact absurd (hctrl.symm.trans hidle) (by simp)
    | stopping q' hctrl => exact absurd (hctrl.symm.trans hidle) (by simp)
    | stopped q' _ _ hproc' hexit =>
        obtain rfl := hq q' hproc'
        exact absurd halive hexit

/-- A recorder that does as it is told. -/
def obedient : Recorder Bool where
  start _ := true
  recording r := r
  handle r line :=
    if line = Cmd.pause.text then (false, okLine)
    else if line = Cmd.resume.text then (true, okLine)
    else (r, "error".toList)

theorem obedient_documented : obedient.Documented where
  start_recording _ := rfl
  handle_recording r cmd _ := by cases cmd <;> rfl
  handle_ok r cmd _ := by cases cmd <;> rfl

/-- The schedule in which each of the two goes on as far as it can: launch, and pause. -/
def launchAndPause : List Label :=
  .call (.startRecording []) none :: List.replicate 8 .recorderWrite ++
    List.replicate 8 .sessionRead ++ .call .pauseRecording none :: List.replicate 6 .recorderRead ++
    List.replicate 3 .recorderWrite ++ List.replicate 3 .sessionRead

theorem agreement_paused : ∃ s q, run (sysStep obedient) {} launchAndPause = some s ∧
    s.session.state_ = (if obedient.recording q.st then .started else .paused) ∧
    obedient.follow (calls launchAndPause) = some q.st ∧ Settled s q := by
  have hrun : run (sysStep obedient) {} launchAndPause = some _ := rfl
  exact ⟨_, _, hrun, agreement obedient_documented hrun rfl rfl rfl⟩

/-! ### What the calls mean -/

/-- The session of the system is a session: the system gives it the calls of the schedule. -/
theorem session_run {ls : List Label} (hrun : run (sysStep rec) {} ls = some s) :
    ∃ is, run step {} is = some s.session ∧ callsOf is = calls ls := by
  refine run_history
    (fun ls s => ∃ is, run step {} is = some s.session ∧ callsOf is = calls ls)
    ⟨[], rfl, rfl⟩ ?_ hrun
  rintro ls l s s' ⟨is, his, hcalls⟩ hstep
  -- a step of the session with one more input, or none
  have hone : ∀ i p, step s.session i = some p → s'.session = p → [i].filterMap Input.call? = l.call?.toList →
      ∃ is, run step {} is = some s'.session ∧ callsOf is = calls (ls ++ [l]) := by
    intro i p hp hs' hcall
    refine ⟨is ++ [i], ?_, ?_⟩
    · rw [run_concat, his, hs']
      exact hp
    · rw [calls_concat, callsOf, List.filterMap_append, hcall, ← hcalls]
      rfl
  have hnone : s'.session = s.session → l.call? = none →
      ∃ is, run step {} is = some s'.session ∧ callsOf is = calls (ls ++ [l]) := by
    intro hs' hcall
    refine ⟨is, hs' ▸ his, ?_⟩
    rw [calls_concat, hcall, hcalls]
    simp
  cases sysStep_taken hstep with
  | call c fails hctrl =>
      refine hone (.call c (s.callFails c fails)) (s.session.enter c (s.callFails c fails))
        (by simp [step, hctrl]) ?_ rfl
      unfold System.called
      split <;> rfl
  | sessionRead b rest p hreply hp => exact hone (.read (some b)) p hp rfl rfl
  | sessionEof p hreply halive hp => exact hone (.read none) p hp rfl rfl
  | sessionWait q r hproc hexit hctrl =>
      exact hone (.waited r) _ (by simp [step, hctrl]) rfl rfl
  | recorderRead q b rest => exact hnone rfl rfl
  | recorderWrite q b rest => exact hnone rfl rfl
  | recorderExit q => exact hnone rfl rfl
  | recorderQuits q r => exact hnone rfl rfl

/-- Nothing goes wrong outside: the recorder stays, and the system calls succeed. -/
def Label.good : Label → Prop
  | .call _ fails => fails = none
  | .recorderQuits _ => False
  | _ => True

theorem core_not_isAborted (hcore : Core rec cs s) : ¬ s.session.isAborted := by
  rintro ⟨why, hab⟩
  cases hcore with
  | fresh hctrl => simp [hctrl] at hab
  | starting q acc hctrl => simp [hctrl] at hab
  | ready q hctrl => simp [hctrl] at hab
  | requested q cmd acc hctrl => simp [hctrl] at hab
  | answered q cmd acc hctrl => simp [hctrl] at hab
  | stopping q hctrl => simp [hctrl] at hab
  | stopped q hctrl => simp [hctrl] at hab

/-- The calls lead to the state the session is in, or will be in at the end of the call. -/
theorem spec_run {ls : List Label} (hrun : run (sysStep rec) {} ls = some s)
    (hab : ¬ s.session.isAborted) : run Spec.call {} (calls ls) = some s.session.outcome := by
  obtain ⟨is, his, hcalls⟩ := session_run hrun
  rw [← hcalls]
  rcases faithful_run his with habort | hfaithful
  · exact absurd habort hab
  · exact hfaithful.1

/-- **Calls alone decide**: as long as the recorder stays and the system calls succeed, the
session aborts exactly when a call was not allowed, whatever the interleaving. -/
theorem aborts_iff (hdoc : rec.Documented) {ls : List Label}
    (hrun : run (sysStep rec) {} ls = some s) (hgood : ∀ l ∈ ls, l.good) :
    s.session.isAborted ↔ run Spec.call {} (calls ls) = none := by
  have hinv : run (sysStep rec) {} ls = some s ∧ ((∀ l ∈ ls, l.good) →
      (s.session.isAborted ∧ run Spec.call {} (calls ls) = none) ∨ Core rec (calls ls) s) := by
    refine run_history (fun ls s => run (sysStep rec) {} ls = some s ∧ ((∀ l ∈ ls, l.good) →
      (s.session.isAborted ∧ run Spec.call {} (calls ls) = none) ∨ Core rec (calls ls) s))
      ⟨rfl, fun _ => .inr (.fresh rfl rfl rfl rfl rfl rfl)⟩ ?_ hrun
    rintro ls l s s' ⟨hls, ih⟩ hstep
    refine ⟨by rw [run_concat, hls]; exact hstep, fun hgood => ?_⟩
    have hl := hgood l (List.mem_append_right ls List.mem_cons_self)
    rcases ih (fun l hl => hgood l (List.mem_append_left _ hl)) with ⟨hab, -⟩ | hcore
    · rw [sysStep_isAborted hab] at hstep
      cases hstep
    · have hstays : ∀ r, l ≠ .recorderQuits r := by
        rintro r rfl
        exact hl
      rcases core_step hdoc hcore hstep hstays with ⟨hab, c, fails, rfl, hspec⟩ | hcore'
      · refine .inl ⟨hab, ?_⟩
        rw [calls_concat, Label.call?, Option.toList_some, run_concat,
          spec_run hls (core_not_isAborted hcore)]
        exact hspec hl
      · rw [calls_concat]
        exact .inr hcore'
  constructor
  · intro hab
    rcases hinv.2 hgood with ⟨-, hspec⟩ | hcore
    · exact hspec
    · exact absurd hab (core_not_isAborted hcore)
  · intro hspec
    by_contra hab
    rw [spec_run hrun hab] at hspec
    cases hspec

theorem aborts_iff_paused : ∃ s, run (sysStep obedient) {}
      (launchAndPause ++ [.call .pauseRecording none]) = some s ∧
    (s.session.isAborted ↔ run Spec.call {}
      (calls (launchAndPause ++ [.call .pauseRecording none])) = none) := by
  have hrun : run (sysStep obedient) {} (launchAndPause ++ [.call .pauseRecording none]) =
    some _ := rfl
  refine ⟨_, hrun, aborts_iff obedient_documented hrun ?_⟩
  simp [launchAndPause, Label.good]

end PlayWithOpencv.Simpleperf
