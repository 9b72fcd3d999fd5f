import PlayWithOpencv.SimpleperfRecorder

/-! # What session and recorder keep

The invariant of the two processes of `SimpleperfRecorder`.  `Core` says, for each wait of the
session, where the bytes of the command or of the answer are and what the recorder has done; it
holds as long as the recorder stays (`core_step`).  `Lost` is what is left when it is gone
(`lost_step`).  `inv_run` puts the two together for every schedule. -/

namespace PlayWithOpencv.Simpleperf

open PartialRun

variable {R : Type}

/-! ### The invariant -/

/-- Neither signalled nor gone. -/
def Proc.Running (q : Proc R) : Prop := q.signalled = false ∧ q.exit = none

/-- Nothing is on its way between the two. -/
structure Settled (s : System R) (q : Proc R) : Prop where
  control : s.control = []
  reply : s.reply = []
  line : q.line = []
  out : q.out = []

/-- A command is on its way: part of it is read, the rest is in the pipe. -/
structure Requested (s : System R) (q : Proc R) (acc : Str) (cmd : Cmd) : Prop where
  unread : acc = []
  reply : s.reply = []
  out : q.out = []
  pending : s.control ≠ []
  control : q.line ++ s.control = cmd.text ++ ['\n']

/-- A line of the recorder is on its way: `acc` of it is read, the rest is in the pipe or has yet
to be written. -/
structure Answered (s : System R) (q : Proc R) (acc text : Str) : Prop where
  control : s.control = []
  line : q.line = []
  reply : acc ++ (s.reply ++ q.out) = text ++ ['\n']
  pending : s.reply ++ q.out ≠ []

/-- Session and recorder after the calls `cs`, as long as the recorder stays. -/
inductive Core (rec : Recorder R) (cs : List Call) (s : System R) : Prop
  | fresh (hctrl : s.session.ctrl = .idle) (hstate : s.session.state_ = .notYetStarted)
      (hproc : s.proc = none) (hcontrol : s.control = []) (hreply : s.reply = [])
      (hfollow : rec.follow cs = none)
  | starting (q : Proc R) (acc : Str) (hctrl : s.session.ctrl = .startFlag acc)
      (hproc : s.proc = some q) (hq : q.Running) (hfollow : rec.follow cs = some q.st)
      (hrec : rec.recording q.st = true) (hline : Answered s q acc startedLine)
  | ready (q : Proc R) (hctrl : s.session.ctrl = .idle) (hproc : s.proc = some q)
      (hq : q.Running) (hfollow : rec.follow cs = some q.st)
      (hstate : s.session.state_ = if rec.recording q.st then .started else .paused)
      (hset : Settled s q)
  | requested (q : Proc R) (cmd : Cmd) (acc : Str) (hctrl : s.session.ctrl = .cmdReply cmd acc)
      (hproc : s.proc = some q) (hq : q.Running)
      (hfollow : rec.follow cs = some (rec.handle q.st cmd.text).1)
      (hrec : rec.recording q.st = !cmd.records) (hline : Requested s q acc cmd)
  | answered (q : Proc R) (cmd : Cmd) (acc : Str) (hctrl : s.session.ctrl = .cmdReply cmd acc)
      (hproc : s.proc = some q) (hq : q.Running) (hfollow : rec.follow cs = some q.st)
      (hrec : rec.recording q.st = cmd.records) (hline : Answered s q acc okLine)
  | stopping (q : Proc R) (hctrl : s.session.ctrl = .waitpid) (hproc : s.proc = some q)
      (hsig : q.signalled = true) (hexit : q.exit = none ∨ q.exit = some (.exited 0))
      (hreply : s.reply = []) (hcontrol : s.control = []) (hout : q.out = [])
  | stopped (q : Proc R) (hctrl : s.session.ctrl = .idle) (hstate : s.session.state_ = .stopped)
      (hproc : s.proc = some q) (hexit : q.exit ≠ none) (hreply : s.reply = [])

/-- The recorder is gone. -/
structure Lost (s : System R) : Prop where
  gone : s.alive = false
  launched : s.proc ≠ none
  state : s.session.ctrl = .idle → s.session.state_ ≠ .notYetStarted
  reply : s.reply.length ≤ 8

/-! ### Bytes on their way -/

theorem newline_not_mem_text (cmd : Cmd) : '\n' ∉ cmd.text := by
  cases cmd <;> decide

/-- The first newline ends the line. -/
theorem append_newline {a b line : Str} (hline : '\n' ∉ line)
    (h : a ++ '\n' :: b = line ++ ['\n']) : a = line ∧ b = [] := by
  induction a generalizing line with
  | nil =>
      cases line with
      | nil => exact ⟨rfl, by simpa using h⟩
      | cons c line =>
          have hc : '\n' = c := (List.cons.inj h).1
          exact absurd (hc ▸ List.mem_cons_self) hline
  | cons c a ih =>
      cases line with
      | nil => simp at h
      | cons d line =>
          obtain ⟨rfl, h'⟩ := List.cons.inj h
          obtain ⟨rfl, hb⟩ := ih (fun hm => hline (List.mem_cons_of_mem _ hm)) h'
          exact ⟨rfl, hb⟩

/-- A byte that is not a newline is not the last one. -/
theorem append_not_newline {a b line : Str} {c : Char} (hc : c ≠ '\n')
    (h : a ++ c :: b = line ++ ['\n']) : b ≠ [] := by
  rintro rfl
  have hlast := congrArg List.getLast? h
  simp at hlast
  exact hc hlast
variable {rec : Recorder R} {cs : List Call} {s s' : System R} {l : Label}

/-! ### The invariant is kept -/

/-- A call that is not allowed, and the session has aborted. -/
def Misused (s s' : System R) (l : Label) : Prop :=
  s'.session.isAborted ∧ ∃ c fails, l = .call c fails ∧
    (fails = none → s.session.outcome.call c = none)

theorem follow_concat (rec : Recorder R) (cs : List Call) (c : Call) :
    rec.follow (cs ++ [c]) = rec.obey (rec.follow cs) c := by
  simp [Recorder.follow]

theorem called_startFlag {args : List Str} {a : Str} {p : Session}
    (h : p.ctrl = .startFlag a) : s.called rec (.startRecording args) p =
      { s with session := p, proc := some { st := rec.start args, out := startedLine ++ ['\n'] } } := by
  simp [System.called, h]

theorem called_cmdReply {c : Call} {cmd : Cmd} {a : Str} {p : Session}
    (h : p.ctrl = .cmdReply cmd a) : s.called rec c p =
      { s with session := p, control := s.control ++ (cmd.text ++ ['\n']) } := by
  cases c <;> simp [System.called, h]

theorem called_waitpid {c : Call} {p : Session} (h : p.ctrl = .waitpid) : s.called rec c p =
      { s with session := p, proc := s.proc.map fun q => { q with signalled := true } } := by
  cases c <;> simp [System.called, h]

/-- A call that aborts changes nothing else. -/
theorem called_of_isAborted {c : Call} {p : Session} (h : p.isAborted) :
    s.called rec c p = { s with session := p } := by
  obtain ⟨why, hc⟩ := h
  cases c <;> simp [System.called, hc]

/-- Calls in a state that does not allow them. -/
theorem call_misused {c : Call} {fails : Option Abort} (hctrl : s.session.ctrl = .idle)
    (hspec : s.session.outcome.call c = none) :
    Misused s (s.called rec c (s.session.enter c (s.callFails c fails))) (.call c fails) := by
  have hab : (s.session.enter c (s.callFails c fails)).isAborted := by
    rcases enter_spec s.session hctrl c (s.callFails c fails) with hab | ⟨hsome, -⟩
    · exact hab
    · rw [hspec] at hsome
      cases hsome
  refine ⟨?_, c, fails, rfl, fun _ => hspec⟩
  rw [called_of_isAborted hab]
  exact hab

/-- A call that fails has the session abort. -/
theorem call_fails {c : Call} {fails : Option Abort} {why : Abort}
    (hfails : s.callFails c fails = some why) (hf : fails ≠ none) :
    Misused s (s.called rec c (s.session.enter c (s.callFails c fails))) (.call c fails) := by
  have hab : (s.session.enter c (some why)).isAborted := by
    cases c <;> simp only [Session.enter, Session.sendCmd] <;> split_ifs <;>
      exact abort_isAborted _ _
  refine ⟨?_, c, fails, rfl, fun h => absurd h hf⟩
  rw [hfails, called_of_isAborted hab]
  exact hab

/-- Before the launch only `StartRecording` is allowed. -/
theorem fresh_step (hdoc : rec.Documented) (h : Taken rec s l s')
    (hctrl : s.session.ctrl = .idle) (hstate : s.session.state_ = .notYetStarted)
    (hproc : s.proc = none) (hcontrol : s.control = []) (hreply : s.reply = []) :
    Misused s s' l ∨ Core rec (cs ++ l.call?.toList) s' := by
  cases h with
  | call c fails =>
      cases c with
      | startRecording args =>
          cases fails with
          | some why => exact .inl (call_fails rfl (by simp))
          | none =>
              right
              have hp : (s.session.enter (.startRecording args) none).ctrl = .startFlag [] := by
                simp [Session.enter, hstate]
              rw [show s.callFails (.startRecording args) none = none from rfl, called_startFlag hp]
              refine .starting _ [] hp rfl ⟨rfl, rfl⟩ ?_ (hdoc.start_recording args)
                ⟨hcontrol, rfl, ?_, by simp⟩
              · rw [Label.call?, Option.toList_some, follow_concat]
                rfl
              · rw [hreply]
                rfl
      | _ => exact .inl (call_misused hctrl (by simp [Spec.call, Session.outcome, hctrl, hstate]))
  | sessionRead b rest p hr hp => simp [step, hctrl] at hp
  | sessionEof p hr halive hp => simp [step, hctrl] at hp
  | sessionWait q r hq => simp [hproc] at hq
  | recorderRead q b rest hq => simp [hproc] at hq
  | recorderWrite q b rest hq => simp [hproc] at hq
  | recorderExit q hq => simp [hproc] at hq
  | recorderQuits q r hq => simp [hproc] at hq

/-- While a line of the recorder is awaited, it is written and read byte by byte; read to its end
it ends the call. -/
theorem answered_step {q : Proc R} {acc text : Str} (htext : '\n' ∉ text)
    (h : Taken rec s l s') (hl : ∀ r, l ≠ .recorderQuits r)
    (hctrl : s.session.ctrl ≠ .idle) (hwait : s.session.ctrl ≠ .waitpid)
    (hproc : s.proc = some q) (hq : q.Running) (hline : Answered s q acc text) :
    l.call? = none ∧
      ((∃ q', s'.session = s.session ∧ s'.proc = some q' ∧ q'.Running ∧ q'.st = q.st ∧
          Answered s' q' acc text) ∨
        ∃ b p, step s.session (.read (some b)) = some p ∧ s'.session = p ∧ s'.proc = some q ∧
          ((b ≠ '\n' ∧ Answered s' q (acc ++ [b]) text) ∨
            (b = '\n' ∧ acc = text ∧ Settled s' q))) := by
  cases h with
  | call c fails hc => exact absurd hc hctrl
  | sessionRead b rest p hreply hp =>
      refine ⟨rfl, .inr ⟨b, p, hp, rfl, hproc, ?_⟩⟩
      have hbytes := hline.reply
      rw [hreply, List.cons_append] at hbytes
      by_cases hb : b = '\n'
      · subst hb
        obtain ⟨hacc, hrest⟩ := append_newline htext hbytes
        obtain ⟨hrest, hout⟩ := List.append_eq_nil_iff.mp hrest
        exact .inr ⟨rfl, hacc, hline.control, hrest, hline.line, hout⟩
      · refine .inl ⟨hb, hline.control, hline.line, ?_, append_not_newline hb hbytes⟩
        simpa using hbytes
  | sessionEof p hreply halive hp =>
      have : s.alive = true := alive_iff.mpr ⟨q, hproc, hq.2⟩
      rw [this] at halive
      cases halive
  | sessionWait q' r hq' hexit hc => exact absurd hc hwait
  | recorderRead q' b rest hq' hexit hcontrol => simp [hline.control] at hcontrol
  | recorderWrite q' b rest hq' hexit hout =>
      obtain rfl : q = q' := Option.some.inj (hproc.symm.trans hq')
      refine ⟨rfl, .inl ⟨_, rfl, rfl, hq, rfl, hline.control, hline.line, ?_, by simp⟩⟩
      rw [← hline.reply, hout]
      simp
  | recorderExit q' hq' hexit hsig =>
      obtain rfl : q = q' := Option.some.inj (hproc.symm.trans hq')
      simp [hq.1] at hsig
  | recorderQuits q' r => exact absurd rfl (hl r)

theorem newline_not_mem_startedLine : '\n' ∉ startedLine := by decide

theorem newline_not_mem_okLine : '\n' ∉ okLine := by decide

theorem starting_step {q : Proc R} {acc : Str} (h : Taken rec s l s')
    (hl : ∀ r, l ≠ .recorderQuits r) (hctrl : s.session.ctrl = .startFlag acc)
    (hproc : s.proc = some q) (hq : q.Running) (hfollow : rec.follow cs = some q.st)
    (hrec : rec.recording q.st = true) (hline : Answered s q acc startedLine) :
    Core rec (cs ++ l.call?.toList) s' := by
  obtain ⟨hcall, hcases⟩ := answered_step newline_not_mem_startedLine h hl (by simp [hctrl])
    (by simp [hctrl]) hproc hq hline
  rw [hcall, Option.toList_none, List.append_nil]
  rcases hcases with ⟨q', hsession, hproc', hq', hst, hline'⟩ | ⟨b, p, hp, rfl, hproc', hbyte⟩
  · rw [← hst] at hfollow hrec
    exact .starting q' acc (hsession ▸ hctrl) hproc' hq' hfollow hrec hline'
  · simp only [step, hctrl] at hp
    rcases hbyte with ⟨hb, hline'⟩ | ⟨rfl, rfl, hset⟩
    · simp only [readReply, if_neg hb, Bool.false_eq_true, if_false, Option.some.injEq] at hp
      exact .starting q _ (hp ▸ rfl) hproc' hq hfollow hrec hline'
    · simp only [readReply, if_true, Session.startFlagRead, ne_eq, not_true_eq_false, if_false,
        Option.some.injEq] at hp
      refine .ready q (hp ▸ rfl) hproc' hq hfollow ?_ hset
      rw [hrec, ← hp]
      rfl

theorem cmdReply_step {q : Proc R} {cmd : Cmd} {acc : Str} (h : Taken rec s l s')
    (hl : ∀ r, l ≠ .recorderQuits r) (hctrl : s.session.ctrl = .cmdReply cmd acc)
    (hproc : s.proc = some q) (hq : q.Running) (hfollow : rec.follow cs = some q.st)
    (hrec : rec.recording q.st = cmd.records) (hline : Answered s q acc okLine) :
    Core rec (cs ++ l.call?.toList) s' := by
  obtain ⟨hcall, hcases⟩ := answered_step newline_not_mem_okLine h hl (by simp [hctrl])
    (by simp [hctrl]) hproc hq hline
  rw [hcall, Option.toList_none, List.append_nil]
  rcases hcases with ⟨q', hsession, hproc', hq', hst, hline'⟩ | ⟨b, p, hp, rfl, hproc', hbyte⟩
  · rw [← hst] at hfollow hrec
    exact .answered q' cmd acc (hsession ▸ hctrl) hproc' hq' hfollow hrec hline'
  · simp only [step, hctrl] at hp
    rcases hbyte with ⟨hb, hline'⟩ | ⟨rfl, rfl, hset⟩
    · simp only [readReply, if_neg hb, Bool.false_eq_true, if_false, Option.some.injEq] at hp
      exact .answered q cmd _ (hp ▸ rfl) hproc' hq hfollow hrec hline'
    · simp only [readReply, if_true, Session.replyRead, ne_eq, not_true_eq_false, if_false,
        Option.some.injEq] at hp
      refine .ready q (hp ▸ rfl) hproc' hq hfollow ?_ hset
      rw [hrec, ← hp]
      cases cmd <;> rfl

/-- A command is read byte by byte; its newline has the recorder carry it out. -/
theorem requested_step (hdoc : rec.Documented) {q : Proc R} {cmd : Cmd} {acc : Str}
    (h : Taken rec s l s') (hl : ∀ r, l ≠ .recorderQuits r)
    (hctrl : s.session.ctrl = .cmdReply cmd acc) (hproc : s.proc = some q) (hq : q.Running)
    (hfollow : rec.follow cs = some (rec.handle q.st cmd.text).1)
    (hrec : rec.recording q.st = !cmd.records) (hline : Requested s q acc cmd) :
    Core rec (cs ++ l.call?.toList) s' := by
  cases h with
  | call c fails hc => simp [hctrl] at hc
  | sessionRead b rest p hreply hp => simp [hline.reply] at hreply
  | sessionEof p hreply halive hp =>
      have : s.alive = true := alive_iff.mpr ⟨q, hproc, hq.2⟩
      rw [this] at halive
      cases halive
  | sessionWait q' r hq' hexit hc => simp [hctrl] at hc
  | recorderRead q' b rest hq' hexit hcontrol =>
      obtain rfl : q = q' := Option.some.inj (hproc.symm.trans hq')
      have hbytes := hline.control
      rw [hcontrol] at hbytes
      show Core rec (cs ++ []) _
      rw [List.append_nil]
      by_cases hb : b = '\n'
      · subst hb
        obtain ⟨htext, rfl⟩ := append_newline (newline_not_mem_text cmd) hbytes
        have hread : q.read rec '\n' = { q with
            st := (rec.handle q.st cmd.text).1, line := [], out := okLine ++ ['\n'] } := by
          rw [Proc.read, if_pos rfl, htext, hline.out, hdoc.handle_ok q.st cmd hrec, List.nil_append]
        rw [hread]
        refine .answered _ cmd acc hctrl rfl hq hfollow (hdoc.handle_recording q.st cmd hrec)
          ⟨rfl, rfl, ?_, by simp⟩
        rw [hline.unread, hline.reply]
        rfl
      · have hread : q.read rec b = { q with line := q.line ++ [b] } := by rw [Proc.read, if_neg hb]
        rw [hread]
        refine .requested _ cmd acc hctrl rfl hq hfollow hrec ⟨hline.unread, hline.reply, hline.out,
          append_not_newline hb hbytes, ?_⟩
        simpa using hbytes
  | recorderWrite q' b rest hq' hexit hout =>
      obtain rfl : q = q' := Option.some.inj (hproc.symm.trans hq')
      simp [hline.out] at hout
  | recorderExit q' hq' hexit hsig =>
      obtain rfl : q = q' := Option.some.inj (hproc.symm.trans hq')
      simp [hq.1] at hsig
  | recorderQuits q' r => exact absurd rfl (hl r)

/-- Between two calls the recorder waits for the next one. -/
theorem ready_step {q : Proc R} (h : Taken rec s l s') (hl : ∀ r, l ≠ .recorderQuits r)
    (hctrl : s.session.ctrl = .idle) (hproc : s.proc = some q) (hq : q.Running)
    (hfollow : rec.follow cs = some q.st)
    (hstate : s.session.state_ = if rec.recording q.st then .started else .paused)
    (hset : Settled s q) : Misused s s' l ∨ Core rec (cs ++ l.call?.toList) s' := by
  have halive : s.alive = true := alive_iff.mpr ⟨q, hproc, hq.2⟩
  cases h with
  | call c fails =>
      have hfails : s.callFails c fails = fails := by cases c <;> simp [System.callFails, halive]
      cases hspec : s.session.outcome.call c with
      | none => exact .inl (call_misused hctrl hspec)
      | some t =>
          cases hf : fails with
          | some why =>
              left
              rw [← hf]
              exact call_fails (hfails.trans hf) (by simp [hf])
          | none =>
              right
              rw [← hf, hfails, hf]
              rw [Label.call?, Option.toList_some]
              have hout : s.session.outcome = ⟨s.session.state_, s.session.trace_offcpu_⟩ := by
                rw [Session.outcome, hctrl]
              rw [hout] at hspec
              cases c with
              | startRecording args =>
                  exfalso
                  revert hspec
                  rw [hstate]
                  split_ifs <;> simp [Spec.call]
              | pauseRecording =>
                  obtain ⟨⟨hs, ht⟩, -⟩ : (s.session.state_ = .started ∧
                      s.session.trace_offcpu_ = false) ∧ _ := by simpa [Spec.call] using hspec
                  have hrec : rec.recording q.st = true := by
                    by_contra hrec
                    rw [hstate, if_neg hrec] at hs
                    cases hs
                  have hp : (s.session.enter .pauseRecording none).ctrl = .cmdReply .pause [] := by
                    simp [Session.enter, Session.sendCmd, hs, ht]
                  rw [called_cmdReply hp]
                  refine .requested q .pause [] hp hproc hq ?_ hrec
                    ⟨rfl, hset.reply, hset.out, by simp, ?_⟩
                  · rw [follow_concat, hfollow]
                    rfl
                  · simp [hset.line, hset.control]
              | resumeRecording =>
                  obtain ⟨hs, -⟩ : s.session.state_ = .paused ∧ _ := by simpa [Spec.call] using hspec
                  have hrec : rec.recording q.st = false := by
                    by_contra hrec
                    rw [hstate, if_pos (by simpa using hrec)] at hs
                    cases hs
                  have hp : (s.session.enter .resumeRecording none).ctrl = .cmdReply .resume [] := by
                    simp [Session.enter, Session.sendCmd, hs]
                  rw [called_cmdReply hp]
                  refine .requested q .resume [] hp hproc hq ?_ hrec
                    ⟨rfl, hset.reply, hset.out, by simp, ?_⟩
                  · rw [follow_concat, hfollow]
                    rfl
                  · simp [hset.line, hset.control]
              | stopRecording =>
                  have hs : ¬ (s.session.state_ ≠ .started ∧ s.session.state_ ≠ .paused) := by
                    rw [hstate]
                    split_ifs <;> simp
                  have hp : (s.session.enter .stopRecording none).ctrl = .waitpid := by
                    simp [Session.enter, if_neg hs]
                  rw [called_waitpid hp]
                  exact .stopping { q with signalled := true } hp (by rw [hproc]; rfl) rfl
                    (.inl hq.2) hset.reply hset.control hset.out
  | sessionRead b rest p hreply hp => simp [hset.reply] at hreply
  | sessionEof p hreply hdead hp =>
      rw [halive] at hdead
      cases hdead
  | sessionWait q' r hq' hexit hc => simp [hctrl] at hc
  | recorderRead q' b rest hq' hexit hcontrol => simp [hset.control] at hcontrol
  | recorderWrite q' b rest hq' hexit hout =>
      obtain rfl : q = q' := Option.some.inj (hproc.symm.trans hq')
      simp [hset.out] at hout
  | recorderExit q' hq' hexit hsig =>
      obtain rfl : q = q' := Option.some.inj (hproc.symm.trans hq')
      simp [hq.1] at hsig
  | recorderQuits q' r => exact absurd rfl (hl r)

/-- Once the signal is sent, the recorder ends and the session takes note of it. -/
theorem stopping_step {q : Proc R} (h : Taken rec s l s') (hl : ∀ r, l ≠ .recorderQuits r)
    (hctrl : s.session.ctrl = .waitpid) (hproc : s.proc = some q)
    (hexit : q.exit = none ∨ q.exit = some (.exited 0)) (hreply : s.reply = [])
    (hcontrol : s.control = []) (hout : q.out = []) : Core rec (cs ++ l.call?.toList) s' := by
  cases h with
  | call c fails hc => simp [hctrl] at hc
  | sessionRead b rest p hr hp => simp [hreply] at hr
  | sessionEof p hr halive hp => simp [step, hctrl] at hp
  | sessionWait q' r hq' hexit' hc =>
      obtain rfl : q = q' := Option.some.inj (hproc.symm.trans hq')
      obtain rfl : r = .exited 0 := by
        rcases hexit with hnone | hzero
        · simp [hnone] at hexit'
        · simpa [hexit'] using hzero
      exact .stopped q rfl rfl hproc (by simp [hexit']) hreply
  | recorderRead q' b rest hq' hexit' hc => simp [hcontrol] at hc
  | recorderWrite q' b rest hq' hexit' ho =>
      obtain rfl : q = q' := Option.some.inj (hproc.symm.trans hq')
      simp [hout] at ho
  | recorderExit q' hq' hexit' hsig' =>
      exact .stopping { q' with exit := some (.exited 0) } hctrl rfl hsig' (.inr rfl) hreply
        hcontrol (by obtain rfl : q = q' := Option.some.inj (hproc.symm.trans hq'); exact hout)
  | recorderQuits q' r => exact absurd rfl (hl r)

/-- After the stop no call is allowed. -/
theorem stopped_step {q : Proc R} (h : Taken rec s l s') (hctrl : s.session.ctrl = .idle)
    (hstate : s.session.state_ = .stopped) (hproc : s.proc = some q) (hexit : q.exit ≠ none) :
    Misused s s' l := by
  have hgone : ∀ q', s.proc = some q' → q'.exit ≠ none := by
    intro q' hq'
    obtain rfl : q = q' := Option.some.inj (hproc.symm.trans hq')
    exact hexit
  cases h with
  | call c fails =>
      exact call_misused hctrl (by cases c <;> simp [Spec.call, Session.outcome, hctrl, hstate])
  | sessionRead b rest p hr hp => simp [step, hctrl] at hp
  | sessionEof p hr halive hp => simp [step, hctrl] at hp
  | sessionWait q' r hq' hexit' hc => simp [hctrl] at hc
  | recorderRead q' b rest hq' hexit' => exact absurd hexit' (hgone q' hq')
  | recorderWrite q' b rest hq' hexit' => exact absurd hexit' (hgone q' hq')
  | recorderExit q' hq' hexit' => exact absurd hexit' (hgone q' hq')
  | recorderQuits q' r hq' hexit' => exact absurd hexit' (hgone q' hq')

/-- **Step lemma**: as long as the recorder stays, session and recorder agree, or the step is a
call that aborts. -/
theorem core_step (hdoc : rec.Documented) (hcore : Core rec cs s)
    (hstep : sysStep rec s l = some s') (hl : ∀ r, l ≠ .recorderQuits r) :
    Misused s s' l ∨ Core rec (cs ++ l.call?.toList) s' := by
  have h := sysStep_taken hstep
  cases hcore with
  | fresh hctrl hstate hproc hcontrol hreply =>
      exact fresh_step hdoc h hctrl hstate hproc hcontrol hreply
  | starting q acc hctrl hproc hq hfollow hrec hline =>
      exact .inr (starting_step h hl hctrl hproc hq hfollow hrec hline)
  | ready q hctrl hproc hq hfollow hstate hset =>
      exact ready_step h hl hctrl hproc hq hfollow hstate hset
  | requested q cmd acc hctrl hproc hq hfollow hrec hline =>
      exact .inr (requested_step hdoc h hl hctrl hproc hq hfollow hrec hline)
  | answered q cmd acc hctrl hproc hq hfollow hrec hline =>
      exact .inr (cmdReply_step h hl hctrl hproc hq hfollow hrec hline)
  | stopping q hctrl hproc hsig hexit hreply hcontrol hout =>
      exact .inr (stopping_step h hl hctrl hproc hexit hreply hcontrol hout)
  | stopped q hctrl hstate hproc hexit hreply =>
      exact .inl (stopped_step h hctrl hstate hproc hexit)

/-! ### The recorder may be gone -/

theorem core_reply_length (hcore : Core rec cs s) : s.reply.length ≤ 8 := by
  have hbytes : ∀ {q : Proc R} {acc text : Str}, Answered s q acc text →
      s.reply.length ≤ text.length + 1 := by
    intro q acc text hline
    have hlen := congrArg List.length hline.reply
    simp only [List.length_append, List.length_singleton] at hlen
    omega
  cases hcore with
  | fresh _ _ _ _ hreply _ => simp [hreply]
  | starting q acc _ _ _ _ _ hline => exact hbytes hline
  | ready q _ _ _ _ _ hset => simp [hset.reply]
  | requested q cmd acc _ _ _ _ _ hline => simp [hline.reply]
  | answered q cmd acc _ _ _ _ _ hline => exact Nat.le_trans (hbytes hline) (by decide)
  | stopping q _ _ _ _ hreply _ _ => simp [hreply]
  | stopped q _ _ _ _ hreply => simp [hreply]

theorem core_quits (hcore : Core rec cs s) {r : WaitResult}
    (h : Taken rec s (.recorderQuits r) s') : Lost s' := by
  have hreply := core_reply_length hcore
  cases h with
  | recorderQuits q _ hproc hexit =>
      refine ⟨rfl, by simp, fun hidle => ?_, hreply⟩
      cases hcore with
      | fresh _ _ hnone => simp [hnone] at hproc
      | starting q acc hctrl => exact absurd (hctrl.symm.trans hidle) (by simp)
      | ready q _ _ _ _ hstate _ =>
          show s.session.state_ ≠ _
          rw [hstate]
          split_ifs <;> simp
      | requested q cmd acc hctrl => exact absurd (hctrl.symm.trans hidle) (by simp)
      | answered q cmd acc hctrl => exact absurd (hctrl.symm.trans hidle) (by simp)
      | stopping q hctrl => exact absurd (hctrl.symm.trans hidle) (by simp)
      | stopped q _ hstate =>
          show s.session.state_ ≠ _
          simp [hstate]

/-- A call that returns leaves the session started. -/
theorem idle_state {p p' : Session} {i : Input} (hp : p.ctrl ≠ .idle)
    (h : step p i = some p') (hidle : p'.ctrl = .idle) : p'.state_ ≠ .notYetStarted := by
  cases i with
  | call c fails => simp [step, hp] at h
  | read c =>
      simp only [step] at h
      split at h
      next acc hc =>
        obtain rfl := Option.some.inj h
        revert hidle
        simp only [Session.startFlagRead]
        split_ifs <;> simp [Session.abort]
      next cmd acc hc =>
        obtain rfl := Option.some.inj h
        revert hidle
        simp only [Session.replyRead]
        split_ifs <;> cases cmd <;> simp [Session.abort, Cmd.target]
      next => cases h
  | waited r =>
      simp only [step] at h
      split_ifs at h
      obtain rfl := Option.some.inj h
      revert hidle
      cases r with
      | exited status =>
          simp only [Session.waitReturned]
          split_ifs <;> simp [Session.abort]
      | _ => simp [Session.waitReturned, Session.abort]

/-- Without the recorder a command has the session abort, and a stop is still taken note of. -/
theorem lost_step (hlost : Lost s) (h : Taken rec s l s') : s'.session.isAborted ∨ Lost s' := by
  have hgone : ∀ q, s.proc = some q → q.exit ≠ none := by
    intro q hproc hexit
    have hdead := hlost.gone
    rw [alive_iff.mpr ⟨q, hproc, hexit⟩] at hdead
    cases hdead
  cases h with
  | call c fails hctrl =>
      have hstate := hlost.state hctrl
      have hcalled : ∀ p : Session, p.isAborted → (s.called rec c p).session.isAborted := by
        intro p hp
        rw [called_of_isAborted hp]
        exact hp
      cases c with
      | startRecording args => exact .inl (hcalled _ (by simp [Session.enter, hstate]))
      | pauseRecording =>
          refine .inl (hcalled _ ?_)
          simp only [Session.enter, System.callFails, hlost.gone, Session.sendCmd,
            Bool.false_eq_true, if_false]
          split_ifs <;> exact abort_isAborted _ _
      | resumeRecording =>
          refine .inl (hcalled _ ?_)
          simp only [Session.enter, System.callFails, hlost.gone, Session.sendCmd,
            Bool.false_eq_true, if_false]
          split_ifs <;> exact abort_isAborted _ _
      | stopRecording =>
          by_cases hs : s.session.state_ ≠ .started ∧ s.session.state_ ≠ .paused
          · exact .inl (hcalled _ (by simp [Session.enter, hs]))
          · cases hf : fails with
            | some why => exact .inl (hcalled _ (by simp [Session.enter, System.callFails, hs]))
            | none =>
                have hp : (s.session.enter .stopRecording none).ctrl = .waitpid := by
                  simp [Session.enter, if_neg hs]
                rw [show s.callFails .stopRecording none = none from rfl, called_waitpid hp]
                obtain ⟨q, hproc⟩ := Option.ne_none_iff_exists'.mp hlost.launched
                refine .inr ⟨?_, by simp [hproc], fun hidle => ?_, hlost.reply⟩
                · have hdead := hlost.gone
                  simpa [System.alive, hproc] using hdead
                · rw [hp] at hidle
                  cases hidle
  | sessionRead b rest p hreply hp =>
      have hc : s.session.ctrl ≠ .idle := by
        intro hc
        simp [step, hc] at hp
      refine .inr ⟨hlost.gone, hlost.launched, idle_state hc hp, ?_⟩
      have hlen := hlost.reply
      rw [hreply, List.length_cons] at hlen
      show rest.length ≤ 8
      omega
  | sessionEof p hreply halive hp =>
      have hc : s.session.ctrl ≠ .idle := by
        intro hc
        simp [step, hc] at hp
      exact .inr ⟨hlost.gone, hlost.launched, idle_state hc hp, hlost.reply⟩
  | sessionWait q r hproc hexit hctrl =>
      refine .inr ⟨hlost.gone, hlost.launched, ?_, hlost.reply⟩
      exact idle_state (p := s.session) (i := .waited r) (by simp [hctrl]) (by simp [step, hctrl])
  | recorderRead q b rest hproc hexit => exact absurd hexit (hgone q hproc)
  | recorderWrite q b rest hproc hexit => exact absurd hexit (hgone q hproc)
  | recorderExit q hproc hexit => exact absurd hexit (hgone q hproc)
  | recorderQuits q r hproc hexit => exact absurd hexit (hgone q hproc)

/-! ### Every interleaving -/

/-- Session and recorder after a schedule: the session has aborted, or the recorder is gone, or
they agree. -/
def Inv (rec : Recorder R) (ls : List Label) (s : System R) : Prop :=
  s.session.isAborted ∨ Lost s ∨ Core rec (calls ls) s

theorem calls_concat (ls : List Label) (l : Label) :
    calls (ls ++ [l]) = calls ls ++ l.call?.toList := by
  cases l <;> simp [calls, Label.call?]

theorem inv_init : Inv rec [] ({} : System R) := .inr (.inr (.fresh rfl rfl rfl rfl rfl rfl))

theorem inv_step (hdoc : rec.Documented) {ls : List Label} (hinv : Inv rec ls s)
    (hstep : sysStep rec s l = some s') : Inv rec (ls ++ [l]) s' := by
  rcases hinv with hab | hlost | hcore
  · rw [sysStep_isAborted hab] at hstep
    cases hstep
  · exact (lost_step hlost (sysStep_taken hstep)).imp_right .inl
  · by_cases hl : ∀ r, l ≠ .recorderQuits r
    · rcases core_step hdoc hcore hstep hl with ⟨hab, -⟩ | hcore'
      · exact .inl hab
      · rw [Inv, calls_concat]
        exact .inr (.inr hcore')
    · obtain ⟨r, rfl⟩ : ∃ r, l = .recorderQuits r := by simpa using hl
      exact .inr (.inl (core_quits hcore (sysStep_taken hstep)))

theorem inv_run (hdoc : rec.Documented) {ls : List Label}
    (hrun : run (sysStep rec) {} ls = some s) : Inv rec ls s :=
  run_history (Inv rec) inv_init (fun _ _ _ _ hinv hstep => inv_step hdoc hinv hstep) hrun

end PlayWithOpencv.Simpleperf
