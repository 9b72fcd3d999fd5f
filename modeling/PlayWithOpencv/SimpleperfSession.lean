import PlayWithOpencv.PartialRun

/-! # A profiling session

The embedding of `ProfileSessionImpl` of `perftest/simpleperf.cpp`: the calls of the session, the
lines it sends to the recorder, and the loop of `ReadReply` that waits for an answer.  A call
holds `lock_` until it returns, so the next one begins when none is in progress.

`step` takes a session from one point where it waits for the outside to the next: a call begins, a
byte of the reply pipe arrives, `waitpid` returns.  What the system calls of a call come to up to
its first wait is part of the input.

* `Spec` says what the calls mean, without pipes and processes: which call is allowed when, and
  what it leaves behind.
* `session_refines`: whatever the peer answers, a session that is not aborted has been given calls
  that `Spec` allows, is in the state `Spec` gives them, and has read `started` for the first call
  and `ok` for each command, in the order of the calls, and no byte besides. -/

namespace PlayWithOpencv.Simpleperf

open PartialRun

/-- A `std::string`, as its bytes. -/
abbrev Str := List Char

/-! ### The session -/

/-- `ProfileSessionImpl::State`. -/
inductive State where
  | notYetStarted
  | started
  | paused
  | stopped
deriving DecidableEq, Repr

/-- The commands of the control pipe. -/
inductive Cmd where
  | pause
  | resume
deriving DecidableEq, Repr

def Cmd.text : Cmd → Str
  | pause => "pause".toList
  | resume => "resume".toList

/-- The line the recorder sends when it has started. -/
def startedLine : Str := "started".toList

/-- Its answer to a command. -/
def okLine : Str := "ok".toList

/-- The state a command leaves behind. -/
def Cmd.target : Cmd → State
  | pause => .paused
  | resume => .started

/-- A call of the session. -/
inductive Call where
  | startRecording (args : List Str)
  | pauseRecording
  | resumeRecording
  | stopRecording
deriving DecidableEq, Repr

/-- Why the session aborts. -/
inductive Abort where
  | wrongState (c : Call) (s : State)
  | noSimpleperf
  | perfDisabled
  | dataDir
  | pipe
  | fork
  | noStartFlag
  | traceOffcpu
  | sendCmd
  | runCmd (cmd : Cmd)
  | kill
  | waitpid
  | exitStatus
deriving DecidableEq, Repr

/-- The format of the message. -/
def Abort.fmt : Abort → String
  | wrongState (.startRecording _) _ => "startRecording: session in wrong state %d"
  | wrongState .pauseRecording _ => "pauseRecording: session in wrong state %d"
  | wrongState .resumeRecording _ => "resumeRecording: session in wrong state %d"
  | wrongState .stopRecording _ => "stopRecording: session in wrong state %d"
  | noSimpleperf => "can't find simpleperf on device. Please run api_profiler.py."
  | perfDisabled => "linux perf events aren't enabled on the device. Please run api_profiler.py."
  | dataDir => "failed to create simpleperf data dir %s: %s"
  | pipe => "failed to call pipe: %s"
  | fork => "failed to fork: %s"
  | noStartFlag => "failed to receive simpleperf start flag. Please run api_profiler.py"
  | traceOffcpu => "--trace-offcpu doesn't work well with pause/resume recording"
  | sendCmd => "failed to send cmd to simpleperf: %s"
  | runCmd _ => "failed to run cmd in simpleperf: %s"
  | kill => "failed to stop simpleperf: %s"
  | waitpid => "failed to call waitpid: %s"
  | exitStatus => "simpleperf exited with error, status = 0x%x"

/-- Where the thread that holds `lock_` waits: nowhere, in `ReadReply` with the bytes read so far,
or in `waitpid`. -/
inductive Ctrl where
  | idle
  | startFlag (s : Str)
  | cmdReply (cmd : Cmd) (s : Str)
  | waitpid
  | aborted (why : Abort)
deriving DecidableEq, Repr

/-- The members `lock_` protects, and where the call in progress is. -/
structure Session where
  state_ : State := .notYetStarted
  trace_offcpu_ : Bool := false
  ctrl : Ctrl := .idle
deriving DecidableEq, Repr

def Session.abort (p : Session) (why : Abort) : Session := { p with ctrl := .aborted why }

/-- What `waitpid` gives: an error, the exit status of the process, or a death by signal. -/
inductive WaitResult where
  | failed
  | exited (status : ℕ)
  | signaled
deriving DecidableEq, Repr

/-- What the session receives.  A call comes with the reason for which its system calls up to the
first wait fail, if they do; a `read` with a byte, or with nothing at the end of the file and on
an error. -/
inductive Input where
  | call (c : Call) (fails : Option Abort)
  | read (c : Option Char)
  | waited (r : WaitResult)
deriving DecidableEq, Repr

/-- `SendCmd`, up to `ReadReply`. -/
def Session.sendCmd (p : Session) (cmd : Cmd) : Option Abort → Session
  | some why => p.abort why
  | none => { p with ctrl := .cmdReply cmd [] }

/-- A call, up to its first wait. -/
def Session.enter (p : Session) : Call → Option Abort → Session
  | .startRecording args, fails =>
      if p.state_ ≠ .notYetStarted then p.abort (.wrongState (.startRecording args) p.state_)
      else
        let p := { p with
          trace_offcpu_ := p.trace_offcpu_ || args.contains "--trace-offcpu".toList }
        match fails with
        | some why => p.abort why
        | none => { p with ctrl := .startFlag [] }
  | .pauseRecording, fails =>
      if p.state_ ≠ .started then p.abort (.wrongState .pauseRecording p.state_)
      else if p.trace_offcpu_ then p.abort .traceOffcpu
      else p.sendCmd .pause fails
  | .resumeRecording, fails =>
      if p.state_ ≠ .paused then p.abort (.wrongState .resumeRecording p.state_)
      else p.sendCmd .resume fails
  | .stopRecording, fails =>
      if p.state_ ≠ .started ∧ p.state_ ≠ .paused then
        p.abort (.wrongState .stopRecording p.state_)
      else match fails with
        | some why => p.abort why
        | none => { p with ctrl := .waitpid }

/-- A pass of the loop of `ReadReply`: the bytes read, and whether the loop is left. -/
def readReply (s : Str) : Option Char → Str × Bool
  | none => (s, true)
  | some c => if c = '\n' then (s, true) else (s ++ [c], false)

/-- The end of `CreateSimpleperfProcess` and of `StartRecording`. -/
def Session.startFlagRead (p : Session) (start_flag : Str) : Session :=
  if start_flag ≠ startedLine then p.abort .noStartFlag
  else { p with state_ := .started, ctrl := .idle }

/-- The end of `SendCmd` and of the call that made it. -/
def Session.replyRead (p : Session) (cmd : Cmd) (reply : Str) : Session :=
  if reply ≠ okLine then p.abort (.runCmd cmd)
  else { p with state_ := cmd.target, ctrl := .idle }

/-- The end of `StopRecording`. -/
def Session.waitReturned (p : Session) : WaitResult → Session
  | .failed => p.abort .waitpid
  | .exited status =>
      if status ≠ 0 then p.abort .exitStatus else { p with state_ := .stopped, ctrl := .idle }
  | .signaled => p.abort .exitStatus

/-- From one wait to the next. -/
def step (p : Session) : Input → Option Session
  | .call c fails => if p.ctrl = .idle then some (p.enter c fails) else none
  | .read c =>
      match p.ctrl with
      | .startFlag s =>
          some (if (readReply s c).2 then p.startFlagRead (readReply s c).1
            else { p with ctrl := .startFlag (readReply s c).1 })
      | .cmdReply cmd s =>
          some (if (readReply s c).2 then p.replyRead cmd (readReply s c).1
            else { p with ctrl := .cmdReply cmd (readReply s c).1 })
      | _ => none
  | .waited r => if p.ctrl = .waitpid then some (p.waitReturned r) else none

/-! ### What the calls mean -/

/-- A session without pipes and processes. -/
structure Spec where
  state : State := .notYetStarted
  offCpu : Bool := false
deriving DecidableEq, Repr

/-- The calls that are allowed, and what they leave behind. -/
def Spec.call (t : Spec) : Call → Option Spec
  | .startRecording args =>
      if t.state = .notYetStarted then
        some ⟨.started, t.offCpu || args.contains "--trace-offcpu".toList⟩
      else none
  | .pauseRecording =>
      if t.state = .started ∧ t.offCpu = false then some { t with state := .paused } else none
  | .resumeRecording => if t.state = .paused then some { t with state := .started } else none
  | .stopRecording =>
      if t.state = .started ∨ t.state = .paused then some { t with state := .stopped } else none

/-- The answer a call waits for. -/
def Call.awaits : Call → Option Str
  | .startRecording _ => some startedLine
  | .pauseRecording => some okLine
  | .resumeRecording => some okLine
  | .stopRecording => none

def Input.call? : Input → Option Call
  | .call c _ => some c
  | _ => none

def Input.read? : Input → Option (Option Char)
  | .read c => some c
  | _ => none

/-- The calls among the inputs. -/
def callsOf (is : List Input) : List Call := is.filterMap Input.call?

/-- What was read from the reply pipe. -/
def readsOf (is : List Input) : List (Option Char) := is.filterMap Input.read?

/-- The answers as they are read, each up to a newline or to where nothing more can be read. -/
inductive Lines : List Str → List (Option Char) → Prop
  | nil : Lines [] []
  | concat {rs : List Str} {bytes : List (Option Char)} {r : Str} {e : Option Char}
      (h : Lines rs bytes) (he : e = none ∨ e = some '\n') :
      Lines (rs ++ [r]) (bytes ++ (r.map some ++ [e]))

/-- What the call in progress will leave behind. -/
def Session.outcome (p : Session) : Spec :=
  ⟨match p.ctrl with
    | .startFlag _ => .started
    | .cmdReply cmd _ => cmd.target
    | .waitpid => .stopped
    | _ => p.state_, p.trace_offcpu_⟩

/-- The answer the call in progress waits for. -/
def Ctrl.awaits : Ctrl → Option Str
  | .startFlag _ => some startedLine
  | .cmdReply _ _ => some okLine
  | _ => none

/-- The bytes of the answer that were read. -/
def Ctrl.received : Ctrl → Str
  | .startFlag s => s
  | .cmdReply _ s => s
  | _ => []

def Session.isAborted (p : Session) : Prop := ∃ why, p.ctrl = .aborted why

/-! ### One step -/

@[simp] theorem abort_isAborted (p : Session) (why : Abort) : (p.abort why).isAborted := ⟨why, rfl⟩

/-- A call that does not abort is one the specification allows. -/
theorem enter_spec (p : Session) (hidle : p.ctrl = .idle) (c : Call) (fails : Option Abort) :
    (p.enter c fails).isAborted ∨
      (p.outcome.call c = some (p.enter c fails).outcome ∧
        (p.enter c fails).ctrl.awaits = c.awaits ∧ (p.enter c fails).ctrl.received = []) := by
  have hout : p.outcome = ⟨p.state_, p.trace_offcpu_⟩ := by rw [Session.outcome, hidle]
  rw [hout]
  cases c with
  | startRecording args =>
      by_cases hs : p.state_ = .notYetStarted
      · cases fails with
        | some why => left; simp [Session.enter, hs]
        | none =>
            right
            simp [Session.enter, Spec.call, Session.outcome, Ctrl.awaits, Call.awaits,
              Ctrl.received, hs]
      · left; simp [Session.enter, hs]
  | pauseRecording =>
      by_cases hs : p.state_ = .started
      · cases ht : p.trace_offcpu_ with
        | true => left; simp [Session.enter, hs, ht]
        | false =>
            cases fails with
            | some why => left; simp [Session.enter, Session.sendCmd, hs, ht]
            | none =>
                right
                simp [Session.enter, Session.sendCmd, Spec.call, Session.outcome, Cmd.target,
                  Ctrl.awaits, Call.awaits, Ctrl.received, hs, ht]
      · left; simp [Session.enter, hs]
  | resumeRecording =>
      by_cases hs : p.state_ = .paused
      · cases fails with
        | some why => left; simp [Session.enter, Session.sendCmd, hs]
        | none =>
            right
            simp [Session.enter, Session.sendCmd, Spec.call, Session.outcome, Cmd.target,
              Ctrl.awaits, Call.awaits, Ctrl.received, hs]
      · left; simp [Session.enter, hs]
  | stopRecording =>
      by_cases hs : p.state_ = .started ∨ p.state_ = .paused
      · have hs' : ¬ (p.state_ ≠ .started ∧ p.state_ ≠ .paused) := by tauto
        cases fails with
        | some why => left; simp [Session.enter, if_neg hs']
        | none =>
            right
            simp [Session.enter, Spec.call, Session.outcome, Ctrl.awaits, Call.awaits,
              Ctrl.received, if_neg hs', hs]
      · left
        have hs' : p.state_ ≠ .started ∧ p.state_ ≠ .paused := by tauto
        simp [Session.enter, hs']

/-- A byte read goes on with the answer, or it ends it: the answer is the awaited one, or the
session aborts. -/
theorem read_spec {p p' : Session} {c : Option Char} (h : step p (.read c) = some p') :
    p'.isAborted ∨
      (p'.outcome = p.outcome ∧
        ((∃ b, c = some b ∧ p'.ctrl.received = p.ctrl.received ++ [b] ∧
            p'.ctrl.awaits = p.ctrl.awaits) ∨
          ((c = none ∨ c = some '\n') ∧ p.ctrl.awaits = some p.ctrl.received ∧
            p'.ctrl = .idle))) := by
  have hread : ∀ s : Str, (∃ b, c = some b ∧ readReply s c = (s ++ [b], false)) ∨
      ((c = none ∨ c = some '\n') ∧ readReply s c = (s, true)) := by
    intro s
    cases c with
    | none => simp [readReply]
    | some b =>
        by_cases hb : b = '\n'
        · simp [readReply, hb]
        · simp [readReply, hb]
  unfold step at h
  cases hc : p.ctrl with
  | startFlag s =>
      simp only [hc] at h
      obtain rfl := Option.some.inj h
      rcases hread s with ⟨b, hb, hr⟩ | ⟨hend, hr⟩
      · right
        rw [hr, hb]
        simp [hc, Session.outcome, Ctrl.received, Ctrl.awaits]
      · by_cases hs : s = startedLine
        · right
          rw [hr, hs]
          simp [hend, hc, Session.startFlagRead, Session.outcome, Ctrl.received, Ctrl.awaits]
        · left
          simp [hr, Session.startFlagRead, hs]
  | cmdReply cmd s =>
      simp only [hc] at h
      obtain rfl := Option.some.inj h
      rcases hread s with ⟨b, hb, hr⟩ | ⟨hend, hr⟩
      · right
        rw [hr, hb]
        simp [hc, Session.outcome, Ctrl.received, Ctrl.awaits]
      · by_cases hs : s = okLine
        · right
          rw [hr, hs]
          simp [hend, hc, Session.replyRead, Session.outcome, Ctrl.received, Ctrl.awaits]
        · left
          simp [hr, Session.replyRead, hs]
  | idle => simp [hc] at h
  | waitpid => simp [hc] at h
  | aborted why => simp [hc] at h

theorem waited_spec {p p' : Session} {r : WaitResult} (h : step p (.waited r) = some p') :
    p'.isAborted ∨ (p'.outcome = p.outcome ∧ p.ctrl = .waitpid ∧ p'.ctrl = .idle) := by
  by_cases hc : p.ctrl = .waitpid
  · simp only [step, if_pos hc] at h
    obtain rfl := Option.some.inj h
    cases r with
    | failed => left; simp [Session.waitReturned]
    | signaled => left; simp [Session.waitReturned]
    | exited status =>
        by_cases hs : status = 0
        · right; simp [Session.waitReturned, Session.outcome, hs, hc]
        · left; simp [Session.waitReturned, hs]
  · simp [step, hc] at h

/-! ### Every run -/

/-- What a session owes to its calls: the state they mean, and the answers they wait for. -/
def Faithful (is : List Input) (p : Session) : Prop :=
  run Spec.call {} (callsOf is) = some p.outcome ∧
    ∃ rs bytes, (callsOf is).filterMap Call.awaits = rs ++ p.ctrl.awaits.toList ∧ Lines rs bytes ∧
      readsOf is = bytes ++ p.ctrl.received.map some

/-- A session that has aborted does nothing more. -/
theorem step_isAborted {p : Session} (h : p.isAborted) (i : Input) : step p i = none := by
  obtain ⟨why, hc⟩ := h
  cases i <;> simp [step, hc]

theorem faithful_step {is : List Input} {i : Input} {p p' : Session}
    (hp : p.isAborted ∨ Faithful is p) (h : step p i = some p') :
    p'.isAborted ∨ Faithful (is ++ [i]) p' := by
  rcases hp with hab | ⟨hrun, rs, bytes, haw, hlines, hreads⟩
  · rw [step_isAborted hab] at h
    cases h
  cases i with
  | call c fails =>
      by_cases hidle : p.ctrl = .idle
      · simp only [step, if_pos hidle] at h
        obtain rfl := Option.some.inj h
        refine (enter_spec p hidle c fails).imp_right ?_
        rintro ⟨hspec, hawaits, hreceived⟩
        have hcalls : callsOf (is ++ [.call c fails]) = callsOf is ++ [c] := by
          simp [callsOf, Input.call?]
        have hreads' : readsOf (is ++ [.call c fails]) = readsOf is := by
          simp [readsOf, Input.read?]
        rw [hidle] at haw hreads
        refine ⟨?_, rs, bytes, ?_, hlines, ?_⟩
        · rw [hcalls, run_concat, hrun]
          exact hspec
        · rw [hcalls, List.filterMap_append, haw, hawaits]
          cases c <;> simp [Ctrl.awaits, Call.awaits]
        · rw [hreads', hreads, hreceived]
          rfl
      · simp [step, hidle] at h
  | read c =>
      have hcalls : callsOf (is ++ [.read c]) = callsOf is := by simp [callsOf, Input.call?]
      have hreads' : readsOf (is ++ [.read c]) = readsOf is ++ [c] := by
        simp [readsOf, Input.read?]
      refine (read_spec h).imp_right ?_
      rintro ⟨hout, ⟨b, rfl, hreceived, hawaits⟩ | ⟨hend, hawaits, hidle⟩⟩
      · refine ⟨by rw [hcalls, hrun, hout], rs, bytes, by rw [hcalls, haw, hawaits], hlines, ?_⟩
        rw [hreads', hreads, hreceived]
        simp
      · refine ⟨by rw [hcalls, hrun, hout], rs ++ [p.ctrl.received],
          bytes ++ (p.ctrl.received.map some ++ [c]), ?_, hlines.concat hend, ?_⟩
        · rw [hcalls, haw, hawaits, hidle]
          simp [Ctrl.awaits]
        · rw [hreads', hreads, hidle]
          simp [Ctrl.received]
  | waited r =>
      have hcalls : callsOf (is ++ [.waited r]) = callsOf is := by simp [callsOf, Input.call?]
      have hreads' : readsOf (is ++ [.waited r]) = readsOf is := by simp [readsOf, Input.read?]
      refine (waited_spec h).imp_right ?_
      rintro ⟨hout, hwait, hidle⟩
      rw [hwait] at haw hreads
      refine ⟨by rw [hcalls, hrun, hout], rs, bytes, ?_, hlines, ?_⟩
      · rw [hcalls, haw, hidle]
        rfl
      · rw [hreads', hreads, hidle]
        rfl

theorem faithful_run {is : List Input} {p : Session} (hrun : run step {} is = some p) :
    p.isAborted ∨ Faithful is p :=
  run_history (fun is p => p.isAborted ∨ Faithful is p) (.inr ⟨rfl, [], [], rfl, .nil, rfl⟩)
    (fun _ _ _ _ hp h => faithful_step hp h) hrun

/-- **A session never gets out of step**: whatever it reads and whatever the system answers, a
session that has not aborted was given calls the specification allows and stands where they
lead, and it has read exactly the answers to them that it waited for. -/
theorem session_refines {is : List Input} {p : Session} (hrun : run step {} is = some p)
    (hp : ¬ p.isAborted) : Faithful is p := by
  rcases faithful_run hrun with hab | hfaithful
  · exact absurd hab hp
  · exact hfaithful

/-- A recording that was started and paused. -/
def answered : List Input :=
  .call (.startRecording []) none :: ("started\n".toList.map fun c => .read (some c)) ++
    .call .pauseRecording none :: "ok\n".toList.map fun c => .read (some c)

theorem session_refines_paused :
    ∃ p, run step {} answered = some p ∧ ¬ p.isAborted ∧ Faithful answered p := by
  have hrun : run step {} answered = some ⟨.paused, false, .idle⟩ := rfl
  have hidle : ¬ (⟨.paused, false, .idle⟩ : Session).isAborted := by
    rintro ⟨why, h⟩
    cases h
  exact ⟨_, hrun, hidle, session_refines hrun hidle⟩

end PlayWithOpencv.Simpleperf
