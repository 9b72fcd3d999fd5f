import PlayWithOpencv.SimpleperfSession

/-! # The session and its recorder

The session of `perftest/simpleperf.cpp` beside the process it launches, which reads commands from
its standard input and answers on its standard output.  The recorder is not part of the
repository: it is a `Recorder`, over a type `R` of states, and `Recorder.Documented` is what the
session relies on.

The two run side by side, with a pipe for the commands and a pipe for the answers between them,
and `sysStep` lets either of them go on by one byte.  The recorder may also be gone at any time
(`recorderQuits`: the duration it was given is over, or it dies).  `Taken` lists what a step does
and when it is taken; all that follows is by cases on it. -/

namespace PlayWithOpencv.Simpleperf

open PartialRun

variable {R : Type}

/-! ### The recorder -/

/-- A process that takes lines and answers each with a line. -/
structure Recorder (R : Type) where
  /-- The state it is in when it has started with the arguments. -/
  start : List Str → R
  recording : R → Bool
  handle : R → Str → R × Str

/-- Whether a command turns the recording on. -/
def Cmd.records : Cmd → Bool
  | pause => false
  | resume => true

/-- The documented behaviour the session relies on. -/
structure Recorder.Documented (rec : Recorder R) : Prop where
  start_recording : ∀ args, rec.recording (rec.start args) = true
  handle_recording : ∀ r (cmd : Cmd), rec.recording r = !cmd.records →
    rec.recording (rec.handle r cmd.text).1 = cmd.records
  handle_ok : ∀ r (cmd : Cmd), rec.recording r = !cmd.records → (rec.handle r cmd.text).2 = okLine

/-- The recorder's process: the bytes it has read of a line, those it has yet to write, whether it
was sent SIGINT, and how it ended. -/
structure Proc (R : Type) where
  st : R
  line : Str := []
  out : Str
  signalled : Bool := false
  exit : Option WaitResult := none

/-- The session, the bytes in the two pipes, and the recorder once it is launched. -/
structure System (R : Type) where
  session : Session := {}
  control : Str := []
  reply : Str := []
  proc : Option (Proc R) := none

/-! ### A step of either -/

inductive Label where
  | call (c : Call) (fails : Option Abort)
  | sessionRead
  | sessionWait
  | recorderRead
  | recorderWrite
  /-- On SIGINT the recorder ends. -/
  | recorderExit
  /-- The recorder ends by itself. -/
  | recorderQuits (r : WaitResult)
deriving DecidableEq

/-- The steps that are not calls. -/
def Label.internal (l : Label) : Prop := ∀ c fails, l ≠ .call c fails

/-- What a call has done up to its first wait. -/
def System.called (rec : Recorder R) (s : System R) (c : Call) (p : Session) : System R :=
  match c, p.ctrl with
  | .startRecording args, .startFlag _ =>
      { s with session := p, proc := some { st := rec.start args, out := startedLine ++ ['\n'] } }
  | _, .cmdReply cmd _ => { s with session := p, control := s.control ++ (cmd.text ++ ['\n']) }
  | _, .waitpid =>
      { s with session := p, proc := s.proc.map fun q => { q with signalled := true } }
  | _, _ => { s with session := p }

/-- There is a process at the other end of the control pipe. -/
def System.alive (s : System R) : Bool :=
  match s.proc with
  | some q => q.exit.isNone
  | none => false

/-- A command cannot be written once the recorder is gone: `write` fails, since the signal of a
broken pipe is taken to be blocked or ignored, as it is in the processes of apps. -/
def System.callFails (s : System R) (c : Call) (fails : Option Abort) : Option Abort :=
  match c with
  | .pauseRecording => if s.alive then fails else some .sendCmd
  | .resumeRecording => if s.alive then fails else some .sendCmd
  | _ => fails

/-- The recorder reads a byte; a newline ends the command, and it answers. -/
def Proc.read (rec : Recorder R) (q : Proc R) (b : Char) : Proc R :=
  if b = '\n' then
    { q with
      st := (rec.handle q.st q.line).1
      line := []
      out := q.out ++ ((rec.handle q.st q.line).2 ++ ['\n']) }
  else { q with line := q.line ++ [b] }

/-- A step of the recorder's process. -/
def recorderStep (rec : Recorder R) (s : System R) (q : Proc R) : Label → Option (System R)
  | .recorderRead =>
      match s.control with
      | b :: rest => some { s with control := rest, proc := some (q.read rec b) }
      | [] => none
  | .recorderWrite =>
      match q.out with
      | b :: rest => some { s with reply := s.reply ++ [b], proc := some { q with out := rest } }
      | [] => none
  | .recorderExit =>
      if q.signalled then some { s with proc := some { q with exit := some (.exited 0) } } else none
  | .recorderQuits r => some { s with proc := some { q with exit := some r } }
  | _ => none

/-- A step of the session. -/
def sessionStep (rec : Recorder R) (s : System R) : Label → Option (System R)
  | .call c fails =>
      (step s.session (.call c (s.callFails c fails))).map (s.called rec c)
  | .sessionRead =>
      match s.reply with
      | b :: rest =>
          (step s.session (.read (some b))).map fun p => { s with session := p, reply := rest }
      | [] =>
          -- nothing comes any more once the recorder, who holds the other end, is gone
          if s.alive then none
          else (step s.session (.read none)).map fun p => { s with session := p }
  | .sessionWait =>
      match s.proc.bind Proc.exit with
      | some r => (step s.session (.waited r)).map fun p => { s with session := p }
      | none => none
  | _ => none

/-- A step of either; after an abort of the session there is none. -/
def sysStep (rec : Recorder R) (s : System R) (l : Label) : Option (System R) :=
  match s.session.ctrl, l with
  | .aborted _, _ => none
  | _, .call _ _ | _, .sessionRead | _, .sessionWait => sessionStep rec s l
  | _, _ => if s.alive then s.proc.bind fun q => recorderStep rec s q l else none

/-! ### What the recorder should have done -/

/-- What a call makes of the recorder. -/
def Recorder.obey (rec : Recorder R) (r : Option R) : Call → Option R
  | .startRecording args => some (rec.start args)
  | .pauseRecording => r.map fun r => (rec.handle r Cmd.pause.text).1
  | .resumeRecording => r.map fun r => (rec.handle r Cmd.resume.text).1
  | .stopRecording => r

/-- The recorder after the commands of the calls, each once, in their order. -/
def Recorder.follow (rec : Recorder R) (cs : List Call) : Option R := cs.foldl rec.obey none

def Label.call? : Label → Option Call
  | .call c _ => some c
  | _ => none

/-- The calls of a schedule. -/
def calls (ls : List Label) : List Call := ls.filterMap Label.call?
/-! ### One step of either -/

/-- What a step does, and when it is taken. -/
inductive Taken (rec : Recorder R) (s : System R) : Label → System R → Prop
  | call (c : Call) (fails : Option Abort) (hctrl : s.session.ctrl = .idle) :
      Taken rec s (.call c fails) (s.called rec c (s.session.enter c (s.callFails c fails)))
  | sessionRead (b : Char) (rest : Str) (p : Session) (hreply : s.reply = b :: rest)
      (hp : step s.session (.read (some b)) = some p) :
      Taken rec s .sessionRead { s with session := p, reply := rest }
  | sessionEof (p : Session) (hreply : s.reply = []) (halive : s.alive = false)
      (hp : step s.session (.read none) = some p) :
      Taken rec s .sessionRead { s with session := p }
  | sessionWait (q : Proc R) (r : WaitResult) (hproc : s.proc = some q) (hexit : q.exit = some r)
      (hctrl : s.session.ctrl = .waitpid) :
      Taken rec s .sessionWait { s with session := s.session.waitReturned r }
  | recorderRead (q : Proc R) (b : Char) (rest : Str) (hproc : s.proc = some q)
      (hexit : q.exit = none) (hcontrol : s.control = b :: rest) :
      Taken rec s .recorderRead { s with control := rest, proc := some (q.read rec b) }
  | recorderWrite (q : Proc R) (b : Char) (rest : Str) (hproc : s.proc = some q)
      (hexit : q.exit = none) (hout : q.out = b :: rest) :
      Taken rec s .recorderWrite
        { s with reply := s.reply ++ [b], proc := some { q with out := rest } }
  | recorderExit (q : Proc R) (hproc : s.proc = some q) (hexit : q.exit = none)
      (hsig : q.signalled = true) :
      Taken rec s .recorderExit { s with proc := some { q with exit := some (.exited 0) } }
  | recorderQuits (q : Proc R) (r : WaitResult) (hproc : s.proc = some q) (hexit : q.exit = none) :
      Taken rec s (.recorderQuits r) { s with proc := some { q with exit := some r } }

variable {rec : Recorder R} {cs : List Call} {s s' : System R} {l : Label}

theorem alive_iff : s.alive = true ↔ ∃ q, s.proc = some q ∧ q.exit = none := by
  unfold System.alive
  cases s.proc <;> simp

theorem sysStep_isAborted (h : s.session.isAborted) (l : Label) : sysStep rec s l = none := by
  obtain ⟨why, hc⟩ := h
  simp [sysStep, hc]

theorem sysStep_of_not_isAborted (h : ¬ s.session.isAborted) (l : Label) :
    sysStep rec s l = match l with
      | .call _ _ | .sessionRead | .sessionWait => sessionStep rec s l
      | _ => if s.alive then s.proc.bind fun q => recorderStep rec s q l else none := by
  have hc : ∀ why, s.session.ctrl ≠ .aborted why := fun why hw => h ⟨why, hw⟩
  unfold sysStep
  cases hctrl : s.session.ctrl with
  | aborted why => exact absurd hctrl (hc why)
  | _ => cases l <;> rfl

theorem sysStep_taken (h : sysStep rec s l = some s') : Taken rec s l s' := by
  have hab : ¬ s.session.isAborted := by
    intro hab
    rw [sysStep_isAborted hab] at h
    cases h
  rw [sysStep_of_not_isAborted hab] at h
  -- the steps of the recorder are those of a process that is there
  have hrecorder : ∀ l, (if s.alive then s.proc.bind fun q => recorderStep rec s q l else none) =
      some s' → ∃ q, s.proc = some q ∧ q.exit = none ∧ recorderStep rec s q l = some s' := by
    intro l h
    split_ifs at h with halive
    obtain ⟨q, hproc, hexit⟩ := alive_iff.mp halive
    rw [hproc] at h
    exact ⟨q, hproc, hexit, h⟩
  cases l with
  | call c fails =>
      obtain ⟨p, hp, rfl⟩ := Option.map_eq_some_iff.mp h
      by_cases hctrl : s.session.ctrl = .idle
      · simp only [step, if_pos hctrl] at hp
        obtain rfl := Option.some.inj hp
        exact .call c fails hctrl
      · simp [step, hctrl] at hp
  | sessionRead =>
      simp only [sessionStep] at h
      split at h
      next b rest hreply =>
        obtain ⟨p, hp, rfl⟩ := Option.map_eq_some_iff.mp h
        exact .sessionRead b rest p hreply hp
      next hreply =>
        split_ifs at h with halive
        obtain ⟨p, hp, rfl⟩ := Option.map_eq_some_iff.mp h
        exact .sessionEof p hreply (by simpa using halive) hp
  | sessionWait =>
      simp only [sessionStep] at h
      split at h
      next r hr =>
        obtain ⟨q, hproc, hexit⟩ := Option.bind_eq_some_iff.mp hr
        obtain ⟨p, hp, rfl⟩ := Option.map_eq_some_iff.mp h
        by_cases hctrl : s.session.ctrl = .waitpid
        · simp only [step, if_pos hctrl] at hp
          obtain rfl := Option.some.inj hp
          exact .sessionWait q r hproc hexit hctrl
        · simp [step, hctrl] at hp
      next => cases h
  | recorderRead =>
      obtain ⟨q, hproc, hexit, h⟩ := hrecorder _ h
      simp only [recorderStep] at h
      split at h
      next b rest hcontrol =>
        obtain rfl := Option.some.inj h
        exact .recorderRead q b rest hproc hexit hcontrol
      next => cases h
  | recorderWrite =>
      obtain ⟨q, hproc, hexit, h⟩ := hrecorder _ h
      simp only [recorderStep] at h
      split at h
      next b rest hout =>
        obtain rfl := Option.some.inj h
        exact .recorderWrite q b rest hproc hexit hout
      next => cases h
  | recorderExit =>
      obtain ⟨q, hproc, hexit, h⟩ := hrecorder _ h
      simp only [recorderStep] at h
      split_ifs at h with hsig
      obtain rfl := Option.some.inj h
      exact .recorderExit q hproc hexit hsig
  | recorderQuits r =>
      obtain ⟨q, hproc, hexit, h⟩ := hrecorder _ h
      obtain rfl := Option.some.inj h
      exact .recorderQuits q r hproc hexit

end PlayWithOpencv.Simpleperf
