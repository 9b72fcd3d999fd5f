import PlayWithOpencv.Progress
import PlayWithOpencv.SimpleperfLaunch

/-! # A helper command and its output

`RunCmd` of `perftest/simpleperf.cpp` waits for the command to end before it reads the pipe the
command writes to.  Here the two run side by side, with a pipe of a given capacity between them:
a full pipe blocks the command, and `waitpid` blocks the caller.  A `waitpid` that fails may do so
at any time, and the caller aborts.

`runCmd_schedules` says what comes of it: where the output fits into the pipe, every schedule ends,
with the result `runCmd` gives (`runCmd_result`); where it does not, no schedule returns, and only
a failed `waitpid` ends one. -/

namespace PlayWithOpencv.Simpleperf

open PartialRun Descriptors

/-! ### The two processes -/

/-- Where the caller is: in `waitpid`, in `ReadFile`, or at its end, aborted or back with `*stdout`
if the command succeeded. -/
inductive Caller where
  | waiting
  | reading (s : Str)
  | ended (result : Except Abort (Option Str))

structure Running where
  toWrite : Str
  pipe : Str := []
  exited : Bool := false
  caller : Caller := .waiting

inductive Move where
  | childWrite
  | childExit
  | callerWait
  | callerRead
deriving DecidableEq, Repr

/-- What the caller does when `waitpid` returns. -/
def Ended.awaited (e : Ended) (wanted : Bool) : Caller :=
  match e.status with
  | .failed => .ended (.error .waitpid)
  | .exited 0 =>
      if !wanted then .ended (.ok (some []))
      else if e.stream then .reading []
      else .ended (.ok (some (readFile none)))
  | _ => .ended (.ok none)

/-- Whether the caller is there; one that has aborted takes the read end of the pipe with it, and
the command is not followed any further. -/
def Caller.alive : Caller → Prop
  | .ended (.error _) => False
  | _ => True

instance (c : Caller) : Decidable c.alive :=
  match c with
  | .waiting => .isTrue trivial
  | .reading _ => .isTrue trivial
  | .ended (.ok _) => .isTrue trivial
  | .ended (.error _) => .isFalse id

/-- A move of the command or of the caller. -/
def cmdMove (cap : ℕ) (wanted : Bool) (e : Ended) (s : Running) : Move → Option Running
  | .childWrite =>
      match s.toWrite with
      | b :: rest =>
          if s.pipe.length < cap then some { s with toWrite := rest, pipe := s.pipe ++ [b] } else none
      | [] => none
  | .childExit => if s.toWrite = [] ∧ s.exited = false then some { s with exited := true } else none
  | .callerWait =>
      match s.caller with
      | .waiting =>
          if s.exited = true ∨ e.status = .failed then some { s with caller := e.awaited wanted }
          else none
      | _ => none
  | .callerRead =>
      -- the command has ended, so the pipe holds all that will come
      match s.caller with
      | .reading acc =>
          if s.pipe = [] then some { s with caller := .ended (.ok (some acc)) }
          else some { s with pipe := s.pipe.drop 200, caller := .reading (acc ++ s.pipe.take 200) }
      | _ => none

def cmdStep (cap : ℕ) (wanted : Bool) (e : Ended) (s : Running) (m : Move) : Option Running :=
  if s.caller.alive then cmdMove cap wanted e s m else none

/-- What `RunCmd` comes to. -/
def Ended.result (e : Ended) (wanted : Bool) : Except Abort (Option Str) :=
  match e.status with
  | .failed => .error .waitpid
  | .exited 0 => .ok (some (if wanted && e.stream then e.output else []))
  | _ => .ok none

/-- The result of the sequential `runCmd`. -/
theorem runCmd_result {os : Os} {t : Table File} {args : List Str} {wanted : Bool} {e : Ended}
    (hgrants : os.grants args = true) (hroom : (pipe os.limit .stdoutRead .stdoutWrite t).isSome)
    (he : os.command args = some e) :
    (runCmd os t args wanted).map Prod.snd = e.result wanted := by
  obtain ⟨⟨r, w, t₁⟩, hpipe⟩ := Option.isSome_iff_exists.mp hroom
  simp only [runCmd, makePipe, hgrants, if_true, hpipe, he]
  unfold Ended.result
  cases e.status with
  | failed => rfl
  | signaled => rfl
  | exited status =>
      cases status with
      | succ status => rfl
      | zero =>
          cases wanted with
          | false => rfl
          | true =>
              cases e.stream with
              | false => rfl
              | true => exact congrArg (fun s => Except.ok (some s)) (readLoop_eq e.output)

/-! ### The invariant -/

variable {cap : ℕ} {wanted : Bool} {e : Ended} {s s' : Running} {m : Move}

/-- Where the bytes of the output are. -/
inductive CmdInv (cap : ℕ) (wanted : Bool) (e : Ended) (s : Running) : Prop
  | waiting (hcaller : s.caller = .waiting) (hbytes : s.pipe ++ s.toWrite = e.output)
      (hcap : s.pipe.length ≤ cap) (hexited : s.exited = true → s.toWrite = [])
  | reading (acc : Str) (hcaller : s.caller = .reading acc) (hexited : s.exited = true)
      (hwritten : s.toWrite = []) (hbytes : acc ++ s.pipe = e.output)
      (hresult : e.result wanted = .ok (some e.output)) (hcap : e.output.length ≤ cap)
  | returned (hcaller : s.caller = .ended (e.result wanted)) (hexited : s.exited = true)
      (hwritten : s.toWrite = []) (hcap : e.output.length ≤ cap)
  | aborted (hcaller : s.caller = .ended (e.result wanted)) (hstatus : e.status = .failed)

/-- What the two have yet to do. -/
def Running.pending (s : Running) : ℕ :=
  2 * s.toWrite.length + s.pipe.length + (if s.exited then 0 else 1) +
    match s.caller with
    | .waiting => 2
    | .reading _ => 1
    | .ended _ => 0

theorem result_failed (h : e.status = .failed) : e.result wanted = .error .waitpid := by
  simp [Ended.result, h]

/-- What the caller does after `waitpid`: it reads the output, or it is at its end. -/
theorem awaited_cases (e : Ended) (wanted : Bool) :
    (e.awaited wanted = .reading [] ∧ e.result wanted = .ok (some e.output)) ∨
      e.awaited wanted = .ended (e.result wanted) := by
  unfold Ended.awaited Ended.result
  cases e.status with
  | failed => exact .inr rfl
  | signaled => exact .inr rfl
  | exited status =>
      cases status with
      | succ status => exact .inr rfl
      | zero =>
          cases wanted with
          | false => exact .inr rfl
          | true =>
              cases e.stream with
              | false => exact .inr rfl
              | true => exact .inl ⟨rfl, rfl⟩

/-- A byte goes from the output into the pipe, while there is room for it. -/
theorem childWrite_step (hinv : CmdInv cap wanted e s)
    (h : cmdStep cap wanted e s .childWrite = some s') :
    CmdInv cap wanted e s' ∧ s'.pending < s.pending := by
  obtain ⟨halive, h⟩ := Option.ite_none_right_eq_some.mp h
  simp only [cmdMove] at h
  split at h
  next b rest hwrite =>
    split_ifs at h with hfull
    obtain rfl := Option.some.inj h
    cases hinv with
    | waiting hcaller hbytes hcap hexited =>
        have hlen : (s.pipe ++ [b]).length ≤ cap := by
          rw [List.length_append, List.length_singleton]
          omega
        refine ⟨.waiting hcaller (by rw [← hbytes, hwrite]; simp) hlen fun hex => ?_, ?_⟩
        · have := hexited hex
          rw [hwrite] at this
          cases this
        · simp only [Running.pending, hwrite, List.length_cons, List.length_append,
            List.length_nil]
          omega
    | reading acc hcaller hexited hwritten => simp [hwrite] at hwritten
    | returned hcaller hexited hwritten => simp [hwrite] at hwritten
    | aborted hcaller hstatus =>
        rw [hcaller, result_failed hstatus] at halive
        exact absurd halive id
  next => cases h

theorem childExit_step (hinv : CmdInv cap wanted e s)
    (h : cmdStep cap wanted e s .childExit = some s') :
    CmdInv cap wanted e s' ∧ s'.pending < s.pending := by
  obtain ⟨halive, h⟩ := Option.ite_none_right_eq_some.mp h
  obtain ⟨⟨hwrite, hexit⟩, h⟩ := Option.ite_none_right_eq_some.mp h
  obtain rfl := Option.some.inj h
  cases hinv with
  | waiting hcaller hbytes hcap hexited =>
      refine ⟨.waiting hcaller hbytes hcap fun _ => hwrite, ?_⟩
      simp [Running.pending, hexit]
  | reading acc hcaller hexited => simp [hexit] at hexited
  | returned hcaller hexited => simp [hexit] at hexited
  | aborted hcaller hstatus =>
      rw [hcaller, result_failed hstatus] at halive
      exact absurd halive id

/-- After `waitpid` the whole output is in the pipe, unless `waitpid` has failed. -/
theorem callerWait_step (hinv : CmdInv cap wanted e s)
    (h : cmdStep cap wanted e s .callerWait = some s') :
    CmdInv cap wanted e s' ∧ s'.pending < s.pending := by
  obtain ⟨-, h⟩ := Option.ite_none_right_eq_some.mp h
  simp only [cmdMove] at h
  split at h
  next hcaller =>
    obtain ⟨hready, h⟩ := Option.ite_none_right_eq_some.mp h
    obtain rfl := Option.some.inj h
    cases hinv with
    | waiting _ hbytes hcap hexited =>
        have hlower : { s with caller := e.awaited wanted }.pending < s.pending := by
          rcases awaited_cases e wanted with ⟨hread, -⟩ | hend
          · simp [Running.pending, hcaller, hread]
          · simp [Running.pending, hcaller, hend]
        refine ⟨?_, hlower⟩
        by_cases hstatus : e.status = .failed
        · exact .aborted (by simp [Ended.awaited, hstatus, result_failed hstatus]) hstatus
        · have hexit : s.exited = true := hready.resolve_right hstatus
          have hwrite := hexited hexit
          rw [hwrite, List.append_nil] at hbytes
          rw [hbytes] at hcap
          rcases awaited_cases e wanted with ⟨hread, hresult⟩ | hend
          · exact .reading [] hread hexit hwrite hbytes hresult hcap
          · exact .returned hend hexit hwrite hcap
    | reading acc hc => simp [hc] at hcaller
    | returned hc => simp [hc] at hcaller
    | aborted hc => simp [hc] at hcaller
  next => cases h

theorem callerRead_step (hinv : CmdInv cap wanted e s)
    (h : cmdStep cap wanted e s .callerRead = some s') :
    CmdInv cap wanted e s' ∧ s'.pending < s.pending := by
  obtain ⟨-, h⟩ := Option.ite_none_right_eq_some.mp h
  simp only [cmdMove] at h
  cases hinv with
  | waiting hcaller => simp [hcaller] at h
  | reading acc hcaller hexited hwritten hbytes hresult hcap =>
      simp only [hcaller] at h
      split_ifs at h with hempty
      · obtain rfl := Option.some.inj h
        rw [hempty, List.append_nil] at hbytes
        refine ⟨.returned (by rw [hresult, hbytes]) hexited hwritten hcap, ?_⟩
        simp [Running.pending, hcaller]
      · obtain rfl := Option.some.inj h
        refine ⟨.reading _ rfl hexited hwritten ?_ hresult hcap, ?_⟩
        · rw [List.append_assoc, List.take_append_drop]
          exact hbytes
        · have hpos := List.length_pos_of_ne_nil hempty
          simp only [Running.pending, hcaller, List.length_drop]
          omega
  | returned hcaller => simp [hcaller] at h
  | aborted hcaller => simp [hcaller] at h

theorem cmdInv_step (hinv : CmdInv cap wanted e s) (h : cmdStep cap wanted e s m = some s') :
    CmdInv cap wanted e s' ∧ s'.pending < s.pending := by
  cases m with
  | childWrite => exact childWrite_step hinv h
  | childExit => exact childExit_step hinv h
  | callerWait => exact callerWait_step hinv h
  | callerRead => exact callerRead_step hinv h

/-! ### Every schedule -/

/-- The start: the caller waits for a command that has its whole output to write. -/
def Ended.start (e : Ended) : Running := { toWrite := e.output }

theorem cmdInv_start : CmdInv cap wanted e e.start :=
  .waiting rfl (List.nil_append _) (Nat.zero_le _) (by simp [Ended.start])

/-- The caller is at its end. -/
def Running.Over (s : Running) : Prop := ∃ r, s.caller = .ended r

/-- Where the output fits, one of the two can move until the caller is at its end. -/
theorem cmd_progress (hfits : e.output.length ≤ cap) :
    Progress (cmdStep cap wanted e) (fun _ => True) Running.Over (CmdInv cap wanted e)
      Running.pending where
  keeps _ _ _ hinv _ h := (cmdInv_step hinv h).1
  lowers _ _ _ hinv _ h := (cmdInv_step hinv h).2
  enabled := by
    intro s hinv hquiet
    cases hinv with
    | waiting hcaller hbytes hcap hexited =>
        have halive : s.caller.alive := by
          rw [hcaller]
          trivial
        cases hexit : s.exited with
        | true =>
            refine ⟨.callerWait, { s with caller := e.awaited wanted }, trivial, ?_⟩
            rw [cmdStep, if_pos halive]
            simp only [cmdMove, hcaller, hexit, true_or, if_true]
        | false =>
            cases hwrite : s.toWrite with
            | nil =>
                refine ⟨.childExit, { s with exited := true }, trivial, ?_⟩
                rw [cmdStep, if_pos halive, cmdMove, if_pos ⟨hwrite, hexit⟩]
            | cons b rest =>
                -- the byte and those in the pipe are part of an output that fits
                have hroom : s.pipe.length < cap := by
                  rw [← hbytes, hwrite, List.length_append, List.length_cons] at hfits
                  omega
                refine ⟨.childWrite, { s with toWrite := rest, pipe := s.pipe ++ [b] }, trivial, ?_⟩
                rw [cmdStep, if_pos halive]
                simp only [cmdMove, hwrite, if_pos hroom]
    | reading acc hcaller hexited hwritten hbytes hresult hcap =>
        have halive : s.caller.alive := by
          rw [hcaller]
          trivial
        by_cases hempty : s.pipe = []
        · refine ⟨.callerRead, { s with caller := .ended (.ok (some acc)) }, trivial, ?_⟩
          rw [cmdStep, if_pos halive]
          simp only [cmdMove, hcaller, if_pos hempty]
        · refine ⟨.callerRead, { s with
            pipe := s.pipe.drop 200
            caller := .reading (acc ++ s.pipe.take 200) }, trivial, ?_⟩
          rw [cmdStep, if_pos halive]
          simp only [cmdMove, hcaller, if_neg hempty]
    | returned hcaller => exact absurd ⟨_, hcaller⟩ hquiet
    | aborted hcaller => exact absurd ⟨_, hcaller⟩ hquiet

/-- **Waiting before reading**: if the output of the command fits into the pipe, every schedule
of command and caller comes to an end, and there the caller has what `RunCmd` comes to; if it
does not fit, no schedule has the caller return: it waits, or it has aborted. -/
theorem runCmd_schedules {ms : List Move} (hrun : run (cmdStep cap wanted e) e.start ms = some s) :
    (e.output.length ≤ cap → ms.length ≤ 2 * e.output.length + 3 ∧
        ((∀ m, cmdStep cap wanted e s m = none) → s.caller = .ended (e.result wanted))) ∧
      (cap < e.output.length → s.caller = .waiting ∨
        (e.status = .failed ∧ s.caller = .ended (.error .waitpid))) := by
  have hinv : CmdInv cap wanted e s :=
    run_invariant (CmdInv cap wanted e) (fun _ _ _ h hinv => (cmdInv_step hinv h).1) hrun
      cmdInv_start
  constructor
  · intro hfits
    have hprogress : Progress (cmdStep cap wanted e) _ _ _ _ := cmd_progress hfits
    constructor
    · have hlen := hprogress.length_le (fun _ _ => trivial) hrun cmdInv_start
      have hstart : e.start.pending = 2 * e.output.length + 3 := by
        simp [Running.pending, Ended.start]
      omega
    · intro hstuck
      obtain ⟨r, hr⟩ := hprogress.quiet_of_stuck hinv fun m _ => hstuck m
      cases hinv with
      | waiting hcaller => simp [hcaller] at hr
      | reading acc hcaller => simp [hcaller] at hr
      | returned hcaller => exact hcaller
      | aborted hcaller => exact hcaller
  · intro hover
    cases hinv with
    | waiting hcaller => exact .inl hcaller
    | reading acc _ _ _ _ _ hcap => omega
    | returned _ _ _ hcap => omega
    | aborted hcaller hstatus => exact .inr ⟨hstatus, hcaller.trans (by rw [result_failed hstatus])⟩

/-- `getprop` on a device that allows the events. -/
def getprop : Ended := ⟨.exited 0, "0\n".toList, true⟩

/-- The value of a property of the device, read after the command has ended. -/
theorem runCmd_schedules_getprop : ∃ s,
    run (cmdStep 4096 true getprop) getprop.start
        [.childWrite, .childWrite, .childExit, .callerWait, .callerRead, .callerRead] = some s ∧
      (getprop.output.length ≤ 4096 →
        [Move.childWrite, .childWrite, .childExit, .callerWait, .callerRead, .callerRead].length ≤
            2 * getprop.output.length + 3 ∧
          ((∀ m, cmdStep 4096 true getprop s m = none) →
            s.caller = .ended (getprop.result true))) ∧
      (4096 < getprop.output.length → s.caller = .waiting ∨
        (getprop.status = .failed ∧ s.caller = .ended (.error .waitpid))) := by
  have hrun : run (cmdStep 4096 true getprop) getprop.start
    [.childWrite, .childWrite, .childExit, .callerWait, .callerRead, .callerRead] = some _ := rfl
  exact ⟨_, hrun, runCmd_schedules hrun⟩

end PlayWithOpencv.Simpleperf
