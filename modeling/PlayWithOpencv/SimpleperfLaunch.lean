import PlayWithOpencv.Descriptors
import PlayWithOpencv.SimpleperfSession

/-! # Launching the recorder

`StartRecording` of `perftest/simpleperf.cpp` up to the wait for the start flag: it looks for the
recorder, tries it, checks a system property, makes a directory, and starts the recorder's
process with two pipes.  The descriptors of the session's process, and of the recorder's, are
tables of `Descriptors`; what the system answers is `Os`.

* `launch_leaks`: after a launch and the destruction of the session, the descriptors that are open
  are those from before, one for each helper command that failed (two if its pipe was made but it
  could not be started), and one if no stream could be had on the output of `getprop`.
* `child_wired_iff`: the recorder reads its commands from descriptor 0 and writes its answers to
  descriptor 1 exactly if descriptor 0 was open before the launch; if it was not, the recorder has
  no descriptor 0 at all.
* `launch_ends`: the session alone holds the ends of the pipes it uses, and the recorder holds none
  of them, so each side finds the end of the file when the other is gone. -/

namespace PlayWithOpencv.Simpleperf

open Descriptors

/-! ### The system -/

/-- What a descriptor is open on: an end of one of the pipes, or something else. -/
inductive File where
  | other (n : ℕ)
  | stdoutRead
  | stdoutWrite
  | controlRead
  | controlWrite
  | replyRead
  | replyWrite
deriving DecidableEq, Repr

/-- The mode bits of `struct stat` that are looked at. -/
structure Stat where
  isReg : Bool
  isDir : Bool
  ixusr : Bool
deriving DecidableEq, Repr

/-- What a command comes to, and what reading it does. -/
structure Ended where
  status : WaitResult
  /-- All it writes before it ends. -/
  output : Str
  /-- Whether `fdopen` gives a stream on its pipe. -/
  stream : Bool
deriving DecidableEq, Repr

/-- The answers of the system.  A pipe may be refused although the process has descriptors left
for it. -/
structure Os where
  /-- The number of descriptors a process may have. -/
  limit : ℕ
  stat : Str → Option Stat
  mkdir : Str → Bool
  /-- Whether `RunCmd` is granted a pipe for a command. -/
  grants : List Str → Bool
  /-- A command of `RunCmd`; `none` when `vfork` fails. -/
  command : List Str → Option Ended
  grantsControl : Bool
  grantsReply : Bool
  /-- Whether `vfork` gives a process for the recorder. -/
  forks : Bool

variable (os : Os)

/-! ### Looking for the recorder -/

def isExecutableFile (path : Str) : Bool :=
  match os.stat path with
  | some st => st.isReg && st.ixusr
  | none => false

/-- The loop of `ReadFile`, 200 bytes at a time. -/
def readLoop (rest : Str) : Str :=
  if rest = [] then [] else rest.take 200 ++ readLoop (rest.drop 200)
termination_by rest.length
decreasing_by
  have := List.length_pos_of_ne_nil ‹_›
  simp only [List.length_drop]
  omega

theorem readLoop_eq (s : Str) : readLoop s = s := by
  induction s using readLoop.induct with
  | case1 => simp [readLoop]
  | case2 s h ih => rw [readLoop, if_neg h, ih, List.take_append_drop]

/-- `ReadFile`, of what the stream has; `none` is a null pointer. -/
def readFile : Option Str → Str
  | none => []
  | some rest => readLoop rest

/-- `pipe`, if the system grants it. -/
def makePipe (granted : Bool) (rd wr : File) (t : Table File) : Option (ℕ × ℕ × Table File) :=
  if granted then pipe os.limit rd wr t else none

/-- `RunCmd`: the descriptors, and `*stdout` if the command succeeded; `wanted` is
`stdout != nullptr`. -/
def runCmd (t : Table File) (args : List Str) (wanted : Bool) :
    Except Abort (Table File × Option Str) :=
  match makePipe os (os.grants args) .stdoutRead .stdoutWrite t with
  | none => .ok (t, none)
  | some (r, w, t) =>
      match os.command args with
      | none => .ok (t, none)
      | some e =>
          match e.status with
          | .failed => .error .waitpid
          | .exited 0 =>
              if !wanted then .ok (close (close t w) r, some [])
              -- the stream is closed with what it reads from, and without one nothing is closed
              else if e.stream then .ok (close (close t w) r, some (readFile (some e.output)))
              else .ok (close t w, some (readFile none))
          | _ => .ok (close t w, none)

def tmpSimpleperf : Str := "/data/local/tmp/simpleperf".toList

def cpArgs (app_data_dir : Str) : List Str :=
  ["/system/bin/cp".toList, tmpSimpleperf, app_data_dir ++ "/simpleperf".toList]

def testArgs (app_data_dir : Str) : List Str := [app_data_dir ++ "/simpleperf".toList]

def getpropArgs : List Str := ["/system/bin/getprop".toList, "security.perf_harden".toList]

def findSimpleperfInTempDir (app_data_dir : Str) (t : Table File) :
    Except Abort (Table File × Str) :=
  if !isExecutableFile os tmpSimpleperf then .ok (t, [])
  else do
    let (t, copied) ← runCmd os t (cpArgs app_data_dir) false
    if copied.isNone then return (t, [])
    -- executing a file of the app may not be allowed
    let (t, ran) ← runCmd os t (testArgs app_data_dir) false
    if ran.isNone then return (t, [])
    return (t, app_data_dir ++ "/simpleperf".toList)

def systemSimpleperf : Str := "/system/bin/simpleperf".toList

def findSimpleperf (app_data_dir : Str) (t : Table File) : Except Abort (Table File × Str) := do
  let (t, path) ← findSimpleperfInTempDir os app_data_dir t
  if path ≠ [] then return (t, path)
  if isExecutableFile os systemSimpleperf then return (t, systemSimpleperf)
  throw .noSimpleperf

def checkIfPerfEnabled (t : Table File) : Except Abort (Table File) := do
  let (t, s) ← runCmd os t getpropArgs true
  match s with
  | none => return t
  | some s => if s.head? = some '1' then throw .perfDisabled else return t

def createSimpleperfDataDir (dir : Str) : Except Abort Unit :=
  if (os.stat dir).any Stat.isDir then .ok ()
  else if os.mkdir dir then .ok ()
  else .error .dataDir

/-! ### The recorder's process -/

/-- What the launch leaves: the descriptors of the session's process, the two it keeps, and the
descriptors and arguments of the recorder's. -/
structure Launched where
  table : Table File
  control_fd_ : ℕ
  reply_fd_ : ℕ
  child : Table File
  argv : List Str

/-- The child between `vfork` and `execvp`; `reply_fd[0]` is closed twice. -/
def childTable (t : Table File) (c0 c1 r0 r1 : ℕ) : Table File :=
  let t := close t c1
  let t := dup2 t c0 0
  let t := close t c0
  let t := close t r0
  let t := dup2 t r1 1
  close t r0

def recorderArgs (path : Str) (record_args : List Str) : List Str :=
  [path, "record".toList, "--log-to-android-buffer".toList, "--log".toList, "debug".toList,
    "--stdio-controls-profiling".toList, "--in-app".toList, "--tracepoint-events".toList,
    "/data/local/tmp/tracepoint_events".toList] ++ record_args

/-- `CreateSimpleperfProcess`, up to the wait for the start flag. -/
def createSimpleperfProcess (t : Table File) (path : Str) (record_args : List Str) :
    Except Abort Launched :=
  match makePipe os os.grantsControl .controlRead .controlWrite t with
  | none => .error .pipe
  | some (c0, c1, t) =>
      match makePipe os os.grantsReply .replyRead .replyWrite t with
      | none => .error .pipe
      | some (r0, r1, t) =>
          if !os.forks then .error .fork
          else .ok
            { table := close (close t c0) r1
              control_fd_ := c1
              reply_fd_ := r0
              child := childTable t c0 c1 r0 r1
              argv := recorderArgs path record_args }

/-- `StartRecording` in a new session, up to the wait for the start flag. -/
def launch (app_data_dir : Str) (record_args : List Str) (t : Table File) :
    Except Abort Launched := do
  let (t, path) ← findSimpleperf os app_data_dir t
  let t ← checkIfPerfEnabled os t
  createSimpleperfDataDir os (app_data_dir ++ "/simpleperf_data".toList)
  createSimpleperfProcess os t path record_args

/-- `~ProfileSessionImpl`. -/
def Launched.destroyed (l : Launched) : Table File :=
  close (close l.table l.control_fd_) l.reply_fd_

/-! ### What a helper command leaves open -/

/-- Whether a helper command is run and succeeds. -/
def succeeds (args : List Str) : Bool :=
  os.grants args && (os.command args).any fun e => e.status = .exited 0

/-- The descriptors a helper command leaves open. -/
def leak (args : List Str) (wanted : Bool) : ℕ :=
  if os.grants args then
    match os.command args with
    | none => 2
    | some e => if e.status = .exited 0 then (if wanted && !e.stream then 1 else 0) else 1
  else 0

/-- Those of a whole launch: the commands that are run depend on how the first ones end. -/
def leaks (app_data_dir : Str) : ℕ :=
  (if isExecutableFile os tmpSimpleperf then
      leak os (cpArgs app_data_dir) false +
        if succeeds os (cpArgs app_data_dir) then leak os (testArgs app_data_dir) false else 0
    else 0) + leak os getpropArgs true

variable {os} {t t' : Table File}

theorem makePipe_some {granted : Bool} {rd wr : File} {r w : ℕ}
    (h : makePipe os granted rd wr t = some (r, w, t')) :
    granted = true ∧ pipe os.limit rd wr t = some (r, w, t') :=
  Option.ite_none_right_eq_some.mp h

/-- What a pipe leaves when its write end, and perhaps its read end, are closed again. -/
theorem pipe_closed {rd wr : File} {r w : ℕ} (h : pipe os.limit rd wr t = some (r, w, t')) :
    t r = none ∧ r < os.limit ∧ close t' w = Function.update t r (some rd) ∧
      close (close t' w) r = t := by
  obtain ⟨hr, hw, hlt, hlimit, -, rfl⟩ := pipe_some h
  have hwr : Function.update t r (some rd) w = none := by
    rw [Function.update_of_ne (Nat.ne_of_gt hlt), hw]
  have hclosew : close (Function.update (Function.update t r (some rd)) w (some wr)) w =
      Function.update t r (some rd) := by
    rw [close, Function.update_idem, ← hwr, Function.update_eq_self]
  refine ⟨hr, Nat.lt_trans hlt hlimit, hclosew, ?_⟩
  rw [hclosew, close, Function.update_idem, ← hr, Function.update_eq_self]

/-- What a pipe leaves when neither end is closed. -/
theorem pipe_opened {rd wr : File} {r w : ℕ} (h : pipe os.limit rd wr t = some (r, w, t')) :
    Extends t t' ∧ (opened os.limit t').card = (opened os.limit t).card + 2 := by
  obtain ⟨hr, hw, hlt, hlimit, -, rfl⟩ := pipe_some h
  have hwr : Function.update t r (some rd) w = none := by
    rw [Function.update_of_ne (Nat.ne_of_gt hlt), hw]
  refine ⟨(extends_update hr _).trans (extends_update hwr _), ?_⟩
  rw [card_opened_update hwr hlimit, card_opened_update hr (Nat.lt_trans hlt hlimit)]

/-- **A helper command** leaves what was open as it was.  If there is room for a pipe afterwards,
the table also tells whether the command has succeeded and what it has left open. -/
theorem runCmd_ok {args : List Str} {wanted : Bool} {res : Option Str}
    (h : runCmd os t args wanted = .ok (t', res)) :
    Extends t t' ∧ ((pipe os.limit .stdoutRead .stdoutWrite t').isSome →
      (res.isSome = true ↔ succeeds os args = true) ∧
        (opened os.limit t').card = (opened os.limit t).card + leak os args wanted) := by
  unfold runCmd at h
  unfold succeeds leak
  cases hgrants : os.grants args with
  | false =>
      simp only [makePipe, hgrants, Bool.false_eq_true, if_false, Except.ok.injEq,
        Prod.mk.injEq] at h
      obtain ⟨rfl, rfl⟩ := h
      exact ⟨Extends.refl t, fun _ => by simp⟩
  | true =>
      simp only [makePipe, hgrants, if_true] at h
      cases hpipe : pipe os.limit File.stdoutRead .stdoutWrite t with
      | none =>
          -- without a pipe nothing changes, and there is no room for one afterwards either
          simp only [hpipe, Except.ok.injEq, Prod.mk.injEq] at h
          obtain ⟨rfl, rfl⟩ := h
          exact ⟨Extends.refl t, fun hsome => by simp [hpipe] at hsome⟩
      | some rwt =>
          obtain ⟨r, w, t₁⟩ := rwt
          simp only [hpipe] at h
          obtain ⟨hfree, hlt, hclosew, hcloser⟩ := pipe_closed hpipe
          -- the read end is left open
          have hread : Extends t (close t₁ w) ∧
              (opened os.limit (close t₁ w)).card = (opened os.limit t).card + 1 := by
            rw [hclosew]
            exact ⟨extends_update hfree _, card_opened_update hfree hlt _⟩
          cases hcommand : os.command args with
          | none =>
              obtain ⟨hext, hcard⟩ := pipe_opened hpipe
              simp only [hcommand, Except.ok.injEq, Prod.mk.injEq] at h
              obtain ⟨rfl, rfl⟩ := h
              exact ⟨hext, fun _ => ⟨by simp, by simp [hcard]⟩⟩
          | some e =>
              simp only [hcommand] at h
              cases hstatus : e.status with
              | failed => simp [hstatus] at h
              | signaled =>
                  simp only [hstatus, Except.ok.injEq, Prod.mk.injEq] at h
                  obtain ⟨rfl, rfl⟩ := h
                  exact ⟨hread.1, fun _ => ⟨by simp [hstatus], by simp [hstatus, hread.2]⟩⟩
              | exited status =>
                  cases status with
                  | zero =>
                      simp only [hstatus] at h
                      split_ifs at h with hwanted hstream
                      · simp only [Except.ok.injEq, Prod.mk.injEq, hcloser] at h
                        obtain ⟨rfl, rfl⟩ := h
                        have hwanted : wanted = false := by simpa using hwanted
                        exact ⟨Extends.refl t, fun _ => by simp [hstatus, hwanted]⟩
                      · simp only [Except.ok.injEq, Prod.mk.injEq, hcloser] at h
                        obtain ⟨rfl, rfl⟩ := h
                        exact ⟨Extends.refl t, fun _ => by simp [hstatus, hstream]⟩
                      · simp only [Except.ok.injEq, Prod.mk.injEq] at h
                        obtain ⟨rfl, rfl⟩ := h
                        have hwanted : wanted = true := by simpa using hwanted
                        have hstream : e.stream = false := by simpa using hstream
                        refine ⟨hread.1, fun _ => ⟨by simp [hstatus], ?_⟩⟩
                        simp [hstatus, hwanted, hstream, hread.2]
                  | succ status =>
                      simp only [hstatus, Except.ok.injEq, Prod.mk.injEq] at h
                      obtain ⟨rfl, rfl⟩ := h
                      exact ⟨hread.1, fun _ => ⟨by simp [hstatus], by simp [hstatus, hread.2]⟩⟩

theorem bind_ok {α β : Type} {x : Except Abort α} {f : α → Except Abort β} {b : β}
    (h : (x >>= f) = .ok b) : ∃ a, x = .ok a ∧ f a = .ok b := by
  cases x with
  | error why => cases h
  | ok a => exact ⟨a, rfl, h⟩

theorem findSimpleperfInTempDir_ok {app_data_dir path : Str}
    (h : findSimpleperfInTempDir os app_data_dir t = .ok (t', path)) :
    Extends t t' ∧ ((pipe os.limit .stdoutRead .stdoutWrite t').isSome →
      (opened os.limit t').card + leak os getpropArgs true =
        (opened os.limit t).card + leaks os app_data_dir) := by
  unfold findSimpleperfInTempDir at h
  cases hexec : isExecutableFile os tmpSimpleperf with
  | false =>
      simp only [hexec, Bool.not_false, if_true, Except.ok.injEq, Prod.mk.injEq] at h
      obtain ⟨rfl, -⟩ := h
      exact ⟨Extends.refl t, fun _ => by simp [leaks, hexec]⟩
  | true =>
      simp only [hexec, Bool.not_true, Bool.false_eq_true, if_false] at h
      obtain ⟨⟨t₁, copied⟩, hcp, h⟩ := bind_ok h
      obtain ⟨hext, hleak⟩ := runCmd_ok hcp
      cases hcopied : copied with
      | none =>
          simp only [hcopied, Option.isNone_none, if_true] at h
          obtain ⟨rfl, -⟩ := Prod.mk.inj (Except.ok.inj h)
          refine ⟨hext, fun hroom => ?_⟩
          obtain ⟨hsucc, hcard⟩ := hleak hroom
          have hfail : ¬ succeeds os (cpArgs app_data_dir) = true := fun hs => by
            simpa [hcopied] using hsucc.mpr hs
          rw [hcard, leaks, if_pos hexec, if_neg hfail]
          omega
      | some s =>
          simp only [hcopied, Option.isNone_some, Bool.false_eq_true, if_false] at h
          obtain ⟨⟨t₂, ran⟩, htest, h⟩ := bind_ok h
          obtain ⟨hext₂, hleak₂⟩ := runCmd_ok htest
          obtain rfl : t₂ = t' := by
            cases hran : ran <;> simp [hran] at h <;>
              exact (Prod.mk.inj (Except.ok.inj h)).1
          refine ⟨hext.trans hext₂, fun hroom => ?_⟩
          obtain ⟨hsucc, hcard⟩ := hleak (hext₂.pipe_isSome hroom)
          obtain ⟨-, hcard₂⟩ := hleak₂ hroom
          have hs : succeeds os (cpArgs app_data_dir) = true := hsucc.mp (by rw [hcopied]; rfl)
          rw [hcard₂, hcard, leaks, if_pos hexec, if_pos hs]
          omega

theorem findSimpleperf_ok {app_data_dir path : Str}
    (h : findSimpleperf os app_data_dir t = .ok (t', path)) :
    ∃ path', findSimpleperfInTempDir os app_data_dir t = .ok (t', path') := by
  obtain ⟨⟨t₁, path'⟩, htemp, h⟩ := bind_ok h
  obtain rfl : t₁ = t' := by
    dsimp only at h
    split_ifs at h with hpath hexec
    · exact (Prod.mk.inj (Except.ok.inj h)).1
    · exact (Prod.mk.inj (Except.ok.inj h)).1
  exact ⟨path', htemp⟩

theorem checkIfPerfEnabled_ok (h : checkIfPerfEnabled os t = .ok t') :
    Extends t t' ∧ ((pipe os.limit .stdoutRead .stdoutWrite t').isSome →
      (opened os.limit t').card = (opened os.limit t).card + leak os getpropArgs true) := by
  obtain ⟨⟨t₁, s⟩, hrun, h⟩ := bind_ok h
  obtain ⟨hext, hleak⟩ := runCmd_ok hrun
  obtain rfl : t₁ = t' := by
    cases s with
    | none => exact Except.ok.inj h
    | some s =>
        dsimp only at h
        split_ifs at h
        exact Except.ok.inj h
  exact ⟨hext, fun hroom => (hleak hroom).2⟩

/-! ### The pipes to the recorder -/

/-- The ends of the two pipes are four descriptors that were free, and what was free below them is
among them. -/
theorem createSimpleperfProcess_ok {path : Str} {record_args : List Str} {l : Launched}
    (h : createSimpleperfProcess os t path record_args = .ok l) :
    ∃ c0 r1, c0 < l.control_fd_ ∧ l.control_fd_ < l.reply_fd_ ∧ l.reply_fd_ < r1 ∧
      (∀ x < c0, t x ≠ none) ∧ t c0 = none ∧ t l.control_fd_ = none ∧ t l.reply_fd_ = none ∧
      t r1 = none ∧ r1 < os.limit ∧
      l.table = Function.update (Function.update t l.control_fd_ (some .controlWrite)) l.reply_fd_
        (some .replyRead) ∧
      l.child = childTable (Function.update (Function.update (Function.update (Function.update t
        c0 (some .controlRead)) l.control_fd_ (some .controlWrite)) l.reply_fd_ (some .replyRead))
        r1 (some .replyWrite)) c0 l.control_fd_ l.reply_fd_ r1 := by
  unfold createSimpleperfProcess at h
  cases hcontrol : makePipe os os.grantsControl File.controlRead .controlWrite t with
  | none => simp [hcontrol] at h
  | some cct =>
      obtain ⟨c0, c1, t₁⟩ := cct
      simp only [hcontrol] at h
      cases hreply : makePipe os os.grantsReply File.replyRead .replyWrite t₁ with
      | none => simp [hreply] at h
      | some rrt =>
          obtain ⟨r0, r1, t₂⟩ := rrt
          simp only [hreply] at h
          split_ifs at h
          obtain rfl := Except.ok.inj h
          obtain ⟨hc0, hc1, hc, -, hlow, rfl⟩ := pipe_some (makePipe_some hcontrol).2
          obtain ⟨hr0, hr1, hr, hlimit, -, rfl⟩ := pipe_some (makePipe_some hreply).2
          -- a descriptor that is free after the first pipe was free before, and is above its ends
          have hfree : ∀ x, Function.update (Function.update t c0 (some File.controlRead)) c1
              (some .controlWrite) x = none → t x = none ∧ c1 < x := by
            intro x hx
            have hx1 : x ≠ c1 := by rintro rfl; simp at hx
            rw [Function.update_of_ne hx1] at hx
            have hx0 : x ≠ c0 := by rintro rfl; simp at hx
            rw [Function.update_of_ne hx0] at hx
            refine ⟨hx, Nat.lt_of_not_le fun hle => ?_⟩
            exact hlow x (Nat.lt_of_le_of_ne hle hx1) hx0 hx
          obtain ⟨hr0, hc1r0⟩ := hfree r0 hr0
          refine ⟨c0, r1, hc, hc1r0, hr, fun x hx => hlow x (Nat.lt_trans hx hc) (Nat.ne_of_lt hx),
            hc0, hc1, hr0, (hfree r1 hr1).1, hlimit, ?_, rfl⟩
          funext x
          by_cases h0 : x = c0
          · subst h0
            have h1 : x ≠ c1 := Nat.ne_of_lt hc
            have h2 : x ≠ r0 := by omega
            have h3 : x ≠ r1 := by omega
            simp [close, Function.update_of_ne, h1, h2, h3, hc0]
          · by_cases h3 : x = r1
            · subst h3
              have h1 : x ≠ c1 := by omega
              have h2 : x ≠ r0 := by omega
              simp [close, Function.update_of_ne, h1, h2, (hfree x hr1).1]
            · simp [close, Function.update_apply, h0, h3]

/-- If descriptor 0 is closed, the read end of the control pipe takes it, `dup2` does nothing, and
the child closes it. -/
theorem child_zero_of_closed {path : Str} {record_args : List Str} {l : Launched}
    (h : createSimpleperfProcess os t path record_args = .ok l) (hnone : t 0 = none) :
    l.child 0 = none := by
  obtain ⟨c0, r1, hc, hcr, hr, hlow, hc0, -, -, -, -, -, hchild⟩ := createSimpleperfProcess_ok h
  obtain rfl : c0 = 0 := by
    by_contra hne
    exact hlow 0 (Nat.pos_of_ne_zero hne) hnone
  have hr0 : (0 : ℕ) ≠ l.reply_fd_ := by omega
  rw [hchild]
  simp [childTable, dup2_of_ne, close_of_ne _ hr0]

/-- **Wiring**: the recorder has its commands on descriptor 0 and its answers on descriptor 1
exactly if descriptor 0 was open when the pipes were made; otherwise it has no descriptor 0. -/
theorem child_wired_iff {path : Str} {record_args : List Str} {l : Launched}
    (h : createSimpleperfProcess os t path record_args = .ok l) :
    ((l.child 0 = some .controlRead ∧ l.child 1 = some .replyWrite) ↔ t 0 ≠ none) ∧
      (t 0 = none → l.child 0 = none) := by
  refine ⟨?_, child_zero_of_closed h⟩
  obtain ⟨c0, r1, hc, hcr, hr, hlow, hc0, -, -, -, -, -, hchild⟩ := createSimpleperfProcess_ok h
  constructor
  · rintro ⟨hzero, -⟩ hnone
    rw [child_zero_of_closed h hnone] at hzero
    cases hzero
  · intro hopen
    have hpos : c0 ≠ 0 := by
      rintro rfl
      exact hopen hc0
    have hc1 : l.control_fd_ ≠ 0 := by omega
    have hr0 : l.reply_fd_ ≠ 0 := by omega
    have hr0' : l.reply_fd_ ≠ 1 := by omega
    have hr1 : r1 ≠ 0 := by omega
    have h1 : c0 ≠ l.control_fd_ := by omega
    have h2 : c0 ≠ l.reply_fd_ := by omega
    have h3 : c0 ≠ r1 := by omega
    have h4 : r1 ≠ l.control_fd_ := by omega
    have h5 : r1 ≠ l.reply_fd_ := by omega
    rw [hchild]
    constructor
    · rw [childTable]
      rw [close_of_ne _ hr0.symm, dup2_of_ne _ (by decide), close_of_ne _ hr0.symm,
        close_of_ne _ hpos.symm]
      apply dup2_self_of_some
      rw [close_of_ne _ h1]
      simp [Function.update_of_ne, h1, h2, h3]
    · rw [childTable, close_of_ne _ hr0'.symm]
      apply dup2_self_of_some
      rw [close_of_ne _ h5, close_of_ne _ h3.symm, dup2_of_ne _ hr1, close_of_ne _ h4]
      simp

/-- What a descriptor of the child is open on, one that the child does not close was before. -/
theorem childTable_eq_some {c0 c1 r0 r1 x : ℕ} {f : File} (hne : c0 ≠ r0)
    (h : childTable t c0 c1 r0 r1 x = some f) : ∃ z, z ≠ c1 ∧ z ≠ r0 ∧ t z = some f := by
  -- up to the second `dup2`
  have hearly : ∀ y, close (close (dup2 (close t c1) c0 0) c0) r0 y = some f →
      ∃ z, z ≠ c1 ∧ z ≠ r0 ∧ t z = some f := by
    intro y hy
    obtain ⟨hy0, hy⟩ := close_eq_some hy
    obtain ⟨-, hy⟩ := close_eq_some hy
    rcases dup2_eq_some hy with hy | hy
    · obtain ⟨hy1, hy⟩ := close_eq_some hy
      exact ⟨y, hy1, hy0, hy⟩
    · obtain ⟨hc1, hy⟩ := close_eq_some hy
      exact ⟨c0, hc1, hne, hy⟩
  obtain ⟨-, hx⟩ := close_eq_some h
  rcases dup2_eq_some hx with hx | hx
  · exact hearly x hx
  · exact hearly r1 hx

/-- Standard input, output and error. -/
def stdTable : Table File := fun fd => if fd < 3 then some (.other fd) else none

/-- A device on which apps may not execute their files; there is no memory for a stream when the
output of `getprop` is to be read. -/
def device : Os where
  limit := 64
  stat _ := some ⟨true, true, true⟩
  mkdir _ := true
  grants _ := true
  command args :=
    if args = cpArgs "/data/data/app".toList then some ⟨.exited 0, [], true⟩
    else if args = testArgs "/data/data/app".toList then some ⟨.exited 1, [], true⟩
    else some ⟨.exited 0, "1\n".toList, false⟩
  grantsControl := true
  grantsReply := true
  forks := true

theorem child_wired_iff_device : ∃ l,
    createSimpleperfProcess device stdTable systemSimpleperf [] = .ok l ∧
      ((l.child 0 = some .controlRead ∧ l.child 1 = some .replyWrite) ↔ stdTable 0 ≠ none) ∧
      (stdTable 0 = none → l.child 0 = none) := by
  have h : createSimpleperfProcess device stdTable systemSimpleperf [] = .ok _ := rfl
  exact ⟨_, h, child_wired_iff h⟩

/-- No descriptor is open on a pipe between session and recorder. -/
def NoEnds (t : Table File) : Prop :=
  ∀ x, t x ≠ some .controlRead ∧ t x ≠ some .controlWrite ∧
    t x ≠ some .replyRead ∧ t x ≠ some .replyWrite

/-- **Ends of the pipes**: the session holds one descriptor of each end it uses and none of the
others, and the recorder holds none of the session's ends. -/
theorem launch_ends {path : Str} {record_args : List Str} {l : Launched} (ht : NoEnds t)
    (h : createSimpleperfProcess os t path record_args = .ok l) :
    (∀ x, l.table x = some .controlWrite ↔ x = l.control_fd_) ∧
      (∀ x, l.table x = some .replyRead ↔ x = l.reply_fd_) ∧
      (∀ x, l.table x ≠ some .controlRead ∧ l.table x ≠ some .replyWrite) ∧
      ∀ x, l.child x ≠ some .controlWrite ∧ l.child x ≠ some .replyRead := by
  obtain ⟨c0, r1, hc, hcr, hr, hlow, hc0, hc1, hr0, hr1, -, htable, hchild⟩ :=
    createSimpleperfProcess_ok h
  have hne : l.control_fd_ ≠ l.reply_fd_ := by omega
  refine ⟨fun x => ?_, fun x => ?_, fun x => ?_, fun x => ?_⟩
  · rw [htable]
    by_cases h1 : x = l.reply_fd_
    · simp [h1, hne.symm]
    · by_cases h2 : x = l.control_fd_
      · simp [h2, Function.update_of_ne, hne]
      · simp [Function.update_of_ne, h1, h2, (ht x).2.1]
  · rw [htable]
    by_cases h1 : x = l.reply_fd_
    · simp [h1]
    · by_cases h2 : x = l.control_fd_
      · simp [h2, Function.update_of_ne, hne]
      · simp [Function.update_of_ne, h1, h2, (ht x).2.2.1]
  · rw [htable]
    by_cases h1 : x = l.reply_fd_
    · simp [h1]
    · by_cases h2 : x = l.control_fd_
      · simp [h2, Function.update_of_ne, hne]
      · simpa [Function.update_of_ne, h1, h2] using ⟨(ht x).1, (ht x).2.2.2⟩
  · rw [hchild]
    have habsent : ∀ f, f = .controlWrite ∨ f = .replyRead → childTable (Function.update
        (Function.update (Function.update (Function.update t c0 (some File.controlRead))
        l.control_fd_ (some .controlWrite)) l.reply_fd_ (some .replyRead)) r1 (some .replyWrite))
        c0 l.control_fd_ l.reply_fd_ r1 x ≠ some f := by
      rintro f hf hx
      obtain ⟨z, hz1, hz2, hz⟩ := childTable_eq_some (by omega) hx
      by_cases h3 : z = r1
      · subst h3
        rcases hf with rfl | rfl <;> simp at hz
      · rw [Function.update_of_ne h3, Function.update_of_ne hz2, Function.update_of_ne hz1] at hz
        by_cases h0 : z = c0
        · subst h0
          rcases hf with rfl | rfl <;> simp at hz
        · rw [Function.update_of_ne h0] at hz
          rcases hf with rfl | rfl
          · exact (ht z).2.1 hz
          · exact (ht z).2.2.1 hz
    exact ⟨habsent _ (.inl rfl), habsent _ (.inr rfl)⟩

theorem launch_ends_device : ∃ l,
    createSimpleperfProcess device stdTable systemSimpleperf [] = .ok l ∧
      (∀ x, l.table x = some .controlWrite ↔ x = l.control_fd_) ∧
      (∀ x, l.table x = some .replyRead ↔ x = l.reply_fd_) ∧
      (∀ x, l.table x ≠ some .controlRead ∧ l.table x ≠ some .replyWrite) ∧
      ∀ x, l.child x ≠ some .controlWrite ∧ l.child x ≠ some .replyRead := by
  have h : createSimpleperfProcess device stdTable systemSimpleperf [] = .ok _ := rfl
  have hends : NoEnds stdTable := by
    intro x
    unfold stdTable
    split <;> simp
  exact ⟨_, h, launch_ends hends h⟩

/-! ### What a launch leaves open -/

/-- **Leaks**: when the session is destroyed, every descriptor from before the launch is open on
what it was, and the launch has left open those that its helper commands leak, and no others. -/
theorem launch_leaks {app_data_dir : Str} {record_args : List Str} {l : Launched}
    (h : launch os app_data_dir record_args t = .ok l) :
    Extends t l.destroyed ∧
      (opened os.limit l.destroyed).card = (opened os.limit t).card + leaks os app_data_dir := by
  obtain ⟨⟨t₁, path⟩, hfind, h⟩ := bind_ok h
  obtain ⟨t₂, hcheck, h⟩ := bind_ok h
  obtain ⟨-, -, h⟩ := bind_ok h
  obtain ⟨path', htemp⟩ := findSimpleperf_ok hfind
  obtain ⟨hext₁, hcard₁⟩ := findSimpleperfInTempDir_ok htemp
  obtain ⟨hext₂, hcard₂⟩ := checkIfPerfEnabled_ok hcheck
  obtain ⟨c0, r1, hc, hcr, hr, -, hc0, hc1, hr0, hr1, hlimit, htable, -⟩ :=
    createSimpleperfProcess_ok h
  -- the two descriptors the session keeps are closed again
  have hdestroyed : l.destroyed = t₂ := by
    funext x
    rw [Launched.destroyed, htable]
    by_cases h1 : x = l.reply_fd_
    · simp [h1, hr0]
    · by_cases h2 : x = l.control_fd_
      · subst h2
        rw [close_of_ne _ h1, close_self, hc1]
      · simp [close_of_ne _ h1, close_of_ne _ h2, h1, h2]
  -- and there was room for the pipe of every helper command
  have hroom₂ : (pipe os.limit File.stdoutRead .stdoutWrite t₂).isSome :=
    pipe_isSome_iff.mpr ⟨c0, r1, by omega, hlimit, hc0, hr1⟩
  rw [hdestroyed]
  refine ⟨hext₁.trans hext₂, ?_⟩
  have h₁ := hcard₁ (hext₂.pipe_isSome hroom₂)
  have h₂ := hcard₂ hroom₂
  omega

theorem launch_leaks_device : ∃ l,
    launch device "/data/data/app".toList [] stdTable = .ok l ∧
      Extends stdTable l.destroyed ∧
      (opened device.limit l.destroyed).card =
        (opened device.limit stdTable).card + leaks device "/data/data/app".toList := by
  have h : launch device "/data/data/app".toList [] stdTable = .ok _ := rfl
  exact ⟨_, h, launch_leaks h⟩

end PlayWithOpencv.Simpleperf
