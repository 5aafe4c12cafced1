import Mathlib.Algebra.Group.Int.Defs
import CisWebui.Foundation.EventSystem
import CisWebui.FsCache
import CisWebui.Http.FileHandler
import CisWebui.Http.Router

/-!
# Runs of a job

`cis_job::run` starts the program that runs a job, reads its output line by
line, and reports the job when the program is known to have exited.  The lines
and the exit are told apart from each other, so that either may come first.
-/

namespace CisWebui
namespace Cis

open Cpp FilesystemPath Foundation

/-!
## Lines
-/

/-- The lines of a text that end in a line feed. -/
def lines : Str -> List Str
  | [] => []
  | c :: rest =>
      if c = chr '\n' then
        [] :: lines rest
      else
        match lines rest with
        | [] => []
        | line :: more => (c :: line) :: more

/-- `async_read_until` and `getline`: the first line, and what stays behind
it. -/
def readLine : Str -> Option (Str × Str)
  | [] => none
  | c :: rest =>
      if c = chr '\n' then
        some ([], rest)
      else
        (readLine rest).map fun found => (c :: found.1, found.2)

theorem lines_of_readLine {text line rest : Str}
    (h : readLine text = some (line, rest)) : lines text = line :: lines rest := by
  induction text generalizing line with
  | nil => cases h
  | cons c text ih =>
      rw [readLine] at h
      rw [lines]
      split
      · rename_i hc
        rw [if_pos hc] at h
        cases h
        rfl
      · rename_i hc
        rw [if_neg hc] at h
        rcases Option.map_eq_some_iff.mp h with ⟨⟨first, behind⟩, hread, heq⟩
        cases heq
        rw [ih hread]

theorem lines_of_readLine_none {text : Str} (h : readLine text = none) :
    lines text = [] := by
  induction text with
  | nil => rfl
  | cons c text ih =>
      rw [readLine] at h
      split at h
      · cases h
      · rename_i hc
        rw [lines, if_neg hc, ih (Option.map_eq_none_iff.mp h)]

/-!
## The line with the exit code
-/

def isDigit (c : UInt8) : Bool :=
  chr '0' <= c ∧ c <= chr '9'

/-- `(\d+)` -/
def IsNumber (digits : Str) : Prop :=
  digits ≠ [] ∧ digits.all isDigit = true

instance (digits : Str) : Decidable (IsNumber digits) :=
  inferInstanceAs (Decidable (_ ∧ _))

def digitsValue (digits : Str) : Nat :=
  digits.foldl (fun value c => 10 * value + (c.toNat - (chr '0').toNat)) 0

/-- What a handler of the job throws. -/
inductive JobFault where
  | outOfRange
  | badFunctionCall
  | filesystem (e : FilesystemError)
deriving DecidableEq, Repr

/-- The values of an `unsigned long`, which has 64 bits. -/
def ulongSize : Nat :=
  2 ^ 64

/-- `std::stoul` on digits -/
def stoul (digits : Str) : Except JobFault Nat :=
  if digitsValue digits < ulongSize then Except.ok (digitsValue digits)
  else Except.error JobFault.outOfRange

/-- An `unsigned long` as an `int` -/
def toInt (n : Nat) : Int :=
  (n : Int).bmod (2 ^ 32)

/-- The exit code in a line that matches `Exit code: (\d+)`. -/
def exitCode (line : Str) : Except JobFault (Option Int) :=
  match Http.Router.literal (str "Exit code: ") line with
  | none => Except.ok none
  | some digits =>
      if IsNumber digits then
        (stoul digits).map fun n => some (toInt n)
      else
        Except.ok none

/-- The line is a number behind the words, and the number is the code as an
`int`; or it is none, and the code is the one that stands for no code. -/
def Announces (line : Str) (code : Int) : Prop :=
  (exists digits : Str, line = str "Exit code: " ++ digits ∧ IsNumber digits ∧
      digitsValue digits < ulongSize ∧ toInt (digitsValue digits) = code) ∨
    (¬ (exists digits : Str, line = str "Exit code: " ++ digits ∧ IsNumber digits) ∧
      code = -1)

/-- The line that ends the output of a job. -/
def exitLine (code : Int) : Str :=
  str "Exit code: " ++
    ((if code < 0 then str "-" else []) ++
      (Nat.toDigits 10 code.natAbs).map fun c => c.toUInt8)

theorem toNat_toUInt8_of_isDigit {c : Char} (hc : c.isDigit = true) :
    c.toUInt8.toNat = c.toNat := by
  have hrange := Char.isDigit_iff_toNat.mp hc
  have hnine : ('9').toNat = 57 := rfl
  show c.val.toNat % 2 ^ 8 = c.val.toNat
  apply Nat.mod_eq_of_lt
  have hle : c.val.toNat <= 57 := hrange.right
  omega

theorem isNumber_toDigits (n : Nat) :
    IsNumber ((Nat.toDigits 10 n).map fun c => c.toUInt8) := by
  constructor
  · simp [Nat.toDigits_ne_nil]
  · rw [List.all_eq_true]
    intro byte hbyte
    rcases List.mem_map.mp hbyte with ⟨c, hc, rfl⟩
    have hdigit := Nat.isDigit_of_mem_toDigits (by decide) (by decide) hc
    have hrange := Char.isDigit_iff_toNat.mp hdigit
    rw [← toNat_toUInt8_of_isDigit hdigit] at hrange
    have hzero : chr '0' <= c.toUInt8 := UInt8.le_iff_toNat_le.mpr hrange.left
    have hnine : c.toUInt8 <= chr '9' := UInt8.le_iff_toNat_le.mpr hrange.right
    simpa [isDigit] using And.intro hzero hnine

theorem digitsValue_toDigits (n : Nat) :
    digitsValue ((Nat.toDigits 10 n).map fun c => c.toUInt8) = n := by
  have hfold : forall (cs : List Char) (value : Nat),
      (forall c, c ∈ cs -> c.isDigit = true) ->
        (cs.map fun c => c.toUInt8).foldl
          (fun value c => 10 * value + (c.toNat - (chr '0').toNat)) value =
            Nat.ofDigitChars 10 cs value := by
    intro cs
    induction cs with
    | nil =>
        intro value _
        rfl
    | cons c cs ih =>
        intro value hdigits
        rw [List.map_cons, List.foldl_cons, Nat.ofDigitChars_cons,
          toNat_toUInt8_of_isDigit (hdigits c List.mem_cons_self)]
        exact ih _ fun d hd => hdigits d (List.mem_cons_of_mem c hd)
  rw [digitsValue, hfold _ 0 fun c hc =>
    Nat.isDigit_of_mem_toDigits (by decide) (by decide) hc]
  exact Nat.ofDigitChars_toDigits (by decide) (by decide)

theorem toInt_natAbs {code : Int} (hpos : 0 <= code) (hhigh : code < 2 ^ 31) :
    toInt code.natAbs = code := by
  have habs : (code.natAbs : Int) = code := by
    omega
  have hsmall : code.bmod 4294967296 = code := by
    apply Int.bmod_eq_of_le
    · omega
    · omega
  unfold toInt
  rw [habs]
  exact hsmall

/-- A code with a minus sign is not matched. -/
theorem not_isNumber_of_neg {rest digits : Str}
    (h : str "-" ++ rest = digits) : ¬ IsNumber digits := by
  rintro ⟨_, hall⟩
  have hminus : isDigit (chr '-') = true := by
    apply List.all_eq_true.mp hall
    rw [← h]
    exact List.mem_cons_self
  exact absurd hminus (by decide)

/-- Of the codes that an `int` can have, the line announces those that are not
negative, and the one that stands for no code. -/
theorem announces_exitLine_iff {code : Int} (hhigh : code < 2 ^ 31) :
    Announces (exitLine code) code <-> 0 <= code ∨ code = -1 := by
  let digits := (Nat.toDigits 10 code.natAbs).map fun c => c.toUInt8
  rcases Int.lt_or_le code 0 with hneg | hpos
  · have hnone : ¬ exists number : Str, exitLine code = str "Exit code: " ++ number ∧
        IsNumber number := by
      rintro ⟨number, hline, hnumber⟩
      rw [exitLine, if_pos hneg] at hline
      exact not_isNumber_of_neg (List.append_cancel_left hline) hnumber
    constructor
    · rintro (⟨number, hline, hnumber, _⟩ | ⟨_, hcode⟩)
      · exact absurd ⟨number, hline, hnumber⟩ hnone
      · exact Or.inr hcode
    · rintro (hpos | hcode)
      · omega
      · exact Or.inr ⟨hnone, hcode⟩
  · have hline : exitLine code = str "Exit code: " ++ digits := by
      rw [exitLine, if_neg (by omega)]
      rfl
    have hvalue : digitsValue digits = code.natAbs := digitsValue_toDigits _
    apply iff_of_true
    · apply Or.inl
      refine ⟨digits, hline, isNumber_toDigits _, ?_, ?_⟩
      · rw [hvalue, ulongSize]
        omega
      · rw [hvalue]
        exact toInt_natAbs hpos hhigh
    · exact Or.inl hpos

/-!
## The line with the build
-/

/-- `\s` -/
def isSpace (c : UInt8) : Bool :=
  c = chr ' ' ∨ (9 <= c ∧ c <= 13)

/-- A text cut behind its first character or later, the longest head first. -/
def cuts (text : Str) : List (Str × Str) :=
  (List.range text.length).reverse.map fun i =>
    (text.take (i + 1), text.drop (i + 1))

/-- The values in `name(.+)\sname(.+)..` up to the end of the text.  A group
takes as much as the groups behind it leave. -/
def matchFields : List Str -> Str -> Option (List Str)
  | [], text => if text = [] then some [] else none
  | name :: names, text =>
      match Http.Router.literal name text with
      | none => none
      | some text =>
          (cuts text).findSome? fun (value, behind) =>
            if value.all Http.Router.isAnyChar = true then
              match behind with
              | [] => if names = [] then some [value] else none
              | c :: behind =>
                  if names ≠ [] ∧ isSpace c = true then
                    (matchFields names behind).map fun values => value :: values
                  else
                    none
            else
              none

/-- `startjob_status_line_regex`, and its fourth group. -/
def startjobBuild (line : Str) : Option Str :=
  match matchFields
      [str "session_id=", str "action=", str "job_name=", str "build_dir=",
        str "pid=", str "ppid="] line with
  | none => none
  | some values => values[3]?

/-!
## The state of a run
-/

/-- `execution_info` -/
structure ExecutionInfo where
  success : Bool
  exitCode : Option Int
  exitMessage : Option Str
  sessionId : Option Str
deriving DecidableEq, Repr

/-- The calls of the functions that `run` is given. -/
inductive JobCallback where
  | sessionStarted (sessionId : Str)
  | sessionFinished (sessionId : Str)
  | jobFinished (info : ExecutionInfo)
deriving DecidableEq, Repr

/-- A call of `run`, with what it finds outside: the output of the program, whose
last line is the exit code as an `int`, and the messages that builds leave.  Of
the functions it is given, `on_job_finished` is always there. -/
structure JobStart where
  projectName : Str
  jobName : Str
  sessionStarted : Bool
  sessionFinished : Bool
  exitMessageAt : Str -> Except FilesystemError (Option Str)
  output : Str
  exitCode : Int
  lower : -2 ^ 31 <= exitCode
  upper : exitCode < 2 ^ 31
  announced : (lines output).getLast? = some (exitLine exitCode)

/-- `cis_job` with its `line_reader`; `unread` is what the reader has not got
from the pipe. -/
structure JobRun where
  unread : Str
  line : Nat
  lastLine : Str
  sessionId : Option Str
  build : Option Str
  exited : Bool
  thrown : Option JobFault
  calls : List JobCallback
deriving DecidableEq

/-- Completions: a line has been read, or the wait for the program is over. -/
inductive JobEvent where
  | lineRead
  | exited (ec : Bool)
deriving DecidableEq, Repr

namespace JobRun

def call (s : JobRun) (c : JobCallback) : JobRun :=
  { s with calls := s.calls ++ [c] }

/-- The first line is the id of the session. -/
def startSession (job : JobStart) (s : JobRun) (text : Str) : JobRun :=
  if s.line = 0 ∧ job.sessionStarted = true then
    { s.call (JobCallback.sessionStarted text) with sessionId := some text }
  else
    s

/-- The second line may name the build. -/
def noteBuild (s : JobRun) (text : Str) : JobRun :=
  if s.line = 1 then
    match startjobBuild text with
    | none => s
    | some build => { s with build := some build }
  else
    s

/-- The function that the reader calls with a line. -/
def acceptLine (job : JobStart) (s : JobRun) (text : Str) : JobRun :=
  let noted := (s.startSession job text).noteBuild text
  { noted with line := noted.line + 1 }

/-- The handler of `read_line`. -/
def readCompleted (job : JobStart) (s : JobRun) : Option JobRun :=
  match readLine s.unread with
  | none => none
  | some (text, rest) =>
      some (acceptLine job { s with unread := rest, lastLine := text } text)

/-- The message of the build, if the output has named one. -/
def exitMessage (job : JobStart) (s : JobRun) :
    Except FilesystemError (Option Str) :=
  match s.build with
  | none => Except.ok none
  | some build =>
      let projectJob := Http.pathCat job.projectName (str "/" ++ job.jobName)
      job.exitMessageAt
        (append (append (append (str "/") projectJob) build)
          (str "exitmessage.txt"))

def finishSession (job : JobStart) (s : JobRun) : JobRun :=
  match s.sessionId with
  | none => s
  | some sessionId =>
      if job.sessionFinished then s.call (JobCallback.sessionFinished sessionId)
      else s

/-- `on_success` -/
def onSuccess (job : JobStart) (s : JobRun) : Except JobFault Unit × JobRun :=
  match Cis.exitCode s.lastLine with
  | Except.error e => (Except.error e, s)
  | Except.ok code =>
      let finished := s.finishSession job
      match s.exitMessage job with
      | Except.error e => (Except.error (JobFault.filesystem e), finished)
      | Except.ok message =>
          (Except.ok (),
            finished.call
              (JobCallback.jobFinished
                { success := true
                  exitCode := some (code.getD (-1))
                  exitMessage := message
                  sessionId := s.sessionId }))

/-- `on_error`; it does not ask whether there is a function to call. -/
def onError (job : JobStart) (s : JobRun) : Except JobFault Unit × JobRun :=
  if s.sessionId.isSome = true ∧ job.sessionFinished = false then
    (Except.error JobFault.badFunctionCall, s)
  else
    (Except.ok (),
      (s.finishSession job).call
        (JobCallback.jobFinished
          { success := false
            exitCode := some (-1)
            exitMessage := none
            sessionId := none }))

/-- The state behind a handler; what it throws ends the server. -/
def handled : Except JobFault Unit × JobRun -> JobRun
  | (Except.ok (), s) => s
  | (Except.error e, s) => { s with thrown := some e }

/-- The handler of the exit. -/
def exitCompleted (job : JobStart) (s : JobRun) (ec : Bool) : JobRun :=
  let s := { s with exited := true }
  handled (if ec then s.onError job else s.onSuccess job)

def step (job : JobStart) (s : JobRun) : JobEvent -> Option JobRun
  | JobEvent.lineRead =>
      if s.thrown.isSome then none else s.readCompleted job
  | JobEvent.exited ec =>
      if s.thrown.isSome ∨ s.exited = true then none
      else some (s.exitCompleted job ec)

/-- The state behind the start of the program. -/
def initial (job : JobStart) : JobRun where
  unread := job.output
  line := 0
  lastLine := []
  sessionId := none
  build := none
  exited := false
  thrown := none
  calls := []

def system (job : JobStart) : EventSystem JobRun JobEvent where
  init := initial job
  step := step job

/-- What `job_finished_cb_` has been passed. -/
def infos (s : JobRun) : List ExecutionInfo :=
  s.calls.filterMap fun
    | JobCallback.jobFinished info => some info
    | _ => none

/-!
## What the handlers do
-/

/-- The lines the reader has got, and what they have left behind. -/
structure HasRead (job : JobStart) (s : JobRun) (read : List Str) : Prop where
  output : lines job.output = read ++ lines s.unread
  count : s.line = read.length
  last : s.lastLine = read.getLast?.getD []
  session : s.sessionId = if job.sessionStarted then read.head? else none

theorem startSession_eq (job : JobStart) (s : JobRun) (text : Str) :
    exists calls,
      s.startSession job text =
        { s with
          sessionId :=
            if s.line = 0 ∧ job.sessionStarted = true then some text
            else s.sessionId
          calls := calls } ∧
        (s.startSession job text).infos = s.infos := by
  unfold startSession
  split
  · exact ⟨s.calls ++ [JobCallback.sessionStarted text], rfl, by simp [infos, call]⟩
  · exact ⟨s.calls, rfl, rfl⟩

theorem noteBuild_eq (s : JobRun) (text : Str) :
    exists build, s.noteBuild text = { s with build := build } := by
  unfold noteBuild
  split
  · split
    · exact ⟨s.build, rfl⟩
    · exact ⟨_, rfl⟩
  · exact ⟨s.build, rfl⟩

/-- A line is counted and written down. -/
theorem acceptLine_eq (job : JobStart) (s : JobRun) (text : Str) :
    exists build calls,
      acceptLine job s text =
        { s with
          line := s.line + 1
          sessionId :=
            if s.line = 0 ∧ job.sessionStarted = true then some text
            else s.sessionId
          build := build
          calls := calls } ∧
        (acceptLine job s text).infos = s.infos := by
  rcases startSession_eq job s text with ⟨calls, hstart, hinfos⟩
  rcases noteBuild_eq (s.startSession job text) text with ⟨build, hnote⟩
  exists build
  exists calls
  constructor
  · rw [acceptLine, hnote, hstart]
  · rw [← hinfos, acceptLine, hnote]
    rfl

/-- The reader gets the lines one by one. -/
theorem hasRead_readCompleted {job : JobStart} {s t : JobRun} {read : List Str}
    (hs : HasRead job s read) (h : s.readCompleted job = some t) :
    (exists text, HasRead job t (read ++ [text])) ∧ t.exited = s.exited ∧
      t.infos = s.infos := by
  unfold readCompleted at h
  split at h
  · cases h
  rename_i text rest hread
  cases h
  rcases acceptLine_eq job { s with unread := rest, lastLine := text } text with
    ⟨build, calls, heq, hinfos⟩
  have hlines := lines_of_readLine hread
  have hcount := hs.count
  have hsession := hs.session
  constructor
  · exists text
    rw [heq]
    constructor
    · rw [hs.output, hlines]
      simp
    · simp [hcount]
    · simp
    · dsimp only
      cases read with
      | nil =>
          simp at hcount hsession
          simp [hcount, hsession]
      | cons first more =>
          simp at hcount hsession
          simp [hcount, hsession]
  · constructor
    · rw [heq]
    · exact hinfos

theorem finishSession_eq (job : JobStart) (s : JobRun) :
    exists calls, s.finishSession job = { s with calls := calls } := by
  unfold finishSession
  split
  · exact ⟨s.calls, rfl⟩
  · split
    · exact ⟨_, rfl⟩
    · exact ⟨s.calls, rfl⟩

/-- The handler of the exit reads what the reader has written down, and only
makes calls. -/
theorem exitCompleted_eq (job : JobStart) (s : JobRun) (ec : Bool) :
    exists thrown calls,
      s.exitCompleted job ec =
        { s with exited := true, thrown := thrown, calls := calls } := by
  rcases finishSession_eq job { s with exited := true } with ⟨calls, hfinish⟩
  unfold exitCompleted onSuccess onError
  cases ec with
  | true =>
      dsimp only
      rw [if_pos rfl, hfinish]
      split
      · exact ⟨_, _, rfl⟩
      · exact ⟨_, _, rfl⟩
  | false =>
      dsimp only
      rw [if_neg Bool.false_ne_true, hfinish]
      split
      · exact ⟨_, _, rfl⟩
      · split
        · exact ⟨_, _, rfl⟩
        · exact ⟨_, _, rfl⟩

/-!
## Reports
-/

/-- Once the exit has been handled, the job has been reported with the exit code
and the session of its output. -/
def Reported (job : JobStart) (s : JobRun) : Prop :=
  s.exited = true ->
    exists info, s.infos = [info] ∧ info.exitCode = some job.exitCode ∧
      info.sessionId = (lines job.output).head?

theorem output_ne_nil (job : JobStart) : lines job.output ≠ [] := by
  intro h
  have hlast := job.announced
  rw [h] at hlast
  cases hlast

/-- The reader has got a beginning of the output, nothing is reported before the
exit, and what is reported is right. -/
structure Inv (job : JobStart) (s : JobRun) : Prop where
  hasRead : exists read, HasRead job s read
  silent : s.exited = false -> s.infos = []
  reported : Reported job s

theorem inv_initial (job : JobStart) : Inv job (initial job) where
  hasRead := by
    exists []
    constructor
    · rfl
    · rfl
    · rfl
    · simp [initial]
  silent _ := rfl
  reported h := by cases h

theorem step_exited {job : JobStart} {s t : JobRun} {ec : Bool}
    (h : step job s (JobEvent.exited ec) = some t) :
    s.exited = false ∧ s.exitCompleted job ec = t := by
  rw [step] at h
  split at h
  · cases h
  · rename_i hready
    constructor
    · simpa using fun hexited => hready (Or.inr hexited)
    · exact Option.some.inj h

theorem step_lineRead {job : JobStart} {s t : JobRun}
    (h : step job s JobEvent.lineRead = some t) : s.readCompleted job = some t := by
  rw [step] at h
  split at h
  · cases h
  · exact h

/-- When the exit is handled behind the whole output, a code is reported as it
is unless it is negative and not the one that stands for no code. -/
theorem readsCode_of_allRead {job : JobStart} {s : JobRun} {es : List JobEvent}
    (hrun : (system job).runFrom (initial job) es = some s)
    (hall : readLine s.unread = none) :
    (0 < s.line ∧ Announces s.lastLine job.exitCode) <->
      0 <= job.exitCode ∨ job.exitCode = -1 := by
  have hstep : forall s e t, (exists read, HasRead job s read) ->
      (system job).step s e = some t -> exists read, HasRead job t read := by
    rintro s e t ⟨read, hread⟩ h
    cases e with
    | lineRead =>
        rcases hasRead_readCompleted hread (step_lineRead h) with
          ⟨⟨text, hnext⟩, _⟩
        exact ⟨_, hnext⟩
    | exited ec =>
        rcases step_exited h with ⟨_, rfl⟩
        rcases exitCompleted_eq job s ec with ⟨thrown, calls, heq⟩
        exists read
        rw [heq]
        exact ⟨hread.output, hread.count, hread.last, hread.session⟩
  rcases EventSystem.invariant_of_reachable
    (M := system job) (inv_initial job).hasRead hstep ⟨es, hrun⟩ with ⟨read, hread⟩
  have houtput := hread.output
  rw [lines_of_readLine_none hall, List.append_nil] at houtput
  have hlast : s.lastLine = exitLine job.exitCode := by
    rw [hread.last, ← houtput, job.announced]
    rfl
  have hline : 0 < s.line := by
    rw [hread.count, ← houtput]
    exact List.length_pos_iff.mpr (output_ne_nil job)
  rw [hlast, announces_exitLine_iff job.upper]
  constructor
  · intro h
    exact h.right
  · intro h
    exact ⟨hline, h⟩

end JobRun

end Cis
end CisWebui
