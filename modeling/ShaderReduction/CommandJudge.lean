/-
This file defines the judge that runs an external test.

The test is a command that receives the path of the job as its last argument. It finds the job
interesting by exiting with zero; what a test means that runs out of time is a setting. A test that
cannot be started gives no verdict. After every run the judge writes a result beside the job, with
the last part of the output and the time it took, rounded to thousandths of a second.

How a command is run is left to a `Launcher`, so that the judge is the same over real processes and
over a list of outcomes known beforehand.
-/

import ShaderReduction.Judge

namespace ShaderReduction

/-- Output of a test that was cut off: none, text, or bytes that were not read as text yet. -/
inductive PartialOutput where
  | nothing
  | text (value : Text)
  | bytes (value : Bytes)

namespace PartialOutput

/-- The text of an output. -/
def toText : PartialOutput → Text
  | nothing => []
  | text value => value
  | bytes value => Utf8.decodeReplacing value

end PartialOutput

/-- How a run of a command ended. -/
inductive RunOutcome where
  | exited (code : Int) (output errors : Text)
  | timedOut (output errors : PartialOutput)
  | commandMissing
  | notStarted (reason : Text)

/-- What runs commands: given a command and its time limit in seconds, it gives how the run ended
and how many seconds it took. -/
structure Launcher (Memory : Type) where
  launch : (command : List Text) → (limit : Double) → Action (Bench Memory) (RunOutcome × Double)

namespace CommandJudge

/-- What the judge is set up with: the command without its last argument and the time limit in
milliseconds, both as they stand in the settings, and whether running out of time is interesting. -/
structure Setup where
  command : List Document
  timeLimit : Document
  timeoutIsInteresting : Bool

/-- The most code points of output that a result keeps. -/
def keptOutput : Nat := 4000

/-- The last code points of an output, as many as a result keeps. -/
def outputEnd (output : Text) : Text := output.drop (output.length - keptOutput)

/-- The command of a setup, every part of which must be a text. -/
def Setup.texts (setup : Setup) : Except Fault (List Text) :=
  setup.command.mapM fun part =>
    match part.text? with
    | some text => .ok text
    | none => .error .commandNotText

/-- A time limit in seconds. -/
def seconds (timeLimit : Document) : Except Fault Double :=
  match timeLimit with
  | .number value => .ok (value.divideBy 1000)
  | other =>
    match other.integer? with
    | none => .error .timeoutNotNumber
    | some milliseconds =>
      match Double.ofInt? milliseconds with
      | none => .error .timeoutTooLarge
      | some value => .ok (value.divideBy 1000)

/-- The verdict that a test run to its end stands for. -/
def verdictOfExit (code : Int) : Verdict := if code = 0 then .interesting else .notInteresting

/-- The report of a run of a command. -/
def reportOf (setup : Setup) (command : List Text) (outcome : RunOutcome) (runtime : Double) :
    JudgeReport :=
  match outcome with
  | .exited code output errors =>
    ⟨verdictOfExit code, [], some code, false, output ++ errors, runtime⟩
  | .timedOut output errors =>
    let verdict := if setup.timeoutIsInteresting then .interesting else .notInteresting
    ⟨verdict, "Interestingness test timed out", none, true, output.toText ++ errors.toText, runtime⟩
  | .commandMissing =>
    ⟨.error, ("Judge command not found: " : Text) ++ command.headD [], none, false, [],
      runtime⟩
  | .notStarted reason => ⟨.error, reason, none, false, [], runtime⟩

/-- The result that is written beside the job. -/
def resultDocument (report : JudgeReport) : Document :=
  .object [
    ("status", .string report.verdict.word),
    ("exit_code", (report.exitCode.map Document.integer).getD .null),
    ("timeout", .boolean report.timedOut),
    ("runtime_seconds", .number (report.runtime.roundTo 3)),
    ("error_message", .string report.errorMessage),
    ("output", .string (outputEnd report.output))]

/-- The spelling of a path without steps back, as the test receives it. -/
def resolved (path : Path) : Except Fault Text :=
  match path.steps.findSome? Directory.nameFault? with
  | some fault => .error fault
  | none => .ok path.straighten.toText

/-- Runs the test on a job and writes the result. -/
def run {Memory : Type} (launcher : Launcher Memory) (setup : Setup) (job result : Path) :
    Action (Bench Memory) JudgeReport := do
  let path ← Action.ofExcept (resolved job)
  let command ← Action.ofExcept setup.texts
  let limit ← Action.ofExcept (seconds setup.timeLimit)
  let (outcome, runtime) ← launcher.launch (command ++ [path]) limit
  let report := reportOf setup command outcome runtime
  Bench.onDirectory (FileAction.writeDocument result (resultDocument report))
  pure report

/-- The judge that runs the test of a setup, which must have a command. -/
def judge {Memory : Type} (launcher : Launcher Memory) (setup : Setup) :
    Except Fault (Judge Memory) :=
  if setup.command.isEmpty then .error .noJudgeCommand else .ok ⟨run launcher setup⟩

end CommandJudge

end ShaderReduction
