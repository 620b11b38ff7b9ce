/-
This file defines judges, which decide whether a job on disk still shows the behaviour of interest.

A judge reads the directory, may write a result beside the job and has a memory of its own. Its
report says whether the job is interesting, or that the judge could not tell. That last case is no
verdict: `isInteresting` turns it into a fault, so a session never takes a broken judge for a
rejection.
-/

import ShaderReduction.JobFiles

namespace ShaderReduction

/-- What a judge found. -/
inductive Verdict where
  | interesting
  | notInteresting
  | error
deriving DecidableEq, Repr

namespace Verdict

/-- The word for a verdict in a result. -/
def word : Verdict → Text
  | interesting => "interesting"
  | notInteresting => "not_interesting"
  | error => "error"

end Verdict

/-- The report of one run of a judge: the verdict, why there is none, the exit code of the test if
it ran to its end, whether it ran out of time, its output, and how many seconds it took. -/
structure JudgeReport where
  verdict : Verdict
  errorMessage : Text
  exitCode : Option Int
  timedOut : Bool
  output : Text
  runtime : Double

/-- Where a judge works: the directory, and its memory. -/
structure Bench (Memory : Type) where
  directory : Directory
  memory : Memory

namespace Bench

/-- An action on the directory, on a bench. -/
def onDirectory {Memory Result : Type} (action : FileAction Result) :
    Action (Bench Memory) Result :=
  Action.onPart Bench.directory (fun directory bench => { bench with directory }) action

/-- The bench with its memory changed. -/
def remember {Memory : Type} (change : Memory → Memory) : Action (Bench Memory) Unit :=
  modify fun bench => { bench with memory := change bench.memory }

end Bench

/-- A judge with a memory. It is given the path of the job and the path for its result. -/
structure Judge (Memory : Type) where
  report : (job result : Path) → Action (Bench Memory) JudgeReport

namespace Judge

/-- Whether a job is interesting. -/
def isInteresting {Memory : Type} (judge : Judge Memory) (job result : Path) :
    Action (Bench Memory) Bool := do
  let report ← judge.report job result
  match report.verdict with
  | .interesting => pure true
  | .notInteresting => pure false
  | .error => throw (.judgeFailed job report.errorMessage)

end Judge

end ShaderReduction
