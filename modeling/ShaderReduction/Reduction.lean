/-
This file reduces a job on disk.

A reduction makes its output folder, works out whether earlier attempts on the same job can be
continued there, runs one session and writes a summary beside the trail. Its result says which job
the session ended with. The folder is made before anything else is looked at, and the summary is
written only by a session that returns.
-/

import ShaderReduction.CommandJudge
import ShaderReduction.LineChunk
import ShaderReduction.Session
import ShaderReduction.Settings

namespace ShaderReduction

/-- The result of reducing a job: its name, the output folder, the counts, the name of the final job
if the input was interesting, and the attempt after which the session began. -/
structure ReductionResult where
  base : Text
  folder : Path
  tally : Tally
  finalName : Option Text
  offset : Nat

namespace ReductionResult

/-- Whether the input was not interesting. -/
def notInteresting (result : ReductionResult) : Bool := result.finalName.isNone

/-- Whether the session stopped before the plan was exhausted. -/
def incomplete (result : ReductionResult) : Bool := result.tally.stoppedEarly

/-- The path of the final job. -/
def finalPath (result : ReductionResult) : Option Path :=
  result.finalName.map fun name => result.folder.join (Trail.fileName name)

end ReductionResult

/-- What a reduction works with besides the files: a plan that starts with a memory and makes at
most so many proposals for a job, and a judge, which can be missing. -/
structure Method (PlanMemory JudgeMemory : Type) where
  plan : Plan PlanMemory
  attemptBound : PlanMemory → Job → Nat
  judge : Except Fault (Judge JudgeMemory)

namespace Reduction

variable {PlanMemory JudgeMemory : Type}

/-- The state of a reduction: where the judge works, and the memory of the plan. -/
structure State (PlanMemory JudgeMemory : Type) where
  bench : Bench JudgeMemory
  plan : PlanMemory

/-- An action on the directory of a reduction. -/
def onDirectory {Result : Type} (action : FileAction Result) :
    Action (State PlanMemory JudgeMemory) Result :=
  Action.onPart State.bench (fun bench state => { state with bench }) (Bench.onDirectory action)

/-- What a session left in its state beside its result. -/
structure SessionEnd where
  finalName : Option Text
  tally : Tally

/-- Runs a session on the state of a reduction. -/
def runSession (session : Session.Step PlanMemory JudgeMemory (Option Text)) :
    Action (State PlanMemory JudgeMemory) SessionEnd := fun state =>
  let start : Session PlanMemory JudgeMemory :=
    Session.start state.bench.directory state.plan state.bench.memory
  let (result, after) := session start
  (result.map fun finalName => ⟨finalName, after.tally⟩, ⟨after.bench, after.plan⟩)

/-! ### The summary -/

/-- The lines of a summary that are known before the final job is read. -/
def summaryStart (result : ReductionResult) (inputLines : Nat) : Text :=
  ("Shader job: " : Text) ++ result.base ++ ("\nContinued from attempt: " : Text) ++
    Text.ofNat result.offset ++ ("\nOriginal size: " : Text) ++ Text.ofNat inputLines ++
    (" lines\n" : Text)

/-- The lines about the final job. -/
def summaryOfFinal (result : ReductionResult) (path : Path) (lines : Nat) : Text :=
  ("Reduced size: " : Text) ++ Text.ofNat lines ++ (" lines\nFinal shader job: " : Text) ++
    path.name ++ ("\nComplete: " : Text) ++
    (if result.incomplete then ("no" : Text) else ("yes" : Text)) ++ ("\n" : Text)

/-- Writes the summary of a reduction. -/
def writeSummary (result : ReductionResult) (inputLines : Nat) : FileAction Unit := do
  let path := result.folder.join "summary.txt"
  let start := summaryStart result inputLines
  FileAction.writeText path start
  let middle ←
    match result.finalPath with
    | none => pure ("Result: initial shader job not interesting\n" : Text)
    | some finalPath =>
      let final ← JobFiles.read finalPath
      pure (summaryOfFinal result finalPath final.lineCount)
  FileAction.writeText path
    (start ++ middle ++ result.tally.summary 0 ++ ("\n" : Text))

/-! ### Reducing -/

/-- Where a reduction starts: after the last attempt in its folder if it goes on from there, and at
the job itself otherwise. -/
def startingPoint (settings : Settings) (folder : Path) (base : Text) :
    FileAction Trail.ResumePoint :=
  if settings.continuePrevious.isGiven then Trail.resumePoint folder base
  else pure ⟨0, none⟩

/-- How a session starts: after which attempt, and from which job. -/
structure Opening where
  offset : Nat
  job : Job

/-- How the session on the job at a path starts. -/
def opening (settings : Settings) (folder path : Path) : FileAction Opening := do
  let point ← startingPoint settings folder path.stem
  let job ← JobFiles.read (point.path.getD path)
  pure ⟨point.offset, job⟩

/-- Runs a session that starts in a given way, and writes the summary. -/
def reduceFrom (settings : Settings) (method : Method PlanMemory JudgeMemory)
    (judge : Judge JudgeMemory) (folder path : Path) (opening : Opening) :
    Action (State PlanMemory JudgeMemory) ReductionResult := do
  let base := path.stem
  let storage := Storage.usual settings.emitDefinitions.isGiven
  let limit := StepLimit.ofDocument settings.stepLimit
  let budget := limit.budget (method.attemptBound (← get).plan opening.job)
  let session ← runSession <|
    Session.run ⟨method.plan, judge, storage, base, folder, opening.offset, limit, true⟩ budget
      opening.job
  let result : ReductionResult := ⟨base, folder, session.tally, session.finalName, opening.offset⟩
  onDirectory (writeSummary result opening.job.lineCount)
  pure result

/-- Reduces the job at a path with a method and writes the summary. -/
def reduce (settings : Settings) (method : Method PlanMemory JudgeMemory) (path : Path) :
    Action (State PlanMemory JudgeMemory) ReductionResult := do
  let folder ← Action.ofExcept settings.folder
  onDirectory (FileAction.ensureFolder folder)
  let judge ← Action.ofExcept method.judge
  let opening ← onDirectory (opening settings folder path)
  reduceFrom settings method judge folder path opening

/-! ### The usual method -/

/-- How the settings set up the judge that runs a test. -/
def judgeSetup (settings : Settings) (command : Document) : Except Fault CommandJudge.Setup :=
  match command.parts? with
  | some parts => .ok ⟨parts, settings.judgeTimeout, settings.timeoutIsInteresting.isGiven⟩
  | none => .error .unusableSetting

/-- The judge that runs a command as its test, under the settings. -/
def commandJudge (settings : Settings) (launcher : Launcher JudgeMemory) (command : Document) :
    Except Fault (Judge JudgeMemory) := do
  CommandJudge.judge launcher (← judgeSetup settings command)

/-- The plan that removes chunks of lines, and the judge that runs the test of the settings. -/
def usualMethod (settings : Settings) (launcher : Launcher JudgeMemory) :
    Method LineChunk.Memory JudgeMemory :=
  ⟨LineChunk.plan, fun memory => LineChunk.attemptBound memory.initialSize,
    commandJudge settings launcher settings.judgeCommand⟩

end Reduction

end ShaderReduction
