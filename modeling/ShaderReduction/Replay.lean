/-
This file defines judges, launchers and plans whose answers are known beforehand.

A rule looks for a word in one of the files of a job. A scripted judge and a scripted launcher give
their listed answers first and then decide by rules; a scripted plan gives its listed proposals and
is then exhausted. Each notes down what it was asked, so that a session can be replayed and looked
at afterwards.
-/

import ShaderReduction.CommandJudge
import ShaderReduction.Plan

namespace ShaderReduction

namespace Replay

/-! ### Rules -/

/-- A condition on the file of a job with a suffix: that it is there and holds a word, or that it is
not there or does not. -/
inductive Rule where
  | holds (suffix word : Text)
  | lacks (suffix word : Text)

/-- Whether the file at a path is there and holds a word. -/
def fileHolds (path : Path) (word : Text) : FileAction Bool := do
  if ← FileAction.isPresent path then
    match Utf8.decode? (← FileAction.readBytes path) with
    | some text => pure (text.hasWord word)
    | none => throw .undecodable
  else pure false

/-- The path of the file of a job with a suffix, from the spelling of the path of the job, if that
is long enough to end in one. -/
def filePath? (job suffix : Text) : Option Path :=
  if job.length < 5 then none else some (Path.ofText (job.take (job.length - 5) ++ suffix))

/-- Whether the file of a job with a suffix is there and holds a word. -/
def jobHolds (job suffix word : Text) : FileAction Bool :=
  match filePath? job suffix with
  | some path => fileHolds path word
  | none => pure false

/-- Whether a rule holds for the job whose path is spelled so. -/
def Rule.check (job : Text) : Rule → FileAction Bool
  | .holds suffix word => jobHolds job suffix word
  | .lacks suffix word => do return !(← jobHolds job suffix word)

/-- Whether all rules hold for the job whose path is spelled so. -/
def checkAll (job : Text) : List Rule → FileAction Bool
  | [] => pure true
  | rule :: rules => do if ← rule.check job then checkAll job rules else pure false

/-! ### A scripted judge -/

/-- What a scripted judge still has to answer, how often it was asked, and about which jobs. -/
structure JudgeMemory where
  verdicts : List Verdict
  calls : Nat
  judged : List Path

/-- The memory of a scripted judge that was not asked yet. -/
def JudgeMemory.start (verdicts : List Verdict) : JudgeMemory := ⟨verdicts, 0, []⟩

/-- The report of a verdict and nothing else. -/
def plainReport (verdict : Verdict) : JudgeReport :=
  let message : Text := if verdict = .error then "scripted error" else []
  ⟨verdict, message, none, false, [], .ofQuotient false 0 1⟩

/-- The verdict of rules. -/
def verdictByRules (rules : List Rule) (job : Path) : Action (Bench JudgeMemory) Verdict := do
  let fits ← Bench.onDirectory (checkAll job.toText rules)
  pure (if fits then .interesting else .notInteresting)

/-- The judge that gives the listed verdicts and then decides by rules. It may write the number of
the call as its result. -/
def scriptedJudge (rules : List Rule) (writesResult : Bool) : Judge JudgeMemory where
  report job result := do
    Bench.remember fun memory =>
      { memory with calls := memory.calls + 1, judged := memory.judged ++ [job] }
    if writesResult then
      let call := (← get).memory.calls
      let text := (Document.object [("call", .integer call)]).compact ++ ("\n" : Text)
      Bench.onDirectory (FileAction.writeText result text)
    match (← get).memory.verdicts with
    | verdict :: verdicts =>
      Bench.remember fun memory => { memory with verdicts }
      pure (plainReport verdict)
    | [] => return plainReport (← verdictByRules rules job)

/-! ### A scripted launcher -/

/-- The outcomes that a scripted launcher still has to give, with their runtimes, and the commands
and time limits it was given. -/
structure LauncherMemory where
  outcomes : List (RunOutcome × Double)
  commands : List (List Text)
  limits : List Double

/-- The memory of a scripted launcher that has launched nothing yet. -/
def LauncherMemory.start (outcomes : List (RunOutcome × Double)) : LauncherMemory :=
  ⟨outcomes, [], []⟩

/-- The launcher that gives the listed outcomes and then lets rules decide about the last part of
the command. -/
def scriptedLauncher (rules : List Rule) : Launcher LauncherMemory where
  launch command limit := do
    Bench.remember fun memory =>
      { memory with commands := memory.commands ++ [command], limits := memory.limits ++ [limit] }
    match (← get).memory.outcomes with
    | outcome :: outcomes =>
      Bench.remember fun memory => { memory with outcomes }
      pure outcome
    | [] =>
      let fits ← Bench.onDirectory (checkAll (command.getLast?.getD []) rules)
      pure (.exited (if fits then 0 else 1) [] [], .ofQuotient false 0 1)

/-! ### Scripted and observed plans -/

/-- A listed answer of a scripted plan: a candidate, a transformation that does not apply, or
exhaustion. -/
inductive Proposal where
  | candidate (job : Job)
  | inapplicable (reason : Text)
  | exhausted (reason : Text)

/-- The plan that gives the listed proposals in turn and takes no notice of what becomes of them. -/
def scriptedPlan : Plan (List Proposal) where
  propose _ := do
    match ← get with
    | [] => throw (.exhausted [])
    | proposal :: proposals =>
      set proposals
      match proposal with
      | .candidate job => pure job
      | .inapplicable reason => throw (.inapplicable reason)
      | .exhausted reason => throw (.exhausted reason)
  update _ := pure ()

/-- The memory of an observed plan: its own, the line count of every job that it was asked about and
whether that job was bound, and every answer that it was told. -/
structure ObservedMemory (Memory : Type) where
  inner : Memory
  seen : List (Nat × Bool)
  updates : List Bool

/-- The memory of an observed plan that was not asked yet. -/
def ObservedMemory.start {Memory : Type} (inner : Memory) : ObservedMemory Memory := ⟨inner, [], []⟩

/-- An action of a plan as an action of the observed plan. -/
def onInner {Memory Result : Type} (action : Action Memory Result) :
    Action (ObservedMemory Memory) Result :=
  Action.onPart ObservedMemory.inner (fun inner memory => { memory with inner }) action

/-- A plan that notes down what it is asked and told. -/
def observed {Memory : Type} (plan : Plan Memory) : Plan (ObservedMemory Memory) where
  propose job := do
    let isBound ← Action.ofExcept job.hasBindings
    modify fun memory => { memory with seen := memory.seen ++ [(job.lineCount, isBound)] }
    onInner (plan.propose job)
  update accepted := do
    modify fun memory => { memory with updates := memory.updates ++ [accepted] }
    onInner (plan.update accepted)

end Replay

end ShaderReduction
