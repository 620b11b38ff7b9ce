/-
This file defines a reduction session.

A session confirms that its input is interesting, then repeatedly asks the plan for a smaller job,
writes it, judges it and keeps it if it is still interesting, and finally writes a simplified job,
or the last job kept if the simplified one is no longer interesting. Every attempt leaves a tagged
job in the folder of the session. A candidate whose files are known to fail is rejected without
being judged, and one whose files were accepted before ends the session with a fault.

The jobs that the plan sees are free; when the input was bound, each job is bound as it is written.

A plan may go on forever, so a session is given a number of attempts, its budget. A session that
spends it before it would end fails with `Fault.outOfAttempts` and with no other sign; a session
that ends within it does not depend on it.
-/

import ShaderReduction.Judge
import ShaderReduction.Plan
import ShaderReduction.StepLimit
import ShaderReduction.Tally
import ShaderReduction.Trail
import ShaderReduction.VerdictCache

namespace ShaderReduction

/-- The state of a session: where the judge works, the memory of the plan, the verdicts so far, the
counts, how many candidates were accepted, and the job that was accepted last. -/
structure Session (PlanMemory JudgeMemory : Type) where
  bench : Bench JudgeMemory
  plan : PlanMemory
  cache : VerdictCache
  tally : Tally
  accepted : Nat
  current : Option Job

/-- What stays the same during a session: the plan, the judge, how jobs are stored, the name and
folder of the session, the number of attempts made before it, the limit on its own, and whether
verdicts on candidates are remembered. -/
structure SessionSetup (PlanMemory JudgeMemory : Type) where
  plan : Plan PlanMemory
  judge : Judge JudgeMemory
  storage : Storage
  base : Text
  folder : Path
  offset : Int
  limit : StepLimit
  remembers : Bool

namespace Session

variable {PlanMemory JudgeMemory : Type}

/-- The session that begins in a directory. -/
def start (directory : Directory) (plan : PlanMemory) (judge : JudgeMemory) :
    Session PlanMemory JudgeMemory :=
  ⟨⟨directory, judge⟩, plan, VerdictCache.empty, Tally.empty, 0, none⟩

/-- An action in a session. -/
abbrev Step (PlanMemory JudgeMemory Result : Type) :=
  Action (Session PlanMemory JudgeMemory) Result

/-! ### Actions on the parts of a session -/

/-- An action of the judge. -/
def onBench {Result : Type} (action : Action (Bench JudgeMemory) Result) :
    Step PlanMemory JudgeMemory Result :=
  Action.onPart Session.bench (fun bench session => { session with bench }) action

/-- An action on the directory. -/
def onDirectory {Result : Type} (action : FileAction Result) : Step PlanMemory JudgeMemory Result :=
  onBench (Bench.onDirectory action)

/-- An action of the plan. -/
def onPlan {Result : Type} (action : Action PlanMemory Result) :
    Step PlanMemory JudgeMemory Result :=
  Action.onPart Session.plan (fun plan session => { session with plan }) action

/-- An action on the verdicts. -/
def onCache {Result : Type} (action : Action VerdictCache Result) :
    Step PlanMemory JudgeMemory Result :=
  Action.onPart Session.cache (fun cache session => { session with cache }) action

/-- Changes the counts. -/
def count (change : Tally → Tally) : Step PlanMemory JudgeMemory Unit :=
  modify fun session => { session with tally := change session.tally }

theorem onBench_eq_iff {Result : Type} {action : Action (Bench JudgeMemory) Result}
    {session after : Session PlanMemory JudgeMemory} {result : Except Fault Result} :
    (onBench action).startingAt session = (result, after) ↔
      ∃ bench, action.startingAt session.bench = (result, bench) ∧
        after = { session with bench } := Action.onPart_eq_iff

theorem onDirectory_eq_iff {Result : Type} {action : FileAction Result}
    {session after : Session PlanMemory JudgeMemory} {result : Except Fault Result} :
    (onDirectory action).startingAt session = (result, after) ↔
      ∃ directory, action.startingAt session.bench.directory = (result, directory) ∧
        after = { session with bench := { session.bench with directory } } := by
  rw [onDirectory, onBench_eq_iff, Bench.onDirectory, Action.startingAt_onPart]
  constructor
  · rintro ⟨bench, run, rfl⟩
    cases run
    exact ⟨_, rfl, rfl⟩
  · rintro ⟨directory, run, rfl⟩
    rw [run]
    exact ⟨_, rfl, rfl⟩

/-! ### Writing and judging a job

The bindings are those with which jobs are written, or none if jobs are written as they are. -/

variable (setup : SessionSetup PlanMemory JudgeMemory) (bindings : Option Members)

/-- The path of the job with a name. -/
def jobPath (name : Text) : Path := setup.folder.join (Trail.fileName name)

/-- The form in which a job is written. -/
def writtenForm (job : Job) : Except Fault Job :=
  match bindings with
  | some bindings => job.withBindings (.ofMembers bindings)
  | none => .ok job

/-- Writes a job in its written form. -/
def writeJob (job : Job) (path : Path) : Step PlanMemory JudgeMemory Unit := do
  let written ← Action.ofExcept (writtenForm bindings job)
  onDirectory (JobFiles.write setup.storage written path)

/-- Asks the judge about the job at a path. -/
def consultJudge (path : Path) : Step PlanMemory JudgeMemory Bool := do
  count fun tally => { tally with judgeCalls := tally.judgeCalls + 1 }
  let result ← Action.ofExcept (JobFiles.result path)
  onBench (setup.judge.isInteresting path result)

/-- Writes a job under a name and judges it. -/
def judgeJob (job : Job) (name : Text) : Step PlanMemory JudgeMemory Bool := do
  let path := jobPath setup name
  writeJob setup bindings job path
  consultJudge setup path

/-- Judges the candidate at a path, unless its files are known to fail. -/
def consultCache (path : Path) : Step PlanMemory JudgeMemory Bool := do
  let fingerprint ← onDirectory (JobFiles.fingerprint setup.storage path)
  if ← onCache (VerdictCache.lookup fingerprint) then
    count fun tally => { tally with cacheHits := tally.cacheHits + 1 }
    pure false
  else
    let interesting ← consultJudge setup path
    onCache (VerdictCache.record fingerprint interesting)
    pure interesting

/-- Writes a candidate under a name and judges it, by what is remembered if anything is. -/
def judgeCandidate (job : Job) (name : Text) : Step PlanMemory JudgeMemory Bool := do
  let path := jobPath setup name
  writeJob setup bindings job path
  if setup.remembers then consultCache setup path else consultJudge setup path

/-! ### The check of the input -/

/-- How often the input is judged before it is given up. -/
def initialTries : Nat := 5

/-- Judges the input up to a number of times, until it is found interesting. -/
def tryInitial (job : Job) : (tries : Nat) → Step PlanMemory JudgeMemory Bool
  | 0 => pure false
  | tries + 1 => do
    if ← judgeJob setup bindings job setup.base then pure true else tryInitial job tries

/-- Whether the input is interesting. If it is not, a marker is left. -/
def checkInitial (job : Job) : Step PlanMemory JudgeMemory Bool := do
  if ← tryInitial setup bindings job initialTries then pure true
  else
    onDirectory (FileAction.touch (setup.folder.join Trail.notInterestingMarker))
    pure false

/-! ### The attempts -/

/-- How often the plan is asked again within one step when its transformation does not apply. -/
def applicationRetries : Nat := 2

/-- Asks the plan for a candidate. A plan that is exhausted gives none. -/
def propose (job : Job) : Step PlanMemory JudgeMemory (Option Job) := fun session =>
  match onPlan (setup.plan.propose job) session with
  | (.ok candidate, after) => (.ok (some candidate), after)
  | (.error (.exhausted _), after) => (.ok none, after)
  | (.error fault, after) => (.error fault, after)

/-- Asks the plan for a candidate, and again a number of times while its transformation does not
apply. -/
def proposeRetrying (job : Job) : (retries : Nat) → Step PlanMemory JudgeMemory (Option Job)
  | 0 => propose setup job
  | retries + 1 => fun session =>
    match propose setup job session with
    | (.error (.inapplicable _), after) => proposeRetrying job retries after
    | other => other

theorem startingAt_propose (job : Job) (session : Session PlanMemory JudgeMemory) :
    (propose setup job).startingAt session =
      match (onPlan (setup.plan.propose job)).startingAt session with
      | (.ok candidate, after) => (.ok (some candidate), after)
      | (.error (.exhausted _), after) => (.ok none, after)
      | (.error fault, after) => (.error fault, after) := rfl

theorem startingAt_proposeRetrying_succ (job : Job) (retries : Nat)
    (session : Session PlanMemory JudgeMemory) :
    (proposeRetrying setup job (retries + 1)).startingAt session =
      match (propose setup job).startingAt session with
      | (.error (.inapplicable _), after) => (proposeRetrying setup job retries).startingAt after
      | other => other := rfl

/-- Renames the job of an attempt for its outcome. -/
def tagStep (attempt : Int) (outcome : Outcome) : Step PlanMemory JudgeMemory Unit :=
  onDirectory <|
    JobFiles.move (jobPath setup (Trail.stepName setup.base attempt))
      (jobPath setup (Trail.judgedName setup.base attempt outcome)) true

/-- Notes the verdict on a candidate and tells the plan. -/
def settle (candidate : Job) (interesting : Bool) : Step PlanMemory JudgeMemory Unit := do
  if interesting then
    modify fun session =>
      { session with
        accepted := session.accepted + 1
        tally := { session.tally with successes := session.tally.successes + 1 }
        current := some candidate }
  else count fun tally => { tally with failures := tally.failures + 1 }
  onPlan (setup.plan.update interesting)

/-- One attempt, after some have been made: the candidate is counted, written, judged, tagged and
settled. The answer is whether it was accepted. -/
def attemptCandidate (candidate : Job) (made : Nat) : Step PlanMemory JudgeMemory Bool := do
  count fun tally => { tally with attempts := tally.attempts + 1 }
  let attempt := (made : Int) + 1 + setup.offset
  let interesting ←
    judgeCandidate setup bindings candidate (Trail.stepName setup.base attempt)
  tagStep setup attempt (Outcome.ofVerdict interesting)
  settle setup candidate interesting
  pure interesting

/-- The attempts of a session on a job, after some have been made: until the limit, until the plan
is exhausted, or until the budget is spent. The answer is the job accepted last. -/
def shrink : (budget made : Nat) → Job → Step PlanMemory JudgeMemory Job
  | 0, _, _ => throw .outOfAttempts
  | budget + 1, made, job => do
    if ← Action.ofExcept (setup.limit.reached made) then
      count fun tally => { tally with stoppedEarly := true }
      pure job
    else
      match ← proposeRetrying setup job applicationRetries with
      | none => pure job
      | some candidate =>
        let accepted ← attemptCandidate setup bindings candidate made
        shrink budget (made + 1) (if accepted then candidate else job)

/-! ### The final job -/

/-- Writes a job over a final job that was not interesting, and removes the result that belongs to
the latter. -/
def revertFinal (job : Job) (path : Path) : Step PlanMemory JudgeMemory Unit := do
  writeJob setup bindings job path
  let result ← Action.ofExcept (JobFiles.result path)
  onDirectory (FileAction.removeIfPresent result)

/-- Leaves a marker if the session was stopped early. -/
def markIncomplete : Step PlanMemory JudgeMemory Unit := do
  if (← get).tally.stoppedEarly then
    onDirectory (FileAction.touch (setup.folder.join Trail.incompleteMarker))

/-- Writes the final job, simplified if that stays interesting. -/
def finish (job : Job) : Step PlanMemory JudgeMemory Text := do
  let name := Trail.finalName setup.base
  unless ← judgeJob setup bindings job.simplify name do
    revertFinal setup bindings job (jobPath setup name)
  markIncomplete setup
  pure name

/-! ### The whole session -/

/-- Whether the session goes on from a job: the check of the input is only left out if earlier
attempts have made it unnecessary. -/
def mayProceed (job : Job) : Step PlanMemory JudgeMemory Bool :=
  if 0 < setup.offset then pure true else checkInitial setup bindings job

/-- The attempts on a free job, and the final job. -/
def proceed (budget : Nat) (job : Job) : Step PlanMemory JudgeMemory Text := do
  modify fun session => { session with current := some job }
  finish setup bindings (← shrink setup bindings budget 0 job)

/-- The session on a free job: the check of the input, the attempts, and the final job. -/
def runFree (budget : Nat) (job : Job) : Step PlanMemory JudgeMemory (Option Text) := do
  if ← mayProceed setup bindings job then
    return some (← proceed setup bindings budget job)
  else pure none

/-- The session on a job: the name of the final job, or none if the input was never interesting. -/
def run (budget : Nat) (job : Job) : Step PlanMemory JudgeMemory (Option Text) := do
  if ← Action.ofExcept job.hasBindings then
    let bindings ← Action.ofExcept job.uniforms.bindings
    let free ← Action.ofExcept job.withoutBindings
    runFree setup (some bindings) budget free
  else runFree setup none budget job

end Session

end ShaderReduction
