/-
This file proves that a reduction goes the same whether anything is noted in it or not.

In a noted reduction the plan notes its steps and the judge its answers. Both notes are those of the
session: nothing but the session works with the plan or asks the judge.
-/

import ShaderReduction.Proofs.Session.Judgements
import ShaderReduction.Proofs.Session.Noting
import ShaderReduction.Reduction

namespace ShaderReduction

open ShaderReduction.Action

variable {PlanMemory JudgeMemory : Type}

/-- The method whose plan notes its steps and whose judge notes its answers. -/
def Method.noted (method : Method PlanMemory JudgeMemory) :
    Method (Noted PlanMemory) (Recorded JudgeMemory) :=
  ⟨method.plan.noted, fun noted => method.attemptBound noted.memory,
    method.judge.map Judge.recorded⟩

namespace Reduction

/-- The state without the notes of the plan and of the judge. -/
def State.forget (state : State (Noted PlanMemory) (Recorded JudgeMemory)) :
    State PlanMemory JudgeMemory :=
  ⟨state.bench.forget Recorded.memory, state.plan.memory⟩

theorem startingAt_runSession (session : Session.Step PlanMemory JudgeMemory (Option Text))
    (state : State PlanMemory JudgeMemory) :
    (runSession session).startingAt state =
      let run := session.startingAt
        (Session.start state.bench.directory state.plan state.bench.memory)
      (run.1.map fun finalName => ⟨finalName, run.2.tally⟩, ⟨run.2.bench, run.2.plan⟩) := rfl

theorem projects_onDirectory {Result : Type} (action : FileAction Result) :
    Projects (State.forget : State (Noted PlanMemory) (Recorded JudgeMemory) →
      State PlanMemory JudgeMemory) (onDirectory action) (onDirectory action) := by
  have onBench : Projects (Bench.forget Recorded.memory : Bench (Recorded JudgeMemory) →
      Bench JudgeMemory) (Bench.onDirectory action) (Bench.onDirectory action) :=
    (projects_self action).onPart (fun _ => rfl) fun _ _ => rfl
  exact onBench.onPart (fun _ => rfl) fun _ _ => rfl

theorem projects_runSession
    {watched : Session.Step (Noted PlanMemory) (Recorded JudgeMemory) (Option Text)}
    {session : Session.Step PlanMemory JudgeMemory (Option Text)}
    (projects : Projects (Session.forget Noted.memory Recorded.memory) watched session) :
    Projects State.forget (runSession watched) (runSession session) := by
  intro state
  have same := projects
    (Session.start state.bench.directory state.plan state.bench.memory)
  have start : Session.start state.forget.bench.directory state.forget.plan
      state.forget.bench.memory = Session.forget Noted.memory Recorded.memory
        (Session.start state.bench.directory state.plan state.bench.memory) := rfl
  rw [startingAt_runSession, startingAt_runSession, start, same]
  rfl

theorem projects_reduceFrom (settings : Settings) (method : Method PlanMemory JudgeMemory)
    (judge : Judge JudgeMemory) (folder path : Path) (opening : Opening) :
    Projects State.forget (reduceFrom settings method.noted judge.recorded folder path opening)
      (reduceFrom settings method judge folder path opening) := by
  refine projects_get_bind fun state => ?_
  refine (projects_runSession ?_).bind fun session =>
    (projects_onDirectory _).bind fun _ => projects_pure _
  let setup : SessionSetup PlanMemory JudgeMemory :=
    ⟨method.plan, judge, Storage.usual settings.emitDefinitions.isGiven, path.stem, folder,
      opening.offset, StepLimit.ofDocument settings.stepLimit, true⟩
  have watchesPlan : Plan.Watches Noted.memory method.plan.noted setup.plan :=
    method.plan.watches_noted
  have watchesJudge : Judge.Watches Recorded.memory judge.recorded setup.judge :=
    judge.watches_recorded
  exact Session.projects_run watchesPlan watchesJudge _ _

/-- A reduction that is noted goes as it does when nothing is noted. -/
theorem projects_reduce (settings : Settings) (method : Method PlanMemory JudgeMemory)
    (path : Path) :
    Projects State.forget (reduce settings method.noted path) (reduce settings method path) := by
  refine (projects_ofExcept _).bind fun folder => (projects_onDirectory _).bind fun _ => ?_
  obtain ⟨plan, attemptBound, judge⟩ := method
  cases judge with
  | error fault => exact projects_throw fault
  | ok judge =>
    have rest : ∀ opening, Projects State.forget _ _ := fun opening =>
      projects_reduceFrom settings ⟨plan, attemptBound, .ok judge⟩ judge folder path opening
    exact (projects_onDirectory (opening settings folder path)).bind rest

end Reduction

end ShaderReduction
