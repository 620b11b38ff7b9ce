/-
This file defines requests to reduce jobs, one after the other.

A request says with which settings, method and memories a job is reduced. The reductions of requests
share nothing but the directory: each one finds there what those before it left.
-/

import ShaderReduction.Proofs.Reduction.Noting

namespace ShaderReduction

open ShaderReduction.Action

namespace Reduction

/-- A request to reduce a job: the settings, the method with the memories that it starts with, and
the path of the job. -/
structure Request : Type 1 where
  PlanMemory : Type
  JudgeMemory : Type
  settings : Settings
  method : Method PlanMemory JudgeMemory
  plan : PlanMemory
  memory : JudgeMemory
  path : Path

namespace Request

/-- The state in which the reduction of a request begins. -/
def start (request : Request) (directory : Directory) :
    State request.PlanMemory request.JudgeMemory := ⟨⟨directory, request.memory⟩, request.plan⟩

/-- What the reduction of a request gives and leaves. -/
def run (request : Request) (directory : Directory) :
    Except Fault ReductionResult × State request.PlanMemory request.JudgeMemory :=
  (reduce request.settings request.method request.path).startingAt (request.start directory)

/-- The directory that the reduction of a request leaves. -/
def left (request : Request) (directory : Directory) : Directory :=
  (request.run directory).2.bench.directory

/-- The directory that the reductions of requests leave one after the other. -/
def leftBy : List Request → Directory → Directory
  | [], directory => directory
  | request :: requests, directory => leftBy requests (request.left directory)

theorem leftBy_append (earlier later : List Request) (directory : Directory) :
    leftBy (earlier ++ later) directory = leftBy later (leftBy earlier directory) := by
  induction earlier generalizing directory with
  | nil => rfl
  | cons request earlier inductionHypothesis => exact inductionHypothesis _

/-- What the reduction of a request gives and leaves in which the answers of the judge are noted. -/
def noted (request : Request) (directory : Directory) : Except Fault ReductionResult ×
    State (Noted request.PlanMemory) (Recorded request.JudgeMemory) :=
  (reduce request.settings request.method.noted request.path).startingAt
    ⟨⟨directory, ⟨request.memory, []⟩⟩, ⟨request.plan, none, []⟩⟩

/-- The answers of the judge in the reduction of a request. -/
def judgements (request : Request) (directory : Directory) : List Judgement :=
  (request.noted directory).2.bench.memory.judgements

/-- The answers of the judges in the reductions of requests one after the other. -/
def judgementsOf : List Request → Directory → List Judgement
  | [], _ => []
  | request :: requests, directory =>
    request.judgements directory ++ judgementsOf requests (request.left directory)

theorem left_eq (request : Request) (directory : Directory) :
    request.left directory = (request.noted directory).2.bench.directory :=
  congrArg (fun run => run.2.bench.directory)
    (projects_reduce request.settings request.method request.path
      ⟨⟨directory, ⟨request.memory, []⟩⟩, ⟨request.plan, none, []⟩⟩)

end Request

end Reduction

end ShaderReduction
