/-
This file runs a plan by itself, against a decision on its candidates.

A descent asks the plan for a candidate, decides on it, goes on from the candidate if it was
accepted and from the job before it otherwise, and tells the plan. It is what a session does once
the files, the judge and the cache are left out, so what a plan does under every sequence of
decisions is said of descents. A decision may depend on the number of the turn, and need not be
consistent.
-/

import ShaderReduction.Plan

namespace ShaderReduction

/-- One turn of a descent: the memory of the plan once it has proposed the candidate, the candidate,
and whether it was accepted. -/
structure Turn (Memory : Type) where
  memory : Memory
  candidate : Job
  accepted : Bool

/-- A descent: its turns, the job it ended with, the memory of the plan then, and the fault that
ended it, if its turns were not used up first. -/
structure Descent (Memory : Type) where
  turns : List (Turn Memory)
  job : Job
  memory : Memory
  fault : Option Fault

namespace Descent

variable {Memory : Type}

/-- The descent with one more turn before its first one. -/
def after (turn : Turn Memory) (descent : Descent Memory) : Descent Memory :=
  { descent with turns := turn :: descent.turns }

/-- The descent from a job, of at most so many turns after some that were made. -/
def run (plan : Plan Memory) (accepts : Nat → Job → Bool) :
    (turns made : Nat) → Job → Memory → Descent Memory
  | 0, _, job, memory => ⟨[], job, memory, none⟩
  | turns + 1, made, job, memory =>
    match plan.propose job memory with
    | (.error fault, memory) => ⟨[], job, memory, some fault⟩
    | (.ok candidate, proposed) =>
      let accepted := accepts made candidate
      match plan.update accepted proposed with
      | (.error fault, memory) => ⟨[⟨proposed, candidate, accepted⟩], job, memory, some fault⟩
      | (.ok _, memory) =>
        (run plan accepts turns (made + 1) (if accepted then candidate else job) memory).after
          ⟨proposed, candidate, accepted⟩

end Descent

end ShaderReduction
