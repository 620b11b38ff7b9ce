/-
This file defines what a reduction plan is.

A plan proposes the next smaller job and is told whether its last proposal was accepted, so that it
can steer later ones. Its memory is a state of its own that only these two operations change. A plan
that has nothing left to propose, or whose transformation does not apply, fails with a fault, and
what it has noted down until then remains.
-/

import ShaderReduction.Action
import ShaderReduction.Job

namespace ShaderReduction

/-- A source of candidates with a memory. -/
structure Plan (Memory : Type) where
  propose : Job → Action Memory Job
  update : Bool → Action Memory Unit

end ShaderReduction
