/-
This file remembers the verdicts of a session.

The fingerprints of judged jobs are kept in two lists that share none. A job that is known to fail
is not judged again. A job that was accepted must never come back: a search only ever shrinks, so
seeing one again means that it runs in a circle, and that is a fault.
-/

import ShaderReduction.Action

namespace ShaderReduction

/-- The fingerprints of rejected and accepted jobs, each once, and how often a lookup was
answered. -/
structure VerdictCache where
  failing : List Text
  passing : List Text
  hits : Nat
deriving DecidableEq, Repr, Inhabited

namespace VerdictCache

/-- The cache that knows nothing. -/
def empty : VerdictCache := ⟨[], [], 0⟩

/-- How many fingerprints are known. -/
def size (cache : VerdictCache) : Nat := cache.failing.length + cache.passing.length

/-- A list of fingerprints with one more. -/
def add (fingerprint : Text) (known : List Text) : List Text :=
  if fingerprint ∈ known then known else known ++ [fingerprint]

/-- Whether a fingerprint is known to fail. One that was accepted is a fault. -/
def lookup (fingerprint : Text) : Action VerdictCache Bool := do
  let cache ← get
  if fingerprint ∈ cache.failing then
    set { cache with hits := cache.hits + 1 }
    pure true
  else if fingerprint ∈ cache.passing then throw .loop
  else pure false

/-- Notes the verdict on a fingerprint. One that contradicts an earlier verdict is a fault. -/
def record (fingerprint : Text) (interesting : Bool) : Action VerdictCache Unit := do
  let cache ← get
  if interesting then
    if fingerprint ∈ cache.failing then throw (.loopAfterRejection fingerprint)
    set { cache with passing := add fingerprint cache.passing }
  else
    if fingerprint ∈ cache.passing then throw (.loopAfterAcceptance fingerprint)
    set { cache with failing := add fingerprint cache.failing }

end VerdictCache

end ShaderReduction
