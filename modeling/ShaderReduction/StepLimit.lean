/-
This file defines the limit on the attempts of a session.

A limit is given as a document. An integer that is not negative allows that many attempts, a number
with a fraction allows the next larger whole number of them, and minus one or less allows any
number. Anything that is no number is no limit, which is found out when the limit is first asked
for.
-/

import ShaderReduction.Fault

namespace ShaderReduction

/-- How many attempts a session may make. -/
inductive StepLimit where
  | unlimited
  | attempts (count : Nat)
  | unusable
deriving DecidableEq, Repr

namespace StepLimit

/-- The limit that an integer stands for. -/
def ofInt (limit : Int) : StepLimit := if limit < 0 then unlimited else attempts limit.toNat

/-- The limit that a floating-point number stands for. -/
def ofDouble (limit : Double) : StepLimit :=
  if limit.exceeds (-1) then
    match limit.fraction? with
    | some (numerator, denominator) =>
      attempts ((numerator.toNat + denominator - 1) / denominator)
    | none => unlimited
  else unlimited

/-- The limit that a document stands for. -/
def ofDocument : Document → StepLimit
  | .number limit => ofDouble limit
  | document =>
    match document.integer? with
    | some limit => ofInt limit
    | none => unusable

/-- Whether a session that has made some attempts has to stop. -/
def reached (limit : StepLimit) (made : Nat) : Except Fault Bool :=
  match limit with
  | unlimited => .ok false
  | attempts count => .ok (count ≤ made)
  | unusable => .error .limitNotNumber

/-- More turns than a session takes that has to stop at the limit, or would stop of itself within
`bound` attempts. -/
def budget (limit : StepLimit) (bound : Nat) : Nat :=
  match limit with
  | attempts count => count + 1
  | _ => bound + 1

end StepLimit

end ShaderReduction
