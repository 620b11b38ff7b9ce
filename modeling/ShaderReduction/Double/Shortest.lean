/-
This file finds the shortest decimal that stands for a floating-point number.

A decimal stands for a number when no other number is nearer to it. Those decimals fill an interval
around the number whose ends lie half way to the neighbouring numbers; the ends belong to it exactly
when the significand is even. `shortest` tries grids of one, two, up to seventeen digits; on each it
looks at the two grid points around the number and takes the first grid on which one lies in the
interval, and the nearer of two. Seventeen digits always suffice.
-/

import ShaderReduction.Double

namespace ShaderReduction

namespace Double

/-- A decimal: some digits times a power of ten. -/
structure Decimal where
  digits : Nat
  exponent : Int
deriving DecidableEq, Repr

/-- The interval of the decimals that stand for a number: its ends and the number itself as
numerators over one denominator, and whether the ends belong to it. -/
structure Interval where
  low : Nat
  value : Nat
  high : Nat
  denominator : Nat
  closed : Bool

/-- The interval of a positive finite number. -/
def interval (significand : Nat) (exponent : Int) : Interval :=
  let below := if significand = significandBound / 2 ∧ leastExponent < exponent then 1 else 2
  let (unit, denominator) := scaled 1 1 (exponent - 2)
  { low := (4 * significand - below) * unit
    value := 4 * significand * unit
    high := (4 * significand + 2) * unit
    denominator
    closed := significand % 2 = 0 }

/-- How many digits a natural number has. -/
def digitCount (number : Nat) : Nat := (Nat.toDigits 10 number).length

/-- The exponent of the greatest power of ten that is at most a positive quotient. -/
def decimalExponent (numerator denominator : Nat) : Int :=
  if denominator ≤ numerator then (digitCount (numerator / denominator) : Int) - 1
  else
    let size := digitCount (denominator / numerator)
    if numerator * Nat.pow 10 (size - 1) = denominator then 1 - (size : Int) else -(size : Int)

/-- Whether a numerator lies in an interval. -/
def Interval.holds (interval : Interval) (numerator : Nat) : Bool :=
  if interval.closed then interval.low ≤ numerator && numerator ≤ interval.high
  else interval.low < numerator && numerator < interval.high

/-- The interval with every numerator multiplied. -/
def Interval.scale (interval : Interval) (factor : Nat) : Interval :=
  { interval with
    low := interval.low * factor
    value := interval.value * factor
    high := interval.high * factor }

/-- The point nearest to the number, among the multiples of a step that lie in the interval. -/
def Interval.nearestPoint? (interval : Interval) (step : Nat) : Option Nat :=
  let below := interval.value / step
  let above := below + 1
  let fromBelow := interval.value - below * step
  let fromAbove := above * step - interval.value
  match interval.holds (below * step), interval.holds (above * step) with
  | true, true =>
    if fromBelow < fromAbove then some below
    else if fromAbove < fromBelow then some above
    else some (below + below % 2)
  | true, false => some below
  | false, true => some above
  | false, false => none

/-- The point of the grid with the given power of ten that is nearest to the number and stands for
it. -/
def Interval.gridPoint? (interval : Interval) : Int → Option Nat
  | .ofNat power => interval.nearestPoint? (Nat.pow 10 power * interval.denominator)
  | .negSucc power => (interval.scale (Nat.pow 10 (power + 1))).nearestPoint? interval.denominator

/-- The first grid, from the given power of ten to finer ones, with a decimal for the number. -/
def Interval.firstDecimal (interval : Interval) : (grids : Nat) → (exponent : Int) → Decimal
  | 0, exponent => ⟨0, exponent⟩
  | grids + 1, exponent =>
    match interval.gridPoint? exponent with
    | some digits => ⟨digits, exponent⟩
    | none => interval.firstDecimal grids (exponent - 1)

/-- A decimal without zeros at the end of its digits. -/
def Decimal.trimmed : (steps : Nat) → Decimal → Decimal
  | 0, decimal => decimal
  | steps + 1, decimal =>
    if decimal.digits ≠ 0 ∧ decimal.digits % 10 = 0 then
      Decimal.trimmed steps ⟨decimal.digits / 10, decimal.exponent + 1⟩
    else decimal

/-- The shortest decimal that stands for a finite number of the given significand and exponent. -/
def shortest (significand : Nat) (exponent : Int) : Decimal :=
  if significand = 0 then ⟨0, 0⟩
  else
    let interval := interval significand exponent
    let first := decimalExponent interval.value interval.denominator
    (interval.firstDecimal 17 first).trimmed 17

end Double

end ShaderReduction
