/-
This file defines the numbers with a fraction that documents hold: the binary floating-point
numbers of 53 significant bits, given by their exact value.

A finite number is a sign, a significand and a power of two. Arithmetic on them is arithmetic on
quotients of natural numbers followed by one rounding, `ofQuotient`, which returns the nearest
number and, of two equally near ones, the one with the even significand. Reading a decimal numeral,
converting an integer and dividing are each that rounding applied to another quotient, so they are
correct for every input and are computed without any machine number.
-/

import ShaderReduction.Text

namespace ShaderReduction

/-- The natural number nearest to a quotient, the even one if two are equally near. -/
def nearestEven (numerator denominator : Nat) : Nat :=
  let below := numerator / denominator
  let twice := 2 * (numerator % denominator)
  if twice < denominator then below
  else if denominator < twice then below + 1
  else below + below % 2

/-- A floating-point number: `finite negative significand exponent` is the significand times two to
the exponent, with its sign. -/
inductive Double where
  | finite (negative : Bool) (significand : Nat) (exponent : Int)
  | infinite (negative : Bool)
  | undefined
deriving DecidableEq, Repr

namespace Double

/-! ### Rounding a quotient -/

/-- The least exponent of a number. -/
def leastExponent : Int := -1074

/-- The greatest exponent of a number. -/
def greatestExponent : Int := 971

/-- The significands of numbers are less than this power of two. -/
def significandBound : Nat := Nat.pow 2 53

/-- A natural number times a power of two, over a power of two, as one quotient. -/
def scaled (numerator denominator : Nat) (exponent : Int) : Nat × Nat :=
  match exponent with
  | .ofNat power => (numerator * Nat.pow 2 power, denominator)
  | .negSucc power => (numerator, denominator * Nat.pow 2 (power + 1))

/-- The exponent of the greatest power of two that is at most a positive quotient. -/
def binaryExponent (numerator denominator : Nat) : Int :=
  let estimate : Int := (numerator.log2 : Int) - (denominator.log2 : Int)
  let (scaledNumerator, scaledDenominator) := scaled numerator denominator (-estimate)
  if scaledDenominator ≤ scaledNumerator then estimate else estimate - 1

/-- The number nearest to a quotient, with a sign. A quotient beyond the greatest number gives
infinity. -/
def ofQuotient (negative : Bool) (numerator denominator : Nat) : Double :=
  if numerator = 0 then finite negative 0 leastExponent
  else
    let exponent := max (binaryExponent numerator denominator - 52) leastExponent
    let (scaledNumerator, scaledDenominator) := scaled numerator denominator (-exponent)
    let significand := nearestEven scaledNumerator scaledDenominator
    let (significand, exponent) :=
      if significand = significandBound then (significandBound / 2, exponent + 1)
      else (significand, exponent)
    if greatestExponent < exponent then infinite negative else finite negative significand exponent

/-- The number nearest to an integer, unless it is beyond the greatest number. -/
def ofInt? (integer : Int) : Option Double :=
  match ofQuotient (integer < 0) integer.natAbs 1 with
  | infinite _ => none
  | number => some number

/-- The number nearest to some digits with a power of ten. -/
def ofDecimal (negative : Bool) (digits : Nat) (exponent : Int) : Double :=
  let size : Int := exponent + (Nat.toDigits 10 digits).length
  if digits = 0 ∨ size < -400 then ofQuotient negative 0 1
  else if 400 < size then infinite negative
  else
    match exponent with
    | .ofNat power => ofQuotient negative (digits * Nat.pow 10 power) 1
    | .negSucc power => ofQuotient negative digits (Nat.pow 10 (power + 1))

/-- The number nearest to the quotient of two integers, the second positive. -/
def ofFraction (numerator : Int) (denominator : Nat) : Double :=
  ofQuotient (numerator < 0) numerator.natAbs denominator

/-! ### Arithmetic -/

/-- A number divided by a positive integer. -/
def divideBy (number : Double) (divisor : Nat) : Double :=
  match number with
  | finite negative significand exponent =>
    let (numerator, denominator) := scaled significand divisor exponent
    ofQuotient negative numerator denominator
  | _ => number

/-- The whole number of units of ten to the minus `places` that is nearest to the size of a finite
number. -/
def nearestUnits (places significand : Nat) (exponent : Int) : Nat :=
  let (numerator, denominator) := scaled (significand * Nat.pow 10 places) 1 exponent
  nearestEven numerator denominator

/-- A number rounded to some places after the point, a half going to the even neighbour. -/
def roundTo (places : Nat) : Double → Double
  | finite negative significand exponent =>
    ofQuotient negative (nearestUnits places significand exponent) (Nat.pow 10 places)
  | number => number

/-! ### Comparison -/

/-- The exact value of a finite number as a fraction with a positive denominator. -/
def fraction? : Double → Option (Int × Nat)
  | finite negative significand exponent =>
    let (numerator, denominator) := scaled significand 1 exponent
    some (if negative then -(numerator : Int) else numerator, denominator)
  | _ => none

/-- Whether a number has exactly the value of an integer. -/
def equalsInt (number : Double) (integer : Int) : Bool :=
  match number.fraction? with
  | some (numerator, denominator) => numerator == integer * denominator
  | none => false

/-- Whether two numbers are equal. The two zeros are, and the undefined number equals itself, so
that every document equals itself. -/
def equals (left right : Double) : Bool :=
  match left, right with
  | finite leftNegative leftSignificand leftExponent,
    finite rightNegative rightSignificand rightExponent =>
    (leftSignificand == 0 && rightSignificand == 0) ||
      (leftNegative == rightNegative && leftSignificand == rightSignificand &&
        leftExponent == rightExponent)
  | infinite leftNegative, infinite rightNegative => leftNegative == rightNegative
  | undefined, undefined => true
  | _, _ => false

/-- Whether a number is greater than an integer. -/
def exceeds (number : Double) (integer : Int) : Bool :=
  match number with
  | infinite negative => !negative
  | undefined => false
  | finite .. =>
    match number.fraction? with
    | some (numerator, denominator) => integer * denominator < numerator
    | none => false

/-- Whether a number is zero. -/
def isZero : Double → Bool
  | finite _ significand _ => significand == 0
  | _ => false

theorem equals_self (number : Double) : number.equals number = true := by
  cases number <;> simp [equals]

end Double

end ShaderReduction
