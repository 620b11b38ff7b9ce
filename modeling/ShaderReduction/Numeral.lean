/-
This file reads the integers that are given as text.

A numeral has a sign, if it has any, and digits of any script, between which single underscores may
stand; blanks may stand around it. The separators of files, groups, records and units are blanks
elsewhere and none here. A numeral of too many digits is refused, leading zeros counted and
underscores not, and so is a text that is no numeral.
-/

import ShaderReduction.Fault

namespace ShaderReduction

namespace Numeral

/-- The blanks that may stand around a numeral. -/
def isMargin (point : CodePoint) : Bool :=
  point.isBlank && !(0x1C ≤ point.toNat && point.toNat ≤ 0x1F)

/-- A text without the blanks around it. -/
def trimMargins (text : Text) : Text :=
  ((text.dropWhile isMargin).reverse.dropWhile isMargin).reverse

/-- The number that digits stand for, between which single underscores may stand. -/
def digitsValue? : (value : Nat) → (afterDigit : Bool) → Text → Option Nat
  | value, afterDigit, [] => if afterDigit then some value else none
  | value, afterDigit, point :: rest =>
    match point.digit? with
    | some digit => digitsValue? (value * 10 + digit) true rest
    | none => if point = .scalar '_' ∧ afterDigit then digitsValue? value false rest else none

/-- Whether a numeral is negative, and what follows its sign. -/
def cutSign : Text → Bool × Text
  | .scalar '-' :: digits => (true, digits)
  | .scalar '+' :: digits => (false, digits)
  | digits => (false, digits)

/-- The integer that a text is the numeral of. -/
def readInteger (text : Text) : Except Fault Int :=
  let (negative, digits) := cutSign (trimMargins text)
  match digitsValue? 0 false digits with
  | none => .error (.invalidNumeral text)
  | some size =>
    let count := (digits.filter CodePoint.isDigit).length
    if Text.longestNumeral < count then .error (.oversizedNumeral count)
    else .ok (if negative then -(size : Int) else size)

end Numeral

end ShaderReduction
