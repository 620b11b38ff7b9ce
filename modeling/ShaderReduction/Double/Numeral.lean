/-
This file writes floating-point numbers.

`numeral` is the spelling of a number in a document: its shortest decimal, written out while the
first digit stands for a power of ten from minus four to fifteen, and with an exponent of at least
two digits and a sign otherwise. A whole number keeps a point and a zero, so that it does not read
as an integer. `fixed` writes a number with a fixed count of places, as the report of a session does
with a duration.
-/

import ShaderReduction.Double.Shortest

namespace ShaderReduction

namespace Double

/-- Which powers of ten are written out, and how few digits an exponent may have. -/
structure NumeralStyle where
  leastWrittenOut : Int
  greatestWrittenOut : Int
  exponentDigits : Nat

/-- The style of documents and reports. -/
def documentStyle : NumeralStyle := ⟨-4, 15, 2⟩

/-- A minus sign where it is due. -/
def sign (negative : Bool) : Text := if negative then "-" else []

/-- A decimal with its point at its place. -/
def writtenOut (digits : Text) (exponent : Int) : Text :=
  match exponent with
  | .ofNat power => digits ++ List.replicate power (.scalar '0') ++ (".0" : Text)
  | .negSucc power =>
    let places := power + 1
    let padded := Text.padStart '0' (places + 1) digits
    padded.take (padded.length - places) ++ ("." : Text) ++ padded.drop (padded.length - places)

/-- A decimal with one digit before its point and a power of ten. -/
def withExponent (style : NumeralStyle) (digits : Text) (power : Int) : Text :=
  let mantissa : Text :=
    match digits with
    | [] => []
    | [digit] => [digit]
    | first :: rest => first :: .scalar '.' :: rest
  let size := Text.padStart '0' style.exponentDigits (Text.ofNat power.natAbs)
  mantissa ++ (if power < 0 then ("e-" : Text) else ("e+" : Text)) ++ size

/-- The shortest numeral of a finite number, without its sign. -/
def magnitudeNumeral (style : NumeralStyle) (significand : Nat) (exponent : Int) : Text :=
  let decimal := shortest significand exponent
  let digits := Text.ofNat decimal.digits
  let power := decimal.exponent + (digits.length - 1 : Nat)
  if style.leastWrittenOut ≤ power ∧ power ≤ style.greatestWrittenOut then
    writtenOut digits decimal.exponent
  else withExponent style digits power

/-- The numeral of a number, given the words for infinity and for the undefined number. -/
def numeral (style : NumeralStyle) (infinity undefinedWord : Text) : Double → Text
  | finite negative significand exponent =>
    sign negative ++ magnitudeNumeral style significand exponent
  | infinite negative => sign negative ++ infinity
  | undefined => undefinedWord

/-- The number with the given count of places after its point, at least one. -/
def fixed (places : Nat) : Double → Text
  | finite negative significand exponent =>
    let units := nearestUnits places significand exponent
    let digits := Text.padStart '0' (places + 1) (Text.ofNat units)
    sign negative ++ digits.take (digits.length - places) ++ ("." : Text) ++
      digits.drop (digits.length - places)
  | infinite negative => sign negative ++ ("inf" : Text)
  | undefined => "nan"

end Double

end ShaderReduction
