/-
This file says which code points are blank, which make up words, which are decimal digits, which
break a line and which can be printed.

The recognisers of declarations, macro calls and step names ask only these questions, so nothing
else of the Unicode standard enters the library. No class but the printable one reaches into the
surrogate halves. That no character is both blank and part of a word is what makes the recognisers
read a declaration in one way only.
-/

import ShaderReduction.CodePoint
import ShaderReduction.CharacterClass.Tables

namespace ShaderReduction

namespace CharacterClass

/-- Whether a place lies in one of the ranges. -/
def within (ranges : List (Nat × Nat)) (place : Nat) : Bool :=
  ranges.any fun range => range.1 ≤ place && place ≤ range.2

end CharacterClass

namespace CodePoint

open CharacterClass

/-- White space of any kind, line breaks among it. -/
def isBlank (point : CodePoint) : Bool := within blankRanges point.toNat

/-- The word characters of the first 128 places: letters, digits and the underscore. -/
def isPlainWord (place : Nat) : Bool :=
  (48 ≤ place && place ≤ 57) || (65 ≤ place && place ≤ 90) || place == 95 ||
    (97 ≤ place && place ≤ 122)

/-- A letter, digit or number of any script, or the underscore. -/
def isWord (point : CodePoint) : Bool :=
  if point.toNat < 128 then isPlainWord point.toNat else within wordRanges point.toNat

/-- The value of a decimal digit of any script. -/
def digit? (point : CodePoint) : Option Nat :=
  (digitZeros.find? fun first => first ≤ point.toNat && point.toNat ≤ first + 9).map
    fun first => point.toNat - first

/-- A decimal digit of any script. -/
def isDigit (point : CodePoint) : Bool := point.digit?.isSome

/-- A decimal digit of the first 128 places. -/
def isPlainDigit (point : CodePoint) : Bool := 48 ≤ point.toNat && point.toNat ≤ 57

/-- A code point that is shown as itself between quotes. -/
def isPrintable (point : CodePoint) : Bool := !within unprintableRanges point.toNat

/-- A code point that ends a line: the feeds, the carriage return, the separators of files, groups
and records, the next-line control and the separators of lines and paragraphs. -/
def isLineBreak (point : CodePoint) : Bool :=
  [0xA, 0xB, 0xC, 0xD, 0x1C, 0x1D, 0x1E, 0x85, 0x2028, 0x2029].contains point.toNat

/-- The blanks that may stand before a declaration on its line. -/
def isIndent (point : CodePoint) : Bool := point == .scalar ' ' || point == .scalar '\t'

end CodePoint

end ShaderReduction
