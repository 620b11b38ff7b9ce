/-
This file writes documents the way they are shown to a reader of shaders and reports.

A binding is put into a shader's text as it is displayed: a text as itself, and anything else as it
is shown inside an array or object. Shown documents differ from stored ones in their words for null
and the truth values, in the quotes around texts, which are single unless the text holds a single
quote and no double one, and in leaving every printable character as it is.
-/

import ShaderReduction.Document.Printer
import ShaderReduction.CharacterClass

namespace ShaderReduction

namespace Document

/-- The quote that is put around a shown text. -/
def displayQuote (text : Text) : CodePoint :=
  if text.contains (.scalar '\'') && !text.contains (.scalar '"') then .scalar '"'
  else .scalar '\''

/-- A code point as it stands between the given quotes. -/
def displayPoint (quote point : CodePoint) : Text :=
  let place := point.toNat
  if point = quote ∨ place = 0x5C then [.scalar '\\', point]
  else if place = 0x09 then "\\t"
  else if place = 0x0A then "\\n"
  else if place = 0x0D then "\\r"
  else if point.isPrintable then [point]
  else if place < 0x100 then ("\\x" : Text) ++ Text.hexadecimal 2 place
  else if place < 0x10000 then ("\\u" : Text) ++ Text.hexadecimal 4 place
  else ("\\U" : Text) ++ Text.hexadecimal 8 place

/-- A text between quotes, as it is shown inside a document. -/
def displayText (text : Text) : Text :=
  let quote := displayQuote text
  quote :: text.flatMap (displayPoint quote) ++ [quote]

mutual

/-- A document as it is shown inside another one. -/
def shown : Document → Text
  | null => "None"
  | boolean value => if value then "True" else "False"
  | integer value => Text.ofInt value
  | number value => value.numeral Double.documentStyle "inf" "nan"
  | string value => displayText value
  | array items => ("[" : Text) ++ shownItems items ++ ("]" : Text)
  | object members => ("\x7b" : Text) ++ shownMembers members ++ ("\x7d" : Text)

/-- The items of an array as they are shown. -/
def shownItems : List Document → Text
  | [] => []
  | [item] => shown item
  | item :: next :: items => shown item ++ (", " : Text) ++ shownItems (next :: items)

/-- The members of an object as they are shown. -/
def shownMembers : List (Text × Document) → Text
  | [] => []
  | [(name, value)] => displayText name ++ (": " : Text) ++ shown value
  | (name, value) :: next :: members =>
    displayText name ++ (": " : Text) ++ shown value ++ (", " : Text) ++
      shownMembers (next :: members)

end

/-- A document as it is displayed by itself. An integer is displayed whatever its length: the limit
on the digits of a numeral, `Text.longestNumeral`, is one on what is read, and an integer that was
read is within it. -/
def display : Document → Text
  | string value => value
  | document => shown document

end Document

end ShaderReduction
