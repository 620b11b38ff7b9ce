/-
This file writes documents as text.

`compact` writes a document on one line, `indented` on many, with two blanks for each level, and
`canonical` on one line with the members of every object sorted by name. All three write every
character outside the printable ASCII range as an escape, so that what they write can be stored in
any file.
-/

import ShaderReduction.Document
import ShaderReduction.Double.Numeral

namespace ShaderReduction

namespace Document

/-! ### Scalars -/

/-- A code unit of sixteen bits as an escape. -/
def unitEscape (unit : Nat) : Text := ("\\u" : Text) ++ Text.hexadecimal 4 unit

/-- A code point as it stands between the quotes of a written text. -/
def escaped (point : CodePoint) : Text :=
  let place := point.toNat
  if place = 0x22 then "\\\""
  else if place = 0x5C then "\\\\"
  else if place = 0x0A then "\\n"
  else if place = 0x0D then "\\r"
  else if place = 0x09 then "\\t"
  else if place = 0x08 then "\\b"
  else if place = 0x0C then "\\f"
  else if 0x20 ≤ place ∧ place < 0x7F then [point]
  else if place < 0x10000 then unitEscape place
  else
    unitEscape (0xD800 + (place - 0x10000) / 0x400) ++
      unitEscape (0xDC00 + (place - 0x10000) % 0x400)

/-- A text between quotes. -/
def quoted (text : Text) : Text := ("\"" : Text) ++ text.flatMap escaped ++ ("\"" : Text)

/-- The word for a truth value. -/
def truthWord (value : Bool) : Text := if value then "true" else "false"

/-- A floating-point number in a document. -/
def numberText (value : Double) : Text := value.numeral Double.documentStyle "Infinity" "NaN"

/-! ### On one line -/

mutual

/-- A document on one line. -/
def compact : Document → Text
  | null => "null"
  | boolean value => truthWord value
  | integer value => Text.ofInt value
  | number value => numberText value
  | string value => quoted value
  | array items => ("[" : Text) ++ compactItems items ++ ("]" : Text)
  | object members => ("\x7b" : Text) ++ compactMembers members ++ ("\x7d" : Text)

/-- The items of an array on one line. -/
def compactItems : List Document → Text
  | [] => []
  | [item] => compact item
  | item :: next :: items => compact item ++ (", " : Text) ++ compactItems (next :: items)

/-- The members of an object on one line. -/
def compactMembers : List (Text × Document) → Text
  | [] => []
  | [(name, value)] => quoted name ++ (": " : Text) ++ compact value
  | (name, value) :: next :: members =>
    quoted name ++ (": " : Text) ++ compact value ++ (", " : Text) ++
      compactMembers (next :: members)

end

/-! ### On many lines -/

/-- The start of a line at a level. -/
def newLine (level : Nat) : Text := .scalar '\n' :: List.replicate (2 * level) (.scalar ' ')

mutual

/-- A document whose items and members stand on lines of their own, one level deeper. -/
def indentedAt (level : Nat) : Document → Text
  | array [] => "[]"
  | array (item :: items) =>
    ("[" : Text) ++ newLine (level + 1) ++ indentedItems (level + 1) (item :: items) ++
      newLine level ++ ("]" : Text)
  | object [] => "\x7b\x7d"
  | object (member :: members) =>
    ("\x7b" : Text) ++ newLine (level + 1) ++ indentedMembers (level + 1) (member :: members) ++
      newLine level ++ ("\x7d" : Text)
  | scalar => compact scalar

/-- The items of an array, each on a line of the level. -/
def indentedItems (level : Nat) : List Document → Text
  | [] => []
  | [item] => indentedAt level item
  | item :: next :: items =>
    indentedAt level item ++ ("," : Text) ++ newLine level ++ indentedItems level (next :: items)

/-- The members of an object, each on a line of the level. -/
def indentedMembers (level : Nat) : List (Text × Document) → Text
  | [] => []
  | [(name, value)] => quoted name ++ (": " : Text) ++ indentedAt level value
  | (name, value) :: next :: members =>
    quoted name ++ (": " : Text) ++ indentedAt level value ++ ("," : Text) ++ newLine level ++
      indentedMembers level (next :: members)

end

/-- A document on many lines. -/
def indented (document : Document) : Text := indentedAt 0 document

/-! ### With sorted names -/

/-- The members sorted by name. -/
def sortMembers (members : Members) : Members :=
  members.mergeSort fun left right => Text.le left.1 right.1

mutual

/-- The document with the members of every object sorted by name. -/
def sorted : Document → Document
  | array items => array (sortedItems items)
  | object members => object (sortMembers (sortedMembers members))
  | scalar => scalar

/-- The items with the members of every object in them sorted. -/
def sortedItems : List Document → List Document
  | [] => []
  | item :: items => sorted item :: sortedItems items

/-- The members, unsorted, with the members of every object in their values sorted. -/
def sortedMembers : List (Text × Document) → Members
  | [] => []
  | (name, value) :: members => (name, sorted value) :: sortedMembers members

end

/-- The one-line text by which documents are told apart when they are hashed. -/
def canonical (document : Document) : Text := compact (sorted document)

end Document

end ShaderReduction
