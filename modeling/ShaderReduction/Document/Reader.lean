/-
This file reads documents.

Reading has two parts. `tokens` cuts the text into marks, texts, numerals and words; `build` runs
over the tokens once with a stack of the arrays and objects that are still open. Both are recursions
on what is left to read, so every text is read or refused after finitely many steps. What cannot be
read is a token too, so that of several faults the first in the text is reported. An object that
names a member twice keeps the place of the first and the value of the last.

Numerals with neither a fraction nor a power of ten are integers, which may have 4300 digits; the
others are the nearest floating-point numbers. The words `NaN`, `Infinity` and `-Infinity` are read
as well. A document may be nested up to `deepest` levels.
-/

import ShaderReduction.Numeral

namespace ShaderReduction

namespace Document

/-! ### Tokens -/

/-- The smallest pieces of a written document. An integer of too many digits is told apart from what
is no piece of a document at all, with which reading ends. -/
inductive Token where
  | openArray
  | closeArray
  | openObject
  | closeObject
  | comma
  | colon
  | text (value : Text)
  | scalar (value : Document)
  | oversized (digits : Nat)
  | unreadable

/-- A piece of a quoted text: a code point, and whether it was written by its number. -/
structure Piece where
  point : CodePoint
  numbered : Bool

/-- The code unit that four hexadecimal digits stand for. -/
def unit? (first second third fourth : CodePoint) : Option CodePoint := do
  let high ← Text.hexDigit? first
  let nextHigh ← Text.hexDigit? second
  let nextLow ← Text.hexDigit? third
  let low ← Text.hexDigit? fourth
  CodePoint.ofNat? (((high * 16 + nextHigh) * 16 + nextLow) * 16 + low)

/-- The code point that a letter after a backslash stands for. -/
def shortEscape? : CodePoint → Option CodePoint
  | .scalar '"' => some (.scalar '"')
  | .scalar '\\' => some (.scalar '\\')
  | .scalar '/' => some (.scalar '/')
  | .scalar 'b' => some (.scalar '\x08')
  | .scalar 'f' => some (.scalar '\x0c')
  | .scalar 'n' => some (.scalar '\n')
  | .scalar 'r' => some (.scalar '\r')
  | .scalar 't' => some (.scalar '\t')
  | _ => none

/-- The pieces of a quoted text up to its closing quote, and what follows the quote. A control
character must be escaped. -/
def pieces? : Text → Option (List Piece × Text)
  | [] => none
  | .scalar '"' :: rest => some ([], rest)
  | .scalar '\\' :: .scalar 'u' :: first :: second :: third :: fourth :: rest => do
    let point ← unit? first second third fourth
    let (pieces, after) ← pieces? rest
    some (⟨point, true⟩ :: pieces, after)
  | .scalar '\\' :: letter :: rest => do
    let point ← shortEscape? letter
    let (pieces, after) ← pieces? rest
    some (⟨point, false⟩ :: pieces, after)
  | point :: rest =>
    if point.toNat < 0x20 ∨ point = .scalar '\\' then none
    else do
      let (pieces, after) ← pieces? rest
      some (⟨point, false⟩ :: pieces, after)

/-- The text that pieces make up: two halves of a surrogate pair written by their numbers, one
directly after the other, are one code point. -/
def joinPieces : List Piece → Text
  | [] => []
  | [piece] => [piece.point]
  | first :: second :: pieces =>
    match first.numbered && second.numbered, CodePoint.joinHalves? first.point second.point with
    | true, some point => point :: joinPieces pieces
    | _, _ => first.point :: joinPieces (second :: pieces)

/-- The number that decimal digits stand for. -/
def digitsValue (digits : Text) : Nat :=
  digits.foldl (fun value digit => value * 10 + (digit.toNat - 48)) 0

/-- The digits at the start of a text, and what follows them. -/
def spanDigits (text : Text) : Text × Text :=
  (text.takeWhile CodePoint.isPlainDigit, text.dropWhile CodePoint.isPlainDigit)

/-- The digits of a fraction, if a point and a digit stand at the start of a text. -/
def fraction (text : Text) : Text × Text :=
  match text with
  | .scalar '.' :: rest =>
    match spanDigits rest with
    | ([], _) => ([], text)
    | (digits, after) => (digits, after)
  | _ => ([], text)

/-- The power of ten at the start of a text, if there is one. -/
def powerOfTen (text : Text) : Option Int × Text :=
  match text with
  | [] => (none, text)
  | letter :: rest =>
    if letter = .scalar 'e' ∨ letter = .scalar 'E' then
      let (negative, unsigned) :=
        match rest with
        | .scalar '-' :: unsigned => (true, unsigned)
        | .scalar '+' :: unsigned => (false, unsigned)
        | _ => (false, rest)
      match spanDigits unsigned with
      | ([], _) => (none, text)
      | (digits, after) =>
        let size : Int := digitsValue digits
        (some (if negative then -size else size), after)
    else (none, text)

/-- The digits before the point: a zero, or digits that do not begin with one. -/
def wholeDigits? : Text → Option (Text × Text)
  | .scalar '0' :: rest => some ([.scalar '0'], rest)
  | text =>
    match spanDigits text with
    | ([], _) => none
    | (digits, after) => some (digits, after)

/-- The integer that digits after a sign stand for, if they are not too many. -/
def integerToken (negative : Bool) (digits : Text) : Token :=
  let size : Int := digitsValue digits
  if Text.longestNumeral < digits.length then .oversized digits.length
  else .scalar (integer (if negative then -size else size))

/-- The numeral at the start of a text, after its sign. -/
def numeral? (negative : Bool) (text : Text) : Option (Token × Text) := do
  let (whole, afterWhole) ← wholeDigits? text
  let (places, afterPlaces) := fraction afterWhole
  let (power, after) := powerOfTen afterPlaces
  if places.isEmpty && power.isNone then some (integerToken negative whole, after)
  else
    let exponent := power.getD 0 - (places.length : Int)
    some (.scalar (number (Double.ofDecimal negative (digitsValue (whole ++ places)) exponent)),
      after)

/-- The words of documents with the values that they stand for. -/
def words : List (Text × Document) :=
  [("null", null), ("true", boolean true), ("false", boolean false),
    ("NaN", number .undefined), ("Infinity", number (.infinite false)),
    ("-Infinity", number (.infinite true))]

/-- The word at the start of a text. -/
def word? (text : Text) : Option (Document × Text) :=
  words.findSome? fun (word, value) => (Text.dropWord? word text).map (value, ·)

/-- The token at the start of a text that begins with no blank, and what follows it. -/
def token? (text : Text) : Option (Token × Text) :=
  match text with
  | [] => none
  | .scalar '[' :: rest => some (.openArray, rest)
  | .scalar ']' :: rest => some (.closeArray, rest)
  | .scalar '\x7b' :: rest => some (.openObject, rest)
  | .scalar '\x7d' :: rest => some (.closeObject, rest)
  | .scalar ',' :: rest => some (.comma, rest)
  | .scalar ':' :: rest => some (.colon, rest)
  | .scalar '"' :: rest =>
    (pieces? rest).map fun (pieces, after) => (.text (joinPieces pieces), after)
  | point :: rest =>
    match word? text with
    | some (value, after) => some (.scalar value, after)
    | none =>
      let (negative, unsigned) := if point = .scalar '-' then (true, rest) else (false, text)
      numeral? negative unsigned

/-- The blanks that may stand between tokens. -/
def isSeparator (point : CodePoint) : Bool :=
  [0x20, 0x09, 0x0A, 0x0D].contains point.toNat

/-- The tokens of a text, at most as many as its length. -/
def tokensWithin : (length : Nat) → Text → List Token
  | 0, text => if text.dropWhile isSeparator = [] then [] else [.unreadable]
  | length + 1, text =>
    match text.dropWhile isSeparator with
    | [] => []
    | point :: rest =>
      match token? (point :: rest) with
      | none => [.unreadable]
      | some (token, after) => token :: tokensWithin length after

/-- The tokens of a text, up to what cannot be read. Every token takes at least one code point, so
the length of the text bounds their number. -/
def tokens (text : Text) : List Token := tokensWithin text.length text

/-! ### Building -/

/-- An array or object that is still open: what it holds so far, and for an object the name of the
member whose value is being read. -/
inductive Frame where
  | array (items : List Document)
  | object (members : Members) (name : Text)

/-- What may come next: a value, a value or the end of an empty array, a name, a name or the end of
an empty object, the colon after a name, or what follows a value. -/
inductive Expectation where
  | value
  | firstItem
  | name (members : Members)
  | firstName
  | colon (members : Members) (name : Text)
  | afterValue (value : Document)

/-- A document being read: what may come next, and the arrays and objects around it, innermost
first. -/
structure Building where
  expectation : Expectation
  frames : List Frame

/-- How many levels of arrays and objects a document may have to be read. -/
def deepest : Nat := 990

/-- The building in which one more array or object is open, if it is not one too many. -/
def Building.enter (building : Building) (expectation : Expectation) (frames : List Frame) :
    Except Fault Building :=
  if deepest ≤ building.frames.length then .error .nestedTooDeep else .ok ⟨expectation, frames⟩

/-- The building after one more token. -/
def Building.step (building : Building) (token : Token) : Except Fault Building :=
  let frames := building.frames
  match building.expectation, token with
  | .value, .openArray | .firstItem, .openArray =>
    building.enter .firstItem (.array [] :: frames)
  | .value, .openObject | .firstItem, .openObject => building.enter .firstName frames
  | .value, .text value | .firstItem, .text value => .ok ⟨.afterValue (string value), frames⟩
  | .value, .scalar value | .firstItem, .scalar value => .ok ⟨.afterValue value, frames⟩
  | .value, .oversized digits | .firstItem, .oversized digits => .error (.oversizedNumeral digits)
  | .firstItem, .closeArray =>
    match frames with
    | .array items :: outer => .ok ⟨.afterValue (array items), outer⟩
    | _ => .error .malformedDocument
  | .name members, .text name => .ok ⟨.colon members name, frames⟩
  | .firstName, .text name => .ok ⟨.colon [] name, frames⟩
  | .firstName, .closeObject => .ok ⟨.afterValue (object []), frames⟩
  | .colon members name, .colon => .ok ⟨.value, .object members name :: frames⟩
  | .afterValue value, .comma =>
    match frames with
    | .array items :: outer => .ok ⟨.value, .array (items ++ [value]) :: outer⟩
    | .object members name :: outer => .ok ⟨.name (Table.put name value members), outer⟩
    | [] => .error .malformedDocument
  | .afterValue value, .closeArray =>
    match frames with
    | .array items :: outer => .ok ⟨.afterValue (array (items ++ [value])), outer⟩
    | _ => .error .malformedDocument
  | .afterValue value, .closeObject =>
    match frames with
    | .object members name :: outer =>
      .ok ⟨.afterValue (object (Table.put name value members)), outer⟩
    | _ => .error .malformedDocument
  | _, _ => .error .malformedDocument

/-- The document that tokens make up after what has been built. -/
def build : List Token → Building → Except Fault Document
  | [], building =>
    match building.expectation, building.frames with
    | .afterValue value, [] => .ok value
    | _, _ => .error .malformedDocument
  | token :: tokens, building =>
    match building.step token with
    | .ok next => build tokens next
    | .error fault => .error fault

/-- The document that a text is. -/
def read (text : Text) : Except Fault Document := build (tokens text) ⟨.value, []⟩

end Document

end ShaderReduction
