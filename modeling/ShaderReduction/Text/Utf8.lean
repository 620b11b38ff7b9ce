/-
This file converts between texts and the bytes of files.

Writing encodes every scalar value in one to four bytes and fails on half of a surrogate pair.
Strict reading accepts exactly what writing produces, so a text survives being written and read
(`decode?_encode?`). Output of a judge that was cut off in the middle may be invalid; it is read
with a replacement character for every longest run of bytes that begins no encoded character.
-/

import ShaderReduction.Text

namespace ShaderReduction

/-- The content of a file. -/
abbrev Bytes := List UInt8

namespace Utf8

/-! ### Strict conversion -/

/-- The characters of a text that has no half of a surrogate pair. -/
def characters? : Text → Option (List Char)
  | [] => some []
  | .scalar character :: text => (characters? text).map (character :: ·)
  | .surrogate _ :: _ => none

/-- The bytes of a text, if every code point has an encoding. -/
def encode? (text : Text) : Option Bytes :=
  (characters? text).map fun characters => characters.flatMap String.utf8EncodeChar

/-- The text of a sequence of bytes, if it is validly encoded. -/
def decode? (bytes : Bytes) : Option Text :=
  bytes.toByteArray.utf8Decode?.map fun characters => characters.toList.map .scalar

theorem map_scalar_of_characters? {text : Text} {characters : List Char}
    (found : characters? text = some characters) : characters.map .scalar = text := by
  induction text generalizing characters with
  | nil => simp_all [characters?]
  | cons point text inductionHypothesis =>
    cases point with
    | surrogate offset => simp [characters?] at found
    | scalar character =>
      simp only [characters?, Option.map_eq_some_iff] at found
      obtain ⟨rest, restFound, rfl⟩ := found
      simp [inductionHypothesis restFound]

theorem decode?_encode? {text : Text} {bytes : Bytes} (encoded : encode? text = some bytes) :
    decode? bytes = some text := by
  simp only [encode?, Option.map_eq_some_iff] at encoded
  obtain ⟨characters, found, rfl⟩ := encoded
  have whole : (characters.flatMap String.utf8EncodeChar).toByteArray = characters.utf8Encode := rfl
  simp [decode?, whole, List.utf8Decode?_utf8Encode, map_scalar_of_characters? found]

/-! ### Forgiving reading -/

/-- The character that stands for bytes that cannot be read. -/
def replacement : CodePoint := .scalar (Char.ofNat 0xFFFD)

/-- An encoded character of which some bytes are still owed: how many, the bounds on the next
one, and the value of the bits read so far. -/
structure Unfinished where
  owed : Nat
  low : UInt8
  high : UInt8
  value : Nat

/-- The code points that a first byte completes, and the character it begins. -/
def readFirst (byte : UInt8) : Text × Option Unfinished :=
  let value := byte.toNat
  if byte < 0x80 then ([.scalar (Char.ofNat value)], none)
  else if byte < 0xC2 then ([replacement], none)
  else if byte < 0xE0 then ([], some ⟨1, 0x80, 0xBF, value - 0xC0⟩)
  else if byte = 0xE0 then ([], some ⟨2, 0xA0, 0xBF, value - 0xE0⟩)
  else if byte = 0xED then ([], some ⟨2, 0x80, 0x9F, value - 0xE0⟩)
  else if byte < 0xF0 then ([], some ⟨2, 0x80, 0xBF, value - 0xE0⟩)
  else if byte = 0xF0 then ([], some ⟨3, 0x90, 0xBF, value - 0xF0⟩)
  else if byte < 0xF4 then ([], some ⟨3, 0x80, 0xBF, value - 0xF0⟩)
  else if byte = 0xF4 then ([], some ⟨3, 0x80, 0x8F, value - 0xF0⟩)
  else ([replacement], none)

/-- Reads one byte after the unfinished character, if there is one. -/
def readNext (byte : UInt8) : Option Unfinished → Text × Option Unfinished
  | none => readFirst byte
  | some unfinished =>
    if unfinished.low ≤ byte ∧ byte ≤ unfinished.high then
      let value := unfinished.value * 64 + (byte.toNat - 0x80)
      if unfinished.owed ≤ 1 then ([.scalar (Char.ofNat value)], none)
      else ([], some ⟨unfinished.owed - 1, 0x80, 0xBF, value⟩)
    else
      let (points, begun) := readFirst byte
      (replacement :: points, begun)

/-- Reads bytes after an unfinished character, replacing what cannot be read. -/
def decodeAfter : Option Unfinished → Bytes → Text
  | none, [] => []
  | some _, [] => [replacement]
  | unfinished, byte :: bytes =>
    let (points, begun) := readNext byte unfinished
    points ++ decodeAfter begun bytes

/-- The text of a sequence of bytes, with replacements for what cannot be read. -/
def decodeReplacing (bytes : Bytes) : Text := decodeAfter none bytes

end Utf8

end ShaderReduction
