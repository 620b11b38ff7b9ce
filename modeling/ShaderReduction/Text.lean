/-
This file holds the text of the library and the operations on it that know nothing of shaders.

A text is the list of its code points, so that length, order and position are counted in code
points, and so that a statement about texts is a statement about lists. `ofString` brings the
fixed words of the library in; nothing else makes a text out of a string.
-/

import ShaderReduction.CodePoint

namespace ShaderReduction

/-- A sequence of code points. -/
abbrev Text := List CodePoint

namespace Text

/-- The text of a string of characters. -/
def ofString (string : String) : Text := string.toList.map .scalar

instance : Coe String Text := ⟨ofString⟩

/-! ### Looking for a word -/

/-- The rest of a text after a word that it begins with. -/
def dropWord? : (word text : Text) → Option Text
  | [], text => some text
  | _ :: _, [] => none
  | expected :: word, point :: text =>
    if point = expected then dropWord? word text else none

/-- Whether a text begins with a word. -/
def startsWith (text word : Text) : Bool := (dropWord? word text).isSome

/-- Whether a text ends with a word. -/
def endsWith (text word : Text) : Bool := startsWith text.reverse word.reverse

/-- Whether a word occurs in a text. -/
def hasWord (text word : Text) : Bool :=
  match text with
  | [] => word.isEmpty
  | point :: rest => startsWith (point :: rest) word || hasWord rest word

/-- The text without the first occurrence of a word. -/
def removeFirst (word : Text) : Text → Text
  | [] => []
  | point :: text =>
    match dropWord? word (point :: text) with
    | some rest => rest
    | none => point :: removeFirst word text

/-! ### Putting texts together -/

/-- The texts in a row with a separator between any two. -/
def joinWith (separator : Text) : List Text → Text
  | [] => []
  | [text] => text
  | text :: next :: texts => text ++ separator ++ joinWith separator (next :: texts)

/-- The pieces of a text between the occurrences of a separating code point. -/
def splitAt (separator : CodePoint) : Text → List Text
  | [] => [[]]
  | point :: text =>
    if point = separator then [] :: splitAt separator text
    else
      match splitAt separator text with
      | [] => [[point]]
      | piece :: pieces => (point :: piece) :: pieces

/-- A text made longer at the front until it has the given length. -/
def padStart (filler : CodePoint) (width : Nat) (text : Text) : Text :=
  List.replicate (width - text.length) filler ++ text

/-! ### Order -/

/-- Texts are compared code point by code point, a text before its extensions. -/
def le : Text → Text → Bool
  | [], _ => true
  | _ :: _, [] => false
  | left :: lefts, right :: rights =>
    if left = right then le lefts rights else left.toNat ≤ right.toNat

/-- The texts in ascending order. -/
def sort (texts : List Text) : List Text := texts.mergeSort le

/-! ### Numerals -/

/-- The most digits of a numeral that is read as an integer. -/
def longestNumeral : Nat := 4300

/-- The decimal numeral of a natural number. -/
def ofNat (number : Nat) : Text := (Nat.toDigits 10 number).map .scalar

/-- The decimal numeral of an integer. -/
def ofInt : Int → Text
  | .ofNat number => ofNat number
  | .negSucc number => CodePoint.scalar '-' :: ofNat (number + 1)

/-- The numeral of an integer with zeros after its sign until it has the given length. -/
def ofIntPadded (width : Nat) : Int → Text
  | .ofNat number => padStart '0' width (ofNat number)
  | .negSucc number => CodePoint.scalar '-' :: padStart '0' (width - 1) (ofNat (number + 1))

/-- The value of a hexadecimal digit. -/
def hexDigit? : CodePoint → Option Nat
  | .scalar character =>
    if '0' ≤ character ∧ character ≤ '9' then some (character.toNat - 48)
    else if 'a' ≤ character ∧ character ≤ 'f' then some (character.toNat - 87)
    else if 'A' ≤ character ∧ character ≤ 'F' then some (character.toNat - 55)
    else none
  | .surrogate _ => none

/-- A number below sixteen as a lower-case hexadecimal digit. -/
def hexDigit (value : Nat) : CodePoint := .scalar (Nat.digitChar value)

/-- The last hexadecimal digits of a number, most significant first. -/
def hexadecimal : (digits number : Nat) → Text
  | 0, _ => []
  | digits + 1, number => hexadecimal digits (number / 16) ++ [hexDigit (number % 16)]

/-! ### Small laws -/

theorem dropWord?_append (word text : Text) : dropWord? word (word ++ text) = some text := by
  induction word with
  | nil => rfl
  | cons point word inductionHypothesis => simp [dropWord?, inductionHypothesis]

theorem eq_append_of_dropWord? {word text rest : Text} (found : dropWord? word text = some rest) :
    text = word ++ rest := by
  induction word generalizing text with
  | nil => simpa [dropWord?] using found
  | cons expected word inductionHypothesis =>
    cases text with
    | nil => simp [dropWord?] at found
    | cons point text =>
      by_cases same : point = expected
      · subst same
        simp only [dropWord?, if_true] at found
        simp [inductionHypothesis found]
      · simp [dropWord?, same] at found

theorem dropWord?_eq_some_iff {word text rest : Text} :
    dropWord? word text = some rest ↔ text = word ++ rest :=
  ⟨eq_append_of_dropWord?, fun equation => equation ▸ dropWord?_append word rest⟩

theorem length_removeFirst_le (word text : Text) :
    (removeFirst word text).length ≤ text.length := by
  induction text with
  | nil => simp [removeFirst]
  | cons point text inductionHypothesis =>
    unfold removeFirst
    split
    · next rest found =>
      rw [eq_append_of_dropWord? found]
      simp
    · simp only [List.length_cons]
      omega

end Text

end ShaderReduction
