/-
This file cuts a text into lines and trims blanks from its ends.

A line ends at any of ten line breaks or at the pair of a carriage return and a line feed, and the
last line need not end at all, so an empty text has no line and a text that ends in a break has no
empty line after it. `cutLines` keeps each line beside its end; what it returns, put back together,
is the text (`joinLines_cutLines`). Reading and writing a file differ in one point only: reading
turns every carriage return into a line feed.
-/

import ShaderReduction.Text
import ShaderReduction.CharacterClass

namespace ShaderReduction

namespace Text

/-! ### Lines -/

/-- The lines of a text, each beside the break that ends it. -/
def cutLines : Text → List (Text × Text)
  | [] => []
  | .scalar '\r' :: .scalar '\n' :: rest =>
    ([], [.scalar '\r', .scalar '\n']) :: cutLines rest
  | point :: rest =>
    if point.isLineBreak then ([], [point]) :: cutLines rest
    else
      match cutLines rest with
      | [] => [([point], [])]
      | (line, ending) :: lines => (point :: line, ending) :: lines

/-- The lines of a text without their ends. -/
def lines (text : Text) : List Text := (cutLines text).map Prod.fst

/-- The text that lines and their ends make up. -/
def joinLines (lines : List (Text × Text)) : Text := lines.flatMap fun line => line.1 ++ line.2

theorem joinLines_cutLines (text : Text) : joinLines (cutLines text) = text := by
  fun_induction cutLines text with
  | case1 => rfl
  | case2 rest inductionHypothesis =>
    simpa [joinLines] using inductionHypothesis
  | case3 point rest _ _ inductionHypothesis =>
    simpa [joinLines] using inductionHypothesis
  | case4 point rest _ _ empty inductionHypothesis =>
    rw [empty] at inductionHypothesis
    simpa [joinLines] using inductionHypothesis
  | case5 point rest _ _ line ending more cut inductionHypothesis =>
    rw [cut] at inductionHypothesis
    simpa [joinLines] using inductionHypothesis

/-- The text with every carriage return, and every pair of one with a line feed, made a line
feed. -/
def normalizeLineEnds : Text → Text
  | [] => []
  | .scalar '\r' :: .scalar '\n' :: rest => .scalar '\n' :: normalizeLineEnds rest
  | .scalar '\r' :: rest => .scalar '\n' :: normalizeLineEnds rest
  | point :: rest => point :: normalizeLineEnds rest

/-! ### Blanks -/

/-- The text without the blanks at its start. -/
def trimStart (text : Text) : Text := text.dropWhile CodePoint.isBlank

/-- The text without the blanks at its end. -/
def trimEnd (text : Text) : Text := (trimStart text.reverse).reverse

/-- The text without the blanks at both ends. -/
def trim (text : Text) : Text := trimEnd (trimStart text)

end Text

end ShaderReduction
