/-
This file cuts a command, given as one text, into its words.

Words are separated by blanks. Single quotes keep everything between them; double quotes keep
everything but a backslash before a double quote or another backslash; outside of quotes a backslash
keeps the next code point. A quoted part may be empty and still makes a word.
-/

import ShaderReduction.Fault

namespace ShaderReduction

namespace CommandLine

/-- Where the cutting of a command stands: between words, inside a word, inside quotes, or after a
backslash, outside of quotes or inside double ones. -/
inductive CutState where
  | between
  | inWord
  | inQuotes (quote : CodePoint)
  | escaped
  | escapedInQuotes

/-- The blanks between words. -/
def isWordGap (point : CodePoint) : Bool :=
  [0x20, 0x09, 0x0D, 0x0A].contains point.toNat

/-- Whether a code point begins a quoted part. -/
def isQuote (point : CodePoint) : Bool := point == .scalar '\'' || point == .scalar '"'

/-- What follows one code point outside of quotes: the state, and whether the code point belongs to
a word, ends one or does neither. -/
inductive CutStep where
  | keep
  | finish
  | turn (state : CutState)

/-- What a code point outside of quotes means. -/
def stepOutside (point : CodePoint) : CutStep :=
  if isWordGap point then .finish
  else if isQuote point then .turn (.inQuotes point)
  else if point = .scalar '\\' then .turn .escaped
  else .keep

/-- The words of the rest of a command, from a state with the word begun so far. -/
def cutWords : CutState → (word : Text) → Text → Except Fault (List Text)
  | .between, _, [] => .ok []
  | .inWord, word, [] => .ok [word]
  | .inQuotes _, _, [] => .error .openQuotation
  | .escaped, _, [] => .error .openEscape
  | .escapedInQuotes, _, [] => .error .openEscape
  | .between, _, point :: rest =>
    match stepOutside point with
    | .keep => cutWords .inWord [point] rest
    | .finish => cutWords .between [] rest
    | .turn state => cutWords state [] rest
  | .inWord, word, point :: rest =>
    match stepOutside point with
    | .keep => cutWords .inWord (word ++ [point]) rest
    | .finish => (cutWords .between [] rest).map (word :: ·)
    | .turn state => cutWords state word rest
  | .inQuotes quote, word, point :: rest =>
    if point = quote then cutWords .inWord word rest
    else if point = .scalar '\\' ∧ quote = .scalar '"' then cutWords .escapedInQuotes word rest
    else cutWords (.inQuotes quote) (word ++ [point]) rest
  | .escaped, word, point :: rest => cutWords .inWord (word ++ [point]) rest
  | .escapedInQuotes, word, point :: rest =>
    let kept : Text :=
      if point = .scalar '"' ∨ point = .scalar '\\' then [point] else [.scalar '\\', point]
    cutWords (.inQuotes (.scalar '"')) (word ++ kept) rest

/-- The words of a command. -/
def words (command : Text) : Except Fault (List Text) := cutWords .between [] command

end CommandLine

end ShaderReduction
