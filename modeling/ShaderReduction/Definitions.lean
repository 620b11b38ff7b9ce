/-
This file holds the block of macro definitions that makes a transformed shader compile, and puts it
into a shader's text and takes it out again.

The block goes after the first version line, which must stay in front of everything that is
compiled, and to the front of a text that has none. Taking it out removes its first occurrence,
wherever that stands.
-/

import ShaderReduction.Text.Lines

namespace ShaderReduction

namespace Definitions

/-- The definitions, one macro a line, in force unless the shader is compiled for reduction. -/
def block : Text :=
  [
    "#ifndef REDUCER\n",
    " #define _GLF_ZERO(X, Y)          (Y)\n",
    " #define _GLF_ONE(X, Y)           (Y)\n",
    " #define _GLF_FALSE(X, Y)         (Y)\n",
    " #define _GLF_TRUE(X, Y)          (Y)\n",
    " #define _GLF_IDENTITY(X, Y)      (Y)\n",
    " #define _GLF_DEAD(X)             (X)\n",
    " #define _GLF_FUZZED(X)           (X)\n",
    " #define _GLF_WRAPPED_LOOP(X)     X\n",
    " #define _GLF_WRAPPED_IF_TRUE(X)  X\n",
    " #define _GLF_WRAPPED_IF_FALSE(X) X\n",
    " #define _GLF_SWITCH(X)           X\n",
    "#endif\n"].flatMap Text.ofString

/-- Whether a line states the version of the shading language. -/
def isVersionLine (line : Text) : Bool := line.trimStart.startsWith "#version"

/-- A line with its end, and with a line feed if that does not end it. -/
def completed (line ending : Text) : Text :=
  if ending.getLast? = some (.scalar '\n') then line ++ ending
  else line ++ ending ++ [.scalar '\n']

/-- The lines with the block after the first version line, if there is one. -/
def insertAfterVersion? : List (Text × Text) → Option Text
  | [] => none
  | (line, ending) :: lines =>
    if isVersionLine line then some (completed line ending ++ block ++ Text.joinLines lines)
    else (insertAfterVersion? lines).map fun rest => line ++ ending ++ rest

/-- The text with the block in it. -/
def insert (text : Text) : Text := (insertAfterVersion? text.cutLines).getD (block ++ text)

/-- The text without the first occurrence of the block. -/
def strip (text : Text) : Text := Text.removeFirst block text

end Definitions

end ShaderReduction
