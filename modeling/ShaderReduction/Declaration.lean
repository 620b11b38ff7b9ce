/-
This file recognises the declarations of uniforms in a shader's text and turns them from one form
into another.

A plain declaration stands on its own, as in `uniform vec2 size;`. A bound declaration is a block
with a binding number around one member, as in
`layout(set = 0, binding = 3) uniform buf3 { vec2 size; };`. Both begin a line, after blanks and
tabs only, and may spread over several lines. The type may carry a precision qualifier and the name
an array bound.

`bindPlain` turns the plain declarations of listed uniforms into bound ones and `unbindBlocks` turns
bound ones back; everything else in the text stays as it is.
-/

import ShaderReduction.Scanner
import ShaderReduction.Fault

namespace ShaderReduction

/-- A variable with its type, as written. The declarator is the name with whatever array bound and
blanks belong to it. -/
structure Variable where
  type : Text
  name : Text
  declarator : Text
deriving DecidableEq

/-- A plain declaration. -/
structure PlainDeclaration where
  indent : Text
  member : Variable

/-- A bound declaration. -/
structure BoundDeclaration where
  indent : Text
  binding : Text
  member : Variable

namespace Declaration

open Scanner

/-! ### Recognising -/

/-- The blanks before a declaration on its line. -/
def indent : Scanner Text := run CodePoint.isIndent

/-- The size of an array between its brackets. -/
def arrayBound : Scanner Text := written do
  let _ ← literal "["
  let _ ← blanks
  let _ ← digits
  let _ ← blanks
  literal "]"

/-- A name, the blanks after it and the array bound after those, if there is one. -/
def named (type : Text) : Scanner Variable := do
  let name ← word
  let space ← blanks
  let size ← optionally arrayBound
  pure ⟨type, name, name ++ space ++ size⟩

/-- A precision qualifier. -/
def precision : Scanner Text :=
  otherwise (literal "lowp") (otherwise (literal "mediump") (literal "highp"))

/-- A variable whose type has a precision qualifier. -/
def qualifiedVariable : Scanner Variable := do
  let type ← written do
    let _ ← precision
    let _ ← gap
    word
  let _ ← gap
  named type

/-- A variable whose type is one word. -/
def unqualifiedVariable : Scanner Variable := do
  let type ← word
  let _ ← gap
  named type

/-- A variable with its type. A word that could be a qualifier is the type itself where a name
follows it directly. -/
def typedName : Scanner Variable := otherwise qualifiedVariable unqualifiedVariable

/-- The sign that ends a declaration, after any blanks. -/
def closing (sign : Text) : Scanner Text := do
  let _ ← blanks
  literal sign

/-- A plain declaration. -/
def plain : Scanner PlainDeclaration := do
  let indent ← indent
  let _ ← literal "uniform"
  let _ ← gap
  let member ← typedName
  let _ ← closing ";"
  pure ⟨indent, member⟩

/-- The layout that gives a block its binding. -/
def layout : Scanner Text := do
  let _ ← literal "layout"
  let _ ← closing "("
  let _ ← closing "set"
  let _ ← closing "="
  let _ ← closing "0"
  let _ ← closing ","
  let _ ← closing "binding"
  let _ ← closing "="
  let _ ← blanks
  let binding ← digits
  let _ ← closing ")"
  pure binding

/-- A bound declaration. -/
def bound : Scanner BoundDeclaration := do
  let indent ← indent
  let binding ← layout
  let _ ← closing "uniform"
  let _ ← gap
  let _ ← word
  let _ ← closing "\x7b"
  let _ ← blanks
  let member ← typedName
  let _ ← closing ";"
  let _ ← closing "\x7d"
  let _ ← closing ";"
  pure ⟨indent, binding, member⟩

/-! ### Changing the form -/

/-- The text with every recognised piece that begins a line replaced. `atLineStart` tells whether
the text itself begins a line. A piece is recognised from left to right and not looked into
again. -/
def replaceAtLines {Value : Type} (scanner : Scanner Value) (replace : Value → Text → Text)
    (atLineStart : Bool) : Text → Text
  | [] => []
  | point :: text =>
    match if atLineStart then scanner (point :: text) else none with
    | none => point :: replaceAtLines scanner replace (point == .scalar '\n') text
    | some reading =>
      if reading.rest.length ≤ text.length then
        replace reading.value reading.used ++
          replaceAtLines scanner replace (reading.used.getLast? == some (.scalar '\n')) reading.rest
      else point :: replaceAtLines scanner replace (point == .scalar '\n') text
termination_by text => text.length

/-- The block that binds a declared variable. -/
def boundForm (declaration : PlainDeclaration) (binding : Document) : Text :=
  let number := binding.display
  declaration.indent ++ ("layout(set = 0, binding = " : Text) ++ number ++
    (") uniform buf" : Text) ++ number ++ (" \x7b " : Text) ++ declaration.member.type ++
    (" " : Text) ++ declaration.member.declarator ++ ("; \x7d;" : Text)

/-- The plain declaration of a bound variable. -/
def plainForm (declaration : BoundDeclaration) : Text :=
  declaration.indent ++ ("uniform " : Text) ++ declaration.member.type ++ (" " : Text) ++
    declaration.member.declarator ++ (";" : Text)

/-- The text with the plain declarations of the listed uniforms bound. -/
def bindPlain (bindings : Members) (text : Text) : Text :=
  replaceAtLines plain (fun declaration used =>
    match Table.find? declaration.member.name bindings with
    | some binding => boundForm declaration binding
    | none => used) true text

/-- Whether a plain declaration in a text has one of certain names: taking those declarations out
changes the text. -/
def hasPlain (isWanted : Text → Bool) (text : Text) : Bool :=
  replaceAtLines plain (fun declaration used =>
    if isWanted declaration.member.name then [] else used) true text != text

/-- The text with the plain declarations bound that a document has a member for. A document that is
no object binds nothing, and must not mention the name of a declaration. -/
def bindPlainBy (bindings : Document) (text : Text) : Except Fault Text :=
  match bindings with
  | .object members => .ok (bindPlain members text)
  | other =>
    if hasPlain (fun name => other.mentions? name != some false) text then
      .error .bindingsNotPairs
    else .ok text

/-- The text with the bound declarations of the listed uniforms made plain. -/
def unbindBlocks (names : List Text) (text : Text) : Text :=
  replaceAtLines bound (fun declaration used =>
    if names.contains declaration.member.name then plainForm declaration else used) true text

end Declaration

end ShaderReduction
