/-
This file defines the uniforms of a shader job and their two forms.

The uniforms are an object that maps the name of each uniform to its descriptor; members whose names
begin with a dollar sign are data about the job and no uniforms. A descriptor may carry a binding.
The uniforms are bound when a descriptor does, and `withBindings` and `withoutBindings` pass from
one form to the other and refuse to start from the wrong one. Bindings that are not given are the
smallest natural numbers that no given binding equals, in the order of the uniforms' names.

A job that is read has an object for its uniforms, and each descriptor in it should be an object as
well. Nothing forces this on a job that is made otherwise. So the type holds any document, and each
look into it says what it does with one of another shape: a sequence has the names that it is made
of but no descriptors, and every other document has not even names.

Descriptors are values, as those of a document that was read are: no two names share one, so binding
one uniform changes no other.
-/

import ShaderReduction.Bindings
import ShaderReduction.Document.Printer

namespace ShaderReduction

/-! ### Descriptors -/

namespace Descriptor

/-- The name of the member that holds a binding. -/
def bindingName : Text := "binding"

/-- Whether a descriptor has a binding: the word is mentioned in it. -/
def hasBinding (document : Document) : Except Fault Bool :=
  match document.mentions? bindingName with
  | some isMentioned => .ok isMentioned
  | none => .error .shapelessDescriptor

/-- The binding of a descriptor that has one. -/
def binding : Document → Except Fault Document
  | .object members =>
    match Table.find? bindingName members with
    | some value => .ok value
    | none => .error .shapelessDescriptor
  | _ => .error .shapelessDescriptor

/-- The descriptor with a binding. -/
def bind (value : Document) : Document → Except Fault Document
  | .object members => .ok (.object (Table.put bindingName value members))
  | _ => .error .shapelessDescriptor

/-- The descriptor without its binding, if it has one. -/
def unbind : Document → Except Fault Document
  | .object members => .ok (.object (Table.erase bindingName members))
  | .array _ => .error .shapelessDescriptor
  | _ => .error .rigidDescriptor

end Descriptor

/-- The uniforms of a job and the data kept with them: a document that has each name once. -/
structure Uniforms where
  document : Document
  distinct : (Table.keys document.members).Nodup

instance : Inhabited Uniforms := ⟨⟨.object [], List.nodup_nil⟩⟩

namespace Uniforms

/-- No uniforms. -/
def empty : Uniforms := ⟨.object [], List.nodup_nil⟩

/-- The uniforms that the members of an object describe. -/
def ofMembers (members : Members) : Uniforms :=
  ⟨.object (Table.ofList members), Table.nodup_keys_ofList members⟩

/-- How many levels of arrays and objects uniforms may have. -/
def deepest : Nat := 495

/-- The uniforms that a document is. Nothing, and everything that is empty, is no uniforms. -/
def ofDocument (document : Document) : Except Fault Uniforms :=
  if deepest < document.depth then .error .nestedTooDeep
  else if document.isGiven then
    match document with
    | .object members => .ok (ofMembers members)
    | .array items => .ok ⟨.array items, List.nodup_nil⟩
    | .string text => .ok ⟨.string text, List.nodup_nil⟩
    | .number value => .ok ⟨.number value, List.nodup_nil⟩
    | .integer value => .ok ⟨.integer value, List.nodup_nil⟩
    | .boolean value => .ok ⟨.boolean value, List.nodup_nil⟩
    | .null => .ok empty
  else .ok empty

/-- The descriptors of the uniforms and the data kept with them, by name. -/
def members (uniforms : Uniforms) : Members := uniforms.document.members

/-- Whether a member is data about the job and no uniform. -/
def isMetadata (name : Text) : Bool := name.startsWith "$"

/-- Those of some names that are names of uniforms, in ascending order. -/
def ofUniforms (names : List Text) : List Text :=
  Text.sort (names.filter fun name => !isMetadata name)

/-- The names that a sequence is made of. -/
def namesAmong : List Document → Except Fault (List Text)
  | [] => .ok []
  | part :: parts =>
    match part.text? with
    | some name => (namesAmong parts).map (name :: ·)
    | none => .error .namelessUniform

/-- The names of the uniforms, in ascending order. -/
def names (uniforms : Uniforms) : Except Fault (List Text) :=
  match uniforms.document with
  | .object members => .ok (ofUniforms (Table.keys members))
  | document =>
    match document.parts? with
    | some parts => (namesAmong parts).map ofUniforms
    | none => .error .shapelessUniforms

/-- The descriptor of a uniform, or the data of a name. -/
def descriptor (uniforms : Uniforms) (name : Text) : Except Fault Document :=
  match uniforms.document with
  | .object members =>
    match Table.find? name members with
    | some document => .ok document
    | none => .error (.unknownUniform name)
  | _ => .error .shapelessUniforms

/-- The uniforms with another descriptor for a name. -/
def describe (uniforms : Uniforms) (name : Text) (document : Document) : Uniforms :=
  ⟨.object (Table.put name document uniforms.members),
    Table.nodup_keys_put name document uniforms.distinct⟩

/-! ### Bindings -/

/-- Whether a uniform of one of the names is bound. -/
def anyBound (uniforms : Uniforms) : List Text → Except Fault Bool
  | [] => .ok false
  | name :: names => do
    if ← Descriptor.hasBinding (← uniforms.descriptor name) then pure true
    else uniforms.anyBound names

/-- Whether a uniform is bound. -/
def hasBindings (uniforms : Uniforms) : Except Fault Bool := do
  uniforms.anyBound (← uniforms.names)

/-- The binding of a uniform. -/
def bindingOf (uniforms : Uniforms) (name : Text) : Except Fault Document := do
  let document ← uniforms.descriptor name
  if ← Descriptor.hasBinding document then Descriptor.binding document
  else throw (.unboundUniform name)

/-- The bindings of those of the names that are bound. -/
def bindingsOf (uniforms : Uniforms) : List Text → Except Fault Members
  | [] => .ok []
  | name :: names => do
    let document ← uniforms.descriptor name
    if ← Descriptor.hasBinding document then
      let value ← Descriptor.binding document
      return (name, value) :: (← uniforms.bindingsOf names)
    else uniforms.bindingsOf names

/-- The binding of every bound uniform, in the order of the names. -/
def bindings (uniforms : Uniforms) : Except Fault Members := do
  uniforms.bindingsOf (← uniforms.names)

/-! ### Taking unused numbers -/

/-- Whether one of the values equals a natural number. -/
def isUsed (used : List Document) (number : Nat) : Bool :=
  used.any fun value => value.equals (.integer number)

/-- The first unused number from a number on, within a count of steps. -/
def firstUnused (used : List Document) : (steps number : Nat) → Nat
  | 0, number => number
  | steps + 1, number => if isUsed used number then firstUnused used steps (number + 1) else number

/-- The first number from a number on that no used value equals. Each used value equals at most one
number, so one more step than there are values is enough. -/
def nextUnused (used : List Document) (number : Nat) : Nat :=
  firstUnused used (used.length + 1) number

/-- Binds uniforms in turn: to the binding given for the name, or else to the first number from
`next` on that is not used. -/
def bindEach (given : Members) (uniforms : Uniforms) (used : List Document) (next : Nat) :
    List Text → Except Fault Uniforms
  | [] => .ok uniforms
  | name :: names => do
    let document ← uniforms.descriptor name
    match Table.find? name given with
    | some value =>
      let bound ← Descriptor.bind value document
      bindEach given (uniforms.describe name bound) used next names
    | none =>
      let number := nextUnused used next
      let bound ← Descriptor.bind (.integer number) document
      bindEach given (uniforms.describe name bound) (.integer number :: used) number names

/-- The uniforms in their bound form: with the given bindings, and with unused numbers for the
uniforms that are not listed. -/
def withBindings (uniforms : Uniforms) (given : Bindings) : Except Fault Uniforms := do
  if ← uniforms.hasBindings then throw .alreadyBound
  if given.values.all Document.isHashable then
    bindEach given.named uniforms given.values 0 (← uniforms.names)
  else throw .unusableBinding

/-- The uniforms in their bound form, with the bindings that a document gives. -/
def withBindingsBy (uniforms : Uniforms) (document : Document) : Except Fault Uniforms := do
  if ← uniforms.hasBindings then throw .alreadyBound
  uniforms.withBindings (← Bindings.ofDocument document)

/-- Removes the bindings of uniforms in turn. -/
def unbindEach (uniforms : Uniforms) : List Text → Except Fault Uniforms
  | [] => .ok uniforms
  | name :: names => do
    let unbound ← Descriptor.unbind (← uniforms.descriptor name)
    unbindEach (uniforms.describe name unbound) names

/-- The uniforms in their free form: without any binding. -/
def withoutBindings (uniforms : Uniforms) : Except Fault Uniforms := do
  if ← uniforms.hasBindings then uniforms.unbindEach (← uniforms.names)
  else throw .nothingBound

/-! ### Comparison and display -/

/-- Whether two jobs have the same uniforms, whatever their order. -/
def equals (left right : Uniforms) : Bool := left.document.equals right.document

/-- The text from which the hash of the uniforms is taken. -/
def hashText (uniforms : Uniforms) : Text := uniforms.document.canonical

/-- The uniforms as they are shown in a log. -/
def display (uniforms : Uniforms) : Text :=
  ("UniformsInfo(" : Text) ++ uniforms.document.shown ++ (")" : Text)

end Uniforms

end ShaderReduction
