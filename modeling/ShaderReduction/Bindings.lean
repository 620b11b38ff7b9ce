/-
This file reads the bindings that are given to uniforms.

Bindings are given as an object or as a sequence of pairs, each of a name and a binding; a pair may
be any sequence of two parts, and of two pairs with equal names the later one counts. Nothing, and
everything that is empty, gives no bindings. A pair whose first part is no text binds no uniform,
but its binding is not given to a uniform that is left without one.
-/

import ShaderReduction.Fault

namespace ShaderReduction

/-- Given bindings: those of names, and others that no uniform is to take. -/
structure Bindings where
  named : Members
  others : List Document

namespace Bindings

/-- No bindings. -/
def none : Bindings := ⟨[], []⟩

/-- The bindings that members give. -/
def ofMembers (members : Members) : Bindings := ⟨members, []⟩

/-- All values that are given. -/
def values (bindings : Bindings) : List Document :=
  bindings.named.map Prod.snd ++ bindings.others

/-- The two parts of a pair that stands at an index of a sequence. -/
def pair (index : Nat) (document : Document) : Except Fault (Document × Document) :=
  match document.parts? with
  | some [key, value] => .ok (key, value)
  | some parts => .error (.unpairedBinding index parts.length)
  | Option.none => .error .bindingsNotPairs

/-- The pairs with a value for a key, in place of a pair with an equal key. -/
def put (key value : Document) : List (Document × Document) → List (Document × Document)
  | [] => [(key, value)]
  | (other, old) :: pairs =>
    if other.equals key then (other, value) :: pairs else (other, old) :: put key value pairs

/-- The pairs that documents from an index on give, after some pairs. -/
def pairsFrom (pairs : List (Document × Document)) (index : Nat) :
    List Document → Except Fault (List (Document × Document))
  | [] => .ok pairs
  | document :: documents => do
    let (key, value) ← pair index document
    if key.isHashable then pairsFrom (put key value pairs) (index + 1) documents
    else throw .unusableBinding

/-- The bindings that pairs give. -/
def ofPairs (pairs : List (Document × Document)) : Bindings where
  named := pairs.filterMap fun (key, value) => key.text?.map fun name => (name, value)
  others := pairs.filterMap fun (key, value) => if key.text?.isSome then Option.none else some value

/-- The bindings that a document gives. -/
def ofDocument (document : Document) : Except Fault Bindings :=
  match document with
  | .object members => .ok (ofMembers members)
  | document =>
    if document.isGiven then
      match document.parts? with
      | some parts => (pairsFrom [] 0 parts).map ofPairs
      | Option.none => .error .bindingsNotPairs
    else .ok none

end Bindings

end ShaderReduction
