/-
This file defines documents: the values in which uniforms, settings and judge results are stored.

A document is null, a truth value, an integer of any size, a floating-point number, a text, an array
or an object. The members of an object stay in the order in which they were first named, and a
member that is put again keeps its place, as in every `Table`. That no name occurs
twice is a property of the documents that reading builds, `WellFormed`, and not a part of the type.

Equality is by value: the truth values count as one and zero, an integer equals the number of the
same exact value, and the order of members is of no account.
-/

import ShaderReduction.Double
import ShaderReduction.Table

namespace ShaderReduction

/-- A stored value. -/
inductive Document where
  | null
  | boolean (value : Bool)
  | integer (value : Int)
  | number (value : Double)
  | string (value : Text)
  | array (items : List Document)
  | object (members : List (Text × Document))
deriving Repr, Inhabited

/-- The members of an object, in order. -/
abbrev Members := Table Text Document

namespace Document

/-! ### Well-formed documents -/

mutual

/-- No object in the document names a member twice. -/
def WellFormed : Document → Prop
  | array items => WellFormedItems items
  | object members => (Table.keys members).Nodup ∧ WellFormedMembers members
  | _ => True

/-- Every item of an array is well formed. -/
def WellFormedItems : List Document → Prop
  | [] => True
  | item :: items => WellFormed item ∧ WellFormedItems items

/-- Every member of an object is well formed. -/
def WellFormedMembers : List (Text × Document) → Prop
  | [] => True
  | (_, value) :: members => WellFormed value ∧ WellFormedMembers members

end

/-! ### Equality -/

/-- The integer that an integer or a truth value counts as. -/
def integer? : Document → Option Int
  | boolean value => some (if value then 1 else 0)
  | integer value => some value
  | _ => none

/-- Equality of documents of which neither is an array or object. -/
def equalsScalar (left right : Document) : Bool :=
  match left, right with
  | null, null => true
  | string leftValue, string rightValue => leftValue == rightValue
  | number leftValue, number rightValue => leftValue.equals rightValue
  | number value, other | other, number value =>
    match other.integer? with
    | some whole => value.equalsInt whole
    | none => false
  | _, _ =>
    match left.integer?, right.integer? with
    | some leftInteger, some rightInteger => leftInteger == rightInteger
    | _, _ => false

mutual

/-- Whether two documents are equal by value. -/
def equals : Document → Document → Bool
  | array lefts, right =>
    match right with
    | array rights => equalsItems lefts rights
    | _ => false
  | object lefts, right =>
    match right with
    | object rights => lefts.length == rights.length && equalsMembers lefts rights
    | _ => false
  | left, right => equalsScalar left right

/-- Whether two lists of items are equal, one by one. -/
def equalsItems : List Document → List Document → Bool
  | [], rights => rights.isEmpty
  | left :: lefts, rights =>
    match rights with
    | [] => false
    | right :: rights => equals left right && equalsItems lefts rights

/-- Whether every member on the left has an equal one on the right. -/
def equalsMembers : List (Text × Document) → Members → Bool
  | [], _ => true
  | (name, value) :: lefts, rights =>
    (match Table.find? name rights with
      | some other => equals value other
      | none => false) && equalsMembers lefts rights

end

/-! ### Questions about one document -/

/-- The members of an object. Other documents have none. -/
def members : Document → Members
  | object members => members
  | _ => []

/-- Whether a document counts as given: it is not null, false, zero or empty. -/
def isGiven : Document → Bool
  | null => false
  | boolean value => value
  | integer value => value != 0
  | number value => !value.isZero
  | string value => !value.isEmpty
  | array items => !items.isEmpty
  | object members => !members.isEmpty

/-- Whether a document can be a member of a set. -/
def isHashable : Document → Bool
  | array _ => false
  | object _ => false
  | _ => true

/-- Whether a document is a text. -/
def text? : Document → Option Text
  | string value => some value
  | _ => none

/-- What a document is a sequence of: the items of an array, the code points of a text, or the names
in an object. -/
def parts? : Document → Option (List Document)
  | array items => some items
  | string value => some (value.map fun point => string [point])
  | object members => some ((Table.keys members).map string)
  | _ => none

/-- Whether a name is mentioned in a document: as a name in an object, an item of an array, or a
word in a text. Other documents mention nothing and cannot be asked. -/
def mentions? (name : Text) : Document → Option Bool
  | object members => some (Table.find? name members).isSome
  | array items => some (items.any fun item => item.equals (string name))
  | string value => some (value.hasWord name)
  | _ => none

/-! ### Depth -/

mutual

/-- How many arrays and objects lie within each other. -/
def depth : Document → Nat
  | array items => depthOfItems items + 1
  | object members => depthOfMembers members + 1
  | _ => 0

/-- The greatest depth of items. -/
def depthOfItems : List Document → Nat
  | [] => 0
  | item :: items => max (depth item) (depthOfItems items)

/-- The greatest depth of the values of members. -/
def depthOfMembers : List (Text × Document) → Nat
  | [] => 0
  | (_, value) :: members => max (depth value) (depthOfMembers members)

end

end Document

end ShaderReduction
