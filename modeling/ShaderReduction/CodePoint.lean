/-
This file defines the code point, the unit in which every text of the library is read, measured,
sorted and cut.

A shader text is a sequence of Unicode scalar values, but a document may name a uniform by an
escape that stands for half of a surrogate pair. Such a half is carried through the library
unchanged; it can be written in a document, where it is escaped, and cannot be written in a file,
where it has no encoding. `CodePoint` therefore has the scalar values and the 2048 halves, and
`ofNat?` and `toNat` number them together.
-/

namespace ShaderReduction

/-- A Unicode scalar value, or half of a surrogate pair standing alone. -/
inductive CodePoint where
  | scalar (character : Char)
  | surrogate (offset : Fin 2048)
deriving DecidableEq, Repr, Inhabited

namespace CodePoint

instance : Coe Char CodePoint := ⟨scalar⟩

/-- The place of a code point in the order of all code points. -/
def toNat : CodePoint → Nat
  | scalar character => character.toNat
  | surrogate offset => 0xD800 + offset.val

/-- The code point at a place, where there is one. -/
def ofNat? (place : Nat) : Option CodePoint :=
  if valid : place.isValidChar then
    some (scalar (Char.ofNatAux place valid))
  else if small : place - 0xD800 < 2048 then
    if 0xD800 ≤ place then some (surrogate ⟨place - 0xD800, small⟩) else none
  else none

/-- Whether a code point is the given character. -/
def is (point : CodePoint) (character : Char) : Bool := point == scalar character

/-! ### Surrogate halves -/

/-- The first half of a surrogate pair. -/
def isLeadingHalf : CodePoint → Bool
  | scalar _ => false
  | surrogate offset => offset.val < 0x400

/-- The second half of a surrogate pair. -/
def isTrailingHalf : CodePoint → Bool
  | scalar _ => false
  | surrogate offset => 0x400 ≤ offset.val

/-- The scalar value that two halves of a surrogate pair stand for. -/
def joinHalves? (leading trailing : CodePoint) : Option CodePoint :=
  if leading.isLeadingHalf && trailing.isTrailingHalf then
    ofNat? (0x10000 + (leading.toNat - 0xD800) * 0x400 + (trailing.toNat - 0xDC00))
  else none

/-! ### Order -/

/-- Code points are compared by their place. -/
def le (left right : CodePoint) : Bool := left.toNat ≤ right.toNat

theorem toNat_scalar (character : Char) : (scalar character).toNat = character.toNat := rfl

theorem toNat_surrogate (offset : Fin 2048) : (surrogate offset).toNat = 0xD800 + offset.val := rfl

end CodePoint

end ShaderReduction
