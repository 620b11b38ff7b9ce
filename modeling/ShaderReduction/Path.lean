/-
This file defines the paths by which files are named.

A path is read from a text once: empty steps and steps that stay in place are dropped, so two
spellings of one path are one value and every message shows the same spelling. A path that begins
with two slashes keeps both, and with any other number keeps one. The name of a path is its last
step; the stem and the suffix of a name are what stands before and from its last dot, if something
stands on both sides of that dot.
-/

import ShaderReduction.Text

namespace ShaderReduction

/-- A path: the slashes that it begins with, and its steps. -/
structure Path where
  slashes : Nat
  steps : List Text
deriving DecidableEq, Repr, Inhabited

namespace Path

/-- How many slashes a path keeps of those that its text begins with. -/
def slashesOf : Text → Nat
  | .scalar '/' :: .scalar '/' :: .scalar '/' :: _ => 1
  | .scalar '/' :: .scalar '/' :: _ => 2
  | .scalar '/' :: _ => 1
  | _ => 0

/-- The steps of a text that lead anywhere. -/
def stepsOf (text : Text) : List Text :=
  (text.splitAt '/').filter fun step => step ≠ [] && step ≠ ("." : Text)

/-- The path that a text names. -/
def ofText (text : Text) : Path := ⟨slashesOf text, stepsOf text⟩

/-- The path that a text spells step by step: steps that stay in place are kept, and a slash at the
end is one of them. -/
def spelled (text : Text) : Path :=
  let steps := (text.splitAt '/').filter (· ≠ [])
  ⟨slashesOf text, if text.endsWith "/" then steps ++ [("." : Text)] else steps⟩

instance : Coe String Path := ⟨fun string => ofText (Text.ofString string)⟩

/-- The spelling of a path. -/
def toText (path : Path) : Text :=
  if path.slashes = 0 ∧ path.steps = [] then "."
  else List.replicate path.slashes (.scalar '/') ++ Text.joinWith "/" path.steps

/-- The path that a text names from a path on. -/
def join (path : Path) (text : Text) : Path :=
  let other := ofText text
  if other.slashes = 0 then { path with steps := path.steps ++ other.steps } else other

/-- The path of the folder that holds what a path names. -/
def parent (path : Path) : Path := { path with steps := path.steps.dropLast }

/-- The path without steps back, each of which takes away the step before it. Steps back at the
start of a relative path stay, and lead nowhere at the root. -/
def straighten (path : Path) : Path :=
  let steps := path.steps.foldl (fun steps step =>
    if step ≠ (".." : Text) then steps ++ [step]
    else if steps.all (· = (".." : Text)) then
      if path.slashes = 0 then steps ++ [step] else steps
    else steps.dropLast) []
  { path with steps }

/-- Whether a path leads on from another one, or is the same. -/
def isWithin (path upper : Path) : Bool :=
  path.slashes == upper.slashes && upper.steps.isPrefixOf path.steps

/-! ### Names -/

/-- The last step of a path, empty if there is none. -/
def name (path : Path) : Text := path.steps.getLast?.getD []

/-- A name cut before its last dot, if something stands on both sides of that dot. -/
def cutName (name : Text) : Text × Text :=
  let ending := (name.reverse.takeWhile (· ≠ .scalar '.')).reverse
  let start := name.take (name.length - ending.length - 1)
  if ending ≠ [] ∧ start ≠ [] ∧ ending.length < name.length then
    (start, .scalar '.' :: ending)
  else (name, [])

/-- The name without its suffix. -/
def stem (path : Path) : Text := (cutName path.name).1

/-- What follows the stem of the name. -/
def suffix (path : Path) : Text := (cutName path.name).2

/-- The path with another name for its last step. -/
def rename (path : Path) (name : Text) : Path :=
  { path with steps := path.steps.dropLast ++ [name] }

/-- Whether a text is the name of one step. -/
def isName (text : Text) : Bool :=
  slashesOf text == 0 && (stepsOf text).length == 1 && text.getLast? != some (.scalar '/')

end Path

end ShaderReduction
