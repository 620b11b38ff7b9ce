/-
This file replaces the macros of transformed shaders by their plain meaning.

A value macro with two arguments means its last argument in parentheses, a parenthesis macro with
one argument means that argument in parentheses, and a wrapper macro with one argument means the
argument as it is. The meaning is itself simplified and trimmed. A macro that is used in any other
way keeps its name and its bracket, and what follows is simplified on its own. `simplify` also takes
the block of definitions out, since nothing needs it afterwards.

Macros may be nested to any depth. How deep a program that simplifies them may recurse is left out
here, unlike the depth of documents, beyond which they are refused with `Fault.nestedTooDeep`.
-/

import ShaderReduction.Scanner
import ShaderReduction.Definitions
import ShaderReduction.Call

namespace ShaderReduction

/-- What a macro means: its last of two arguments in parentheses, its only one in parentheses, or
its only one as it is. -/
inductive MacroMeaning where
  | value
  | parenthesis
  | wrapper
deriving DecidableEq, Repr

namespace MacroMeaning

/-- How many arguments a use of the macro has. -/
def arity : MacroMeaning → Nat
  | value => 2
  | parenthesis => 1
  | wrapper => 1

/-- The meaning of a use, from the simplified argument. -/
def apply (meaning : MacroMeaning) (argument : Text) : Text :=
  match meaning with
  | wrapper => argument
  | _ => ("(" : Text) ++ argument ++ (")" : Text)

end MacroMeaning

namespace Macro

open Scanner

/-- The macros by name. -/
def meanings : List (Text × MacroMeaning) :=
  [("_GLF_DEAD", .parenthesis), ("_GLF_FALSE", .value), ("_GLF_FUZZED", .parenthesis),
    ("_GLF_IDENTITY", .value), ("_GLF_ONE", .value), ("_GLF_SWITCH", .wrapper),
    ("_GLF_TRUE", .value), ("_GLF_WRAPPED_IF_FALSE", .wrapper),
    ("_GLF_WRAPPED_IF_TRUE", .wrapper), ("_GLF_WRAPPED_LOOP", .wrapper), ("_GLF_ZERO", .value)]

/-- The name of a macro, blanks and an opening parenthesis. -/
def use (name : Text) (meaning : MacroMeaning) : Scanner MacroMeaning := do
  let _ ← literal name
  let _ ← blanks
  let _ ← literal "("
  pure meaning

/-- The start of a use of any macro. -/
def anyUse : Scanner MacroMeaning := fun text =>
  meanings.findSome? fun (name, meaning) => use name meaning text

theorem faithful_use (name : Text) (meaning : MacroMeaning) : Faithful (use name meaning) :=
  faithful_bind (faithful_literal name) fun _ =>
    faithful_bind (faithful_run _) fun _ =>
      faithful_bind (faithful_literal _) fun _ => faithful_pure meaning

theorem faithful_anyUse : Faithful anyUse := by
  intro text reading found
  obtain ⟨entry, _, entryFound⟩ := List.exists_of_findSome?_eq_some found
  exact faithful_use _ _ text reading entryFound

theorem used_ne_nil_of_use {name text : Text} {meaning : MacroMeaning}
    {reading : Reading MacroMeaning} (found : use name meaning text = some reading) :
    reading.used ≠ [] := by
  unfold use at found
  obtain ⟨first, afterFirst, _, afterFirstFound, rfl⟩ := bind_eq_some found
  obtain ⟨second, afterSecond, _, afterSecondFound, rfl⟩ := bind_eq_some afterFirstFound
  obtain ⟨third, afterThird, thirdFound, _, rfl⟩ := bind_eq_some afterSecondFound
  unfold literal at thirdFound
  split at thirdFound
  · simp at thirdFound
  · simp only [Option.some.injEq] at thirdFound
    simp [← thirdFound, Text.ofString]

/-- The start of a use takes at least its parenthesis. -/
theorem length_rest_lt_of_anyUse {text : Text} {reading : Reading MacroMeaning}
    (found : anyUse text = some reading) : reading.rest.length < text.length := by
  have whole := faithful_anyUse text reading found
  obtain ⟨⟨name, meaning⟩, _, entryFound⟩ := List.exists_of_findSome?_eq_some found
  have nonempty := List.length_pos_iff.2 (used_ne_nil_of_use entryFound)
  rw [whole, List.length_append]
  omega

/-- The start of a use where no word goes on, which `afterWord` tells of the start of the text. -/
def useAt (afterWord : Bool) (text : Text) : Option (Reading MacroMeaning) :=
  if afterWord then none else anyUse text

theorem length_rest_lt_of_useAt {afterWord : Bool} {text : Text} {reading : Reading MacroMeaning}
    (found : useAt afterWord text = some reading) : reading.rest.length < text.length := by
  unfold useAt at found
  split at found
  · simp at found
  · exact length_rest_lt_of_anyUse found

/-! ### Simplification -/

theorem length_strip_le (text : Text) : (Definitions.strip text).length ≤ text.length :=
  Text.length_removeFirst_le _ _

/-- The text with every macro that is used as intended replaced by its meaning. -/
def expand (afterWord : Bool) (text : Text) : Text :=
  match text with
  | [] => []
  | point :: following =>
    match found : useAt afterWord (point :: following) with
    | none => point :: expand point.isWord following
    | some reading =>
      have : reading.rest.length < (point :: following).length :=
        length_rest_lt_of_useAt found
      match splitting : Call.splitFrom 1 reading.rest with
      | none => reading.used ++ expand false reading.rest
      | some split =>
        if split.arguments.length = reading.value.arity then
          let argument := split.arguments.getLast (Call.arguments_ne_nil splitting)
          reading.value.apply (expand false (Definitions.strip argument)).trim ++
            expand false split.rest
        else reading.used ++ expand false reading.rest
termination_by text.length
decreasing_by
  · simp
  · assumption
  · have bound := Call.length_lt splitting _ (List.getLast_mem (Call.arguments_ne_nil splitting))
    have stripped := length_strip_le (split.arguments.getLast (Call.arguments_ne_nil splitting))
    omega
  · have bound := Call.length_lt splitting _ (List.getLast_mem (Call.arguments_ne_nil splitting))
    omega
  · assumption

/-- The text without the block of definitions and without the macros that are used as intended. -/
def simplify (text : Text) : Text := expand false (Definitions.strip text)

end Macro

end ShaderReduction
