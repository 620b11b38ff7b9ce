/-
This file splits the arguments of a call.

Parentheses and square brackets open and close levels, one kind as well as the other. The arguments
of a call are separated by the commas of its first level and end where that level is closed.
-/

import ShaderReduction.Fault

namespace ShaderReduction

namespace Call

/-- Whether a code point opens a level. -/
def isOpening (point : CodePoint) : Bool := point == .scalar '(' || point == .scalar '['

/-- Whether a code point closes a level. -/
def isClosing (point : CodePoint) : Bool := point == .scalar ')' || point == .scalar ']'

/-- The arguments of a call and the text after it. -/
structure Split where
  arguments : List Text
  rest : Text
deriving DecidableEq, Repr

/-- The split with a code point more at the start of its first argument. -/
def Split.lengthen (point : CodePoint) (split : Split) : Split :=
  match split.arguments with
  | [] => { split with arguments := [[point]] }
  | first :: arguments => { split with arguments := (point :: first) :: arguments }

/-- The split with an empty argument before its first one. -/
def Split.separate (split : Split) : Split := { split with arguments := [] :: split.arguments }

/-- Splits a text that stands at a level of a call, the first level being one. A call whose brackets
are not balanced has no split. -/
def splitFrom (level : Int) : Text → Option Split
  | [] => none
  | point :: text =>
    if isOpening point then (splitFrom (level + 1) text).map (Split.lengthen point)
    else if isClosing point then
      if level = 1 then some ⟨[[]], text⟩
      else (splitFrom (level - 1) text).map (Split.lengthen point)
    else if point = .scalar ',' ∧ level = 1 then (splitFrom level text).map Split.separate
    else (splitFrom level text).map (Split.lengthen point)

/-- The level after one code point outside of every call. -/
def levelAfter (point : CodePoint) : Int :=
  if isOpening point then 1 else if isClosing point then -1 else 0

/-- The arguments of the call whose opening bracket stands at an index, and the index after its
closing bracket. -/
def splitAt? (text : Text) (index : Nat) : Option (List Text × Nat) :=
  match text.drop index with
  | [] => none
  | point :: inner =>
    (splitFrom (levelAfter point) inner).map fun split =>
      (split.arguments, text.length - split.rest.length)

/-! ### Places counted from the end

A negative index counts from the end of a text. A call that begins at one is read to the end of the
text and on from its start, and its arguments are what stands between the places of their ends. -/

/-- The place that an index stands for, negative ones being counted from the end. -/
def place (text : Text) (index : Int) : Nat :=
  if index < 0 then (index + text.length).toNat else index.toNat

/-- What stands between two indices of a text. -/
def between (text : Text) (start stop : Int) : Text :=
  let first := place text start
  (text.drop first).take (place text stop - first)

/-- The indices between which arguments stand, the first one beginning at an index. -/
def spans (start : Int) : List Text → List (Int × Int)
  | [] => []
  | argument :: arguments =>
    let stop := start + argument.length
    (start, stop) :: spans (stop + 1) arguments

/-- The arguments of the call whose opening bracket stands so far from the end, and the index after
its closing bracket. -/
def splitBefore? (text : Text) (distance : Nat) : Option (List Text × Int) :=
  (splitAt? (text.drop (text.length - distance) ++ text) 0).map fun (arguments, after) =>
    ((spans (1 - distance) arguments).map fun (start, stop) => between text start stop,
      (after : Int) - distance)

/-- The arguments of the call whose opening bracket stands at an index, negative ones being counted
from the end, and the index after its closing bracket. -/
def splitAtIndex (text : Text) (index : Int) : Except Fault (Option (List Text × Int)) :=
  match index with
  | .ofNat index => .ok ((splitAt? text index).map fun (arguments, after) => (arguments, after))
  | .negSucc before =>
    if text.length ≤ before then .error .beforeStart else .ok (splitBefore? text (before + 1))

/-! ### Small laws -/

theorem lengthen_arguments_ne_nil (point : CodePoint) (split : Split) :
    (split.lengthen point).arguments ≠ [] := by
  unfold Split.lengthen
  split <;> simp

theorem arguments_ne_nil {level : Int} {text : Text} {result : Split}
    (found : splitFrom level text = some result) : result.arguments ≠ [] := by
  fun_induction splitFrom level text generalizing result with
  | case1 => simp at found
  | case3 =>
    simp only [Option.some.injEq] at found
    simp [← found]
  | case2 | case4 | case6 =>
    simp only [Option.map_eq_some_iff] at found
    obtain ⟨inner, _, rfl⟩ := found
    exact lengthen_arguments_ne_nil _ _
  | case5 =>
    simp only [Option.map_eq_some_iff] at found
    obtain ⟨inner, _, rfl⟩ := found
    simp [Split.separate]

/-- What a call takes is split among its arguments, so an argument and the rest are together shorter
than the text. -/
theorem length_lt {level : Int} {text : Text} {result : Split}
    (found : splitFrom level text = some result) (argument : Text)
    (member : argument ∈ result.arguments) :
    argument.length + result.rest.length < text.length := by
  fun_induction splitFrom level text generalizing result argument with
  | case1 => simp at found
  | case3 =>
    simp only [Option.some.injEq] at found
    subst found
    simp_all
  | case2 _ _ _ _ inductionHypothesis | case4 _ _ _ _ _ _ inductionHypothesis
  | case6 _ _ _ _ _ _ inductionHypothesis =>
    simp only [Option.map_eq_some_iff] at found
    obtain ⟨inner, innerFound, rfl⟩ := found
    have nonempty := arguments_ne_nil innerFound
    unfold Split.lengthen at member ⊢
    cases equation : inner.arguments with
    | nil => exact absurd equation nonempty
    | cons first others =>
      simp only [equation, List.mem_cons] at member ⊢
      rcases member with rfl | member
      · have bound := inductionHypothesis innerFound first (by simp [equation])
        simp only [List.length_cons]
        omega
      · have bound := inductionHypothesis innerFound argument (by simp [equation, member])
        simp only [List.length_cons]
        omega
  | case5 _ _ _ _ _ _ inductionHypothesis =>
    simp only [Option.map_eq_some_iff] at found
    obtain ⟨inner, innerFound, rfl⟩ := found
    simp only [Split.separate, List.mem_cons] at member ⊢
    rcases member with rfl | member
    · cases equation : inner.arguments with
      | nil => exact absurd equation (arguments_ne_nil innerFound)
      | cons first others =>
        have bound := inductionHypothesis innerFound first (by simp [equation])
        simp only [List.length_cons, List.length_nil]
        omega
    · have bound := inductionHypothesis innerFound argument member
      simp only [List.length_cons]
      omega

end Call

end ShaderReduction
