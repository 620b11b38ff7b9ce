/-
This file proves where a text uses a macro.

A macro is used where a word may begin: the word is the name of the macro, and blanks and an opening
parenthesis follow. So whether a use begins at a place depends on the word there and on what stands
between it and the next character that is not blank. Properties of the places where a word may begin
are collected by `AtWords`, which follows a text as `expand` does.
-/

import Mathlib.Data.List.Infix
import Mathlib.Data.List.TakeWhile
import Mathlib.Tactic.SplitIfs
import ShaderReduction.Macro
import ShaderReduction.Proofs.Scanner

namespace ShaderReduction

namespace Macro

open Scanner

/-! ### Words at the start of a text -/

/-- The word at the start of a text, empty if none begins there. -/
def leadingWord (text : Text) : Text := text.takeWhile CodePoint.isWord

/-- Whether a text begins with part of a word. -/
def beginsWord : Text → Bool
  | [] => false
  | point :: _ => point.isWord

theorem leadingWord_append {word rest : Text} (all : ∀ point ∈ word, point.isWord = true)
    (ends : beginsWord rest = false) : leadingWord (word ++ rest) = word := by
  refine takeWhile_append_of_stops all fun point isHead => ?_
  cases rest with
  | nil => cases isHead
  | cons first rest =>
    cases isHead
    exact ends

theorem leadingWord_of_beginsWord {text : Text} (ends : beginsWord text = false) :
    leadingWord text = [] :=
  leadingWord_append (fun _ member => absurd member List.not_mem_nil) ends

theorem beginsWord_dropWhile (text : Text) :
    beginsWord (text.dropWhile CodePoint.isWord) = false := by
  cases rest : text.dropWhile CodePoint.isWord with
  | nil => rfl
  | cons point others =>
    have stops := List.head?_dropWhile_not CodePoint.isWord text
    rw [rest] at stops
    exact stops

/-- What follows a text changes the word at its start only if it goes on with a word. -/
theorem leadingWord_append_of_beginsWord (text : Text) {more : Text}
    (ends : beginsWord more = false) : leadingWord (text ++ more) = leadingWord text := by
  have whole : text = leadingWord text ++ text.dropWhile CodePoint.isWord :=
    List.takeWhile_append_dropWhile.symm
  have all : ∀ point ∈ leadingWord text, point.isWord = true :=
    fun point member => List.mem_takeWhile_imp member
  have stops : beginsWord (text.dropWhile CodePoint.isWord ++ more) = false := by
    have own := beginsWord_dropWhile text
    cases rest : text.dropWhile CodePoint.isWord with
    | nil => exact ends
    | cons point others =>
      rw [rest] at own
      exact own
  conv_lhs => rw [whole, List.append_assoc]
  exact leadingWord_append all stops

/-! ### Uses -/

/-- The names of the macros. -/
def names : List Text := meanings.map Prod.fst

theorem isWord_of_mem_name {entry : Text × MacroMeaning} (isMacro : entry ∈ meanings) :
    ∀ point ∈ entry.1, point.isWord = true := by
  have all : ∀ entry ∈ meanings, ∀ point ∈ entry.1, point.isWord = true := by decide +kernel
  exact all entry isMacro

theorem nil_notMem_names : [] ∉ names := by decide

/-- A macro has one meaning. -/
theorem meaning_eq {name : Text} {first second : MacroMeaning}
    (isFirst : (name, first) ∈ meanings) (isSecond : (name, second) ∈ meanings) :
    first = second := by
  have all : ∀ entry ∈ meanings, ∀ other ∈ meanings, entry.1 = other.1 → entry.2 = other.2 := by
    decide +kernel
  exact all _ isFirst _ isSecond rfl

/-- A text begins with the name of a macro, blanks and an opening parenthesis. -/
structure Uses (text : Text) (reading : Reading MacroMeaning) (gap : Text) : Prop where
  isMacro : (leadingWord text, reading.value) ∈ meanings
  blank : ∀ point ∈ gap, point.isBlank = true
  used : reading.used = leadingWord text ++ gap ++ [.scalar '(']
  whole : text = reading.used ++ reading.rest

theorem beginsWord_gap_append {gap : Text} (blank : ∀ point ∈ gap, point.isBlank = true)
    (rest : Text) : beginsWord (gap ++ .scalar '(' :: rest) = false := by
  cases gap with
  | nil => exact show CodePoint.isWord (.scalar '(') = false by decide
  | cons point gap => exact CodePoint.isWord_of_isBlank (blank point List.mem_cons_self)

theorem use_eq_some {name gap rest : Text} {meaning : MacroMeaning}
    (blank : ∀ point ∈ gap, point.isBlank = true) :
    use name meaning (name ++ (gap ++ .scalar '(' :: rest)) =
      some ⟨meaning, name ++ (gap ++ ([.scalar '('] ++ [])), rest⟩ := by
  have first : Text.dropWord? name (name ++ (gap ++ .scalar '(' :: rest)) =
    some (gap ++ .scalar '(' :: rest) := Text.dropWord?_append _ _
  have taken : (gap ++ .scalar '(' :: rest).takeWhile CodePoint.isBlank = gap :=
    takeWhile_append_of_stops blank fun point isHead => by cases isHead; decide
  have dropped : (gap ++ .scalar '(' :: rest).dropWhile CodePoint.isBlank =
      .scalar '(' :: rest := by
    rw [List.dropWhile_append_of_pos blank]
    exact List.dropWhile_cons_of_neg (by decide)
  have last : Text.dropWord? ("(" : Text) (.scalar '(' :: rest) = some rest :=
    Text.dropWord?_append ("(" : Text) rest
  simp only [use, bind, andThen, literal, blanks, run, first, taken, dropped, last, pure, done]
  rfl

theorem used_of_literal {fixed text : Text} {reading : Reading Text}
    (found : literal fixed text = some reading) : reading.used = fixed := by
  unfold literal at found
  split at found
  · cases found
  · cases found
    rfl

theorem exists_uses_of_anyUse {text : Text} {reading : Reading MacroMeaning}
    (found : anyUse text = some reading) : ∃ gap, Uses text reading gap := by
  obtain ⟨⟨name, meaning⟩, isMacro, entryFound⟩ := List.exists_of_findSome?_eq_some found
  have whole := faithful_use _ _ text reading entryFound
  unfold use at entryFound
  obtain ⟨first, afterFirst, firstFound, afterFirstFound, rfl⟩ := bind_eq_some entryFound
  obtain ⟨second, afterSecond, secondFound, afterSecondFound, rfl⟩ := bind_eq_some afterFirstFound
  obtain ⟨third, last, thirdFound, lastFound, rfl⟩ := bind_eq_some afterSecondFound
  cases lastFound
  cases secondFound
  have isName := used_of_literal firstFound
  have opens : third.used = [.scalar '('] := used_of_literal thirdFound
  simp only [isName, opens] at whole ⊢
  have blank : ∀ point ∈ first.rest.takeWhile CodePoint.isBlank, point.isBlank = true :=
    fun point member => List.mem_takeWhile_imp member
  have word : leadingWord text = name := by
    rw [whole, List.append_assoc]
    refine leadingWord_append (isWord_of_mem_name isMacro) ?_
    rw [List.append_nil, List.append_assoc]
    exact beginsWord_gap_append blank _
  exact ⟨_, word ▸ isMacro, blank, by rw [word, List.append_nil, List.append_assoc], whole⟩

theorem Uses.split {text gap : Text} {reading : Reading MacroMeaning}
    (uses : Uses text reading gap) :
    text = leadingWord text ++ (gap ++ .scalar '(' :: reading.rest) := by
  conv_lhs => rw [uses.whole, uses.used]
  simp only [List.append_assoc, List.singleton_append]

/-- A text begins with a use in one way at most. -/
theorem Uses.unique {text gap other : Text} {first second : Reading MacroMeaning}
    (uses : Uses text first gap) (also : Uses text second other) : first = second := by
  have gaps : gap ++ .scalar '(' :: first.rest = other ++ .scalar '(' :: second.rest :=
    List.append_cancel_left (uses.split.symm.trans also.split)
  have taken : ∀ {blanks : Text}, (∀ point ∈ blanks, point.isBlank = true) → ∀ rest : Text,
      (blanks ++ .scalar '(' :: rest).takeWhile CodePoint.isBlank = blanks :=
    fun blank rest => takeWhile_append_of_stops blank fun point isHead => by cases isHead; decide
  have sameGap : gap = other := by
    rw [← taken uses.blank first.rest, gaps, taken also.blank]
  subst sameGap
  have sameRest : first.rest = second.rest := (List.cons.inj (List.append_cancel_left gaps)).2
  have sameUsed : first.used = second.used := uses.used.trans also.used.symm
  have sameValue := meaning_eq uses.isMacro also.isMacro
  cases first
  cases second
  simp_all

/-- The start of a use is found exactly where one is. -/
theorem anyUse_eq_some_iff {text : Text} {reading : Reading MacroMeaning} :
    anyUse text = some reading ↔ ∃ gap, Uses text reading gap := by
  refine ⟨exists_uses_of_anyUse, fun ⟨gap, uses⟩ => ?_⟩
  have isSome : (anyUse text).isSome = true := by
    refine List.findSome?_isSome_iff.2 ⟨_, uses.isMacro, ?_⟩
    rw [uses.split, leadingWord_append (isWord_of_mem_name uses.isMacro)
      (beginsWord_gap_append uses.blank _)]
    simp only [use_eq_some uses.blank, Option.isSome_some]
  obtain ⟨found, isFound⟩ := Option.isSome_iff_exists.1 isSome
  obtain ⟨other, also⟩ := exists_uses_of_anyUse isFound
  rw [isFound, also.unique uses]

end Macro

end ShaderReduction
