/-
This file defines scanners, which recognise a piece of text at the start of another.

A scanner either refuses a text or gives a value, the part of the text that it used and the rest.
Scanners are put together in sequence and by choice, and `Faithful` says that what was used and what
is left make up the text. All scanners built from the ones in this file are faithful, so a
recognised declaration can always be put back as it was written.

Blanks and words share no character, so a run of either has one possible end: the scanners take the
longest run and never give any of it back.
-/

import ShaderReduction.Text
import ShaderReduction.CharacterClass

namespace ShaderReduction

/-- What a scanner gives: a value, the text it used and the text that is left. -/
structure Reading (Value : Type) where
  value : Value
  used : Text
  rest : Text

/-- A recogniser of the start of a text. -/
def Scanner (Value : Type) := Text → Option (Reading Value)

namespace Scanner

/-- The scanner that uses nothing. -/
def done {Value : Type} (value : Value) : Scanner Value := fun text => some ⟨value, [], text⟩

/-- One scanner after another. -/
def andThen {First Second : Type} (first : Scanner First) (second : First → Scanner Second) :
    Scanner Second := fun text =>
  match first text with
  | none => none
  | some reading =>
    match second reading.value reading.rest with
    | none => none
    | some next => some ⟨next.value, reading.used ++ next.used, next.rest⟩

instance : Monad Scanner where
  pure := done
  bind := andThen

/-- The first scanner, or the second where the first one refuses. -/
def otherwise {Value : Type} (first second : Scanner Value) : Scanner Value := fun text =>
  match first text with
  | some reading => some reading
  | none => second text

/-- The longest run of code points of a class. -/
def run (isMember : CodePoint → Bool) : Scanner Text := fun text =>
  let used := text.takeWhile isMember
  some ⟨used, used, text.dropWhile isMember⟩

/-- The longest run of code points of a class, which must not be empty. -/
def someRun (isMember : CodePoint → Bool) : Scanner Text := fun text =>
  match text.takeWhile isMember with
  | [] => none
  | first :: used => some ⟨first :: used, first :: used, text.dropWhile isMember⟩

/-- A fixed word. -/
def literal (word : Text) : Scanner Text := fun text =>
  match Text.dropWord? word text with
  | none => none
  | some rest => some ⟨word, word, rest⟩

/-- The end of the text. -/
def atEnd : Scanner Unit := fun text =>
  match text with
  | [] => some ⟨(), [], []⟩
  | _ :: _ => none

/-- What a scanner used, in place of its value. -/
def written {Value : Type} (scanner : Scanner Value) : Scanner Text := fun text =>
  (scanner text).map fun reading => { reading with value := reading.used }

/-- What a scanner uses, or nothing where it refuses. -/
def optionally {Value : Type} (scanner : Scanner Value) : Scanner Text :=
  otherwise (written scanner) (done [])

/-- Any blanks. -/
def blanks : Scanner Text := run CodePoint.isBlank

/-- At least one blank. -/
def gap : Scanner Text := someRun CodePoint.isBlank

/-- A word. -/
def word : Scanner Text := someRun CodePoint.isWord

/-- Decimal digits of any script. -/
def digits : Scanner Text := someRun CodePoint.isDigit

theorem bind_eq_some {First Second : Type} {first : Scanner First}
    {second : First → Scanner Second} {text : Text} {reading : Reading Second}
    (found : (first >>= second) text = some reading) :
    ∃ early late, first text = some early ∧ second early.value early.rest = some late ∧
      reading = ⟨late.value, early.used ++ late.used, late.rest⟩ := by
  simp only [bind, andThen] at found
  split at found
  · simp at found
  · next early earlyFound =>
    split at found
    · simp at found
    · next late lateFound =>
      simp only [Option.some.injEq] at found
      exact ⟨early, late, earlyFound, lateFound, found.symm⟩

/-! ### Faithfulness -/

/-- What a faithful scanner used and what it left make up the text. -/
def Faithful {Value : Type} (scanner : Scanner Value) : Prop :=
  ∀ (text : Text) (reading : Reading Value),
    scanner text = some reading → text = reading.used ++ reading.rest

theorem faithful_pure {Value : Type} (value : Value) : Faithful (pure value : Scanner Value) := by
  intro text reading found
  simp only [pure, done, Option.some.injEq] at found
  subst found
  rfl

theorem faithful_bind {First Second : Type} {first : Scanner First}
    {second : First → Scanner Second} (firstFaithful : Faithful first)
    (secondFaithful : ∀ value, Faithful (second value)) : Faithful (first >>= second) := by
  intro text reading found
  obtain ⟨early, late, earlyFound, lateFound, rfl⟩ := bind_eq_some found
  rw [firstFaithful text early earlyFound, secondFaithful _ _ late lateFound]
  simp

theorem faithful_otherwise {Value : Type} {first second : Scanner Value}
    (firstFaithful : Faithful first) (secondFaithful : Faithful second) :
    Faithful (otherwise first second) := by
  intro text reading found
  unfold otherwise at found
  split at found
  · next early earlyFound =>
    simp only [Option.some.injEq] at found
    subst found
    exact firstFaithful text early earlyFound
  · exact secondFaithful text reading found

theorem faithful_run (isMember : CodePoint → Bool) : Faithful (run isMember) := by
  intro text reading found
  simp only [run, Option.some.injEq] at found
  subst found
  simp

theorem faithful_someRun (isMember : CodePoint → Bool) : Faithful (someRun isMember) := by
  intro text reading found
  unfold someRun at found
  split at found
  · simp at found
  · next first used taken =>
    simp only [Option.some.injEq] at found
    subst found
    exact (taken ▸ List.takeWhile_append_dropWhile).symm

theorem faithful_literal (fixed : Text) : Faithful (literal fixed) := by
  intro text reading found
  unfold literal at found
  split at found
  · simp at found
  · next rest dropped =>
    simp only [Option.some.injEq] at found
    subst found
    exact Text.eq_append_of_dropWord? dropped

theorem faithful_written {Value : Type} {scanner : Scanner Value} (faithful : Faithful scanner) :
    Faithful (written scanner) := by
  intro text reading found
  simp only [written, Option.map_eq_some_iff] at found
  obtain ⟨early, earlyFound, rfl⟩ := found
  exact faithful text early earlyFound

end Scanner

end ShaderReduction
