/-
This file counts the lines of texts in which nothing but line feeds breaks a line.

Such a text is empty, or its last line is left open, or a line is closed and the rest is such a text
again. The block of macro definitions goes between two lines, so a text with the block has the lines
of both, even where the line before it was open and had to be closed.
-/

import ShaderReduction.Definitions
import ShaderReduction.Proofs.Lines

namespace ShaderReduction

namespace Text

/-! ### Line feeds only -/

/-- A text of which all line breaks are line feeds, taken line by line. -/
inductive FeedsOnly : Text → Prop
  | nil : FeedsOnly []
  | last {line : Text} (unbroken : Unbroken line) (nonempty : line ≠ []) : FeedsOnly line
  | next {line rest : Text} (unbroken : Unbroken line) (feedsOnly : FeedsOnly rest) :
    FeedsOnly (line ++ .scalar '\n' :: rest)

instance : DecidablePred Unbroken := fun text =>
  inferInstanceAs (Decidable (∀ point ∈ text, point.isLineBreak = false))

theorem unbroken_cons_iff {point : CodePoint} {text : Text} :
    Unbroken (point :: text) ↔ point.isLineBreak = false ∧ Unbroken text := List.forall_mem_cons

theorem Unbroken.append {text more : Text} (unbroken : Unbroken text) (others : Unbroken more) :
    Unbroken (text ++ more) := fun point member =>
  (List.mem_append.1 member).elim (unbroken point) (others point)

theorem Unbroken.mono {text part : Text} (unbroken : Unbroken text) (within : part ⊆ text) :
    Unbroken part := fun point member => unbroken point (within member)

theorem Unbroken.notMem_lineFeed {text : Text} (unbroken : Unbroken text) :
    CodePoint.scalar '\n' ∉ text := by
  intro member
  have isBreak := unbroken _ member
  rw [isLineBreak_lineFeed] at isBreak
  cases isBreak

theorem FeedsOnly.cons {point : CodePoint} {text : Text}
    (allowed : point.isLineBreak = true → point = .scalar '\n') (feedsOnly : FeedsOnly text) :
    FeedsOnly (point :: text) := by
  cases isBreak : point.isLineBreak with
  | true =>
    rw [allowed isBreak]
    exact .next (fun _ member => absurd member List.not_mem_nil) feedsOnly
  | false =>
    cases feedsOnly with
    | nil => exact .last (List.forall_mem_singleton.2 isBreak) (List.cons_ne_nil _ _)
    | last unbroken nonempty =>
      exact .last (unbroken_cons_iff.2 ⟨isBreak, unbroken⟩) (List.cons_ne_nil _ _)
    | next unbroken feedsOnly => exact .next (unbroken_cons_iff.2 ⟨isBreak, unbroken⟩) feedsOnly

theorem feedsOnly_of_breaks {text : Text}
    (allowed : ∀ point ∈ text, point.isLineBreak = true → point = .scalar '\n') :
    FeedsOnly text := by
  induction text with
  | nil => exact .nil
  | cons point text inductionHypothesis =>
    obtain ⟨first, rest⟩ := List.forall_mem_cons.1 allowed
    exact (inductionHypothesis rest).cons first

/-- Lines that are joined by line feeds. -/
theorem feedsOnly_joinWith {texts : List Text} (unbroken : ∀ line ∈ texts, Unbroken line) :
    ∀ point ∈ joinWith "\n" texts, point.isLineBreak = true → point = .scalar '\n' := by
  have inLine : ∀ line ∈ texts, ∀ point ∈ line,
      point.isLineBreak = true → point = .scalar '\n' := by
    intro line member point inside isBreak
    rw [unbroken line member point inside] at isBreak
    cases isBreak
  fun_induction joinWith "\n" texts with
  | case1 => exact fun _ member => absurd member List.not_mem_nil
  | case2 text => exact inLine text List.mem_cons_self
  | case3 text next texts inductionHypothesis =>
    obtain ⟨first, rest⟩ := List.forall_mem_cons.1 inLine
    intro point member
    rcases List.mem_append.1 member with front | later
    · rcases List.mem_append.1 front with here | feed
      · exact first point here
      · exact fun _ => List.mem_singleton.1 feed
    · exact inductionHypothesis (fun line among => unbroken line (List.mem_cons_of_mem _ among))
        rest point later

/-! ### Lines that are closed -/

theorem lines_unbroken {line : Text} (unbroken : Unbroken line) (nonempty : line ≠ []) :
    lines line = [line] := by
  rw [lines, cutLines_unbroken unbroken nonempty]
  rfl

theorem lines_unbroken_append {line : Text} (unbroken : Unbroken line) (rest : Text) :
    lines (line ++ .scalar '\n' :: rest) = line :: lines rest := by
  rw [lines, cutLines_unbroken_append unbroken]
  rfl

/-- Lines that are closed one by one come back before the lines of the rest. -/
theorem lines_closed_append {texts : List Text} (unbroken : ∀ line ∈ texts, Unbroken line)
    (rest : Text) :
    lines ((texts.flatMap fun line => line ++ ("\n" : Text)) ++ rest) = texts ++ lines rest := by
  induction texts with
  | nil => rfl
  | cons line texts inductionHypothesis =>
    obtain ⟨first, others⟩ := List.forall_mem_cons.1 unbroken
    rw [List.flatMap_cons, List.append_assoc, List.append_assoc]
    exact (lines_unbroken_append first _).trans (congrArg (line :: ·) (inductionHypothesis others))

end Text

namespace Definitions

open Text

/-! ### Lines with the block -/

/-- The lines of the block come before those of the text that follows it. -/
theorem lines_block_append (rest : Text) : lines (block ++ rest) = lines block ++ lines rest := by
  have closed : block = (lines block).flatMap fun line => line ++ ("\n" : Text) := by
    decide +kernel
  have unbroken : ∀ line ∈ lines block, Unbroken line := fun _ => unbroken_of_mem_lines
  have front := lines_closed_append unbroken rest
  rwa [← closed] at front

theorem length_lines_insertAfterVersion? {text result : Text} (feedsOnly : FeedsOnly text)
    (inserted : insertAfterVersion? text.cutLines = some result) :
    (lines result).length = (lines text).length + (lines block).length := by
  induction feedsOnly generalizing result with
  | nil => cases inserted
  | @last line unbroken nonempty =>
    rw [cutLines_unbroken unbroken nonempty, insertAfterVersion?] at inserted
    split at inserted
    · obtain rfl := Option.some.inj inserted
      have closed : completed line [] ++ block ++ joinLines [] =
          line ++ .scalar '\n' :: (block ++ []) := by
        simp [completed, joinLines]
      rw [closed, lines_unbroken_append unbroken, lines_block_append,
        lines_unbroken unbroken nonempty, List.length_cons, List.length_append,
        List.length_singleton, show lines [] = [] from rfl, List.length_nil]
      omega
    · cases inserted
  | @next line rest unbroken _ inductionHypothesis =>
    rw [cutLines_unbroken_append unbroken, insertAfterVersion?] at inserted
    rw [lines_unbroken_append unbroken, List.length_cons]
    split at inserted
    · obtain rfl := Option.some.inj inserted
      have closed : completed line [.scalar '\n'] ++ block ++ joinLines rest.cutLines =
          line ++ .scalar '\n' :: (block ++ rest) := by
        rw [joinLines_cutLines]
        simp [completed]
      rw [closed, lines_unbroken_append unbroken, lines_block_append, List.length_cons,
        List.length_append]
      omega
    · obtain ⟨later, found, rfl⟩ := Option.map_eq_some_iff.1 inserted
      rw [List.append_assoc, List.singleton_append, lines_unbroken_append unbroken,
        List.length_cons, inductionHypothesis found]
      omega

/-- A text with the block has as many lines as the text and the block have together. -/
theorem length_lines_insert {text : Text} (feedsOnly : FeedsOnly text) :
    (lines (insert text)).length = (lines text).length + (lines block).length := by
  unfold insert
  cases inserted : insertAfterVersion? text.cutLines with
  | none =>
    rw [Option.getD_none, lines_block_append, List.length_append]
    omega
  | some result => exact length_lines_insertAfterVersion? feedsOnly inserted

end Definitions

end ShaderReduction
