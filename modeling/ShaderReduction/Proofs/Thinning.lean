/-
This file proves that no change which a reduction makes to a text gives it more lines.

A text without carriage returns has a row for each of its line breaks, whichever these are, and one
more if its end is left open. Taking code points out adds neither breaks nor rows. A piece that is
put in the place of another one adds none either if it has not more breaks and the other one ends in
no break: then the row in which the other one ends is there in any case. Calls end in a bracket and
declarations in a semicolon, so simplification, binding and unbinding are such changes.
-/

import ShaderReduction.Proofs.Declaration
import ShaderReduction.Proofs.Document
import ShaderReduction.Proofs.Macro.Simplification

namespace ShaderReduction

namespace Text

/-! ### Rows -/

/-- How many code points of a text break a line. -/
def breaks (text : Text) : Nat := text.countP CodePoint.isLineBreak

/-- How many lines a text has where each line break stands for itself. -/
def rows : Text → Nat
  | [] => 0
  | point :: text => if point.isLineBreak then rows text + 1 else max 1 (rows text)

theorem rows_cons_of_break {point : CodePoint} (isBreak : point.isLineBreak = true) (text : Text) :
    rows (point :: text) = rows text + 1 := if_pos isBreak

theorem rows_cons_of_unbroken {point : CodePoint} (unbroken : point.isLineBreak = false)
    (text : Text) : rows (point :: text) = max 1 (rows text) :=
  if_neg (Bool.eq_false_iff.1 unbroken)

theorem rows_le_rows_cons (point : CodePoint) (text : Text) : rows text ≤ rows (point :: text) := by
  cases isBreak : point.isLineBreak with
  | true =>
    rw [rows_cons_of_break isBreak]
    exact Nat.le_succ _
  | false =>
    rw [rows_cons_of_unbroken isBreak]
    exact Nat.le_max_right _ _

/-- Only a carriage return and a line feed break a line together. -/
theorem length_lines_eq_rows {text : Text} (noReturn : .scalar '\r' ∉ text) :
    (lines text).length = rows text := by
  rw [lines, List.length_map]
  induction text with
  | nil => rfl
  | cons point text inductionHypothesis =>
    obtain ⟨here, later⟩ := not_or.1 (mt List.mem_cons.2 noReturn)
    have rest := inductionHypothesis later
    rw [cutLines.eq_3 _ _ fun _ isReturn _ => here isReturn.symm]
    cases isBreak : point.isLineBreak with
    | true =>
      rw [rows_cons_of_break isBreak, if_pos rfl, List.length_cons, rest]
    | false =>
      rw [rows_cons_of_unbroken isBreak, if_neg Bool.false_ne_true, ← rest]
      cases cutLines text with
      | nil => rfl
      | cons line more => exact (Nat.max_eq_right (Nat.succ_pos _)).symm

theorem rows_append_le (text rest : Text) :
    rows (text ++ rest) ≤ breaks text + max 1 (rows rest) := by
  induction text with
  | nil => exact Nat.le_add_left_of_le (Nat.le_max_right _ _)
  | cons point text inductionHypothesis =>
    rw [List.cons_append, breaks, List.countP_cons]
    change rows (text ++ rest) ≤ text.countP CodePoint.isLineBreak + _ at inductionHypothesis
    cases isBreak : point.isLineBreak with
    | true =>
      rw [rows_cons_of_break isBreak, if_pos rfl]
      omega
    | false =>
      rw [rows_cons_of_unbroken isBreak, if_neg Bool.false_ne_true]
      omega

theorem breaks_add_rows_le (text rest : Text) : breaks text + rows rest ≤ rows (text ++ rest) := by
  induction text with
  | nil => exact Nat.le_of_eq (Nat.zero_add _)
  | cons point text inductionHypothesis =>
    rw [List.cons_append, breaks, List.countP_cons]
    change text.countP CodePoint.isLineBreak + _ ≤ rows (text ++ rest) at inductionHypothesis
    cases isBreak : point.isLineBreak with
    | true =>
      rw [rows_cons_of_break isBreak, if_pos rfl]
      omega
    | false =>
      rw [rows_cons_of_unbroken isBreak, if_neg Bool.false_ne_true]
      omega

theorem breaks_append (text rest : Text) : breaks (text ++ rest) = breaks text + breaks rest :=
  List.countP_append

theorem Unbroken.breaks_eq {text : Text} (unbroken : Unbroken text) : breaks text = 0 :=
  List.countP_eq_zero.2 fun point member => Bool.eq_false_iff.1 (unbroken point member)

/-! ### Thinner texts -/

/-- A text has not more breaks and rows than another one, and is as one that was read if that is. -/
structure Thins (narrow wide : Text) : Prop where
  isRead : IsRead wide → IsRead narrow
  breaks : Text.breaks narrow ≤ Text.breaks wide
  rows : Text.rows narrow ≤ Text.rows wide

theorem Thins.refl (text : Text) : Thins text text := ⟨id, Nat.le_refl _, Nat.le_refl _⟩

theorem Thins.trans {narrow middle wide : Text} (first : Thins narrow middle)
    (second : Thins middle wide) : Thins narrow wide :=
  ⟨fun isRead => first.isRead (second.isRead isRead), Nat.le_trans first.breaks second.breaks,
    Nat.le_trans first.rows second.rows⟩

theorem Thins.cons {narrow wide : Text} (thins : Thins narrow wide) (point : CodePoint) :
    Thins (point :: narrow) (point :: wide) where
  isRead isRead := List.forall_mem_cons.2
    ⟨isRead point List.mem_cons_self, thins.isRead (isRead.mono (List.subset_cons_self _ _))⟩
  breaks := by
    rw [Text.breaks, Text.breaks, List.countP_cons, List.countP_cons]
    exact Nat.add_le_add_right thins.breaks _
  rows := by
    have rest := thins.rows
    cases isBreak : point.isLineBreak with
    | true =>
      rw [rows_cons_of_break isBreak, rows_cons_of_break isBreak]
      omega
    | false =>
      rw [rows_cons_of_unbroken isBreak, rows_cons_of_unbroken isBreak]
      omega

/-- Taking code points out makes a text thinner. -/
theorem thins_of_sublist {narrow wide : Text} (sublist : narrow.Sublist wide) :
    Thins narrow wide := by
  induction sublist with
  | slnil => exact Thins.refl []
  | @cons narrow wide point _ inductionHypothesis =>
    refine inductionHypothesis.trans ⟨fun isRead => isRead.mono (List.subset_cons_self _ _), ?_,
      rows_le_rows_cons point wide⟩
    exact (List.sublist_cons_self point wide).countP_le
  | cons_cons point _ inductionHypothesis => exact inductionHypothesis.cons point

/-- The number of lines of a thinner text that was read. -/
theorem Thins.length_lines_le {narrow wide : Text} (thins : Thins narrow wide)
    (isRead : IsRead wide) : (lines narrow).length ≤ (lines wide).length := by
  rw [length_lines_eq_rows fun member => (isRead _ member).2 rfl,
    length_lines_eq_rows fun member => (thins.isRead isRead _ member).2 rfl]
  exact thins.rows

/-- A piece may stand in the place of another one before texts of which one is thinner. -/
def Fits (piece used : Text) : Prop :=
  ∀ narrow wide, Thins narrow wide → Thins (piece ++ narrow) (used ++ wide)

theorem fits_refl (piece : Text) : Fits piece piece := by
  intro narrow wide thins
  induction piece with
  | nil => exact thins
  | cons point piece inductionHypothesis => exact inductionHypothesis.cons point

/-- A piece may stand in the place of one that ends in no break and has as many. -/
theorem fits_of_unbroken {piece front : Text} {last : CodePoint}
    (isRead : IsRead (front ++ [last]) → IsRead piece) (fewer : breaks piece ≤ breaks front)
    (unbroken : last.isLineBreak = false) : Fits piece (front ++ [last]) := by
  intro narrow wide thins
  refine ⟨fun whole => ?_, ?_, ?_⟩
  · exact (isRead (whole.mono (List.subset_append_left _ _))).append
      (thins.isRead (whole.mono (List.subset_append_right _ _)))
  · rw [breaks_append, breaks_append, breaks_append, Nat.add_assoc]
    exact Nat.add_le_add fewer (Nat.le_trans thins.breaks (Nat.le_add_left _ _))
  · have upper := rows_append_le piece narrow
    have lower := breaks_add_rows_le front (last :: wide)
    rw [rows_cons_of_unbroken unbroken] at lower
    rw [List.append_assoc, List.singleton_append]
    have rest := thins.rows
    omega

theorem isRead_append_iff {text more : Text} : IsRead (text ++ more) ↔ IsRead text ∧ IsRead more :=
  List.forall_mem_append

/-- A word that can be put between the parts of a text without a line more. -/
structure Inert (word : Text) : Prop where
  isRead : IsRead word
  breaks : Text.breaks word = 0

theorem inert_ofString {string : String} (unbroken : Unbroken (ofString string)) :
    Inert (ofString string) := by
  refine ⟨isRead_ofString fun member => ?_, unbroken.breaks_eq⟩
  have isBreak := unbroken (.scalar '\r') (List.mem_map.2 ⟨_, member, rfl⟩)
  rw [isLineBreak_carriageReturn] at isBreak
  cases isBreak

theorem inert_ofInt (number : Int) : Inert (ofInt number) := by
  have unbroken : Unbroken numeralPoints := by decide
  exact ⟨(isNumeral_ofInt number).isRead, (unbroken.mono (isNumeral_ofInt number)).breaks_eq⟩

theorem trim_sublist (text : Text) : text.trim.Sublist text := by
  obtain ⟨before, after, whole, -, -⟩ := Macro.exists_trim text
  conv_rhs => rw [whole]
  exact (List.sublist_append_right _ _).trans (List.sublist_append_left _ _)

end Text

open Text

/-! ### Macros -/

namespace Macro

open Call

theorem thins_strip (text : Text) : Thins (Definitions.strip text) text :=
  thins_of_sublist (removeFirst_sublist _ _)

theorem isRead_apply (meaning : MacroMeaning) {argument : Text} (isRead : IsRead argument) :
    IsRead (meaning.apply argument) := by
  have opening : Inert "(" := inert_ofString (by decide)
  have closing : Inert ")" := inert_ofString (by decide)
  cases meaning with
  | wrapper => exact isRead
  | value | parenthesis => exact (opening.isRead.append isRead).append closing.isRead

theorem breaks_apply (meaning : MacroMeaning) (argument : Text) :
    breaks (meaning.apply argument) = breaks argument := by
  have opening : Inert "(" := inert_ofString (by decide)
  have closing : Inert ")" := inert_ofString (by decide)
  cases meaning with
  | wrapper => rfl
  | value | parenthesis =>
    simp only [MacroMeaning.apply, breaks_append, opening.breaks, closing.breaks, Nat.zero_add,
      Nat.add_zero]

theorem isLineBreak_of_isClosing {bracket : CodePoint} (closing : isClosing bracket = true) :
    bracket.isLineBreak = false := by
  rcases Bool.or_eq_true_iff.1 closing with round | square
  · rw [beq_iff_eq.1 round]
    decide
  · rw [beq_iff_eq.1 square]
    decide

/-- A use gives way to its meaning, which is made of its last argument. -/
theorem fits_apply {meaning : MacroMeaning} {opened last expanded : Text} {bracket : CodePoint}
    (thins : Thins expanded last) (closing : isClosing bracket = true) :
    Fits (meaning.apply expanded.trim) (opened ++ last ++ [bracket]) := by
  have trimmed : Thins expanded.trim last := (thins_of_sublist (trim_sublist expanded)).trans thins
  refine fits_of_unbroken (fun whole => isRead_apply meaning (trimmed.isRead (whole.mono ?_))) ?_
    (isLineBreak_of_isClosing closing)
  · exact List.Subset.trans (List.subset_append_right _ _) (List.subset_append_left _ _)
  · rw [breaks_apply, breaks_append]
    exact Nat.le_trans trimmed.breaks (Nat.le_add_left _ _)

theorem thins_expand (afterWord : Bool) (text : Text) : Thins (expand afterWord text) text := by
  induction afterWord, text using expand_induction with
  | nil =>
    rw [expand]
    exact Thins.refl []
  | plain afterWord point following none inductionHypothesis =>
    rw [expand_cons_of_none none]
    exact inductionHypothesis.cons point
  | unfilled text gap reading uses expanded _ inductionHypothesis =>
    conv_rhs => rw [uses.whole]
    rw [expanded]
    exact fits_refl _ _ _ inductionHypothesis
  | filled text gap reading split last before bracket fills inArgument inRest =>
    have expanded : Thins (expand false (Definitions.strip last)) last :=
      inArgument.trans (thins_strip last)
    conv_rhs => rw [fills.whole, ← List.append_assoc, ← List.append_assoc]
    rw [fills.expand_eq]
    exact fits_apply expanded fills.closes.closing _ _ inRest

/-- Simplification makes a text thinner. -/
theorem thins_simplify (text : Text) : Thins (simplify text) text :=
  (thins_expand false _).trans (thins_strip text)

end Macro

/-! ### Declarations -/

namespace Declaration

open Scanner

/-- What replaces a piece by one that may stand in its place makes a text thinner. -/
theorem thins_replaceAtLines {Value : Type} {scanner : Scanner Value}
    {replace : Value → Text → Text} (faithful : Faithful scanner)
    (fits : ∀ text reading, scanner text = some reading →
      Fits (replace reading.value reading.used) reading.used) (atLineStart : Bool) (text : Text) :
    Thins (replaceAtLines scanner replace atLineStart text) text := by
  fun_induction replaceAtLines scanner replace atLineStart text with
  | case1 => exact Thins.refl []
  | case2 _ point text _ inductionHypothesis => exact inductionHypothesis.cons point
  | case3 _ point text reading found _ inductionHypothesis =>
    have scanned : scanner (point :: text) = some reading := by
      split at found
      · exact found
      · cases found
    conv_rhs => rw [faithful _ _ scanned]
    exact fits _ _ scanned _ _ inductionHypothesis
  | case4 _ point text _ _ _ inductionHypothesis => exact inductionHypothesis.cons point

/-- A piece spells a variable: it holds an indent, the type and the declarator in this order before
the semicolon in which it ends. -/
def Spells (indent : Text) (member : Variable) (used : Text) : Prop :=
  ∃ front, used = front ++ (";" : Text) ∧
    (indent ++ (member.type ++ member.declarator)).Sublist front

/-- A form with the same indent and variable may stand in the place of what was spelled, if nothing
else in it breaks a line. -/
theorem Spells.fits {indent used form : Text} {member : Variable}
    (spells : Spells indent member used)
    (isRead : IsRead (indent ++ (member.type ++ member.declarator)) → IsRead form)
    (same : breaks form = breaks (indent ++ (member.type ++ member.declarator))) :
    Fits form used := by
  obtain ⟨front, rfl, within⟩ := spells
  refine fits_of_unbroken (fun whole => isRead (whole.mono ?_)) ?_ (by decide)
  · exact List.Subset.trans within.subset (List.subset_append_left _ _)
  · rw [same]
    exact within.countP_le

theorem spells_of_plain {text : Text} {reading : Reading PlainDeclaration}
    (found : plain text = some reading) :
    Spells reading.value.indent reading.value.member reading.used := by
  obtain ⟨-, body, -, used, within⟩ := plain_eq_some found
  refine ⟨reading.value.indent ++ (("uniform" : Text) ++ body), ?_, ?_⟩
  · rw [used]
    simp only [List.append_assoc]
  · exact (List.Sublist.refl _).append (within.trans (List.sublist_append_right _ _))

theorem spells_of_bound {text : Text} {reading : Reading BoundDeclaration}
    (found : bound text = some reading) :
    Spells reading.value.indent reading.value.member reading.used := by
  obtain ⟨indent, _, indentFound, afterIndent, rfl⟩ := bind_eq_some found
  obtain ⟨binding, _, -, afterBinding, rfl⟩ := bind_eq_some afterIndent
  obtain ⟨introduction, _, -, afterIntroduction, rfl⟩ := bind_eq_some afterBinding
  obtain ⟨space, _, -, afterSpace, rfl⟩ := bind_eq_some afterIntroduction
  obtain ⟨block, _, -, afterBlock, rfl⟩ := bind_eq_some afterSpace
  obtain ⟨opening, _, -, afterOpening, rfl⟩ := bind_eq_some afterBlock
  obtain ⟨blank, _, -, afterBlank, rfl⟩ := bind_eq_some afterOpening
  obtain ⟨member, _, memberFound, afterMember, rfl⟩ := bind_eq_some afterBlank
  obtain ⟨ending, _, -, afterEnding, rfl⟩ := bind_eq_some afterMember
  obtain ⟨closed, _, -, afterClosed, rfl⟩ := bind_eq_some afterEnding
  obtain ⟨last, _, lastFound, made, rfl⟩ := bind_eq_some afterClosed
  cases made
  obtain ⟨gap, sign, -, signFound, rfl⟩ := bind_eq_some lastFound
  dsimp only
  refine ⟨indent.used ++ ((binding.used ++ introduction.used ++ space.used ++ block.used ++
    opening.used ++ blank.used) ++ (member.used ++ (ending.used ++ closed.used ++ gap.used))),
    ?_, ?_⟩
  · rw [(literal_eq_some signFound).2]
    simp only [List.append_assoc, List.append_nil]
  · rw [tells_run _ _ _ indentFound]
    refine (List.Sublist.refl _).append ?_
    exact ((typedName_eq_some memberFound).trans (List.sublist_append_left _ _)).trans
      (List.sublist_append_right _ _)

/-- The block that binds a declared variable to a number may stand in the place of its plain
declaration. -/
theorem fits_boundForm {text : Text} {reading : Reading PlainDeclaration} (number : Int)
    (found : plain text = some reading) :
    Fits (boundForm reading.value (.integer number)) reading.used := by
  have shown : Inert (Document.integer number).display := inert_ofInt number
  have opening : Inert "layout(set = 0, binding = " := inert_ofString (by decide)
  have block : Inert ") uniform buf" := inert_ofString (by decide)
  have brace : Inert " \x7b " := inert_ofString (by decide)
  have space : Inert " " := inert_ofString (by decide)
  have closing : Inert "; \x7d;" := inert_ofString (by decide)
  refine (spells_of_plain found).fits (fun isRead => ?_) ?_
  · obtain ⟨indent, member⟩ := isRead_append_iff.1 isRead
    obtain ⟨type, declarator⟩ := isRead_append_iff.1 member
    exact (((((((((indent.append opening.isRead).append shown.isRead).append block.isRead).append
      shown.isRead).append brace.isRead).append type).append space.isRead).append
        declarator).append closing.isRead)
  · simp only [boundForm, breaks_append, shown.breaks, opening.breaks, block.breaks, brace.breaks,
      space.breaks, closing.breaks, Nat.add_zero, Nat.add_assoc]

/-- The plain declaration of a bound variable may stand in the place of its block. -/
theorem fits_plainForm {text : Text} {reading : Reading BoundDeclaration}
    (found : bound text = some reading) : Fits (plainForm reading.value) reading.used := by
  have opening : Inert "uniform " := inert_ofString (by decide)
  have space : Inert " " := inert_ofString (by decide)
  have closing : Inert ";" := inert_ofString (by decide)
  refine (spells_of_bound found).fits (fun isRead => ?_) ?_
  · obtain ⟨indent, member⟩ := isRead_append_iff.1 isRead
    obtain ⟨type, declarator⟩ := isRead_append_iff.1 member
    exact ((((indent.append opening.isRead).append type).append space.isRead).append
      declarator).append closing.isRead
  · simp only [plainForm, breaks_append, opening.breaks, space.breaks, closing.breaks,
      Nat.add_zero, Nat.add_assoc]

/-- Binding declarations to numbers makes a text thinner. -/
theorem thins_bindPlain {bindings : Members} (integers : ∀ name binding,
    Table.find? name bindings = some binding → ∃ number, binding = .integer number)
    (text : Text) : Thins (bindPlain bindings text) text := by
  rw [bindPlain_eq]
  refine thins_replaceAtLines faithful_plain (fun text reading found => ?_) true text
  unfold boundPiece
  split
  · next binding isBound =>
    obtain ⟨number, rfl⟩ := integers _ _ isBound
    exact fits_boundForm number found
  · exact fits_refl _

/-- Making declarations plain makes a text thinner. -/
theorem thins_unbindBlocks (names : List Text) (text : Text) :
    Thins (unbindBlocks names text) text := by
  refine thins_replaceAtLines faithful_bound (fun text reading found => ?_) true text
  split
  · exact fits_plainForm found
  · exact fits_refl _

end Declaration

end ShaderReduction
