/-
This file proves what becomes of lines that are joined by line feeds and cut again.

No line holds a line break. Such lines come back as they were when each of them is closed by a line
feed. When the last one is left open and is empty, it is lost, because a text that ends in a break
has no empty line after it; nothing else is. So joining and cutting never makes lines more.
-/

import ShaderReduction.Text.Lines

namespace ShaderReduction

namespace Text

/-! ### Lines without breaks -/

/-- No code point of a text breaks a line. -/
def Unbroken (text : Text) : Prop := ∀ point ∈ text, point.isLineBreak = false

theorem isLineBreak_lineFeed : CodePoint.isLineBreak (.scalar '\n') = true := by decide

theorem isLineBreak_carriageReturn : CodePoint.isLineBreak (.scalar '\r') = true := by decide

theorem unbroken_of_mem_cutLines {text line ending : Text}
    (member : (line, ending) ∈ cutLines text) : Unbroken line := by
  fun_induction cutLines text generalizing line ending with
  | case1 => simp at member
  | case2 rest inductionHypothesis =>
    rcases List.mem_cons.1 member with same | later
    · simp [(Prod.mk.inj same).1, Unbroken]
    · exact inductionHypothesis later
  | case3 point rest _ _ inductionHypothesis =>
    rcases List.mem_cons.1 member with same | later
    · simp [(Prod.mk.inj same).1, Unbroken]
    · exact inductionHypothesis later
  | case4 point rest _ unbroken _ _ =>
    obtain ⟨rfl, -⟩ := Prod.mk.inj (List.mem_singleton.1 member)
    simpa [Unbroken] using unbroken
  | case5 point rest _ unbroken first firstEnding more cut inductionHypothesis =>
    rw [cut] at inductionHypothesis
    rcases List.mem_cons.1 member with same | later
    · obtain ⟨rfl, -⟩ := Prod.mk.inj same
      have rest := inductionHypothesis List.mem_cons_self
      intro other otherMember
      rcases List.mem_cons.1 otherMember with rfl | inRest
      · simpa using unbroken
      · exact rest other inRest
    · exact inductionHypothesis (List.mem_cons_of_mem _ later)

theorem isLineBreak_of_mem_ending {text line ending : Text}
    (member : (line, ending) ∈ cutLines text) : ∀ point ∈ ending, point.isLineBreak = true := by
  fun_induction cutLines text generalizing line ending with
  | case1 => cases member
  | case2 rest inductionHypothesis =>
    rcases List.mem_cons.1 member with same | later
    · obtain ⟨-, rfl⟩ := Prod.mk.inj same
      decide
    · exact inductionHypothesis later
  | case3 point rest _ breaks inductionHypothesis =>
    rcases List.mem_cons.1 member with same | later
    · obtain ⟨-, rfl⟩ := Prod.mk.inj same
      exact List.forall_mem_singleton.2 breaks
    · exact inductionHypothesis later
  | case4 =>
    obtain ⟨-, rfl⟩ := Prod.mk.inj (List.mem_singleton.1 member)
    exact List.forall_mem_nil _
  | case5 point rest _ _ first firstEnding more cut inductionHypothesis =>
    rw [cut] at inductionHypothesis
    rcases List.mem_cons.1 member with same | later
    · obtain ⟨-, rfl⟩ := Prod.mk.inj same
      exact inductionHypothesis List.mem_cons_self
    · exact inductionHypothesis (List.mem_cons_of_mem _ later)

theorem unbroken_of_mem_lines {text line : Text} (member : line ∈ lines text) : Unbroken line := by
  obtain ⟨⟨line, ending⟩, cutMember, rfl⟩ := List.mem_map.1 member
  exact unbroken_of_mem_cutLines cutMember

/-! ### Cutting what was joined -/

theorem cutLines_unbroken {line : Text} (unbroken : Unbroken line) (nonempty : line ≠ []) :
    cutLines line = [(line, [])] := by
  induction line with
  | nil => exact absurd rfl nonempty
  | cons point line inductionHypothesis =>
    have pointUnbroken : point.isLineBreak = false := unbroken point List.mem_cons_self
    have notReturn : point ≠ .scalar '\r' := by
      rintro rfl
      simp [isLineBreak_carriageReturn] at pointUnbroken
    rw [cutLines.eq_3 _ _ fun _ isReturn _ => notReturn isReturn]
    simp only [pointUnbroken, Bool.false_eq_true, if_false]
    by_cases more : line = []
    · subst more
      rfl
    · rw [inductionHypothesis (fun other member => unbroken other (List.mem_cons_of_mem _ member))
        more]

theorem cutLines_unbroken_append {line : Text} (unbroken : Unbroken line) (rest : Text) :
    cutLines (line ++ .scalar '\n' :: rest) = (line, [.scalar '\n']) :: cutLines rest := by
  induction line with
  | nil =>
    rw [List.nil_append, cutLines.eq_3 _ _ (by simp)]
    simp [isLineBreak_lineFeed]
  | cons point line inductionHypothesis =>
    have pointUnbroken : point.isLineBreak = false := unbroken point List.mem_cons_self
    have notReturn : point ≠ .scalar '\r' := by
      rintro rfl
      simp [isLineBreak_carriageReturn] at pointUnbroken
    rw [List.cons_append, cutLines.eq_3 _ _ fun _ isReturn _ => notReturn isReturn,
      inductionHypothesis fun other member => unbroken other (List.mem_cons_of_mem _ member)]
    simp [pointUnbroken]

/-- Some lines without the last one if that is empty. -/
def withoutEmptyEnd : List Text → List Text
  | [] => []
  | [line] => if line = [] then [] else [line]
  | line :: next :: more => line :: withoutEmptyEnd (next :: more)

theorem withoutEmptyEnd_sublist (texts : List Text) : (withoutEmptyEnd texts).Sublist texts := by
  fun_induction withoutEmptyEnd texts with
  | case1 => exact List.Sublist.slnil
  | case2 => exact List.nil_sublist _
  | case3 => exact List.Sublist.refl _
  | case4 line next more inductionHypothesis => exact inductionHypothesis.cons_cons line

/-- Lines that are joined and not closed come back without an empty one at the end. -/
theorem lines_joinWith {texts : List Text} (unbroken : ∀ line ∈ texts, Unbroken line) :
    lines (joinWith "\n" texts) = withoutEmptyEnd texts := by
  fun_induction withoutEmptyEnd texts with
  | case1 => rfl
  | case2 => rfl
  | case3 line nonempty =>
    show (cutLines line).map Prod.fst = [line]
    rw [cutLines_unbroken (unbroken line List.mem_cons_self) nonempty]
    rfl
  | case4 line next more inductionHypothesis =>
    have rest := inductionHypothesis fun other member =>
      unbroken other (List.mem_cons_of_mem _ member)
    have joined : joinWith "\n" (line :: next :: more) =
        line ++ .scalar '\n' :: joinWith "\n" (next :: more) := by
      simp [joinWith, ofString]
    rw [lines, joined, cutLines_unbroken_append (unbroken line List.mem_cons_self), List.map_cons]
    exact congrArg (line :: ·) rest

/-- Lines that are joined and closed come back as they were. -/
theorem lines_joinWith_append {texts : List Text} (unbroken : ∀ line ∈ texts, Unbroken line)
    (nonempty : texts ≠ []) : lines (joinWith "\n" texts ++ ("\n" : Text)) = texts := by
  induction texts with
  | nil => exact absurd rfl nonempty
  | cons line texts inductionHypothesis =>
    have first := unbroken line List.mem_cons_self
    cases texts with
    | nil =>
      show (cutLines (line ++ .scalar '\n' :: [])).map Prod.fst = [line]
      rw [cutLines_unbroken_append first]
      rfl
    | cons next more =>
      have joined : joinWith "\n" (line :: next :: more) ++ ("\n" : Text) =
          line ++ .scalar '\n' :: (joinWith "\n" (next :: more) ++ ("\n" : Text)) := by
        simp [joinWith, ofString]
      rw [lines, joined, cutLines_unbroken_append first, List.map_cons]
      exact congrArg (line :: ·) (inductionHypothesis
        (fun other member => unbroken other (List.mem_cons_of_mem _ member)) (by simp))

end Text

end ShaderReduction
