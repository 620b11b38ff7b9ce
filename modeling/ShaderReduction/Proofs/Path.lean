/-
This file proves how a path is made longer by one name and how its last name is changed.

A text is cut at its slashes, and steps that are empty or stay in place are dropped. So a name that
is neither of these and has no slash is one step, and what is put after a name goes to its last
step.
-/

import Mathlib.Logic.Basic
import ShaderReduction.Path

namespace ShaderReduction

/-! ### Cutting a text at slashes -/

namespace Text

theorem splitAt_of_notMem {separator : CodePoint} {text : Text} (absent : separator ∉ text) :
    splitAt separator text = [text] := by
  induction text with
  | nil => rfl
  | cons point text inductionHypothesis =>
    have different : point ≠ separator := fun same => absent (same ▸ List.mem_cons_self)
    rw [splitAt, if_neg different,
      inductionHypothesis fun member => absent (List.mem_cons_of_mem _ member)]

/-- What is put after a text without the separator goes to its last piece. -/
theorem splitAt_append_of_notMem {separator : CodePoint} {ending : Text}
    (absent : separator ∉ ending) (text : Text) :
    ∃ pieces last, separator ∉ last ∧
      splitAt separator (text ++ ending) = pieces ++ [last ++ ending] := by
  induction text with
  | nil => exact ⟨[], [], List.not_mem_nil, splitAt_of_notMem absent⟩
  | cons point text inductionHypothesis =>
    obtain ⟨pieces, last, lastAbsent, cut⟩ := inductionHypothesis
    rw [List.cons_append, splitAt]
    by_cases same : point = separator
    · rw [if_pos same, cut]
      exact ⟨[] :: pieces, last, lastAbsent, rfl⟩
    · rw [if_neg same, cut]
      cases pieces with
      | nil =>
        refine ⟨[], point :: last, ?_, rfl⟩
        exact fun member => (List.mem_cons.1 member).elim (fun equal => same equal.symm) lastAbsent
      | cons piece pieces => exact ⟨(point :: piece) :: pieces, last, lastAbsent, rfl⟩

theorem notMem_of_mem_splitAt {separator : CodePoint} {text piece : Text}
    (member : piece ∈ splitAt separator text) : separator ∉ piece := by
  induction text generalizing piece with
  | nil =>
    rw [List.mem_singleton.1 member]
    exact List.not_mem_nil
  | cons point text inductionHypothesis =>
    rw [splitAt] at member
    by_cases same : point = separator
    · rw [if_pos same] at member
      rcases List.mem_cons.1 member with rfl | later
      · exact List.not_mem_nil
      · exact inductionHypothesis later
    · rw [if_neg same] at member
      cases cut : splitAt separator text with
      | nil =>
        rw [cut] at member
        rw [List.mem_singleton.1 member, List.mem_singleton]
        exact fun equal => same equal.symm
      | cons first pieces =>
        rw [cut] at member inductionHypothesis
        rcases List.mem_cons.1 member with rfl | later
        · exact fun within => (List.mem_cons.1 within).elim (fun equal => same equal.symm)
            (inductionHypothesis List.mem_cons_self)
        · exact inductionHypothesis (List.mem_cons_of_mem _ later)

end Text

/-! ### Paths and their names -/

/-- A name that leads to one node of a folder: it does not stay there, lead back or hold a slash. -/
structure Path.PlainName (name : Text) : Prop where
  nonempty : name ≠ []
  noSlash : .scalar '/' ∉ name
  notHere : name ≠ ("." : Text)
  notBack : name ≠ (".." : Text)

namespace Path

theorem name_rename (path : Path) (name : Text) : (path.rename name).name = name := by
  rw [Path.name, rename, List.getLast?_concat, Option.getD_some]

theorem rename_rename (path : Path) (first second : Text) :
    (path.rename first).rename second = path.rename second := by
  simp only [rename, List.dropLast_concat]

/-- A name of more than two code points without a slash is plain. -/
theorem plainName_of_length {name : Text} (long : 2 < name.length)
    (noSlash : .scalar '/' ∉ name) : PlainName name where
  nonempty := fun empty => absurd (empty ▸ long) (by decide)
  noSlash := noSlash
  notHere := fun same => absurd (same ▸ long) (by decide)
  notBack := fun same => absurd (same ▸ long) (by decide)

theorem slashesOf_of_notMem {name : Text} (noSlash : .scalar '/' ∉ name) : slashesOf name = 0 := by
  unfold slashesOf
  split
  · exact absurd List.mem_cons_self noSlash
  · exact absurd List.mem_cons_self noSlash
  · exact absurd List.mem_cons_self noSlash
  · rfl

theorem stepsOf_of_plainName {name : Text} (plain : PlainName name) : stepsOf name = [name] := by
  rw [stepsOf, Text.splitAt_of_notMem plain.noSlash]
  simp [plain.nonempty, plain.notHere]

theorem isName_of_plainName {name : Text} (plain : PlainName name) : isName name = true := by
  have last : name.getLast? ≠ some (.scalar '/') :=
    fun slash => plain.noSlash (List.mem_of_getLast? slash)
  simp [isName, slashesOf_of_notMem plain.noSlash, stepsOf_of_plainName plain, last]

theorem join_of_plainName (path : Path) {name : Text} (plain : PlainName name) :
    path.join name = { path with steps := path.steps ++ [name] } := by
  simp [join, ofText, slashesOf_of_notMem plain.noSlash, stepsOf_of_plainName plain]

theorem rename_join (path : Path) {first second : Text} (firstPlain : PlainName first)
    (secondPlain : PlainName second) : (path.join first).rename second = path.join second := by
  rw [join_of_plainName path firstPlain, join_of_plainName path secondPlain, rename,
    List.dropLast_concat]

/-- A step of a path that was read is plain unless it leads back. -/
theorem plainName_of_mem_steps {text step : Text} (member : step ∈ (ofText text).steps)
    (notBack : step ≠ (".." : Text)) : PlainName step := by
  obtain ⟨inText, leads⟩ := List.mem_filter.1 member
  obtain ⟨nonempty, notHere⟩ := Bool.and_eq_true_iff.1 leads
  exact ⟨of_decide_eq_true nonempty, Text.notMem_of_mem_splitAt inText, of_decide_eq_true notHere,
    notBack⟩

theorem name_join_of_plainName (path : Path) {name : Text} (plain : PlainName name) :
    (path.join name).name = name := by
  rw [join_of_plainName path plain, Path.name, List.getLast?_concat, Option.getD_some]

end Path

end ShaderReduction
