/-
This file proves what removing a chunk of lines leaves of a job.

The lines outside a chunk are those before it and those after it. Each shader is put together again
from those of its lines that stay, and cutting it gives these lines back, the last one apart if it
is empty and left open. So every line of a candidate is a line of the job it was made from, and a
candidate has fewer lines whenever its chunk has any.
-/

import Mathlib.Data.List.Basic
import Mathlib.Data.List.Flatten
import ShaderReduction.LineChunk
import ShaderReduction.Proofs.Lines

namespace ShaderReduction

namespace LineChunk

/-! ### Lines of a job -/

theorem linesOf_eq_flatMap (job : Job) : linesOf job = job.shaders.flatMap Shader.lines := by
  have each : ∀ (start : Nat) (shaders : List Shader),
      ((shaders.zipIdx start).flatMap fun entry =>
        entry.1.lines.map fun line => (entry.2, line)).map Prod.snd =
        shaders.flatMap Shader.lines := by
    intro start shaders
    induction shaders generalizing start with
    | nil => rfl
    | cons shader shaders inductionHypothesis =>
      rw [List.zipIdx_cons, List.flatMap_cons, List.map_append, inductionHypothesis,
        List.flatMap_cons, List.map_map]
      exact congrArg (· ++ _) (List.map_id _)
  exact each 0 job.shaders

theorem length_flatten (job : Job) : (flatten job).length = (linesOf job).length := by
  rw [linesOf, List.length_map]

theorem unbroken_of_mem_linesOf {job : Job} {line : Text} (member : line ∈ linesOf job) :
    Text.Unbroken line := by
  rw [linesOf_eq_flatMap] at member
  obtain ⟨shader, -, lineMember⟩ := List.mem_flatMap.1 member
  exact Text.unbroken_of_mem_lines lineMember

/-! ### The lines outside a chunk -/

/-- The lines outside a chunk are those before and those after it. -/
theorem outside_eq (start stop : Nat) (ordered : start ≤ stop) (lines : List (Nat × Text)) :
    outside start stop lines = lines.take start ++ lines.drop stop := by
  have shifted : ∀ (offset : Nat) (lines : List (Nat × Text)),
      ((lines.zipIdx offset).filter fun entry =>
        !((start : Int) ≤ entry.2 && (entry.2 : Int) < stop)).map Prod.fst =
        lines.take (start - offset) ++ lines.drop (stop - offset) := by
    intro offset lines
    induction lines generalizing offset with
    | nil => simp
    | cons line lines inductionHypothesis =>
      rw [List.zipIdx_cons, List.filter_cons]
      rcases Nat.lt_or_ge offset start with before | reached
      · have kept : (!((start : Int) ≤ offset && (offset : Int) < stop)) = true := by
          simp [before]
        rw [if_pos kept, List.map_cons, inductionHypothesis,
          show start - offset = (start - (offset + 1)) + 1 by omega,
          show stop - offset = (stop - (offset + 1)) + 1 by omega]
        rfl
      · rw [show start - offset = 0 by omega]
        have rest := inductionHypothesis (offset + 1)
        rw [show start - (offset + 1) = 0 by omega, List.take_zero, List.nil_append] at rest
        rcases Nat.lt_or_ge offset stop with inside | past
        · have gone : ¬(!((start : Int) ≤ offset && (offset : Int) < stop)) = true := by
            simp [reached, inside]
          rw [if_neg gone, rest, show stop - offset = (stop - (offset + 1)) + 1 by omega]
          rfl
        · have kept : (!((start : Int) ≤ offset && (offset : Int) < stop)) = true := by
            simp [past]
          rw [if_pos kept, List.map_cons, rest, show stop - offset = 0 by omega,
            show stop - (offset + 1) = 0 by omega]
          rfl
  exact shifted 0 lines

theorem length_outside_lt {start stop : Nat} {lines : List (Nat × Text)} (some : start < stop)
    (inside : stop ≤ lines.length) : (outside start stop lines).length < lines.length := by
  rw [outside_eq start stop (Nat.le_of_lt some), List.length_append, List.length_take,
    List.length_drop]
  omega

theorem outside_sublist (start stop : Int) (lines : List (Nat × Text)) :
    (outside start stop lines).Sublist lines := by
  have kept : (outside start stop lines).Sublist (lines.zipIdx.map Prod.fst) :=
    List.filter_sublist.map Prod.fst
  rwa [List.zipIdx_map_fst] at kept

/-! ### Putting a shader together again -/

/-- A shader that is put together again has the lines that it was made of, the last one apart if
that is empty. -/
theorem lines_keepLines (shader : Shader) {lines : List Text}
    (unbroken : ∀ line ∈ lines, Text.Unbroken line) :
    (keepLines shader lines).lines = lines ∨
      (keepLines shader lines).lines = Text.withoutEmptyEnd lines := by
  unfold keepLines Shader.lines
  by_cases closed : (!lines.isEmpty && shader.text.getLast? == some (.scalar '\n')) = true
  · have nonempty : lines ≠ [] := by
      rintro rfl
      simp at closed
    simp only [closed, if_true]
    exact .inl (Text.lines_joinWith_append unbroken nonempty)
  · simp only [closed, Bool.false_eq_true, if_false]
    exact .inr (Text.lines_joinWith unbroken)

theorem lines_keepLines_sublist {shader : Shader} {lines : List Text}
    (unbroken : ∀ line ∈ lines, Text.Unbroken line) :
    (keepLines shader lines).lines.Sublist lines := by
  rcases lines_keepLines shader unbroken with whole | cut
  · rw [whole]
  · rw [cut]
    exact Text.withoutEmptyEnd_sublist lines

/-- The lines of the shader at an index that stay. -/
def staying (job : Job) (start stop : Int) (index : Nat) : List Text :=
  ((outside start stop (flatten job)).filter fun line => line.1 = index).map Prod.snd

theorem linesOf_remove (job : Job) (start stop : Int) :
    linesOf (remove job start stop) =
      job.shaders.zipIdx.flatMap fun entry =>
        (keepLines entry.1 (staying job start stop entry.2)).lines := by
  rw [linesOf_eq_flatMap]
  show (job.shaders.zipIdx.map _).flatMap Shader.lines = _
  rw [List.flatMap_map]
  rfl

theorem mem_linesOf_of_mem_staying {job : Job} {start stop : Int} {index : Nat} {line : Text}
    (member : line ∈ staying job start stop index) : line ∈ linesOf job := by
  obtain ⟨⟨other, line⟩, kept, rfl⟩ := List.mem_map.1 member
  exact List.mem_map_of_mem ((outside_sublist start stop _).mem ((List.mem_filter.1 kept).1))

theorem unbroken_of_mem_staying {job : Job} {start stop : Int} {index : Nat} :
    ∀ line ∈ staying job start stop index, Text.Unbroken line :=
  fun _ member => unbroken_of_mem_linesOf (mem_linesOf_of_mem_staying member)

/-- Every line of a candidate is a line of the job that it was made from. -/
theorem mem_linesOf_of_mem_linesOf_remove {job : Job} {start stop : Int} {line : Text}
    (member : line ∈ linesOf (remove job start stop)) : line ∈ linesOf job := by
  rw [linesOf_remove] at member
  obtain ⟨⟨shader, index⟩, -, lineMember⟩ := List.mem_flatMap.1 member
  exact mem_linesOf_of_mem_staying
    ((lines_keepLines_sublist unbroken_of_mem_staying).mem lineMember)

/-! ### Candidates are shorter -/

theorem length_flatMap_filter_le (indices : List Nat) (distinct : indices.Nodup)
    (lines : List (Nat × Text)) :
    (indices.flatMap fun index => lines.filter fun line => line.1 = index).length ≤
      lines.length := by
  induction indices generalizing lines with
  | nil => exact Nat.zero_le _
  | cons index indices inductionHypothesis =>
    obtain ⟨absent, distinct⟩ := List.nodup_cons.1 distinct
    have others := inductionHypothesis distinct (lines.filter fun line => !decide (line.1 = index))
    have same : (indices.flatMap fun other => lines.filter fun line => line.1 = other) =
        indices.flatMap fun other => (lines.filter fun line => !decide (line.1 = index)).filter
          fun line => line.1 = other := by
      refine List.flatMap_congr fun other member => ?_
      rw [List.filter_filter]
      refine List.filter_congr fun line _ => ?_
      by_cases equal : line.1 = other
      · have different : line.1 ≠ index := fun isIndex => absent (isIndex ▸ equal ▸ member)
        simp [equal, equal ▸ different]
      · simp [equal]
    rw [List.flatMap_cons, List.length_append, same]
    have parts : lines.length = (lines.filter fun line => decide (line.1 = index)).length +
        (lines.filter fun line => !decide (line.1 = index)).length :=
      List.length_eq_length_filter_add _
    omega

theorem length_linesOf_remove_le (job : Job) (start stop : Int) :
    (linesOf (remove job start stop)).length ≤ (outside start stop (flatten job)).length := by
  have kept : (linesOf (remove job start stop)).Sublist
      (job.shaders.zipIdx.flatMap fun entry => staying job start stop entry.2) := by
    rw [linesOf_remove]
    exact List.Sublist.flatMap_right _ fun _ _ => lines_keepLines_sublist unbroken_of_mem_staying
  have whole : (job.shaders.zipIdx.flatMap fun entry => staying job start stop entry.2) =
      ((job.shaders.zipIdx.map Prod.snd).flatMap fun index =>
        (outside start stop (flatten job)).filter fun line => line.1 = index).map Prod.snd := by
    rw [List.map_flatMap, List.flatMap_map]
    rfl
  refine Nat.le_trans kept.length_le ?_
  rw [whole, List.length_map]
  refine length_flatMap_filter_le _ ?_ _
  rw [List.zipIdx_map_snd]
  exact List.nodup_range'

/-- A candidate has fewer lines than the job that it was made from. -/
theorem length_linesOf_remove_lt {job : Job} {start stop : Int} (some : start < stop)
    (after : 0 ≤ start) (inside : stop ≤ (linesOf job).length) :
    (linesOf (remove job start stop)).length < (linesOf job).length := by
  obtain ⟨first, rfl⟩ := Int.eq_ofNat_of_zero_le after
  obtain ⟨last, rfl⟩ := Int.eq_ofNat_of_zero_le (Int.le_trans after (Int.le_of_lt some))
  refine Nat.lt_of_le_of_lt (length_linesOf_remove_le job first last) ?_
  rw [← length_flatten] at inside ⊢
  exact length_outside_lt (Int.ofNat_lt.1 some) (Int.ofNat_le.1 inside)

end LineChunk

end ShaderReduction
