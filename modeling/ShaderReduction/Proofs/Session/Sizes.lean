/-
This file proves that the final job of a session has no more lines than the job that it started
from.

Passing to the free form, simplification and binding make every text thinner, and removing chunks of
lines leaves fewer lines of all texts together. So the job that the session ends with keeps within
the lines of the first one in every form that is written of it, and the files of the final job are
those of such a form.
-/

import Mathlib.Algebra.Order.BigOperators.Group.List
import ShaderReduction.Proofs.Bindings
import ShaderReduction.Proofs.Session.Course
import ShaderReduction.Proofs.Session.FinalJob
import ShaderReduction.Proofs.Session.Shrinking
import ShaderReduction.Proofs.Thinning

namespace ShaderReduction

open ShaderReduction.Action

/-! ### Shaders within a number of lines -/

namespace Shader

variable {limit : Nat} {shaders : List Shader}

/-- Shaders as they are read, of stages in their order, that have at most some lines together. -/
structure AtMost (limit : Nat) (shaders : List Shader) : Prop where
  areRead : ∀ shader ∈ shaders, Text.IsRead shader.text
  ordered : (shaders.map Shader.stage).Sublist Stage.all
  within : (shaders.flatMap Shader.lines).length ≤ limit

/-- Making texts thinner adds no lines. -/
theorem AtMost.map {change : Text → Text} (thins : ∀ text, Text.Thins (change text) text)
    (atMost : AtMost limit shaders) :
    AtMost limit (shaders.map fun shader => { shader with text := change shader.text }) where
  areRead shader member := by
    obtain ⟨former, formerMember, rfl⟩ := List.mem_map.1 member
    exact (thins former.text).isRead (atMost.areRead former formerMember)
  ordered := by
    rw [List.map_map]
    exact atMost.ordered
  within := by
    refine Nat.le_trans ?_ atMost.within
    rw [List.flatMap_map, List.length_flatMap, List.length_flatMap]
    exact List.sum_le_sum fun shader member =>
      (thins shader.text).length_lines_le (atMost.areRead shader member)

/-- Removing a chunk adds no lines. -/
theorem AtMost.remove {job : Job} (atMost : AtMost limit job.shaders) (start stop : Int) :
    AtMost limit (LineChunk.remove job start stop).shaders where
  areRead := LineChunk.isRead_of_mem_remove atMost.areRead
  ordered := (LineChunk.map_stage_remove job start stop).symm ▸ atMost.ordered
  within := by
    have kept := (LineChunk.outside_sublist start stop (LineChunk.flatten job)).length_le
    rw [LineChunk.length_flatten, LineChunk.linesOf_eq_flatMap] at kept
    have left := LineChunk.length_linesOf_remove_le job start stop
    rw [LineChunk.linesOf_eq_flatMap] at left
    exact Nat.le_trans left (Nat.le_trans kept atMost.within)

end Shader

namespace Session

variable {JudgeMemory : Type} {bindings : Option Members} {limit : Nat} {job : Job}

/-! ### Jobs within a number of lines -/

/-- A free job has at most some lines, and it is written with numbers for bindings. -/
structure KeepsWithin (bindings : Option Members) (limit : Nat) (job : Job) : Prop where
  atMost : Shader.AtMost limit job.shaders
  integers : ∀ given written, bindings = some given → writtenBindings given job = .ok written →
    Uniforms.AreIntegers written

theorem KeepsWithin.remove (keeps : KeepsWithin bindings limit job) (start stop : Int) :
    KeepsWithin bindings limit (LineChunk.remove job start stop) :=
  ⟨keeps.atMost.remove start stop, keeps.integers⟩

theorem KeepsWithin.simplify (keeps : KeepsWithin bindings limit job) :
    KeepsWithin bindings limit job.simplify :=
  ⟨keeps.atMost.map Macro.thins_simplify, keeps.integers⟩

/-- As it is written, a job has no more lines. -/
theorem KeepsWithin.atMost_of_writtenForm (keeps : KeepsWithin bindings limit job) {form : Job}
    (formed : writtenForm bindings job = .ok form) : Shader.AtMost limit form.shaders := by
  rcases writtenForm_eq_ok formed with rfl | ⟨given, uniforms, written, rfl, bound, rfl⟩
  · exact keeps.atMost
  · refine keeps.atMost.map (Declaration.thins_bindPlain fun name binding found => ?_)
    exact keeps.integers given written rfl bound _ (Table.mem_of_find? found)

/-- A job that was read and whose bindings are numbers keeps within its lines in its free form. -/
theorem keepsWithin_of_freeForm (isRead : JobFiles.IsRead job)
    (integers : ∀ given, job.uniforms.bindings = .ok given → Uniforms.AreIntegers given)
    {free : Job} (form : freeForm job = .ok (bindings, free)) :
    KeepsWithin bindings job.lineCount free := by
  have atMost : Shader.AtMost job.lineCount job.shaders :=
    ⟨isRead.texts, isRead.stages, Nat.le_refl _⟩
  rcases freeForm_eq_ok form with ⟨rfl, rfl⟩ | ⟨given, uniforms, names, rfl, isGiven, freed, rfl⟩
  · refine ⟨atMost, fun given written impossible => ?_⟩
    cases impossible
  · refine ⟨atMost.map (Declaration.thins_unbindBlocks names), fun _ written same taken => ?_⟩
    obtain rfl := Option.some.inj same
    obtain ⟨members, isObject, -⟩ := isRead.uniforms
    have isBound := Uniforms.isBound_of_withoutBindings isObject isGiven (integers given isGiven)
      freed
    exact isBound.areIntegers_of_withBindings isGiven freed taken

section Run

variable {setup : SessionSetup LineChunk.Memory JudgeMemory}
  {session after : Session LineChunk.Memory JudgeMemory}

/-- All attempts together leave a job that keeps within its lines. -/
theorem KeepsWithin.of_course (isPlan : setup.plan = LineChunk.plan) {made : Nat} {last : Job}
    {attempts : List (Attempt LineChunk.Memory JudgeMemory)}
    (course : Course setup bindings made job session attempts last after)
    (keeps : KeepsWithin bindings limit job) : KeepsWithin bindings limit last := by
  induction course with
  | finished => exact keeps
  | attempted passes rest inductionHypothesis =>
    refine inductionHypothesis ?_
    split
    · obtain ⟨found, stop, -, isCandidate, -⟩ := nextCandidate_eq_ok isPlan passes.next
      rw [isCandidate]
      exact keeps.remove _ _
    · exact keeps

end Run

/-! ### The whole session -/

/-- A session that removes chunks of lines from a job that was read, whose bindings are numbers, and
that ends with a final job which the judge does not change leaves files of a job with no more
lines. -/
theorem exists_atMost_of_run {setup : SessionSetup LineChunk.Memory JudgeMemory}
    (isPlan : setup.plan = LineChunk.plan) (isRead : JobFiles.IsRead job)
    (integers : ∀ given, job.uniforms.bindings = .ok given → Uniforms.AreIntegers given)
    {budget : Nat} {session after : Session LineChunk.Memory JudgeMemory} {name : Text}
    (keeps : setup.judge.KeepsAccepted (jobPath setup name))
    (ran : (run setup budget job).startingAt session = (.ok (some name), after)) :
    ∃ form, Shader.AtMost job.lineCount form.shaders ∧
      JobFiles.view (jobPath setup name) after.bench.directory =
        .ok (JobFiles.stored setup.storage form) := by
  obtain ⟨bindings, free, isForm, opened, last, shrunk, stages⟩ := exists_stages_of_run ran
  have within := (keepsWithin_of_freeForm isRead integers isForm).of_course isPlan stages.course
  obtain ⟨isName, -⟩ := finish_eq_ok stages.finished
  obtain ⟨final, before, written, isFinal, wrote, same⟩ :=
    exists_writeJob_of_finish (isName ▸ keeps) stages.finished
  obtain ⟨form, formed, view⟩ := writeJob_eq_ok (JobFiles.isJobPath_join _ _) wrote
  refine ⟨form, ?_, same.trans view⟩
  rcases isFinal with rfl | rfl
  · exact within.simplify.atMost_of_writtenForm formed
  · exact within.atMost_of_writtenForm formed

end Session

end ShaderReduction
