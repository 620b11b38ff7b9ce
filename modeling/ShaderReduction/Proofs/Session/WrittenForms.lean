/-
This file proves that the files of a job tell how many lines it has, provided that every declaration
that is bound as the job is written stands on one line.

A job is written as it is, or with its uniforms and its declarations bound. In the latter form a
declaration keeps its lines only if these are one line, because its line breaks are not kept. The
files then tell the number of lines, since whether the block of macro definitions is put into the
texts is known. Removing chunks of lines keeps the declarations where they are.
-/

import Mathlib.Algebra.Order.Group.Nat
import ShaderReduction.Proofs.Declaration
import ShaderReduction.Proofs.JobFiles.LineCounts
import ShaderReduction.Proofs.LineChunk.Candidates
import ShaderReduction.Proofs.LineChunk.Shape
import ShaderReduction.Session

namespace ShaderReduction

namespace Session

open Text

/-! ### Written forms -/

/-- The bindings with which a free job is written, if some are given. -/
def writtenBindings (given : Members) (job : Job) : Except Fault Members := do
  (← job.uniforms.withBindings (.ofMembers given)).bindings

/-- If a job is bound as it is written, each of its declarations stands on one line, and so does
each binding that it is written with. -/
structure OnLines (bindings : Option Members) (job : Job) : Prop where
  alone : ∀ given, bindings = some given → ∀ shader ∈ job.shaders, ∀ line ∈ shader.lines,
    Declaration.Alone line
  shown : ∀ given written, bindings = some given → writtenBindings given job = .ok written →
    ∀ name binding, Table.find? name written = some binding → Unbroken binding.display

/-- A job that is written as it is has nothing to keep on lines. -/
theorem onLines_none (job : Job) : OnLines none job where
  alone given impossible := by cases impossible
  shown given written impossible := by cases impossible

variable {bindings : Option Members} {job form other otherForm : Job}

/-- The written form of a job has its texts with their declarations bound or as they are. -/
theorem writtenForm_eq_ok (formed : writtenForm bindings job = .ok form) :
    form = job ∨ ∃ given uniforms written, bindings = some given ∧
      writtenBindings given job = .ok written ∧
        form = { job with uniforms }.mapTexts (Declaration.bindPlain written) := by
  cases bindings with
  | none => exact .inl (Except.ok.inj formed).symm
  | some given =>
    refine .inr ⟨given, ?_⟩
    change (job.uniforms.withBindings (.ofMembers given) >>= job.boundBy) = .ok form at formed
    change ∃ uniforms written, _ ∧
      (job.uniforms.withBindings (.ofMembers given) >>= Uniforms.bindings) = .ok written ∧ _
    cases bound : job.uniforms.withBindings (.ofMembers given) with
    | error fault =>
      rw [bound] at formed
      cases formed
    | ok uniforms =>
      rw [bound] at formed
      change (uniforms.bindings >>= fun written =>
        pure (Job.mapTexts { job with uniforms } (Declaration.bindPlain written))) =
          Except.ok form at formed
      cases taken : uniforms.bindings with
      | error fault =>
        rw [taken] at formed
        cases formed
      | ok written =>
        rw [taken] at formed
        exact ⟨uniforms, written, rfl, taken, (Except.ok.inj formed).symm⟩

/-- The stages of a written form, and the numbers of lines of its texts as they are stored. -/
theorem shaders_of_writtenForm (storage : Storage) (onLines : OnLines bindings job)
    (feeds : JobFiles.FeedsLines job) (formed : writtenForm bindings job = .ok form) :
    form.shaders.map Shader.stage = job.shaders.map Shader.stage ∧
      form.shaders.map (fun shader => (lines (JobFiles.storedText storage shader)).length) =
        job.shaders.map fun shader => shader.lines.length + JobFiles.addedLines storage := by
  rcases writtenForm_eq_ok formed with rfl | ⟨given, uniforms, written, rfl, bound, rfl⟩
  · exact ⟨rfl, List.map_congr_left fun shader member =>
      JobFiles.length_lines_storedText (feeds shader member)⟩
  · refine ⟨?_, ?_⟩
    · exact List.map_map.trans (List.map_congr_left fun _ _ => rfl)
    · refine List.map_map.trans (List.map_congr_left fun shader member => ?_)
      obtain ⟨boundFeeds, length⟩ := Declaration.length_lines_bindPlain
        (onLines.shown given written rfl bound) (feeds shader member)
        (onLines.alone given rfl shader member)
      have boundShader : FeedsOnly (Shader.mk shader.stage _).text := boundFeeds
      exact (JobFiles.length_lines_storedText boundShader).trans (congrArg (· + _) length)

/-- Jobs with written forms that are stored alike have as many lines. -/
theorem lineCount_eq_of_stored {storage : Storage} (onLines : OnLines bindings job)
    (otherOnLines : OnLines bindings other) (feeds : JobFiles.FeedsLines job)
    (otherFeeds : JobFiles.FeedsLines other)
    (ordered : (job.shaders.map Shader.stage).Sublist Stage.all)
    (otherOrdered : (other.shaders.map Shader.stage).Sublist Stage.all)
    (formed : writtenForm bindings job = .ok form)
    (otherFormed : writtenForm bindings other = .ok otherForm)
    (encodes : JobFiles.Encodes storage form) (otherEncodes : JobFiles.Encodes storage otherForm)
    (same : JobFiles.stored storage form = JobFiles.stored storage otherForm) :
    job.lineCount = other.lineCount := by
  obtain ⟨stages, lengths⟩ := shaders_of_writtenForm storage onLines feeds formed
  obtain ⟨otherStages, otherLengths⟩ :=
    shaders_of_writtenForm storage otherOnLines otherFeeds otherFormed
  have texts := JobFiles.map_storedText_eq (stages ▸ ordered) (otherStages ▸ otherOrdered) encodes
    otherEncodes same
  have stored := congrArg (List.map fun text => (lines text).length) texts
  rw [List.map_map, List.map_map] at stored
  have shifted := lengths.symm.trans (stored.trans otherLengths)
  have counts : job.shaders.map (fun shader => shader.lines.length) =
      other.shaders.map fun shader => shader.lines.length := by
    refine List.map_injective_iff.2
      (fun _ _ => Nat.add_right_cancel : Function.Injective (· + JobFiles.addedLines storage)) ?_
    rw [List.map_map, List.map_map]
    exact shifted
  rw [Job.lineCount, Job.lineCount, List.length_flatMap, List.length_flatMap]
  exact congrArg List.sum counts

/-! ### Candidates -/

end Session

namespace LineChunk

open Text

variable {bindings : Option Members} {job : Job} {start stop : Int}

theorem feedsLines_remove : JobFiles.FeedsLines (remove job start stop) := by
  intro shader member
  obtain ⟨former, lines, rfl, within⟩ := exists_shader_of_mem_remove member
  have unbroken : ∀ line ∈ lines, Unbroken line :=
    fun line among => unbroken_of_mem_linesOf (within among)
  refine feedsOnly_of_breaks ?_
  unfold keepLines
  dsimp only
  split
  · intro point among
    rcases List.mem_append.1 among with joined | feed
    · exact feedsOnly_joinWith unbroken point joined
    · exact fun _ => List.mem_singleton.1 feed
  · exact feedsOnly_joinWith unbroken

theorem onLines_remove (onLines : Session.OnLines bindings job) :
    Session.OnLines bindings (remove job start stop) where
  alone given isGiven shader member line inShader := by
    have among : line ∈ linesOf (remove job start stop) := by
      rw [linesOf_eq_flatMap]
      exact List.mem_flatMap.2 ⟨shader, member, inShader⟩
    obtain ⟨source, sourceMember, inSource⟩ :=
      exists_shader_of_mem_linesOf (mem_linesOf_of_mem_linesOf_remove among)
    exact onLines.alone given isGiven source sourceMember line inSource
  shown := onLines.shown

end LineChunk

end ShaderReduction
