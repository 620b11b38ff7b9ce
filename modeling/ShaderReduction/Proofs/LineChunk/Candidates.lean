/-
This file proves that the candidates of the plan are jobs that can be stored and read again.

A candidate has the license, the uniforms and the stages of the job that it was made from, and its
texts are made of lines of that job and line feeds.
-/

import ShaderReduction.Proofs.Directory.Faults
import ShaderReduction.Proofs.JobFiles.Restoring
import ShaderReduction.Proofs.LineChunk.Removal

namespace ShaderReduction

open ShaderReduction.Action

theorem Text.subset_of_mem_lines {text line : Text} (member : line ∈ text.lines) : line ⊆ text := by
  obtain ⟨⟨line, ending⟩, cut, rfl⟩ := List.mem_map.1 member
  intro point inLine
  rw [← Text.joinLines_cutLines text, Text.joinLines, List.mem_flatMap]
  exact ⟨_, cut, List.mem_append_left _ inLine⟩

namespace LineChunk

variable {job : Job} {start stop : Int}

theorem exists_shader_of_mem_linesOf {line : Text} (member : line ∈ linesOf job) :
    ∃ shader ∈ job.shaders, line ∈ shader.lines := by
  rw [linesOf_eq_flatMap] at member
  exact List.mem_flatMap.1 member

/-- The shaders of a candidate are those of the job with lines of the job. -/
theorem exists_shader_of_mem_remove {shader : Shader}
    (member : shader ∈ (remove job start stop).shaders) :
    ∃ former lines, shader = keepLines former lines ∧ lines ⊆ linesOf job := by
  obtain ⟨⟨former, index⟩, -, rfl⟩ := List.mem_map.1 member
  exact ⟨former, staying job start stop index, rfl, fun _ => mem_linesOf_of_mem_staying⟩

theorem map_stage_remove (job : Job) (start stop : Int) :
    (remove job start stop).shaders.map Shader.stage = job.shaders.map Shader.stage := by
  show (job.shaders.zipIdx.map _).map Shader.stage = _
  have stages : job.shaders.map Shader.stage =
      (job.shaders.zipIdx.map Prod.fst).map Shader.stage := by rw [List.zipIdx_map_fst]
  rw [stages, List.map_map, List.map_map]
  rfl

theorem isRead_keepLines {shader : Shader} {lines : List Text}
    (areRead : ∀ line ∈ lines, Text.IsRead line) : Text.IsRead (keepLines shader lines).text := by
  have joined : Text.IsRead (Text.joinWith "\n" lines) := Text.IsRead.joinWith areRead
  unfold keepLines
  dsimp only
  split
  · exact joined.append Text.isRead_lineFeed
  · exact joined

theorem isRead_of_mem_remove (areRead : ∀ shader ∈ job.shaders, Text.IsRead shader.text) :
    ∀ shader ∈ (remove job start stop).shaders, Text.IsRead shader.text := by
  intro shader member
  obtain ⟨former, lines, rfl, within⟩ := exists_shader_of_mem_remove member
  refine isRead_keepLines fun line lineMember => ?_
  obtain ⟨source, sourceMember, among⟩ := exists_shader_of_mem_linesOf (within lineMember)
  exact (areRead source sourceMember).mono (Text.subset_of_mem_lines among)

/-- What is left of a job that can be restored can be restored. -/
theorem restorable_remove (restorable : JobFiles.Restorable job) :
    JobFiles.Restorable (remove job start stop) where
  license := restorable.license
  texts := isRead_of_mem_remove restorable.texts
  stages := by
    rw [map_stage_remove]
    exact restorable.stages
  nonempty empty := by
    have stages := map_stage_remove job start stop
    rw [empty, List.map_nil] at stages
    exact restorable.nonempty (List.map_eq_nil_iff.1 stages.symm)
  uniforms := restorable.uniforms
  unguarded shader member line lineMember := by
    have among : line ∈ linesOf (remove job start stop) := by
      rw [linesOf_eq_flatMap]
      exact List.mem_flatMap.2 ⟨shader, member, lineMember⟩
    obtain ⟨source, sourceMember, inSource⟩ :=
      exists_shader_of_mem_linesOf (mem_linesOf_of_mem_linesOf_remove among)
    exact restorable.unguarded source sourceMember line inSource
  document := restorable.document

/-- A candidate is the job without some of its lines. -/
theorem exists_remove_of_propose_eq_ok {memory after : Memory} {candidate : Job}
    (proposed : (plan.propose job).startingAt memory = (.ok candidate, after)) :
    ∃ start stop, candidate = remove job start stop := by
  obtain ⟨found, between, got, rest⟩ := bind_eq_ok_iff.1 proposed
  dsimp only at rest
  split at rest
  · obtain ⟨_, _, _, answer⟩ := bind_eq_ok_iff.1 rest
    cases answer
    exact ⟨_, _, rfl⟩
  · obtain ⟨_, _, _, refused⟩ := bind_eq_ok_iff.1 rest
    cases refused

theorem fails_propose (job : Job) : Fails Fault.Plain (plan.propose job) := by
  refine fails_get.bind fun memory => ?_
  dsimp only
  split
  · exact Fails.bind (fails_set _) fun _ => fails_pure _
  · exact Fails.bind (fails_set _) fun _ => fails_throw ⟨trivial, not_false, not_false⟩

theorem fails_update (accepted : Bool) : Fails Fault.Plain (plan.update accepted) := by
  refine fails_get.bind fun memory => ?_
  split
  · exact fails_throw ⟨trivial, not_false, not_false⟩
  · split <;> exact fails_set _

end LineChunk

end ShaderReduction
