/-
This file takes the actions on the files of a job apart.

These actions go through files one after the other. What is true of actions one after the other as
soon as it is true of each of them is true of the whole if it is true of what is done with each
file.
-/

import ShaderReduction.JobFiles
import ShaderReduction.Proofs.Respect

namespace ShaderReduction

namespace JobFiles

open ShaderReduction.Action FileAction

variable {holds : ∀ {Result : Type}, FileAction Result → Prop} (composes : Composes holds)

include composes

/-! ### Writing -/

theorem holds_removeShaders {base : Path}
    (removed : ∀ stage : Stage,
      holds (Action.ofExcept (sibling base stage.suffix) >>= fun path => removeIfPresent path))
    (stages : List Stage) : holds (removeShaders base stages) := by
  induction stages with
  | nil => exact composes.pure _
  | cons stage stages inductionHypothesis =>
    rw [removeShaders, ← bind_assoc]
    exact composes.bind (removed stage) fun _ => inductionHypothesis

theorem holds_writeShaders {storage : Storage} {base : Path} {shaders : List Shader}
    (written : ∀ shader ∈ shaders,
      holds (Action.ofExcept (sibling base shader.stage.suffix) >>= fun path =>
        writeText path (storedText storage shader))) :
    holds (writeShaders storage base shaders) := by
  induction shaders with
  | nil => exact composes.pure _
  | cons shader shaders inductionHypothesis =>
    obtain ⟨first, rest⟩ := List.forall_mem_cons.1 written
    rw [writeShaders, ← bind_assoc]
    exact composes.bind first fun _ => inductionHypothesis rest

/-! ### Listing, fingerprints and removing -/

theorem holds_present {paths : List Path} (found : ∀ path ∈ paths, holds (isPresent path)) :
    holds (present paths) := by
  induction paths with
  | nil => exact composes.pure _
  | cons path paths inductionHypothesis =>
    obtain ⟨first, rest⟩ := List.forall_mem_cons.1 found
    have others := inductionHypothesis rest
    refine composes.bind first fun isThere => ?_
    split
    · exact composes.bind others fun _ => composes.pure _
    · exact others

theorem holds_fingerprintParts (unencodable : holds (throw .unencodable : FileAction Bytes))
    (read : ∀ path, holds (readBytes path)) (paths : List Path) :
    holds (fingerprintParts paths) := by
  induction paths with
  | nil => exact composes.pure _
  | cons path paths inductionHypothesis =>
    have rest : ∀ suffix : Bytes, holds (do
        let content ← readBytes path
        return suffix ++ [0] ++ content ++ [0] ++ (← fingerprintParts paths)) := fun suffix =>
      composes.bind (read path) fun _ => composes.bind inductionHypothesis fun _ =>
        composes.pure _
    unfold fingerprintParts
    split
    · exact rest _
    · exact composes.bind unencodable fun suffix => rest suffix

theorem holds_removeAll {paths : List Path} (removed : ∀ path ∈ paths, holds (remove path)) :
    holds (removeAll paths) := by
  induction paths with
  | nil => exact composes.pure _
  | cons path paths inductionHypothesis =>
    obtain ⟨first, rest⟩ := List.forall_mem_cons.1 removed
    exact composes.bind first fun _ => inductionHypothesis rest

end JobFiles

end ShaderReduction
