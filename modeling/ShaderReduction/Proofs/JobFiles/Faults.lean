/-
This file proves that what is done to jobs and their files is no failure of a judge and no loop.

Binding the uniforms of a job fails for the shape of their descriptors or for that of the bindings.
Writing a job and moving it fails for the names of its files, and as files do.
-/

import ShaderReduction.Proofs.Directory.Faults
import ShaderReduction.Proofs.JobFiles.Parts

namespace ShaderReduction

open ShaderReduction.Action

/-! ### The uniforms of a job -/

namespace Descriptor

theorem errs_hasBinding (document : Document) : Errs Fault.OfUniforms (hasBinding document) := by
  unfold hasBinding
  split
  · exact errs_ok _
  · exact errs_error trivial

theorem errs_binding (document : Document) : Errs Fault.OfUniforms (binding document) := by
  unfold binding
  split
  · split
    · exact errs_ok _
    · exact errs_error trivial
  · exact errs_error trivial

theorem errs_bind (value document : Document) : Errs Fault.OfUniforms (bind value document) := by
  unfold bind
  split
  · exact errs_ok _
  · exact errs_error trivial

theorem errs_unbind (document : Document) : Errs Fault.OfUniforms (unbind document) := by
  unfold unbind
  split
  · exact errs_ok _
  · exact errs_error trivial
  · exact errs_error trivial

end Descriptor

namespace Uniforms

variable (uniforms : Uniforms)

theorem errs_namesAmong (parts : List Document) : Errs Fault.OfUniforms (namesAmong parts) := by
  induction parts with
  | nil => exact errs_ok _
  | cons part parts inductionHypothesis =>
    unfold namesAmong
    split
    · exact inductionHypothesis.map _
    · exact errs_error trivial

theorem errs_names : Errs Fault.OfUniforms uniforms.names := by
  unfold names
  split
  · exact errs_ok _
  · split
    · exact (errs_namesAmong _).map _
    · exact errs_error trivial

theorem errs_descriptor (name : Text) : Errs Fault.OfUniforms (uniforms.descriptor name) := by
  unfold descriptor
  split
  · split
    · exact errs_ok _
    · exact errs_error trivial
  · exact errs_error trivial

theorem errs_anyBound (names : List Text) : Errs Fault.OfUniforms (uniforms.anyBound names) := by
  induction names with
  | nil => exact errs_ok _
  | cons name names inductionHypothesis =>
    refine (uniforms.errs_descriptor name).bind fun document => ?_
    refine (Descriptor.errs_hasBinding document).bind fun bound => ?_
    split
    · exact errs_ok _
    · exact inductionHypothesis

theorem errs_hasBindings : Errs Fault.OfUniforms uniforms.hasBindings :=
  uniforms.errs_names.bind fun _ => uniforms.errs_anyBound _

theorem errs_bindingsOf (names : List Text) :
    Errs Fault.OfUniforms (uniforms.bindingsOf names) := by
  induction names with
  | nil => exact errs_ok _
  | cons name names inductionHypothesis =>
    refine (uniforms.errs_descriptor name).bind fun document => ?_
    refine (Descriptor.errs_hasBinding document).bind fun bound => ?_
    split
    · exact (Descriptor.errs_binding document).bind fun _ =>
        inductionHypothesis.bind fun _ => errs_ok _
    · exact inductionHypothesis

theorem errs_bindings : Errs Fault.OfUniforms uniforms.bindings :=
  uniforms.errs_names.bind fun _ => uniforms.errs_bindingsOf _

theorem errs_bindEach (given : Members) (names : List Text) :
    ∀ (uniforms : Uniforms) (used : List Document) (next : Nat),
      Errs Fault.OfUniforms (bindEach given uniforms used next names) := by
  induction names with
  | nil => exact fun _ _ _ => errs_ok _
  | cons name names inductionHypothesis =>
    intro uniforms used next
    refine (uniforms.errs_descriptor name).bind fun document => ?_
    split
    · exact (Descriptor.errs_bind _ document).bind fun _ => inductionHypothesis _ _ _
    · exact (Descriptor.errs_bind _ document).bind fun _ => inductionHypothesis _ _ _

theorem errs_withBindings (given : Bindings) :
    Errs Fault.OfUniforms (uniforms.withBindings given) := by
  refine uniforms.errs_hasBindings.bind fun bound => ?_
  cases bound with
  | true => exact errs_error trivial
  | false =>
    show Errs _ (if given.values.all Document.isHashable then _ else _)
    split
    · exact uniforms.errs_names.bind fun _ => errs_bindEach _ _ _ _ _
    · exact errs_error trivial

theorem errs_unbindEach (names : List Text) :
    ∀ uniforms : Uniforms, Errs Fault.OfUniforms (uniforms.unbindEach names) := by
  induction names with
  | nil => exact fun _ => errs_ok _
  | cons name names inductionHypothesis =>
    intro uniforms
    exact (uniforms.errs_descriptor name).bind fun document =>
      (Descriptor.errs_unbind document).bind fun _ => inductionHypothesis _

theorem errs_withoutBindings : Errs Fault.OfUniforms uniforms.withoutBindings := by
  refine uniforms.errs_hasBindings.bind fun bound => ?_
  split
  · exact uniforms.errs_names.bind fun names => errs_unbindEach names uniforms
  · exact errs_error trivial

end Uniforms

namespace Job

theorem errs_withBindings (job : Job) (given : Bindings) :
    Errs Fault.OfUniforms (job.withBindings given) :=
  (job.uniforms.errs_withBindings given).bind fun uniforms =>
    uniforms.errs_bindings.bind fun _ => errs_ok _

theorem errs_withoutBindings (job : Job) : Errs Fault.OfUniforms job.withoutBindings :=
  job.uniforms.errs_withoutBindings.bind fun uniforms =>
    uniforms.errs_names.bind fun _ => errs_ok _

end Job

namespace JobFiles

open FileAction

/-! ### The files of a job -/

theorem errs_base (path : Path) : Errs Fault.OfFiles (base path) := by
  unfold base
  split
  · exact errs_error trivial
  · exact errs_ok _

theorem errs_sibling (base : Path) (ending : Text) : Errs Fault.OfFiles (sibling base ending) := by
  unfold sibling
  split
  · exact errs_error trivial
  · split
    · exact errs_ok _
    · exact errs_error trivial

theorem errs_result (path : Path) : Errs Fault.OfFiles (result path) := by
  unfold result
  split
  · exact errs_error trivial
  · exact errs_ok _

theorem errs_candidates (path : Path) : Errs Fault.OfFiles (candidates path) :=
  (errs_base path).bind fun base => (errs_mapM (errs_sibling base) _).bind fun _ => errs_ok _

theorem errs_moves (source target : Path) : Errs Fault.OfFiles (moves source target) := by
  refine (errs_base source).bind fun sourceBase => (errs_base target).bind fun targetBase => ?_
  refine (errs_result source).bind fun _ => (errs_result target).bind fun _ => ?_
  refine (errs_mapM (fun suffix => ?_) _).bind fun _ => errs_ok _
  exact (errs_sibling sourceBase suffix).bind fun _ =>
    (errs_sibling targetBase suffix).bind fun _ => errs_ok _

/-! ### Writing -/

theorem fails_removeShaders (base : Path) (stages : List Stage) :
    Fails Fault.OfFiles (removeShaders base stages) :=
  holds_removeShaders composes_fails (fun _ =>
    (fails_ofExcept (errs_sibling base _)).bind fun path => fails_removeIfPresent path) stages

theorem fails_writeShaders (storage : Storage) (base : Path) (shaders : List Shader) :
    Fails Fault.OfFiles (writeShaders storage base shaders) :=
  holds_writeShaders composes_fails fun _ _ =>
    (fails_ofExcept (errs_sibling base _)).bind fun path => fails_writeText path _

theorem fails_write (storage : Storage) (job : Job) (path : Path) :
    Fails Fault.OfFiles (write storage job path) := by
  refine (fails_ofExcept (errs_base path)).bind fun base => ?_
  refine (fails_writeText path _).bind fun _ => (fails_removeShaders base _).bind fun _ => ?_
  refine (fails_writeShaders storage base _).bind fun _ => ?_
  refine (fails_ofExcept (errs_sibling base _)).bind fun licensePath => ?_
  split
  · exact fails_removeIfPresent licensePath
  · exact fails_writeText licensePath _

/-! ### Listing, fingerprints and removing -/

theorem fails_list (path : Path) : Fails Fault.OfFiles (list path) :=
  (fails_ofExcept (errs_candidates path)).bind fun _ =>
    holds_present composes_fails fun path _ => fails_isPresent path

theorem fails_fingerprint (storage : Storage) (path : Path) :
    Fails Fault.OfFiles (fingerprint storage path) := by
  refine Fails.bind ?_ fun _ => fails_pure _
  exact (fails_list path).bind
    (holds_fingerprintParts composes_fails (fails_throw trivial) fails_readBytes)

theorem fails_removeAll (paths : List Path) : Fails Fault.OfFiles (removeAll paths) :=
  holds_removeAll composes_fails fun path _ => fails_remove path

end JobFiles

end ShaderReduction
