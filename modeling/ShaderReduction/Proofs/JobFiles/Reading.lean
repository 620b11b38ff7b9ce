/-
This file proves what reading the files of a job does.

Listing the files of a job, taking their fingerprint and reading the job leave the directory as it
is.
-/

import ShaderReduction.Proofs.Directory.Files
import ShaderReduction.Proofs.JobFiles.Parts

namespace ShaderReduction

namespace JobFiles

open ShaderReduction.Action FileAction

/-! ### Nothing changes -/

theorem reads_list (path : Path) : Reads (list path) :=
  (respects_ofExcept _).bind fun _ =>
    holds_present composes_respects fun path _ => reads_isPresent path

theorem reads_fingerprint (storage : Storage) (path : Path) : Reads (fingerprint storage path) := by
  refine Respects.bind ?_ fun _ => respects_pure _
  exact (reads_list path).bind
    (holds_fingerprintParts composes_respects (respects_throw _) reads_readBytes)

theorem reads_readText (path : Path) : Reads (readText path) := by
  refine (reads_readBytes path).bind fun content => ?_
  split
  · exact respects_pure _
  · exact respects_throw _

theorem reads_readShaders (base : Path) (stages : List Stage) :
    Reads (readShaders base stages) := by
  induction stages with
  | nil => exact respects_pure _
  | cons stage stages inductionHypothesis =>
    refine (respects_ofExcept _).bind fun path => (reads_isPresent path).bind fun present => ?_
    split
    · exact (reads_readText path).bind fun _ => inductionHypothesis.bind fun _ => respects_pure _
    · exact inductionHypothesis

/-- Reading a job changes nothing. -/
theorem reads_read (path : Path) : Reads (read path) := by
  refine Respects.bind ((reads_readText path).bind fun _ => respects_ofExcept _) fun document => ?_
  split
  · refine (respects_ofExcept _).bind fun base => (reads_readShaders base _).bind fun shaders => ?_
    split
    · exact fun _ => rfl
    · refine (respects_ofExcept _).bind fun place => (reads_isPresent place).bind fun present => ?_
      split
      · exact (reads_readText place).bind fun _ => (respects_ofExcept _).bind fun _ =>
          respects_pure _
      · exact (respects_pure _).bind fun _ => (respects_ofExcept _).bind fun _ => respects_pure _
  · exact respects_throw _

end JobFiles

end ShaderReduction
