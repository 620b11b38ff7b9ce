/-
This file tells the faults of a judge, those of loops, those of uniforms and those of a plan from
the faults of files.

Whatever is done to files can fail in many ways, and each of them is a fault of the file system or
of a name. So a session that ends with the fault of a judge ended in a call of its judge, one that
ends with the fault of a loop ended where verdicts are looked up, one that ends with a fault of
uniforms ended where the form of these is changed, and one that ends with the fault of a plan ended
where the plan was asked.
-/

import ShaderReduction.Directory
import ShaderReduction.Proofs.Respect

namespace ShaderReduction

open ShaderReduction.Action Directory

/-- The fault is no failure of a judge. -/
def Fault.NotOfJudge : Fault → Prop
  | .judgeFailed _ _ => False
  | _ => True

instance : DecidablePred Fault.NotOfJudge := fun fault =>
  decidable_of_iff ((match fault with
    | .judgeFailed _ _ => false
    | _ => true) = true) (by cases fault <;> simp [Fault.NotOfJudge])

/-- The fault is that of a loop, however it was found. -/
def Fault.IsLoop : Fault → Prop
  | .loop | .loopAfterRejection _ | .loopAfterAcceptance _ => True
  | _ => False

/-- The fault comes from what stands in the place of the uniforms or of one, or from bindings that
uniforms have or have not. -/
def Fault.OfUniforms : Fault → Prop
  | .shapelessUniforms | .namelessUniform | .unknownUniform _ | .unboundUniform _ | .alreadyBound
  | .nothingBound | .shapelessDescriptor | .rigidDescriptor | .unusableBinding => True
  | _ => False

/-- The fault comes from a file, a path or a name, or from the job at a path. -/
def Fault.OfFiles : Fault → Prop
  | .missingJob _ | .occupiedJob _ | .namelessPath _ | .invalidName _ | .nullInPath | .notFound
  | .isFolder | .notFolder | .alreadyExists | .unmovable | .nameTooLong | .undecodable
  | .unencodable => True
  | _ => False

/-- The fault comes from a job: from its files or its uniforms. -/
def Fault.OfJobs (fault : Fault) : Prop := fault.OfFiles ∨ fault.OfUniforms

/-- The fault is that of a plan which gives no candidate, or of a session which spent its budget. -/
def Fault.OfAttempts : Fault → Prop
  | .exhausted _ | .inapplicable _ | .outOfAttempts => True
  | _ => False

/-- The fault is neither a failure of a judge nor that of a loop. -/
def Fault.Ordinary (fault : Fault) : Prop := fault.NotOfJudge ∧ ¬fault.IsLoop

/-- The fault is an ordinary one that does not come from uniforms. -/
def Fault.Plain (fault : Fault) : Prop := fault.NotOfJudge ∧ ¬fault.IsLoop ∧ ¬fault.OfUniforms

theorem Fault.Plain.ordinary {fault : Fault} (plain : fault.Plain) : fault.Ordinary :=
  ⟨plain.1, plain.2.1⟩

theorem Action.Fails.ordinary {State Result : Type} {action : Action State Result}
    (fails : Fails Fault.Plain action) : Fails Fault.Ordinary action :=
  fails.mono fun _ plain => plain.ordinary

theorem Fault.OfFiles.plain {fault : Fault} (ofFiles : fault.OfFiles) : fault.Plain := by
  cases fault <;> first | exact ofFiles.elim | exact ⟨trivial, not_false, not_false⟩

theorem Fault.OfJobs.ordinary {fault : Fault} (ofJobs : fault.OfJobs) : fault.Ordinary := by
  rcases ofJobs with ofFiles | ofUniforms
  · exact ofFiles.plain.ordinary
  · cases fault <;> first | exact ofUniforms.elim | exact ⟨trivial, not_false⟩

theorem Fault.OfJobs.not_ofAttempts {fault : Fault} (ofJobs : fault.OfJobs) :
    ¬fault.OfAttempts := by
  rcases ofJobs with ofFiles | ofUniforms
  · cases fault <;> first | exact ofFiles.elim | exact not_false
  · cases fault <;> first | exact ofUniforms.elim | exact not_false

theorem Fault.IsLoop.not_ofUniforms {fault : Fault} (isLoop : fault.IsLoop) :
    ¬fault.OfUniforms := by
  cases fault <;> first | exact isLoop.elim | exact not_false

theorem Fault.IsLoop.not_ofAttempts {fault : Fault} (isLoop : fault.IsLoop) :
    ¬fault.OfAttempts := by
  cases fault <;> first | exact isLoop.elim | exact not_false

/-- There is a result, or the judge failed. -/
def Regular {Result : Type} (outcome : Except Fault Result) : Prop :=
  ∀ fault, outcome = .error fault → ¬fault.NotOfJudge

theorem regular_ok {Result : Type} (result : Result) : Regular (.ok result) := by
  intro fault same
  cases same

instance {Result : Type} : (outcome : Except Fault Result) → Decidable (Regular outcome)
  | .ok result => isTrue (regular_ok result)
  | .error fault => decidable_of_iff (¬fault.NotOfJudge)
      ⟨fun ofJudge _ same => Except.error.inj same ▸ ofJudge, fun regular => regular fault rfl⟩

theorem Regular.error {Result Other : Type} {fault : Fault}
    (regular : Regular (.error fault : Except Fault Result)) :
    Regular (.error fault : Except Fault Other) := by
  intro other same
  cases same
  exact regular fault rfl

theorem Regular.of_map {Result Other : Type} {outcome : Except Fault Result}
    {change : Result → Other} (regular : Regular (outcome.map change)) : Regular outcome := by
  intro fault same
  rw [same] at regular
  exact regular fault rfl

theorem Action.Fails.not_regular {State Result Other : Type} {action : Action State Result}
    (fails : Fails Fault.NotOfJudge action) {state after : State} {fault : Fault}
    (failed : action.startingAt state = (.error fault, after)) :
    ¬Regular (.error fault : Except Fault Other) :=
  fun regular => regular fault rfl (fails state fault after failed)

namespace Directory

theorem ofFiles_of_follow {directory : Directory} {location : Location} {steps : List Text}
    {fault : Fault} (failed : directory.follow location steps = .error fault) :
    fault.OfFiles := by
  induction steps generalizing location with
  | nil => cases failed
  | cons step steps inductionHypothesis =>
    unfold follow at failed
    split at failed
    · cases failed
      exact trivial
    · cases failed
      exact trivial
    · split at failed
      · exact inductionHypothesis failed
      · split at failed
        · exact inductionHypothesis failed
        · split at failed
          · cases failed
            exact trivial
          · exact inductionHypothesis failed

theorem ofFiles_of_locate {directory : Directory} {path : Path} {fault : Fault}
    (failed : directory.locate path = .error fault) : fault.OfFiles := by
  unfold locate at failed
  split at failed
  · cases failed
    exact trivial
  · split at failed
    · cases failed
      exact trivial
    · split at failed
      · cases failed
        exact trivial
      · exact ofFiles_of_follow failed

end Directory

namespace FileAction

/-! ### Single files -/

theorem fails_locate (path : Path) : Fails Fault.OfFiles (locate path) :=
  fun _ _ _ run => ofFiles_of_locate (congrArg Prod.fst run)

theorem fails_find (path : Path) : Fails Fault.OfFiles (find path) := by
  refine fails_get.bind fun directory => ?_
  split
  · exact fails_pure _
  · exact fails_throw trivial
  · exact fails_pure _

theorem fails_findAtAll (path : Path) : Fails Fault.OfFiles (findAtAll path) := by
  refine fails_get.bind fun directory => ?_
  split <;> exact fails_pure _

theorem fails_isPresent (path : Path) : Fails Fault.OfFiles (isPresent path) :=
  (fails_find path).bind fun _ => fails_pure _

theorem fails_readBytes (path : Path) : Fails Fault.OfFiles (readBytes path) := by
  refine (fails_locate path).bind fun location => fails_get.bind fun directory => ?_
  split
  · exact fails_throw trivial
  · exact fails_throw trivial
  · exact fails_pure _

theorem fails_remove (path : Path) : Fails Fault.OfFiles (remove path) := by
  refine (fails_locate path).bind fun location => fails_get.bind fun directory => ?_
  split
  · exact fails_throw trivial
  · exact fails_throw trivial
  · exact fails_modify _

theorem fails_removeIfPresent (path : Path) : Fails Fault.OfFiles (removeIfPresent path) := by
  refine (fails_isPresent path).bind fun present => ?_
  split
  · exact fails_remove path
  · exact fails_pure _

theorem fails_writeBytes (path : Path) (content : Bytes) :
    Fails Fault.OfFiles (writeBytes path content) := by
  refine (fails_locate path).bind fun location => fails_get.bind fun directory => ?_
  split
  · exact fails_throw trivial
  · exact fails_modify _

theorem fails_writeText (path : Path) (text : Text) :
    Fails Fault.OfFiles (writeText path text) := by
  refine (fails_writeBytes path []).bind fun _ => ?_
  split
  · exact fails_writeBytes path _
  · exact fails_throw trivial

theorem fails_touch (path : Path) : Fails Fault.OfFiles (touch path) := by
  refine (fails_locate path).bind fun location => fails_get.bind fun directory => ?_
  split
  · exact fails_modify _
  · exact fails_pure _

/-! ### Folders -/

theorem fails_makeFolder (path : Path) : Fails Fault.OfFiles (makeFolder path) := by
  refine (fails_locate path).bind fun location => fails_get.bind fun directory => ?_
  split
  · exact fails_throw trivial
  · exact fails_modify _

theorem fails_failUnlessFolder (path : Path) {fault : Fault} (ofFiles : fault.OfFiles) :
    Fails Fault.OfFiles (failUnlessFolder path fault) := by
  refine (fails_find path).bind fun node => ?_
  split
  · exact fails_pure _
  · exact fails_throw ofFiles

theorem fails_makeOrFind (path : Path) :
    Fails Fault.OfFiles (tryCatch (makeFolder path) (failUnlessFolder path)) :=
  Fails.tryCatch (fun _ ofFiles => fails_failUnlessFolder path ofFiles)
    (fails_makeFolder path)

theorem fails_ensureSteps (path : Path) (count : Nat) :
    Fails Fault.OfFiles (ensureSteps path count) := by
  induction count with
  | zero => exact fails_makeOrFind _
  | succ count inductionHypothesis =>
    refine Fails.tryCatch (fun fault ofFiles => ?_) (fails_makeFolder _)
    split
    · exact inductionHypothesis.bind fun _ => fails_makeOrFind _
    · exact fails_failUnlessFolder _ ofFiles

/-! ### Moving -/

theorem fails_destination (source target : Path) :
    Fails Fault.OfFiles (destination source target) := by
  refine (fails_findAtAll target).bind fun node => ?_
  split
  · refine (fails_locate source).bind fun start => (fails_locate target).bind fun place => ?_
    split
    · exact fails_pure _
    · refine (fails_findAtAll _).bind fun inside => ?_
      split
      · exact (fails_throw trivial).bind fun _ => fails_pure _
      · exact fails_pure _
  · exact fails_pure _

theorem fails_moveFile (source target : Location) (content : Bytes) :
    Fails Fault.OfFiles (moveFile source target content) := by
  unfold moveFile
  split
  · exact fails_pure _
  · exact fails_modify _

theorem fails_moveFolderTo (source target : Location) :
    Fails Fault.OfFiles (moveFolderTo source target) := by
  refine fails_get.bind fun directory => ?_
  split
  · exact fails_pure _
  · split
    · exact fails_throw trivial
    · split
      · exact fails_throw trivial
      · exact fails_set _

theorem fails_moveFolderFar (source : Location) (target : Path) :
    Fails Fault.OfFiles (moveFolderFar source target) := by
  refine (fails_ensureSteps target.parent _).bind fun _ => ?_
  refine (fails_makeFolder target).bind fun _ => ?_
  exact (fails_locate target).bind fun _ => fails_modify _

theorem fails_moveFolder (source target final : Path) :
    Fails Fault.OfFiles (moveFolder source target final) := by
  refine (fails_locate source).bind fun location => fails_get.bind fun directory => ?_
  split
  · exact fails_moveFolderTo _ _
  · exact fails_throw trivial
  · exact fails_throw trivial
  · next fault _ _ failed =>
    have ofFiles := ofFiles_of_locate failed
    by_cases within : target.straighten.isWithin source.straighten = true
    · simp only [if_pos within]
      refine (fails_throw trivial).bind fun _ => ?_
      split
      · exact fails_moveFolderFar location final
      · exact fails_throw ofFiles
    · simp only [if_neg within]
      split
      · exact fails_moveFolderFar location final
      · exact fails_throw ofFiles

theorem fails_move (source target : Path) : Fails Fault.OfFiles (move source target) := by
  refine (fails_destination source target).bind fun final => ?_
  refine (fails_locate source).bind fun location => fails_get.bind fun directory => ?_
  split
  · exact fails_throw trivial
  · exact fails_moveFolder source target final
  · exact (fails_locate final).bind fun place => fails_moveFile location place _

end FileAction

end ShaderReduction
