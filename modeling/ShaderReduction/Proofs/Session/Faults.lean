/-
This file proves with which faults the parts of a session fail.

All that a session does to jobs fails with faults of files and of uniforms, and looking up and
noting verdicts fails with faults of loops. The plan and the judge may fail with any fault. So a
fault of another kind is the plan's or the judge's. If neither of them ever fails with the fault of
a loop, `Quiet`, then nothing does but looking up and noting verdicts, which happens between the
writing of a candidate and its conclusion.
-/

import ShaderReduction.Proofs.JobFiles.Moving
import ShaderReduction.Proofs.Session.Attempts

namespace ShaderReduction

open ShaderReduction.Action

theorem StepLimit.errs_reached (limit : StepLimit) (made : Nat) :
    Errs (· = .limitNotNumber) (limit.reached made) := by
  cases limit with
  | unlimited => exact errs_ok _
  | attempts count => exact errs_ok _
  | unusable => exact errs_error rfl

/-- A verdict is missing because there is no report, or because the report holds none. -/
theorem Judge.fails_isInteresting {Memory : Type} {judge : Judge Memory} {among : Fault → Prop}
    {job result : Path} (reports : Fails among (judge.report job result))
    (without : ∀ reason, among (.judgeFailed job reason)) :
    Fails among (judge.isInteresting job result) := by
  refine reports.bind fun report => ?_
  split
  · exact fails_pure _
  · exact fails_pure _
  · exact fails_throw (without report.errorMessage)

theorem Action.Fails.notLoop {State Result : Type} {action : Action State Result}
    (fails : Fails Fault.Ordinary action) : Fails (¬·.IsLoop) action :=
  fails.mono fun _ ordinary => ordinary.2

theorem notLoop_of_ofJobs (fault : Fault) (ofJobs : fault.OfJobs) : ¬fault.IsLoop :=
  ofJobs.ordinary.2

namespace VerdictCache

theorem fails_lookup (fingerprint : Text) : Fails Fault.IsLoop (lookup fingerprint) := by
  refine fails_get.bind fun cache => ?_
  split
  · exact Fails.bind (fails_set _) fun _ => fails_pure _
  · split
    · exact fails_throw trivial
    · exact fails_pure _

theorem fails_record (fingerprint : Text) (interesting : Bool) :
    Fails Fault.IsLoop (record fingerprint interesting) := by
  refine fails_get.bind fun cache => ?_
  split
  · split
    · exact (fails_throw trivial).bind fun _ => fails_set _
    · exact fails_set _
  · split
    · exact (fails_throw trivial).bind fun _ => fails_set _
    · exact fails_set _

end VerdictCache

namespace Session

variable {PlanMemory JudgeMemory : Type}

/-! ### Faults of jobs -/

theorem fails_onDirectory {Result : Type} {among : Fault → Prop} {action : FileAction Result}
    (fails : Fails among action) :
    Fails among (onDirectory action : Step PlanMemory JudgeMemory Result) := by
  unfold onDirectory onBench Bench.onDirectory
  exact Fails.onPart (Fails.onPart fails)

theorem errs_freeForm (job : Job) : Errs Fault.OfUniforms (freeForm job) := by
  refine job.uniforms.errs_hasBindings.bind fun bound => ?_
  cases bound with
  | false => exact errs_ok _
  | true =>
    exact job.uniforms.errs_bindings.bind fun _ => job.errs_withoutBindings.bind fun _ => errs_ok _

variable {setup : SessionSetup PlanMemory JudgeMemory} {bindings : Option Members}

theorem fails_writeJob (job : Job) (path : Path) :
    Fails Fault.OfJobs (writeJob setup bindings job path) := by
  refine Fails.bind (Fails.mono (fails_ofExcept ?_) fun _ => .inr) fun form =>
    (fails_onDirectory (JobFiles.fails_write setup.storage form path)).mono fun _ => .inl
  unfold writtenForm
  split
  · exact job.errs_withBindings _
  · exact errs_ok _

theorem fails_writeCandidate (candidate : Job) (made : Nat) :
    Fails Fault.OfJobs (writeCandidate setup bindings candidate made) :=
  Fails.bind (fails_modify _) fun _ => fails_writeJob candidate _

theorem fails_tagStep (attempt : Int) (outcome : Outcome) :
    Fails Fault.OfFiles (tagStep setup attempt outcome) :=
  fails_onDirectory (JobFiles.fails_move _ _ true)

/-- Removing the result of the job at a path. -/
theorem fails_unjudge (path : Path) :
    Fails Fault.OfFiles (Action.ofExcept (JobFiles.result path) >>= fun result =>
      (onDirectory (FileAction.removeIfPresent result) : Step PlanMemory JudgeMemory Unit)) :=
  (fails_ofExcept (JobFiles.errs_result path)).bind fun result =>
    fails_onDirectory (FileAction.fails_removeIfPresent result)

theorem fails_revertFinal (job : Job) (path : Path) :
    Fails Fault.OfJobs (revertFinal setup bindings job path) :=
  (fails_writeJob job path).bind fun _ => (fails_unjudge path).mono fun _ => .inl

theorem fails_markIncomplete : Fails Fault.OfFiles (markIncomplete setup) :=
  holds_markIncomplete composes_fails fails_get (fails_onDirectory (FileAction.fails_touch _))

/-! ### Faults of plans and judges -/

section Among

variable {among : Fault → Prop}

/-- Asking the plan fails as the plan does. -/
theorem fails_proposeRetrying {job : Job} (fails : Fails among (setup.plan.propose job))
    (retries : Nat) : Fails among (proposeRetrying setup job retries) := by
  have plans : Respects (OnBench AnyBench)
      (onPlan (setup.plan.propose job) : Step PlanMemory JudgeMemory Job) := respects_onPlan _
  intro session fault after run
  have runs := runs_proposeRetrying_of (runs_of plans (Fails.onPart fails)) retries session
  exact (runs.of_eq run).2.1 fault rfl

/-- Telling the plan fails as the plan does. -/
theorem fails_settle (candidate : Job) {interesting : Bool}
    (tells : Fails among (setup.plan.update interesting)) :
    Fails among (settle setup candidate interesting) := by
  have told : Fails among
      (onPlan (setup.plan.update interesting) : Step PlanMemory JudgeMemory Unit) :=
    Fails.onPart tells
  cases interesting with
  | true => exact Fails.bind (fails_modify _) fun _ => told
  | false => exact Fails.bind (fails_modify _) fun _ => told

variable (jobs : ∀ fault, fault.OfJobs → among fault)

include jobs

theorem fails_conclude (candidate : Job) (made : Nat) {interesting : Bool}
    (tells : Fails among (setup.plan.update interesting)) :
    Fails among (conclude setup candidate made interesting) := by
  refine ((fails_tagStep _ _).mono fun fault ofFiles => jobs fault (.inl ofFiles)).bind fun _ => ?_
  exact (fails_settle candidate tells).bind fun _ => fails_pure _

variable (judges : ∀ job result, Fails among (setup.judge.isInteresting job result))

include judges

theorem fails_consultJudge (path : Path) : Fails among (consultJudge setup path) := by
  refine Fails.bind (fails_modify _) fun _ => ?_
  refine (fails_ofExcept fun fault failed => jobs fault (.inl ?_)).bind fun result => ?_
  · exact JobFiles.errs_result path fault failed
  · exact Fails.onPart (judges path result)

theorem fails_judgeJob (job : Job) (name : Text) :
    Fails among (judgeJob setup bindings job name) :=
  ((fails_writeJob job _).mono jobs).bind fun _ => fails_consultJudge jobs judges _

theorem fails_mayProceed (job : Job) : Fails among (mayProceed setup bindings job) :=
  holds_mayProceed composes_fails (fails_judgeJob jobs judges job setup.base)
    ((fails_onDirectory (FileAction.fails_touch _)).mono
      fun fault ofFiles => jobs fault (.inl ofFiles))

theorem fails_finish (job : Job) : Fails among (finish setup bindings job) :=
  holds_finish composes_fails (fails_judgeJob jobs judges job.simplify _)
    ((fails_revertFinal job _).mono jobs)
    (fails_markIncomplete.mono fun fault ofFiles => jobs fault (.inl ofFiles))

variable (loops : ∀ fault, fault.IsLoop → among fault)

include loops

theorem fails_consult (path : Path) : Fails among (consult setup path) := by
  unfold consult
  split
  · refine Fails.bind ((fails_onDirectory (JobFiles.fails_fingerprint _ path)).mono
      fun fault ofFiles => jobs fault (.inl ofFiles)) fun fingerprint => ?_
    refine Fails.bind (Fails.onPart ((VerdictCache.fails_lookup fingerprint).mono loops))
      fun known => ?_
    split
    · exact Fails.bind (fails_modify _) fun _ => fails_pure _
    · refine (fails_consultJudge jobs judges path).bind fun interesting => ?_
      exact Fails.bind (Fails.onPart ((VerdictCache.fails_record _ interesting).mono loops))
        fun _ => fails_pure _
  · exact fails_consultJudge jobs judges path

end Among

/-! ### Plans and judges without loops of their own -/

/-- Neither the plan nor the judge ever fails with the fault of a loop. -/
structure Quiet (setup : SessionSetup PlanMemory JudgeMemory) : Prop where
  propose : ∀ job, Fails (¬·.IsLoop) (setup.plan.propose job)
  update : ∀ accepted, Fails (¬·.IsLoop) (setup.plan.update accepted)
  report : ∀ job result, Fails (¬·.IsLoop) (setup.judge.report job result)

section Quiet

variable (quiet : Quiet setup)

include quiet

theorem fails_isInteresting (path result : Path) :
    Fails (¬·.IsLoop) (setup.judge.isInteresting path result) :=
  Judge.fails_isInteresting (quiet.report path result) fun _ => not_false

theorem fails_nextCandidate (made : Nat) (job : Job) :
    Fails (¬·.IsLoop) (nextCandidate setup made job) := by
  refine Fails.bind (fails_ofExcept fun fault failed => ?_) fun reached => ?_
  · rw [setup.limit.errs_reached made fault failed]
    exact not_false
  split
  · exact Fails.bind (fails_modify _) fun _ => fails_pure _
  · exact fails_proposeRetrying (quiet.propose job) applicationRetries

end Quiet

end Session

end ShaderReduction
