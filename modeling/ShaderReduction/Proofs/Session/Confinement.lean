/-
This file proves what a session does to its bench, whatever comes of it.

The bench of a session changes in five ways only: jobs are written, the judge is asked about them,
the result of the final job is removed, markers are touched, and the jobs of attempts are tagged. A
relation that the first four respect, `Confined`, and the last one as well, `Tagging`, relates every
state of the bench to all later ones. Proposing and settling a candidate work with the plan only,
and everything else leaves the memory of the plan alone.
-/

import ShaderReduction.Proofs.JobFiles.Reading
import ShaderReduction.Proofs.Session.Parts

namespace ShaderReduction

open ShaderReduction.Action

/-! ### Changes of the bench -/

namespace Bench

variable {Memory : Type}

/-- Two benches have related directories, whatever is in their memories. -/
def OnDirectory (relation : Directory → Directory → Prop) (before after : Bench Memory) : Prop :=
  relation before.directory after.directory

instance {relation : Directory → Directory → Prop} [IsPreorder Directory relation] :
    IsPreorder (Bench Memory) (OnDirectory relation) where
  refl bench := refl_of relation bench.directory
  trans _ _ _ first second := trans_of relation first second

theorem respects_onDirectory {Result : Type} {relation : Directory → Directory → Prop}
    {action : FileAction Result} (respects : Respects relation action) :
    Respects (OnDirectory relation) (onDirectory action : Action (Bench Memory) Result) :=
  respects.onPart fun _ _ related => related

theorem respects_onDirectory_of_reads {Result : Type}
    {relation : Bench Memory → Bench Memory → Prop} [IsPreorder (Bench Memory) relation]
    {action : FileAction Result} (reads : Reads action) :
    Respects relation (onDirectory action) := by
  intro bench
  have same := reads bench.directory
  show relation bench ⟨(action.startingAt bench.directory).2, bench.memory⟩
  rw [← same]
  exact refl_of relation bench

end Bench

/-- Turning a verdict into an answer changes nothing. -/
theorem Judge.respects_isInteresting {Memory : Type} {judge : Judge Memory} {job result : Path}
    {relation : Bench Memory → Bench Memory → Prop} [IsPreorder (Bench Memory) relation]
    (respects : Respects relation (judge.report job result)) :
    Respects relation (judge.isInteresting job result) := by
  refine respects.bind fun report => ?_
  cases report.verdict
  · exact respects_pure _
  · exact respects_pure _
  · exact respects_throw _

namespace Session

variable {PlanMemory JudgeMemory : Type}

/-- The names of the jobs that a session writes. -/
def JobName (setup : SessionSetup PlanMemory JudgeMemory) (name : Text) : Prop :=
  name = setup.base ∨ name = Trail.finalName setup.base ∨
    ∃ made : Nat, name = Trail.stepName setup.base (made + 1 + setup.offset)

/-- Writing and judging jobs under a name respects a relation. -/
structure ConfinedTo (relation : Bench JudgeMemory → Bench JudgeMemory → Prop)
    (setup : SessionSetup PlanMemory JudgeMemory) (name : Text) : Prop where
  write : ∀ job, Respects relation
    (Bench.onDirectory (JobFiles.write setup.storage job (jobPath setup name)))
  judge : ∀ result, JobFiles.result (jobPath setup name) = .ok result →
    Respects relation (setup.judge.report (jobPath setup name) result)

theorem ConfinedTo.mono {relation wider : Bench JudgeMemory → Bench JudgeMemory → Prop}
    {setup : SessionSetup PlanMemory JudgeMemory} {name : Text}
    (confined : ConfinedTo relation setup name)
    (within : ∀ before after, relation before after → wider before after) :
    ConfinedTo wider setup name :=
  ⟨fun job => (confined.write job).mono within,
    fun result found => (confined.judge result found).mono within⟩

/-- What a session does to its bench respects a relation, the tagging of attempts apart. -/
structure Confined (relation : Bench JudgeMemory → Bench JudgeMemory → Prop)
    (setup : SessionSetup PlanMemory JudgeMemory) : Prop where
  write : ∀ name, JobName setup name → ∀ job, Respects relation
    (Bench.onDirectory (JobFiles.write setup.storage job (jobPath setup name)))
  judge : ∀ name, JobName setup name → ∀ result, JobFiles.result (jobPath setup name) = .ok result →
    Respects relation (setup.judge.report (jobPath setup name) result)
  unjudge : ∀ result, JobFiles.result (jobPath setup (Trail.finalName setup.base)) = .ok result →
    Respects relation (Bench.onDirectory (FileAction.removeIfPresent result))
  mark : ∀ marker ∈ [Trail.notInterestingMarker, Trail.incompleteMarker],
    Respects relation (Bench.onDirectory (FileAction.touch (setup.folder.join marker)))

theorem Confined.to {relation : Bench JudgeMemory → Bench JudgeMemory → Prop}
    {setup : SessionSetup PlanMemory JudgeMemory} (confined : Confined relation setup) {name : Text}
    (isJobName : JobName setup name) : ConfinedTo relation setup name :=
  ⟨confined.write name isJobName, confined.judge name isJobName⟩

/-- What a session does to its bench before and after its attempts respects a relation. -/
structure ConfinedAround (relation : Bench JudgeMemory → Bench JudgeMemory → Prop)
    (setup : SessionSetup PlanMemory JudgeMemory) : Prop where
  input : ConfinedTo relation setup setup.base
  final : ConfinedTo relation setup (Trail.finalName setup.base)
  unjudge : ∀ result, JobFiles.result (jobPath setup (Trail.finalName setup.base)) = .ok result →
    Respects relation (Bench.onDirectory (FileAction.removeIfPresent result))
  mark : ∀ marker ∈ [Trail.notInterestingMarker, Trail.incompleteMarker],
    Respects relation (Bench.onDirectory (FileAction.touch (setup.folder.join marker)))

theorem Confined.around {relation : Bench JudgeMemory → Bench JudgeMemory → Prop}
    {setup : SessionSetup PlanMemory JudgeMemory} (confined : Confined relation setup) :
    ConfinedAround relation setup :=
  ⟨confined.to (.inl rfl), confined.to (.inr (.inl rfl)), confined.unjudge, confined.mark⟩

/-- The tagging of attempts respects a relation. -/
def Tagging (relation : Bench JudgeMemory → Bench JudgeMemory → Prop)
    (setup : SessionSetup PlanMemory JudgeMemory) : Prop :=
  ∀ (made : Nat) (outcome : Outcome), Respects relation
    (Bench.onDirectory (JobFiles.move
      (jobPath setup (Trail.stepName setup.base (made + 1 + setup.offset)))
      (jobPath setup (Trail.judgedName setup.base (made + 1 + setup.offset) outcome)) true))

/-- Any two benches. -/
def AnyBench (_before _after : Bench JudgeMemory) : Prop := True

instance : IsPreorder (Bench JudgeMemory) AnyBench where
  refl _ := trivial
  trans _ _ _ _ _ := trivial

theorem confined_anyBench {setup : SessionSetup PlanMemory JudgeMemory} :
    Confined AnyBench setup where
  write _ _ _ _ := trivial
  judge _ _ _ _ _ := trivial
  unjudge _ _ _ := trivial
  mark _ _ _ := trivial

/-- Two sessions have related benches. -/
def OnBench (relation : Bench JudgeMemory → Bench JudgeMemory → Prop)
    (before after : Session PlanMemory JudgeMemory) : Prop := relation before.bench after.bench

/-- Two sessions have related benches, and the plan has the same memory. -/
structure OffPlan (relation : Bench JudgeMemory → Bench JudgeMemory → Prop)
    (before after : Session PlanMemory JudgeMemory) : Prop where
  bench : relation before.bench after.bench
  plan : before.plan = after.plan

/-! ### Asking the plan -/

section Asking

variable {relation : Session PlanMemory JudgeMemory → Session PlanMemory JudgeMemory → Prop}
  {among : Fault → Prop} {gives : Job → Prop} {setup : SessionSetup PlanMemory JudgeMemory}
  {job : Job}

/-- What is true of the plan when it is asked is true of the session that asks it. -/
theorem runs_propose_of (asked : Runs relation among gives (onPlan (setup.plan.propose job))) :
    Runs relation among (fun proposal => ∀ candidate, proposal = some candidate → gives candidate)
      (propose setup job) := by
  intro session
  have proposed := startingAt_propose setup job session
  split at proposed
  · next candidate after answered =>
    obtain ⟨related, -, given⟩ := (asked session).of_eq answered
    refine runsFrom_of_eq proposed related (errs_ok _) fun proposal same other isSome => ?_
    cases same
    exact Option.some.inj isSome ▸ given candidate rfl
  · next reason after exhausted =>
    obtain ⟨related, -, -⟩ := (asked session).of_eq exhausted
    refine runsFrom_of_eq proposed related (errs_ok _) fun proposal same other isSome => ?_
    cases same
    cases isSome
  · next fault after _ failed =>
    obtain ⟨related, errs, -⟩ := (asked session).of_eq failed
    refine runsFrom_of_eq proposed related errs.error fun proposal same => ?_
    cases same

theorem runs_proposeRetrying_of [IsPreorder (Session PlanMemory JudgeMemory) relation]
    (asked : Runs relation among gives (onPlan (setup.plan.propose job))) (retries : Nat) :
    Runs relation among (fun proposal => ∀ candidate, proposal = some candidate → gives candidate)
      (proposeRetrying setup job retries) := by
  induction retries with
  | zero => exact runs_propose_of asked
  | succ retries inductionHypothesis =>
    intro session
    have first := runs_propose_of asked session
    have proposed := startingAt_proposeRetrying_succ setup job retries session
    split at proposed
    · next reason after inapplicable =>
      obtain ⟨related, -, -⟩ := first.of_eq inapplicable
      have rest := inductionHypothesis after
      exact runsFrom_of_eq proposed (trans_of relation related rest.related) rest.errs rest.gives
    · exact runsFrom_of_eq proposed first.related first.errs first.gives

theorem respects_propose_of (asked : Respects relation (onPlan (setup.plan.propose job))) :
    Respects relation (propose setup job) :=
  fun session => (runs_propose_of (runs_of asked fun _ _ _ _ => trivial) session).related

theorem respects_proposeRetrying_of [IsPreorder (Session PlanMemory JudgeMemory) relation]
    (asked : Respects relation (onPlan (setup.plan.propose job))) (retries : Nat) :
    Respects relation (proposeRetrying setup job retries) :=
  fun session => (runs_proposeRetrying_of (runs_of asked fun _ _ _ _ => trivial) retries
    session).related

end Asking

section Confined

variable {relation : Bench JudgeMemory → Bench JudgeMemory → Prop}

instance [IsPreorder (Bench JudgeMemory) relation] :
    IsPreorder (Session PlanMemory JudgeMemory) (OnBench relation) where
  refl session := refl_of relation session.bench
  trans _ _ _ first second := trans_of relation first second

instance [IsPreorder (Bench JudgeMemory) relation] :
    IsPreorder (Session PlanMemory JudgeMemory) (OffPlan relation) where
  refl session := ⟨refl_of relation session.bench, rfl⟩
  trans _ _ _ first second :=
    ⟨trans_of relation first.bench second.bench, first.plan.trans second.plan⟩

theorem respects_onBench_of_offPlan {Result : Type} {action : Step PlanMemory JudgeMemory Result}
    (respects : Respects (OffPlan relation) action) : Respects (OnBench relation) action :=
  respects.mono fun _ _ related => related.bench

theorem respects_onBench {Result : Type} {action : Action (Bench JudgeMemory) Result}
    (respects : Respects relation action) :
    Respects (OffPlan relation) (onBench action : Step PlanMemory JudgeMemory Result) :=
  respects.onPart fun _ _ related => ⟨related, rfl⟩

variable [IsPreorder (Bench JudgeMemory) relation]

theorem respects_onDirectory_of_reads {Result : Type} {action : FileAction Result}
    (reads : Reads action) :
    Respects (OffPlan relation) (onDirectory action : Step PlanMemory JudgeMemory Result) :=
  respects_onBench (Bench.respects_onDirectory_of_reads reads)

theorem respects_onPlan {Result : Type} (action : Action PlanMemory Result) :
    Respects (OnBench relation) (onPlan action : Step PlanMemory JudgeMemory Result) :=
  fun session => refl_of relation session.bench

theorem respects_onCache {Result : Type} (action : Action VerdictCache Result) :
    Respects (OffPlan relation) (onCache action : Step PlanMemory JudgeMemory Result) :=
  fun session => ⟨refl_of relation session.bench, rfl⟩

theorem respects_count (change : Tally → Tally) :
    Respects (OffPlan relation) (count change : Step PlanMemory JudgeMemory Unit) :=
  fun session => ⟨refl_of relation session.bench, rfl⟩

variable {setup : SessionSetup PlanMemory JudgeMemory}

theorem respects_proposeRetrying (job : Job) (retries : Nat) :
    Respects (OnBench relation) (proposeRetrying setup job retries) :=
  respects_proposeRetrying_of (respects_onPlan _) retries

theorem respects_settle (candidate : Job) (interesting : Bool) :
    Respects (OnBench relation) (settle setup candidate interesting) := by
  have told : Respects (OnBench relation) (onPlan (setup.plan.update interesting)) :=
    respects_onPlan _
  cases interesting with
  | true => exact Respects.bind (fun session => refl_of relation session.bench) fun _ => told
  | false => exact (respects_onBench_of_offPlan (respects_count _)).bind fun _ => told

variable {bindings : Option Members}

section ConfinedTo

variable {name : Text} (confined : ConfinedTo relation setup name)

include confined

theorem respects_writeJob (job : Job) :
    Respects (OffPlan relation) (writeJob setup bindings job (jobPath setup name)) :=
  (respects_ofExcept _).bind fun _ => respects_onBench (confined.write _)

theorem respects_consultJudge :
    Respects (OffPlan relation) (consultJudge setup (jobPath setup name)) := by
  refine (respects_count _).bind fun _ => ?_
  cases found : JobFiles.result (jobPath setup name) with
  | error fault =>
    rw [ofExcept_error_bind]
    exact respects_throw _
  | ok result =>
    rw [ofExcept_ok_bind]
    exact respects_onBench (Judge.respects_isInteresting (confined.judge result found))

theorem respects_judgeJob (job : Job) :
    Respects (OffPlan relation) (judgeJob setup bindings job name) :=
  (respects_writeJob confined job).bind fun _ => respects_consultJudge confined

theorem respects_consultCache :
    Respects (OffPlan relation) (consultCache setup (jobPath setup name)) := by
  refine (respects_onDirectory_of_reads (JobFiles.reads_fingerprint _ _)).bind fun _ => ?_
  refine (respects_onCache _).bind fun known => ?_
  split
  · exact (respects_count _).bind fun _ => respects_pure _
  · exact (respects_consultJudge confined).bind fun _ =>
      (respects_onCache _).bind fun _ => respects_pure _

theorem respects_judgeCandidate (job : Job) :
    Respects (OffPlan relation) (judgeCandidate setup bindings job name) := by
  refine (respects_writeJob confined job).bind fun _ => ?_
  split
  · exact respects_consultCache confined
  · exact respects_consultJudge confined

theorem respects_revertFinal
    (unjudge : ∀ result, JobFiles.result (jobPath setup name) = .ok result →
      Respects relation (Bench.onDirectory (FileAction.removeIfPresent result))) (job : Job) :
    Respects (OffPlan relation) (revertFinal setup bindings job (jobPath setup name)) := by
  refine (respects_writeJob confined job).bind fun _ => ?_
  cases found : JobFiles.result (jobPath setup name) with
  | error fault =>
    rw [ofExcept_error_bind]
    exact respects_throw _
  | ok result =>
    rw [ofExcept_ok_bind]
    exact respects_onBench (unjudge result found)

end ConfinedTo

theorem respects_tryInitial (confined : ConfinedTo relation setup setup.base) (job : Job)
    (tries : Nat) : Respects (OffPlan relation) (tryInitial setup bindings job tries) :=
  holds_tryInitial composes_respects (respects_judgeJob confined job) tries

section Around

variable (around : ConfinedAround relation setup)

include around

/-! ### The check of the input and the final job -/

theorem respects_mayProceed (job : Job) :
    Respects (OffPlan relation) (mayProceed setup bindings job) :=
  holds_mayProceed composes_respects (respects_judgeJob around.input job)
    (respects_onBench (around.mark _ (by decide)))

theorem respects_markIncomplete : Respects (OffPlan relation) (markIncomplete setup) :=
  holds_markIncomplete composes_respects respects_get
    (respects_onBench (around.mark _ (by decide)))

theorem respects_finish (job : Job) :
    Respects (OffPlan relation) (finish setup bindings job) :=
  holds_finish composes_respects (respects_judgeJob around.final _)
    (respects_revertFinal around.final around.unjudge job) (respects_markIncomplete around)

end Around

/-! ### The attempts -/

variable (confined : Confined relation setup) (tagging : Tagging relation setup)

include confined tagging

theorem respects_attemptCandidate (candidate : Job) (made : Nat) :
    Respects (OnBench relation) (attemptCandidate setup bindings candidate made) := by
  refine (respects_onBench_of_offPlan (respects_count _)).bind fun _ => ?_
  refine (respects_onBench_of_offPlan (respects_judgeCandidate
    (confined.to (.inr (.inr ⟨made, rfl⟩))) candidate)).bind fun interesting => ?_
  refine (respects_onBench_of_offPlan (respects_onBench (tagging made _))).bind fun _ => ?_
  exact (respects_settle candidate interesting).bind fun _ => respects_pure _

theorem respects_shrink (budget made : Nat) (job : Job) :
    Respects (OnBench relation) (shrink setup bindings budget made job) := by
  induction budget generalizing made job with
  | zero => exact respects_throw _
  | succ budget inductionHypothesis =>
    refine (respects_ofExcept _).bind fun reached => ?_
    split
    · exact (respects_onBench_of_offPlan (respects_count _)).bind fun _ => respects_pure _
    · refine (respects_proposeRetrying job _).bind fun proposal => ?_
      cases proposal with
      | none => exact respects_pure _
      | some candidate =>
        exact (respects_attemptCandidate confined tagging candidate made).bind fun accepted =>
          inductionHypothesis (made + 1) _

/-! ### The whole session -/

theorem respects_proceed (budget : Nat) (job : Job) :
    Respects (OnBench relation) (proceed setup bindings budget job) := by
  refine Respects.bind (fun session => refl_of relation session.bench) fun _ => ?_
  exact (respects_shrink confined tagging budget 0 job).bind fun last =>
    respects_onBench_of_offPlan (respects_finish confined.around last)

theorem respects_runFree (budget : Nat) (job : Job) :
    Respects (OnBench relation) (runFree setup bindings budget job) := by
  refine (respects_onBench_of_offPlan (respects_mayProceed confined.around job)).bind
    fun interesting => ?_
  split
  · exact (respects_proceed confined tagging budget job).bind fun _ => respects_pure _
  · exact respects_pure _

/-- A session leads from every bench to a related one, also when it fails. -/
theorem respects_run (budget : Nat) (job : Job) :
    Respects (OnBench relation) (run setup budget job) := by
  refine (respects_ofExcept _).bind fun bound => ?_
  split
  · refine (respects_ofExcept _).bind fun bindings => (respects_ofExcept _).bind fun free => ?_
    exact respects_runFree confined tagging budget free
  · exact respects_runFree confined tagging budget job

end Confined

end Session

end ShaderReduction
