/-
This file proves that every step of a session keeps the bindings of uniforms out of its jobs, writes
them with each job, and does not fail for them.

The input is freed once, and from then on every job that is asked about, proposed or kept has the
same free uniforms. Each job is bound as it is written, and since the free uniforms and the bindings
are always the same, so are the uniforms that are written. What the session does to its bench is
told step by step, `Works`: jobs are written with these uniforms, and the judge is asked only about
a path at which they stand. An action `Advances` if it leads by such steps, lets in no job with
other uniforms and leaves faults of uniforms to the judge; the attempts and the whole session do so
because their parts do.
-/

import Mathlib.Logic.Relation
import ShaderReduction.Proofs.Bindings
import ShaderReduction.Proofs.LineChunk.Candidates
import ShaderReduction.Proofs.Session.Faults
import ShaderReduction.Proofs.Session.Messages

namespace ShaderReduction

open ShaderReduction.Action

/-! ### Uniforms in files -/

namespace JobFiles

/-- The file at the path of a job holds some uniforms. -/
def HoldsUniforms (uniforms : Uniforms) (path : Path) (directory : Directory) : Prop :=
  ∃ content, Utf8.encode? (uniforms.document.indented ++ [.scalar '\n']) = some content ∧
    directory.nodeAt path = some (.file content)

section HoldsUniforms

variable {storage : Storage} {job : Job} {path : Path} {before after : Directory}
  (isJobPath : IsJobPath path)

include isJobPath

theorem holdsUniforms_of_write
    (written : (write storage job path).startingAt before = (.ok (), after)) :
    HoldsUniforms job.uniforms path after := by
  have stored := (view_eq_ok isJobPath).symm.trans (view_of_write isJobPath written)
  have first := (List.cons.inj (Except.ok.inj stored)).1
  obtain ⟨_, _, _, uniformsWritten, -⟩ := write_eq_ok isJobPath written
  obtain ⟨content, encoded, -⟩ := FileAction.writeText_eq_ok uniformsWritten
  exact ⟨content, encoded, first.trans (textFile_eq encoded)⟩

theorem HoldsUniforms.of_view {uniforms : Uniforms} (stands : HoldsUniforms uniforms path before)
    (same : view path after = view path before) : HoldsUniforms uniforms path after := by
  obtain ⟨content, encoded, isFile⟩ := stands
  rw [view_eq_ok isJobPath, view_eq_ok isJobPath] at same
  exact ⟨content, encoded, (List.cons.inj (Except.ok.inj same)).1.trans isFile⟩

end HoldsUniforms

end JobFiles

/-! ### Plans that leave uniforms alone -/

/-- What holds of a memory before holds of it after. -/
def Keeping {Memory : Type} (holds : Memory → Prop) (before after : Memory) : Prop :=
  holds before → holds after

instance {Memory : Type} {holds : Memory → Prop} : IsPreorder Memory (Keeping holds) where
  refl _ := id
  trans _ _ _ first second := second ∘ first

/-- Asked about a job with some uniforms, a plan answers with such a job. What holds of its memory
is kept, and no fault of the plan comes from uniforms. -/
structure Plan.Spares {Memory : Type} (plan : Plan Memory) (holds : Memory → Prop)
    (uniforms : Uniforms) : Prop where
  propose : ∀ job, job.uniforms = uniforms →
    Runs (Keeping holds) (¬·.OfUniforms) (fun candidate => candidate.uniforms = uniforms)
      (plan.propose job)
  update : ∀ accepted,
    Runs (Keeping holds) (¬·.OfUniforms) (fun _ => True) (plan.update accepted)

theorem LineChunk.spares_plan (uniforms : Uniforms) :
    LineChunk.plan.Spares (fun _ => True) uniforms where
  propose job same memory := by
    refine ⟨id, fun fault failed => ((LineChunk.fails_propose job).errs rfl fault failed).2.2, ?_⟩
    intro candidate proposed
    obtain ⟨start, stop, rfl⟩ := LineChunk.exists_remove_of_propose_eq_ok
      (show (LineChunk.plan.propose job).startingAt memory = (.ok candidate, _) from
        Prod.ext proposed rfl)
    exact same
  update accepted memory :=
    ⟨id, fun fault failed => ((LineChunk.fails_update accepted).errs rfl fault failed).2.2,
      fun _ _ => trivial⟩

/-- All jobs that a plan was asked about have some uniforms. -/
def Logged.AskedWith {Memory : Type} (uniforms : Uniforms) (logged : Logged Memory) : Prop :=
  ∀ job, .asked job ∈ logged.messages → job.uniforms = uniforms

/-- A plan that is only asked about jobs with some uniforms notes no other. -/
theorem Plan.Spares.logged {Memory : Type} {plan : Plan Memory} {uniforms : Uniforms}
    (spares : plan.Spares (fun _ => True) uniforms) :
    plan.logged.Spares (Logged.AskedWith uniforms) uniforms where
  propose job same := by
    refine Runs.bind (runs_of (fun logged asked other member => ?_) (fails_modify _)) fun _ _ => ?_
    · rcases List.mem_append.1 member with before | last
      · exact asked other before
      · obtain rfl := Message.asked.inj (List.mem_singleton.1 last)
        exact same
    · exact fun logged => (spares.propose job same logged.memory).onPart fun _ _ asked => asked
  update accepted := by
    refine Runs.bind (runs_of (fun logged asked other member => ?_) (fails_modify _)) fun _ _ => ?_
    · rcases List.mem_append.1 member with before | last
      · exact asked other before
      · cases List.mem_singleton.1 last
    · exact fun logged => (spares.update accepted logged.memory).onPart fun _ _ asked => asked

/-! ### Faults of uniforms -/

/-- The verdict on a job is taken from the report, and nothing is done after that. -/
theorem Judge.startingAt_isInteresting_snd {Memory : Type} (judge : Judge Memory)
    (job result : Path) (bench : Bench Memory) :
    ((judge.isInteresting job result).startingAt bench).2 =
      ((judge.report job result).startingAt bench).2 := by
  rw [isInteresting, startingAt_bind]
  rcases (judge.report job result).startingAt bench with ⟨fault | report, after⟩
  · rfl
  · dsimp only
    cases report.verdict <;> rfl

/-- A fault that comes from uniforms is one with which the judge failed. -/
def Judge.AnswersFor {Memory : Type} (judge : Judge Memory) (fault : Fault) : Prop :=
  fault.OfUniforms → ∃ job result bench after,
    (judge.report job result).startingAt bench = (.error fault, after)

theorem Judge.answersFor_of_not {Memory : Type} {judge : Judge Memory} {fault : Fault}
    (other : ¬fault.OfUniforms) : judge.AnswersFor fault :=
  fun ofUniforms => absurd ofUniforms other

theorem Judge.fails_isInteresting_answersFor {Memory : Type} (judge : Judge Memory)
    (job result : Path) : Fails judge.AnswersFor (judge.isInteresting job result) :=
  Judge.fails_isInteresting (fun bench _ after run _ => ⟨job, result, bench, after, run⟩)
    fun _ => judge.answersFor_of_not not_false

namespace Session

variable {PlanMemory JudgeMemory : Type}

/-! ### What a session does to its bench -/

/-- One thing that a session does to its bench: it writes a job that has some uniforms, asks the
judge about a path at which they stand, removes the result of the final job, leaves a marker or tags
an attempt. -/
inductive Works (setup : SessionSetup PlanMemory JudgeMemory) (whole : Uniforms) :
    Bench JudgeMemory → Bench JudgeMemory → Prop
  | writes {name : Text} {form : Job} (isJobName : JobName setup name)
      (isWhole : form.uniforms = whole) (bench : Bench JudgeMemory) :
      Works setup whole bench ((Bench.onDirectory
        (JobFiles.write setup.storage form (jobPath setup name))).startingAt bench).2
  | asks {name : Text} {result : Path} {bench : Bench JudgeMemory}
      (isJobName : JobName setup name) (found : JobFiles.result (jobPath setup name) = .ok result)
      (stands : JobFiles.HoldsUniforms whole (jobPath setup name) bench.directory) :
      Works setup whole bench ((setup.judge.report (jobPath setup name) result).startingAt bench).2
  | clears {result : Path}
      (found : JobFiles.result (jobPath setup (Trail.finalName setup.base)) = .ok result)
      (bench : Bench JudgeMemory) :
      Works setup whole bench
        ((Bench.onDirectory (FileAction.removeIfPresent result)).startingAt bench).2
  | marks {marker : Text}
      (isMarker : marker ∈ [Trail.notInterestingMarker, Trail.incompleteMarker])
      (bench : Bench JudgeMemory) :
      Works setup whole bench
        ((Bench.onDirectory (FileAction.touch (setup.folder.join marker))).startingAt bench).2
  | tags (made : Nat) (outcome : Outcome) (bench : Bench JudgeMemory) :
      Works setup whole bench ((Bench.onDirectory (JobFiles.move (stepPath setup made)
        (jobPath setup (Trail.judgedName setup.base (made + 1 + setup.offset) outcome))
          true)).startingAt bench).2

/-- A session leads from one bench to the other by such things alone. -/
def Leads (setup : SessionSetup PlanMemory JudgeMemory) (whole : Uniforms) :
    Bench JudgeMemory → Bench JudgeMemory → Prop := Relation.ReflTransGen (Works setup whole)

instance {setup : SessionSetup PlanMemory JudgeMemory} {whole : Uniforms} :
    IsPreorder (Bench JudgeMemory) (Leads setup whole) where
  refl _ := Relation.ReflTransGen.refl
  trans _ _ _ first second := Relation.ReflTransGen.trans first second

/-- What holds of its memory holds for the plan, and the current job, if there is one, has some
uniforms. -/
structure KeepsFree (holds : PlanMemory → Prop) (free : Uniforms)
    (session : Session PlanMemory JudgeMemory) : Prop where
  plan : holds session.plan
  current : ∀ job, session.current = some job → job.uniforms = free

/-- From one session to the other the bench is led by writing some uniforms alone, and no job with
other uniforms than the free ones comes in. -/
structure Proceeds (setup : SessionSetup PlanMemory JudgeMemory) (holds : PlanMemory → Prop)
    (free whole : Uniforms) (before after : Session PlanMemory JudgeMemory) : Prop where
  bench : Leads setup whole before.bench after.bench
  kept : KeepsFree holds free before → KeepsFree holds free after

section Walk

variable {setup : SessionSetup PlanMemory JudgeMemory} {holds : PlanMemory → Prop}
  {given : Members} {free whole : Uniforms}

instance : IsPreorder (Session PlanMemory JudgeMemory) (Proceeds setup holds free whole) where
  refl session := ⟨refl_of (Leads setup whole) session.bench, id⟩
  trans _ _ _ first second :=
    ⟨trans_of (Leads setup whole) first.bench second.bench, second.kept ∘ first.kept⟩

/-! ### Actions on the parts of a session -/

/-- From every session on an action proceeds, and no fault of it comes from uniforms unless the
judge answers for that. -/
def Advances (setup : SessionSetup PlanMemory JudgeMemory) (holds : PlanMemory → Prop)
    (free whole : Uniforms) {Result : Type} (gives : Result → Prop)
    (action : Step PlanMemory JudgeMemory Result) : Prop :=
  Runs (Proceeds setup holds free whole) setup.judge.AnswersFor gives action

theorem answersFor_of_files {judge : Judge JudgeMemory} (fault : Fault) (ofFiles : fault.OfFiles) :
    judge.AnswersFor fault := judge.answersFor_of_not ofFiles.plain.2.2

theorem runsFrom_onBench {Result : Type} {gives : Result → Prop}
    {action : Action (Bench JudgeMemory) Result} {session : Session PlanMemory JudgeMemory}
    (runs : RunsFrom (Leads setup whole) setup.judge.AnswersFor gives session.bench action) :
    RunsFrom (Proceeds setup holds free whole) setup.judge.AnswersFor gives session
      (onBench action) :=
  runs.onPart fun _ leads => ⟨leads, fun kept => ⟨kept.plan, kept.current⟩⟩

theorem advances_onDirectory {Result : Type} {action : FileAction Result}
    (leads : Respects (Leads setup whole) (Bench.onDirectory action))
    (fails : Fails Fault.OfFiles action) :
    Advances setup holds free whole (fun _ => True) (onDirectory action) := by
  have faults : Fails setup.judge.AnswersFor
      (Bench.onDirectory action : Action (Bench JudgeMemory) Result) :=
    Fails.onPart (fails.mono answersFor_of_files)
  exact fun session => runsFrom_onBench (runs_of leads faults session.bench)

theorem advances_count (change : Tally → Tally) :
    Advances setup holds free whole (fun _ => True) (count change) :=
  runs_of (fun session => ⟨refl_of (Leads setup whole) session.bench,
    fun kept => ⟨kept.plan, kept.current⟩⟩) (fails_modify _)

theorem advances_onCache {Result : Type} {action : Action VerdictCache Result}
    (fails : Fails Fault.IsLoop action) :
    Advances setup holds free whole (fun _ => True) (onCache action) :=
  runs_of (fun session => ⟨refl_of (Leads setup whole) session.bench,
    fun kept => ⟨kept.plan, kept.current⟩⟩)
    (Fails.onPart (fails.mono fun _ isLoop => setup.judge.answersFor_of_not isLoop.not_ofUniforms))

/-- What the plan does with its memory keeps what holds of it. -/
theorem advances_onPlan {Result : Type} {gives : Result → Prop} {action : Action PlanMemory Result}
    (runs : Runs (Keeping holds) (¬·.OfUniforms) gives action) :
    Advances setup holds free whole gives (onPlan action) := by
  intro session
  obtain ⟨related, errs, given⟩ := runs session.plan
  exact ⟨⟨refl_of (Leads setup whole) session.bench,
    fun kept => ⟨related kept.plan, kept.current⟩⟩,
    fun fault failed => setup.judge.answersFor_of_not (errs fault failed), given⟩

/-- A job with the free uniforms becomes the current one. -/
theorem advances_modify_current {change : Session PlanMemory JudgeMemory →
      Session PlanMemory JudgeMemory} {job : Job} (isFree : job.uniforms = free)
    (sameBench : ∀ session, (change session).bench = session.bench)
    (samePlan : ∀ session, (change session).plan = session.plan)
    (isCurrent : ∀ session, (change session).current = some job) :
    Advances setup holds free whole (fun _ => True) (modify change) := by
  refine runs_of (fun session => ?_) (fails_modify _)
  show Proceeds setup holds free whole session (change session)
  refine ⟨?_, fun kept => ⟨?_, fun current same => ?_⟩⟩
  · rw [sameBench]
    exact refl_of (Leads setup whole) session.bench
  · rw [samePlan]
    exact kept.plan
  · rw [isCurrent] at same
    exact Option.some.inj same ▸ isFree

/-! ### Writing jobs -/

section Writing

variable {job : Job} {name : Text}

/-- A free job is written with the uniforms to which the bindings lead. -/
theorem exists_form (toggles : Uniforms.Toggles given free whole) (isFree : job.uniforms = free) :
    ∃ form, writtenForm (some given) job = .ok form ∧ form.uniforms = whole := by
  obtain ⟨written, isTaken⟩ := toggles.isTaken
  refine ⟨{ job with uniforms := whole }.mapTexts (Declaration.bindPlain written), ?_, rfl⟩
  show (job.uniforms.withBindings (.ofMembers given) >>= job.boundBy) = _
  rw [isFree, toggles.isWhole]
  show (whole.bindings >>= fun bindings =>
    pure ({ job with uniforms := whole }.mapTexts (Declaration.bindPlain bindings))) = _
  rw [isTaken]
  rfl

theorem holdsUniforms_of_writeJob (toggles : Uniforms.Toggles given free whole)
    (isFree : job.uniforms = free) {session after : Session PlanMemory JudgeMemory}
    (written : (writeJob setup (some given) job (jobPath setup name)).startingAt session =
      (.ok (), after)) :
    JobFiles.HoldsUniforms whole (jobPath setup name) after.bench.directory := by
  obtain ⟨form, formed, isWhole⟩ := exists_form toggles isFree
  rw [writeJob, formed, ofExcept_ok_bind] at written
  obtain ⟨directory, run, rfl⟩ := onDirectory_eq_iff.1 written
  exact isWhole ▸ JobFiles.holdsUniforms_of_write (JobFiles.isJobPath_join _ _) run

theorem advances_writeJob (toggles : Uniforms.Toggles given free whole)
    (isFree : job.uniforms = free) (isJobName : JobName setup name) :
    Advances setup holds free whole (fun _ => True)
      (writeJob setup (some given) job (jobPath setup name)) := by
  obtain ⟨form, formed, isWhole⟩ := exists_form toggles isFree
  rw [writeJob, formed, ofExcept_ok_bind]
  exact advances_onDirectory
    (fun bench => Relation.ReflTransGen.single (.writes isJobName isWhole bench))
    (JobFiles.fails_write setup.storage form _)

end Writing

/-! ### Asking the judge -/

section Asking

variable {name : Text} {bench : Bench JudgeMemory} (isJobName : JobName setup name)
  (stands : JobFiles.HoldsUniforms whole (jobPath setup name) bench.directory)

include isJobName stands

theorem runsFrom_isInteresting {result : Path}
    (found : JobFiles.result (jobPath setup name) = .ok result) :
    RunsFrom (Leads setup whole) setup.judge.AnswersFor (fun _ => True) bench
      (setup.judge.isInteresting (jobPath setup name) result) := by
  have asks : Leads setup whole bench
      ((setup.judge.report (jobPath setup name) result).startingAt bench).2 :=
    Relation.ReflTransGen.single (.asks isJobName found stands)
  refine ⟨?_, (setup.judge.fails_isInteresting_answersFor _ result).errs rfl, fun _ _ => trivial⟩
  rw [Judge.startingAt_isInteresting_snd]
  exact asks

theorem runsFrom_consultJudge {session : Session PlanMemory JudgeMemory}
    (isBench : session.bench = bench) :
    RunsFrom (Proceeds setup holds free whole) setup.judge.AnswersFor (fun _ => True) session
      (consultJudge setup (jobPath setup name)) := by
  refine (advances_count _ session).bind fun _ counted count _ => ?_
  have sameBench : session.bench = counted.bench := ((respects_count _).of_eq count).bench
  cases found : JobFiles.result (jobPath setup name) with
  | error fault =>
    rw [ofExcept_error_bind]
    exact runs_throw (answersFor_of_files fault (JobFiles.errs_result _ fault found)) counted
  | ok result =>
    rw [ofExcept_ok_bind]
    refine runsFrom_onBench ?_
    rw [← sameBench, isBench]
    exact runsFrom_isInteresting isJobName stands found

/-- What is remembered may do instead of the judge, and nothing is written before it is asked. -/
theorem runsFrom_consultCache {session : Session PlanMemory JudgeMemory}
    (isBench : session.bench = bench) :
    RunsFrom (Proceeds setup holds free whole) setup.judge.AnswersFor (fun _ => True) session
      (consultCache setup (jobPath setup name)) := by
  have reads := JobFiles.reads_fingerprint setup.storage (jobPath setup name)
  refine (advances_onDirectory (Bench.respects_onDirectory_of_reads reads)
    (JobFiles.fails_fingerprint _ _) session).bind fun fingerprint first taken _ => ?_
  have sameFirst : session.bench = first.bench :=
    ((respects_onDirectory_of_reads reads).of_eq taken).bench
  refine (advances_onCache (VerdictCache.fails_lookup fingerprint) first).bind
    fun known second looked _ => ?_
  have sameSecond : first.bench = second.bench := ((respects_onCache _).of_eq looked).bench
  cases known with
  | true => exact ((advances_count _).bind fun _ _ => runs_pure trivial) second
  | false =>
    have isSecond : second.bench = bench := by rw [← sameSecond, ← sameFirst, isBench]
    exact (runsFrom_consultJudge isJobName stands isSecond).bind fun interesting third _ _ =>
      ((advances_onCache (VerdictCache.fails_record fingerprint interesting)).bind
        fun _ _ => runs_pure trivial) third

theorem runsFrom_consult {session : Session PlanMemory JudgeMemory}
    (isBench : session.bench = bench) :
    RunsFrom (Proceeds setup holds free whole) setup.judge.AnswersFor (fun _ => True) session
      (consult setup (jobPath setup name)) := by
  unfold consult
  split
  · exact runsFrom_consultCache isJobName stands isBench
  · exact runsFrom_consultJudge isJobName stands isBench

end Asking

/-! ### Asking the plan -/

section Plan

variable {job : Job} (spares : setup.plan.Spares holds free)

include spares

/-- Asked about a free job, the plan answers with a free one or with none. -/
theorem advances_nextCandidate (isFree : job.uniforms = free) (made : Nat) :
    Advances setup holds free whole
      (fun proposal => ∀ candidate, proposal = some candidate → candidate.uniforms = free)
      (nextCandidate setup made job) := by
  have reaches : Runs (Proceeds setup holds free whole) setup.judge.AnswersFor (fun _ => True)
      (Action.ofExcept (setup.limit.reached made)) :=
    runs_ofExcept (fun fault failed => setup.limit.errs_reached made fault failed ▸
      setup.judge.answersFor_of_not not_false) fun _ _ => trivial
  refine reaches.bind fun reached _ => ?_
  split
  · refine (advances_count _).bind fun _ _ => runs_pure fun candidate isSome => ?_
    cases isSome
  · exact runs_proposeRetrying_of (advances_onPlan (spares.propose job isFree)) applicationRetries

theorem advances_conclude {candidate : Job} (isFree : candidate.uniforms = free) (made : Nat)
    (interesting : Bool) :
    Advances setup holds free whole (fun _ => True)
      (conclude setup candidate made interesting) := by
  have told : Advances setup holds free whole (fun _ => True)
      (onPlan (setup.plan.update interesting)) := advances_onPlan (spares.update interesting)
  have tags : Advances setup holds free whole (fun _ => True)
      (tagStep setup ((made : Int) + 1 + setup.offset) (Outcome.ofVerdict interesting)) :=
    advances_onDirectory
      (fun bench => Relation.ReflTransGen.single (.tags made (Outcome.ofVerdict interesting) bench))
      (JobFiles.fails_move _ _ true)
  have settles : Advances setup holds free whole (fun _ => True)
      (settle setup candidate interesting) := by
    cases interesting with
    | true =>
      exact Runs.bind (advances_modify_current isFree (fun _ => rfl) (fun _ => rfl) fun _ => rfl)
        fun _ _ => told
    | false => exact (advances_count _).bind fun _ _ => told
  exact tags.bind fun _ _ => settles.bind fun _ _ => runs_pure trivial

end Plan

/-! ### The steps of a session -/

section Steps

variable {job : Job} (toggles : Uniforms.Toggles given free whole)

include toggles

theorem advances_judgeJob (isFree : job.uniforms = free) {name : Text}
    (isJobName : JobName setup name) :
    Advances setup holds free whole (fun _ => True) (judgeJob setup (some given) job name) :=
  fun session => (advances_writeJob toggles isFree isJobName session).bind fun _ _ written _ =>
    runsFrom_consultJudge isJobName (holdsUniforms_of_writeJob toggles isFree written) rfl

omit toggles in
theorem advances_touch {marker : Text}
    (isMarker : marker ∈ [Trail.notInterestingMarker, Trail.incompleteMarker]) :
    Advances setup holds free whole (fun _ => True)
      (onDirectory (FileAction.touch (setup.folder.join marker))) :=
  advances_onDirectory (fun bench => Relation.ReflTransGen.single (.marks isMarker bench))
    (FileAction.fails_touch _)

theorem advances_mayProceed (isFree : job.uniforms = free) :
    Advances setup holds free whole (fun _ => True) (mayProceed setup (some given) job) :=
  holds_mayProceed composes_runs (advances_judgeJob toggles isFree (.inl rfl))
    (advances_touch (by decide))

theorem advances_writeCandidate (isFree : job.uniforms = free) (made : Nat) :
    Advances setup holds free whole (fun _ => True)
      (writeCandidate setup (some given) job made) :=
  (advances_count _).bind fun _ _ =>
    advances_writeJob toggles isFree (.inr (.inr ⟨made, rfl⟩))

/-- The uniforms stand where a candidate was written. -/
theorem holdsUniforms_of_writeCandidate (isFree : job.uniforms = free) {made : Nat}
    {session standing : Session PlanMemory JudgeMemory}
    (written : (writeCandidate setup (some given) job made).startingAt session =
      (.ok (), standing)) :
    JobFiles.HoldsUniforms whole (stepPath setup made) standing.bench.directory := by
  obtain ⟨_, counted, -, wrote⟩ := bind_eq_ok_iff.1 written
  exact holdsUniforms_of_writeJob toggles isFree wrote

theorem advances_attemptCandidate (spares : setup.plan.Spares holds free)
    (isFree : job.uniforms = free) (made : Nat) :
    Advances setup holds free whole (fun _ => True)
      (attemptCandidate setup (some given) job made) := by
  rw [attemptCandidate_eq]
  intro session
  refine (advances_writeCandidate toggles isFree made session).bind fun _ standing written _ => ?_
  have stands := holdsUniforms_of_writeCandidate toggles isFree written
  exact (runsFrom_consult (.inr (.inr ⟨made, rfl⟩)) stands rfl).bind fun interesting judged _ _ =>
    advances_conclude spares isFree made interesting judged

/-- The attempts on a free job end with a free job. -/
theorem advances_shrink (spares : setup.plan.Spares holds free) (budget : Nat) {made : Nat}
    (isFree : job.uniforms = free) :
    Advances setup holds free whole (fun last => last.uniforms = free)
      (shrink setup (some given) budget made job) := by
  induction budget generalizing made job with
  | zero => exact runs_throw (setup.judge.answersFor_of_not not_false)
  | succ budget inductionHypothesis =>
    rw [shrink_succ]
    refine (advances_nextCandidate spares isFree made).bind fun proposal given => ?_
    cases proposal with
    | none => exact runs_pure isFree
    | some candidate =>
      have candidateFree : candidate.uniforms = free := given candidate rfl
      refine (advances_attemptCandidate toggles spares candidateFree made).bind
        fun accepted _ => inductionHypothesis ?_
      cases accepted with
      | true => exact candidateFree
      | false => exact isFree

theorem advances_revertFinal (isFree : job.uniforms = free) :
    Advances setup holds free whole (fun _ => True)
      (revertFinal setup (some given) job (jobPath setup (Trail.finalName setup.base))) := by
  refine (advances_writeJob toggles isFree (.inr (.inl rfl))).bind fun _ _ => ?_
  cases found : JobFiles.result (jobPath setup (Trail.finalName setup.base)) with
  | error fault =>
    rw [ofExcept_error_bind]
    exact runs_throw (answersFor_of_files fault (JobFiles.errs_result _ fault found))
  | ok result =>
    rw [ofExcept_ok_bind]
    exact advances_onDirectory
      (fun bench => Relation.ReflTransGen.single (.clears found bench))
      (FileAction.fails_removeIfPresent result)

theorem advances_finish (isFree : job.uniforms = free) :
    Advances setup holds free whole (fun _ => True) (finish setup (some given) job) := by
  have simplified : job.simplify.uniforms = free := isFree
  have marks : Advances setup holds free whole (fun _ => True) (markIncomplete setup) :=
    holds_markIncomplete composes_runs (runs_of respects_get fails_get)
      (advances_touch (by decide))
  exact holds_finish composes_runs (advances_judgeJob toggles simplified (.inr (.inl rfl)))
    (advances_revertFinal toggles isFree) marks

theorem advances_proceed (spares : setup.plan.Spares holds free) (budget : Nat)
    (isFree : job.uniforms = free) :
    Advances setup holds free whole (fun _ => True) (proceed setup (some given) budget job) :=
  Runs.bind (advances_modify_current isFree (fun _ => rfl) (fun _ => rfl) fun _ => rfl) fun _ _ =>
    (advances_shrink toggles spares budget isFree).bind fun _ isLast =>
      advances_finish toggles isLast

theorem advances_runFree (spares : setup.plan.Spares holds free) (budget : Nat)
    (isFree : job.uniforms = free) :
    Advances setup holds free whole (fun _ => True) (runFree setup (some given) budget job) := by
  refine (advances_mayProceed toggles isFree).bind fun interesting _ => ?_
  split
  · exact (advances_proceed toggles spares budget isFree).bind fun _ _ => runs_pure trivial
  · exact runs_pure trivial

end Steps

end Walk

end Session

end ShaderReduction
