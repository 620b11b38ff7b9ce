/-
This file proves that the final job of a session was judged interesting.

The job that a session goes on from is always one of which the judge was asked: the input, since it
is judged first, or the candidate accepted last. What was on disk then is what that job is stored
as, and the files of a job that is written depend on nothing else. So the final job, which is the
simplified job if that is judged interesting and the last job written once more otherwise, has the
files that a job had when the judge found it interesting.
-/

import ShaderReduction.Proofs.Session.Judgements
import ShaderReduction.Proofs.Session.Parts

namespace ShaderReduction

open ShaderReduction.Action Directory

/-- The setup whose judge notes its answers. -/
def SessionSetup.recorded {PlanMemory JudgeMemory : Type}
    (setup : SessionSetup PlanMemory JudgeMemory) :
    SessionSetup PlanMemory (Recorded JudgeMemory) :=
  setup.with setup.plan setup.judge.recorded

namespace Session

variable {PlanMemory JudgeMemory : Type} (setup : SessionSetup PlanMemory JudgeMemory)

/-- The judgements of the session on a job that starts in a directory. -/
def judgements (budget : Nat) (job : Job) (directory : Directory) (planMemory : PlanMemory)
    (judgeMemory : JudgeMemory) : List Judgement :=
  ((run setup.recorded budget job).startingAt
    (start directory planMemory ⟨judgeMemory, []⟩)).2.bench.memory.judgements

/-- A job was found interesting: in the form in which it is written, it stood on disk when the judge
was asked. -/
def Witnessed (bindings : Option Members) (job : Job) (judgements : List Judgement) : Prop :=
  ∃ written, writtenForm bindings job = .ok written ∧
    ∃ judgement ∈ judgements, judgement.verdict = .interesting ∧
      JobFiles.view judgement.path judgement.directory =
        .ok (JobFiles.stored setup.storage written)

variable {setup}

theorem Witnessed.mono {bindings : Option Members} {job : Job} {judgements more : List Judgement}
    (witnessed : Witnessed setup bindings job judgements) (grown : judgements ⊆ more) :
    Witnessed setup bindings job more := by
  obtain ⟨written, form, judgement, member, rest⟩ := witnessed
  exact ⟨written, form, judgement, grown member, rest⟩

/-! ### What is noted stays noted -/

/-- Later benches have all judgements of earlier ones. -/
def Grown (before after : Bench (Recorded JudgeMemory)) : Prop :=
  before.memory.judgements ⊆ after.memory.judgements

instance : IsPreorder (Bench (Recorded JudgeMemory)) Grown where
  refl _ := List.Subset.refl _
  trans _ _ _ first second := List.Subset.trans first second

theorem confined_grown : Confined Grown setup.recorded where
  write _ _ _ _ := List.Subset.refl _
  judge name _ result _ bench := by
    show bench.memory.judgements ⊆
      ((setup.judge.recorded.report _ result).startingAt bench).2.memory.judgements
    rw [Judge.startingAt_recorded_report]
    rcases (setup.judge.report _ result).startingAt (bench.forget Recorded.memory) with
      ⟨fault | report, after⟩
    · exact List.Subset.refl _
    · exact List.subset_append_left _ _
  unjudge _ _ _ := List.Subset.refl _
  mark _ _ _ := List.Subset.refl _

theorem tagging_grown : Tagging Grown setup.recorded :=
  fun _ _ _ => List.Subset.refl _

/-! ### Writing and judging -/

section Steps

variable {bindings : Option Members} {job : Job}

theorem mem_judgements_of_consultJudge {path : Path}
    {session after : Session PlanMemory (Recorded JudgeMemory)}
    (consulted : (consultJudge setup.recorded path).startingAt session = (.ok true, after)) :
    ⟨path, session.bench.directory, .interesting⟩ ∈ after.bench.memory.judgements := by
  obtain ⟨_, counted, count, rest⟩ := bind_eq_ok_iff.1 consulted
  obtain ⟨result, between, found, answered⟩ := bind_eq_ok_iff.1 rest
  obtain rfl : counted = between := congrArg Prod.snd found
  cases count
  obtain ⟨bench, run, rfl⟩ := onBench_eq_iff.1 answered
  have noted := Judge.recorded_isInteresting_eq_ok run
  exact noted ▸ List.mem_append_right _ (List.mem_singleton_self _)

theorem witnessed_of_judgeJob {name : Text}
    {session after : Session PlanMemory (Recorded JudgeMemory)}
    (judged : (judgeJob setup.recorded bindings job name).startingAt session = (.ok true, after)) :
    Witnessed setup bindings job after.bench.memory.judgements := by
  have isJobPath : JobFiles.IsJobPath (jobPath setup name) := JobFiles.isJobPath_join _ _
  obtain ⟨_, between, written, consulted⟩ := bind_eq_ok_iff.1 judged
  obtain ⟨form, formed, view⟩ := writeJob_eq_ok isJobPath written
  exact ⟨form, formed, _, mem_judgements_of_consultJudge consulted, rfl, view⟩

/-- A candidate that is not known to fail is judged as it was written. -/
theorem mem_judgements_of_consultCache {path : Path}
    {session after : Session PlanMemory (Recorded JudgeMemory)}
    (consulted : (consultCache setup.recorded path).startingAt session = (.ok true, after)) :
    ⟨path, session.bench.directory, .interesting⟩ ∈ after.bench.memory.judgements := by
  rcases consultCache_eq_ok consulted with ⟨refused, -, -⟩ | ⟨asked, between, same, judged, last⟩
  · cases refused
  · rw [last, ← same]
    exact mem_judgements_of_consultJudge judged

theorem witnessed_of_judgeCandidate {name : Text}
    {session after : Session PlanMemory (Recorded JudgeMemory)}
    (judged : (judgeCandidate setup.recorded bindings job name).startingAt session =
      (.ok true, after)) :
    Witnessed setup bindings job after.bench.memory.judgements := by
  have isJobPath : JobFiles.IsJobPath (jobPath setup name) := JobFiles.isJobPath_join _ _
  obtain ⟨_, between, written, asked⟩ := bind_eq_ok_iff.1 judged
  obtain ⟨form, formed, view⟩ := writeJob_eq_ok isJobPath written
  refine ⟨form, formed, ⟨jobPath setup name, between.bench.directory, .interesting⟩, ?_, rfl, view⟩
  split at asked
  · exact mem_judgements_of_consultCache asked
  · exact mem_judgements_of_consultJudge asked

/-! ### The job that the session goes on from -/

theorem witnessed_of_tryInitial {tries : Nat}
    {session after : Session PlanMemory (Recorded JudgeMemory)}
    (judged : (tryInitial setup.recorded bindings job tries).startingAt session =
      (.ok true, after)) :
    Witnessed setup bindings job after.bench.memory.judgements := by
  induction tries generalizing session with
  | zero => cases judged
  | succ tries inductionHypothesis =>
    obtain ⟨interesting, between, first, rest⟩ := bind_eq_ok_iff.1 judged
    cases interesting with
    | true =>
      cases rest
      exact witnessed_of_judgeJob first
    | false => exact inductionHypothesis rest

/-- The input of a session from the start was found interesting if the session goes on. -/
theorem witnessed_of_mayProceed (fromStart : setup.offset ≤ 0)
    {session after : Session PlanMemory (Recorded JudgeMemory)}
    (checked : (mayProceed setup.recorded bindings job).startingAt session = (.ok true, after)) :
    Witnessed setup bindings job after.bench.memory.judgements := by
  rcases mayProceed_eq_true checked with ⟨continued, -⟩ | ⟨-, tried⟩
  · exact absurd continued (Int.not_lt.2 fromStart)
  · exact witnessed_of_tryInitial tried

/-- An attempt leaves a job to go on from of which the judge was asked. -/
theorem witnessed_of_attemptCandidate {candidate : Job} {made : Nat} {accepted : Bool}
    {session after : Session PlanMemory (Recorded JudgeMemory)}
    (attempted : (attemptCandidate setup.recorded bindings candidate made).startingAt session =
      (.ok accepted, after))
    (witnessed : Witnessed setup bindings job session.bench.memory.judgements) :
    Witnessed setup bindings (if accepted then candidate else job)
      after.bench.memory.judgements := by
  have grown : Grown session.bench after.bench :=
    (respects_attemptCandidate confined_grown tagging_grown candidate made).of_eq attempted
  obtain ⟨_, first, counted, rest⟩ := bind_eq_ok_iff.1 attempted
  obtain ⟨interesting, second, judged, rest⟩ := bind_eq_ok_iff.1 rest
  obtain ⟨_, third, tagged, rest⟩ := bind_eq_ok_iff.1 rest
  obtain ⟨_, fourth, settled, answer⟩ := bind_eq_ok_iff.1 rest
  cases answer
  cases accepted with
  | false => exact witnessed.mono grown
  | true =>
    have tag : OnBench Grown second third :=
      ((respects_onBench (tagging_grown made _)).of_eq tagged).bench
    have settle : OnBench Grown third after := (respects_settle _ _).of_eq settled
    exact (witnessed_of_judgeCandidate judged).mono (trans_of (OnBench Grown) tag settle)

theorem witnessed_of_shrink {budget made : Nat} {last : Job}
    {session after : Session PlanMemory (Recorded JudgeMemory)}
    (shrunk : (shrink setup.recorded bindings budget made job).startingAt session =
      (.ok last, after))
    (witnessed : Witnessed setup bindings job session.bench.memory.judgements) :
    Witnessed setup bindings last after.bench.memory.judgements := by
  induction budget generalizing made job session with
  | zero => cases shrunk
  | succ budget inductionHypothesis =>
    obtain ⟨reached, first, checked, rest⟩ := bind_eq_ok_iff.1 shrunk
    obtain rfl : session = first := congrArg Prod.snd checked
    split at rest
    · obtain ⟨_, second, counted, answer⟩ := bind_eq_ok_iff.1 rest
      cases counted
      cases answer
      exact witnessed
    · obtain ⟨proposal, second, proposed, rest⟩ := bind_eq_ok_iff.1 rest
      have same : OnBench Grown session second := (respects_proposeRetrying job _).of_eq proposed
      cases proposal with
      | none =>
        cases rest
        exact witnessed.mono same
      | some candidate =>
        obtain ⟨accepted, third, attempted, rest⟩ := bind_eq_ok_iff.1 rest
        exact inductionHypothesis rest
          (witnessed_of_attemptCandidate attempted (witnessed.mono same))

/-! ### The final job -/

theorem view_of_markIncomplete {path : Path} (isJobPath : JobFiles.IsJobPath path)
    {session after : Session PlanMemory JudgeMemory} {outcome : Except Fault Unit}
    (marked : (markIncomplete setup).startingAt session = (outcome, after)) :
    JobFiles.view path after.bench.directory = JobFiles.view path session.bench.directory := by
  have apart := JobFiles.apart_marker isJobPath setup.folder
    (show Trail.incompleteMarker ∈ [Trail.notInterestingMarker, Trail.incompleteMarker] by decide)
  have change : Respects (OffPlan (Bench.OnDirectory
      (ChangesAt (· = setup.folder.join Trail.incompleteMarker)))) (markIncomplete setup) := by
    refine respects_get.bind fun session => ?_
    split
    · exact respects_onBench (Bench.respects_onDirectory (FileAction.changesAt_touch _))
    · exact respects_pure _
  exact JobFiles.view_of_changesAt isJobPath (change.of_eq marked).bench
    fun place same => same ▸ apart

/-- Once a final job is reverted, its files are those that were written. -/
theorem exists_written_of_revertFinal {path : Path} (isJobPath : JobFiles.IsJobPath path)
    {session after : Session PlanMemory JudgeMemory}
    (reverted : (revertFinal setup bindings job path).startingAt session = (.ok (), after)) :
    ∃ between, (writeJob setup bindings job path).startingAt session = (.ok (), between) ∧
      JobFiles.view path after.bench.directory = JobFiles.view path between.bench.directory := by
  obtain ⟨_, between, written, removed⟩ := bind_eq_ok_iff.1 reverted
  rw [JobFiles.result_eq_ok isJobPath.plain, ofExcept_ok_bind] at removed
  obtain ⟨directory, run, rfl⟩ := onDirectory_eq_iff.1 removed
  have apart := JobFiles.apart_result isJobPath
  have change := (FileAction.changesAt_removeIfPresent _).of_eq run
  exact ⟨between, written,
    JobFiles.view_of_changesAt isJobPath change fun place same => same ▸ apart⟩

/-- The files of a final job are as they were written last: of the simplified job or of the job. -/
theorem exists_writeJob_of_finish {setup : SessionSetup PlanMemory JudgeMemory}
    (keeps : setup.judge.KeepsAccepted (jobPath setup (Trail.finalName setup.base))) {name : Text}
    {session after : Session PlanMemory JudgeMemory}
    (finished : (finish setup bindings job).startingAt session = (.ok name, after)) :
    ∃ final before written, (final = job.simplify ∨ final = job) ∧
      (writeJob setup bindings final (jobPath setup name)).startingAt before = (.ok (), written) ∧
      JobFiles.view (jobPath setup name) after.bench.directory =
        JobFiles.view (jobPath setup name) written.bench.directory := by
  have isJobPath : JobFiles.IsJobPath (jobPath setup (Trail.finalName setup.base)) :=
    JobFiles.isJobPath_join _ _
  obtain ⟨rfl, interesting, judged, final, asked, ending, marked⟩ := finish_eq_ok finished
  have marking := view_of_markIncomplete isJobPath marked
  rcases ending with ⟨rfl, rfl⟩ | ⟨rfl, reverted⟩
  · obtain ⟨_, written, wrote, consulted⟩ := bind_eq_ok_iff.1 asked
    exact ⟨_, session, written, .inl rfl, wrote,
      marking.trans (view_of_consultJudge_true keeps isJobPath consulted)⟩
  · obtain ⟨written, rewritten, same⟩ := exists_written_of_revertFinal isJobPath reverted
    exact ⟨_, judged, written, .inr rfl, rewritten, marking.trans same⟩

/-- The final job has files with which the judge was satisfied. -/
theorem exists_judgement_of_finish (tidy : setup.judge.WritesOnlyResult) {name : Text}
    {session after : Session PlanMemory (Recorded JudgeMemory)}
    (finished : (finish setup.recorded bindings job).startingAt session = (.ok name, after))
    (witnessed : Witnessed setup bindings job session.bench.memory.judgements) :
    ∃ judgement ∈ after.bench.memory.judgements, judgement.verdict = .interesting ∧
      ∃ files, JobFiles.view judgement.path judgement.directory = .ok files ∧
        JobFiles.view (jobPath setup name) after.bench.directory = .ok files := by
  have isJobPath : JobFiles.IsJobPath (jobPath setup (Trail.finalName setup.base)) :=
    JobFiles.isJobPath_join _ _
  have grown : OnBench Grown session after :=
    ((respects_finish confined_grown.around job).of_eq finished).bench
  obtain ⟨rfl, interesting, judged, final, asked, ending, marked⟩ := finish_eq_ok finished
  have marking := view_of_markIncomplete isJobPath marked
  rcases ending with ⟨rfl, rfl⟩ | ⟨rfl, reverted⟩
  · obtain ⟨_, written, wrote, consulted⟩ := bind_eq_ok_iff.1 asked
    obtain ⟨form, -, view⟩ := writeJob_eq_ok isJobPath wrote
    have more : OnBench Grown judged after :=
      ((respects_markIncomplete confined_grown.around).of_eq marked).bench
    have keeps : setup.recorded.judge.KeepsJobs := tidy.recorded.keepsJobs
    refine ⟨_, more (mem_judgements_of_consultJudge consulted), rfl, _, view, ?_⟩
    calc JobFiles.view (jobPath setup (Trail.finalName setup.base)) after.bench.directory
        = JobFiles.view (jobPath setup (Trail.finalName setup.base)) judged.bench.directory :=
          marking
      _ = JobFiles.view (jobPath setup (Trail.finalName setup.base)) written.bench.directory :=
          view_of_consultJudge keeps isJobPath consulted
      _ = _ := view
  · obtain ⟨between, rewritten, same⟩ := exists_written_of_revertFinal isJobPath reverted
    obtain ⟨form, formed, view⟩ := writeJob_eq_ok isJobPath rewritten
    obtain ⟨written, sameForm, judgement, member, verdict, standing⟩ := witnessed.mono grown
    obtain rfl : form = written := Except.ok.inj (formed.symm.trans sameForm)
    exact ⟨judgement, member, verdict, _, standing, (marking.trans same).trans view⟩

/-! ### The whole session -/

theorem exists_judgement_of_runFree (tidy : setup.judge.WritesOnlyResult)
    (fromStart : setup.offset ≤ 0) {budget : Nat} {name : Text}
    {session after : Session PlanMemory (Recorded JudgeMemory)}
    (ended : (runFree setup.recorded bindings budget job).startingAt session =
      (.ok (some name), after)) :
    ∃ judgement ∈ after.bench.memory.judgements, judgement.verdict = .interesting ∧
      ∃ files, JobFiles.view judgement.path judgement.directory = .ok files ∧
        JobFiles.view (jobPath setup name) after.bench.directory = .ok files := by
  obtain ⟨opened, last, shrunk, checked, made, finished⟩ := runFree_eq_some ended
  have witnessed := witnessed_of_mayProceed fromStart checked
  exact exists_judgement_of_finish tidy finished (witnessed_of_shrink made witnessed)

end Steps

/-- The files of the final job of a session from the start, those that exist and their bytes, are
the files that some job had when the judge was asked about it in this session and found it
interesting. -/
theorem exists_interesting_judgement_of_finalName {budget : Nat} {job : Job}
    {directory : Directory} {planMemory : PlanMemory} {judgeMemory : JudgeMemory} {name : Text}
    {after : Session PlanMemory JudgeMemory} (tidy : setup.judge.WritesOnlyResult)
    (fromStart : setup.offset ≤ 0)
    (ended : (run setup budget job).startingAt (start directory planMemory judgeMemory) =
      (.ok (some name), after)) :
    ∃ judgement ∈ judgements setup budget job directory planMemory judgeMemory,
      judgement.verdict = .interesting ∧
        ∃ files, JobFiles.view judgement.path judgement.directory = .ok files ∧
          JobFiles.view (jobPath setup name) after.bench.directory = .ok files := by
  have projects := projects_run setup.plan.watches_self setup.judge.watches_recorded budget job
  cases recorded : (run setup.recorded budget job).startingAt
    (start directory planMemory ⟨judgeMemory, []⟩) with
  | mk outcome watched =>
    have same := projects.of_eq recorded
    cases same.symm.trans ended
    unfold judgements
    rw [recorded]
    obtain ⟨bound, first, asked, rest⟩ := bind_eq_ok_iff.1 recorded
    obtain rfl := congrArg Prod.snd asked
    cases bound with
    | false => exact exists_judgement_of_runFree tidy fromStart rest
    | true =>
      obtain ⟨bindings, second, taken, rest⟩ := bind_eq_ok_iff.1 rest
      obtain ⟨free, third, freed, rest⟩ := bind_eq_ok_iff.1 rest
      cases congrArg Prod.snd taken
      cases congrArg Prod.snd freed
      exact exists_judgement_of_runFree tidy fromStart rest

/-! ### A session whose final job is not judged again -/

/-- The plan that proposes one job. -/
def proposeOnce (candidate : Job) : Plan Bool where
  propose _ := do
    if ← get then throw (.exhausted [])
    set true
    pure candidate
  update _ := pure ()

/-- The judge that finds as many jobs interesting as it is told, and no more. -/
def acceptFirst (count : Nat) : Judge Nat where
  report _ _ := do
    let asked ← get
    Bench.remember (· + 1)
    let verdict := if asked.memory < count then .interesting else .notInteresting
    pure ⟨verdict, [], none, false, [], .finite false 0 0⟩

theorem writesOnlyResult_acceptFirst (count : Nat) : (acceptFirst count).WritesOnlyResult :=
  fun _ _ _ => ChangesAt.refl _

/-- A job with one fragment shader. -/
def fragmentJob (text : Text) : Job := ⟨[], ⟨.object [], List.nodup_nil⟩, [⟨.fragment, text⟩]⟩

/-- The setup in which the simplified final job is rejected. -/
def revertingSetup : SessionSetup Bool Nat where
  plan := proposeOnce (fragmentJob [])
  judge := acceptFirst 2
  storage := Storage.usual false
  base := "job"
  folder := "work"
  offset := 0
  limit := .unlimited
  remembers := false

/-- The directory with the folder of that setup. -/
def workDirectory : Directory := ⟨[([("work" : Text)], .folder)]⟩

theorem exists_interesting_judgement_of_revertingSetup :
    revertingSetup.judge.WritesOnlyResult ∧ revertingSetup.offset ≤ 0 ∧
      ∃ after,
        (run revertingSetup 2 (fragmentJob "float a;\n")).startingAt (start workDirectory false 0) =
          (.ok (some "job_reduced_final"), after) ∧
        ∃ judgement ∈ judgements revertingSetup 2 (fragmentJob "float a;\n") workDirectory false 0,
          judgement.verdict = .interesting ∧
            ∃ files, JobFiles.view judgement.path judgement.directory = .ok files ∧
              JobFiles.view (jobPath revertingSetup "job_reduced_final") after.bench.directory =
                .ok files := by
  have tidy : revertingSetup.judge.WritesOnlyResult := writesOnlyResult_acceptFirst 2
  have fromStart : revertingSetup.offset ≤ 0 := Int.le_refl 0
  have ended := eq_ok_of_toOption (show
    ((run revertingSetup 2 (fragmentJob "float a;\n")).startingAt
      (start workDirectory false 0)).1.toOption = some (some ("job_reduced_final" : Text)) by
    decide +kernel)
  exact ⟨tidy, fromStart, _, ended, exists_interesting_judgement_of_finalName tidy fromStart ended⟩

end Session

end ShaderReduction
