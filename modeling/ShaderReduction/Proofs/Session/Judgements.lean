/-
This file defines what a judge was asked during a session.

A recorded judge notes each of its answers: about which job, what the directory was when it was
asked, and the verdict. It does nothing else that the judge would not do, so the judgements of a
session are those that the recorded judge notes in the same session. A judge that writes only the
result that it is given leaves alone everything else in the directory. In particular it keeps the
files of the job that it judges as they were written.
-/

import ShaderReduction.Proofs.JobFiles.Writing
import ShaderReduction.Proofs.Session.Confinement
import ShaderReduction.Proofs.Session.Watching

namespace ShaderReduction

open ShaderReduction.Action Directory

/-- One answer of a judge: the job it was asked about, the directory when it was asked, and the
verdict. -/
structure Judgement where
  path : Path
  directory : Directory
  verdict : Verdict

/-- The memory of a judge with its answers so far. -/
structure Recorded (Memory : Type) where
  memory : Memory
  judgements : List Judgement

/-- The files of a job are the same in two directories. -/
def JobFiles.SameJob (path : Path) (before after : Directory) : Prop :=
  view path after = view path before

instance JobFiles.isPreorder_sameJob (path : Path) : IsPreorder Directory (SameJob path) where
  refl _ := rfl
  trans _ _ _ first second := Eq.trans second first

namespace Judge

variable {Memory : Type}

/-- The judge that notes its answers. -/
def recorded (judge : Judge Memory) : Judge (Recorded Memory) where
  report job result := do
    let asked ← get
    let report ← Action.onPart (Bench.forget Recorded.memory)
      (fun bench whole => ⟨bench.directory, { whole.memory with memory := bench.memory }⟩)
      (judge.report job result)
    Bench.remember fun recorded =>
      { recorded with
        judgements := recorded.judgements ++ [⟨job, asked.directory, report.verdict⟩] }
    pure report

theorem startingAt_recorded_report (judge : Judge Memory) (job result : Path)
    (bench : Bench (Recorded Memory)) :
    (judge.recorded.report job result).startingAt bench =
      match (judge.report job result).startingAt (bench.forget Recorded.memory) with
      | (.ok report, after) =>
        (.ok report, ⟨after.directory, after.memory,
          bench.memory.judgements ++ [⟨job, bench.directory, report.verdict⟩]⟩)
      | (.error fault, after) =>
        (.error fault, ⟨after.directory, after.memory, bench.memory.judgements⟩) := by
  simp only [recorded, Bench.remember, startingAt_bind, startingAt_get, startingAt_onPart,
    startingAt_modify, startingAt_pure]
  rcases (judge.report job result).startingAt (bench.forget Recorded.memory) with
    ⟨fault | report, after⟩ <;> rfl

theorem watches_recorded (judge : Judge Memory) :
    Judge.Watches Recorded.memory judge.recorded judge := by
  refine ⟨fun job result bench => ?_⟩
  rw [startingAt_recorded_report]
  rcases (judge.report job result).startingAt (bench.forget Recorded.memory) with
    ⟨fault | report, after⟩ <;> rfl

/-- An answer of a recorded judge is noted with the directory about which it was given. -/
theorem recorded_isInteresting_eq_ok {judge : Judge Memory} {job result : Path}
    {bench after : Bench (Recorded Memory)} {interesting : Bool}
    (answered : (judge.recorded.isInteresting job result).startingAt bench =
      (.ok interesting, after)) :
    after.memory.judgements = bench.memory.judgements ++
      [⟨job, bench.directory, if interesting then .interesting else .notInteresting⟩] := by
  obtain ⟨report, between, reported, rest⟩ := bind_eq_ok_iff.1 answered
  rw [startingAt_recorded_report] at reported
  obtain ⟨verdict, rfl⟩ : report.verdict =
      (if interesting then .interesting else .notInteresting) ∧ between = after := by
    cases verdict : report.verdict <;> rw [verdict] at rest
    · cases rest
      exact ⟨rfl, rfl⟩
    · cases rest
      exact ⟨rfl, rfl⟩
    · cases rest
  cases run : (judge.report job result).startingAt (bench.forget Recorded.memory) with
  | mk outcome left =>
    rw [run] at reported
    cases outcome with
    | error fault => cases reported
    | ok found =>
      cases reported
      rw [verdict]

/-! ### Judges that write only their result -/

/-- A judge changes no file but the result that it is given. -/
def WritesOnlyResult (judge : Judge Memory) : Prop :=
  ∀ job result bench, ChangesAt (· = result) bench.directory
    ((judge.report job result).startingAt bench).2.directory

theorem WritesOnlyResult.recorded {judge : Judge Memory} (tidy : judge.WritesOnlyResult) :
    judge.recorded.WritesOnlyResult := by
  intro job result bench
  have change := tidy job result (bench.forget Recorded.memory)
  rw [judge.watches_recorded.report job result bench] at change
  exact change

theorem WritesOnlyResult.respects {judge : Judge Memory} (tidy : judge.WritesOnlyResult)
    (job result : Path) :
    Respects (Bench.OnDirectory (ChangesAt (· = result))) (judge.report job result) :=
  fun bench => tidy job result bench

theorem WritesOnlyResult.respects_isInteresting {judge : Judge Memory}
    (tidy : judge.WritesOnlyResult) (job result : Path) :
    Respects (Bench.OnDirectory (ChangesAt (· = result))) (judge.isInteresting job result) :=
  Judge.respects_isInteresting (tidy.respects job result)

/-! ### Judges that keep the job that they judge -/

/-- Judging a job leaves the files of that job as they are. -/
def KeepsJobs (judge : Judge Memory) : Prop :=
  ∀ job, JobFiles.IsJobPath job → Respects (Bench.OnDirectory (JobFiles.SameJob job))
    (judge.report job (JobFiles.beside job JobFiles.resultEnding))

/-- A job that is found interesting has the same files afterwards. -/
def KeepsAccepted (judge : Judge Memory) (job : Path) : Prop :=
  ∀ bench after,
    (judge.isInteresting job (JobFiles.beside job JobFiles.resultEnding)).startingAt bench =
        (.ok true, after) →
      JobFiles.SameJob job bench.directory after.directory

theorem KeepsJobs.keepsAccepted {judge : Judge Memory} (keeps : judge.KeepsJobs) {job : Path}
    (isJobPath : JobFiles.IsJobPath job) : judge.KeepsAccepted job :=
  fun _ _ answered => (Judge.respects_isInteresting (keeps job isJobPath)).of_eq answered

/-- The result is none of the files of the job. -/
theorem WritesOnlyResult.keepsJobs {judge : Judge Memory} (tidy : judge.WritesOnlyResult) :
    judge.KeepsJobs := fun job isJobPath bench =>
  JobFiles.view_of_changesAt isJobPath (tidy job _ bench)
    fun _ same => same ▸ JobFiles.apart_result isJobPath

end Judge

/-! ### What is on disk while a job is judged -/

namespace Session

variable {PlanMemory JudgeMemory : Type} {setup : SessionSetup PlanMemory JudgeMemory}
  {bindings : Option Members} {job : Job} {path : Path}
  {session after : Session PlanMemory JudgeMemory}

theorem writeJob_eq_ok (isJobPath : JobFiles.IsJobPath path)
    (written : (writeJob setup bindings job path).startingAt session = (.ok (), after)) :
    ∃ form, writtenForm bindings job = .ok form ∧
      JobFiles.view path after.bench.directory = .ok (JobFiles.stored setup.storage form) := by
  obtain ⟨form, between, formed, rest⟩ := bind_eq_ok_iff.1 written
  obtain ⟨directory, run, rfl⟩ := onDirectory_eq_iff.1 rest
  exact ⟨form, congrArg Prod.fst formed, JobFiles.view_of_write isJobPath run⟩

/-- What the judge changes is not among the files of the job that it judges. -/
theorem view_of_consultJudge (keeps : setup.judge.KeepsJobs)
    (isJobPath : JobFiles.IsJobPath path) {outcome : Except Fault Bool}
    (consulted : (consultJudge setup path).startingAt session = (outcome, after)) :
    JobFiles.view path after.bench.directory = JobFiles.view path session.bench.directory := by
  have change : Respects (OffPlan (Bench.OnDirectory (JobFiles.SameJob path)))
      (consultJudge setup path) := by
    refine (respects_count _).bind fun _ => ?_
    rw [JobFiles.result_eq_ok isJobPath.plain, ofExcept_ok_bind]
    exact respects_onBench (Judge.respects_isInteresting (keeps path isJobPath))
  exact (change.of_eq consulted).bench

/-- What the judge changes before it accepts a job is not among the files of that job. -/
theorem view_of_consultJudge_true (keeps : setup.judge.KeepsAccepted path)
    (isJobPath : JobFiles.IsJobPath path)
    (consulted : (consultJudge setup path).startingAt session = (.ok true, after)) :
    JobFiles.view path after.bench.directory = JobFiles.view path session.bench.directory := by
  obtain ⟨_, counted, count, rest⟩ := bind_eq_ok_iff.1 consulted
  cases count
  rw [JobFiles.result_eq_ok isJobPath.plain, ofExcept_ok_bind] at rest
  obtain ⟨bench, answered, rfl⟩ := onBench_eq_iff.1 rest
  exact keeps _ _ answered

/-- A verdict that is found is that on files known to fail, or one of the judge. -/
theorem consultCache_eq_ok {interesting : Bool}
    (consulted : (consultCache setup path).startingAt session = (.ok interesting, after)) :
    (interesting = false ∧ session.cache.failing ≠ [] ∧ after.bench = session.bench) ∨
      ∃ asked between, asked.bench = session.bench ∧
        (consultJudge setup path).startingAt asked = (.ok interesting, between) ∧
          after.bench = between.bench := by
  obtain ⟨fingerprint, first, read, rest⟩ := bind_eq_ok_iff.1 consulted
  obtain ⟨known, second, found, rest⟩ := bind_eq_ok_iff.1 rest
  obtain ⟨directory, run, rfl⟩ := onDirectory_eq_iff.1 read
  obtain rfl : session.bench.directory = directory :=
    (JobFiles.reads_fingerprint _ _).of_eq run
  obtain ⟨cache, looked, rfl⟩ := onPart_eq_iff.1 found
  cases known with
  | true =>
    obtain ⟨_, third, counted, answer⟩ := bind_eq_ok_iff.1 rest
    cases counted
    cases answer
    refine .inl ⟨rfl, fun nothing => ?_, rfl⟩
    have failing : session.cache.failing = [] := nothing
    simp only [VerdictCache.lookup, startingAt_bind, startingAt_get, failing, List.not_mem_nil,
      if_false] at looked
    split at looked <;> cases looked
  | false =>
    obtain ⟨verdict, third, asked, rest⟩ := bind_eq_ok_iff.1 rest
    obtain ⟨_, fourth, remembered, answer⟩ := bind_eq_ok_iff.1 rest
    obtain ⟨cache, -, rfl⟩ := onPart_eq_iff.1 remembered
    cases answer
    refine .inr ⟨_, third, ?_, asked, ?_⟩ <;> rfl

theorem view_of_consultCache (keeps : setup.judge.KeepsJobs)
    (isJobPath : JobFiles.IsJobPath path) {interesting : Bool}
    (consulted : (consultCache setup path).startingAt session = (.ok interesting, after)) :
    JobFiles.view path after.bench.directory = JobFiles.view path session.bench.directory := by
  rcases consultCache_eq_ok consulted with ⟨-, -, same⟩ | ⟨first, between, same, asked, last⟩
  · rw [same]
  · rw [last, view_of_consultJudge keeps isJobPath asked, same]

/-- A candidate that was judged is on disk as it was written. -/
theorem judgeCandidate_eq_ok (keeps : setup.judge.KeepsJobs) {name : Text}
    {interesting : Bool}
    (judged : (judgeCandidate setup bindings job name).startingAt session =
      (.ok interesting, after)) :
    ∃ form, writtenForm bindings job = .ok form ∧
      JobFiles.view (jobPath setup name) after.bench.directory =
        .ok (JobFiles.stored setup.storage form) := by
  have isJobPath : JobFiles.IsJobPath (jobPath setup name) := JobFiles.isJobPath_join _ _
  obtain ⟨_, between, written, rest⟩ := bind_eq_ok_iff.1 judged
  obtain ⟨form, formed, view⟩ := writeJob_eq_ok isJobPath written
  refine ⟨form, formed, Eq.trans ?_ view⟩
  by_cases remembers : setup.remembers = true
  · rw [if_pos remembers] at rest
    exact view_of_consultCache keeps isJobPath rest
  · rw [if_neg remembers] at rest
    exact view_of_consultJudge keeps isJobPath rest

end Session

end ShaderReduction
