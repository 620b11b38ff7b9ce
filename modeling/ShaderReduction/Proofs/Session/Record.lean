/-
This file proves what a session that ends with a final job leaves on disk.

It begins in an empty folder, with a judge that writes only its result. Each attempt leaves its job
there under its number and outcome, the input and the final job have names of their own, and the
marker of an early stop is made exactly when the session was stopped. So the records found in the
folder afterwards are those of the attempts, and they agree with the counts.
-/

import ShaderReduction.Proofs.Session.Accounting
import ShaderReduction.Proofs.Session.Detection
import ShaderReduction.Proofs.Trail.Leaving

namespace ShaderReduction

open ShaderReduction.Action Directory Trail

/-- Whatever a judge does, every location stands once in the directory if it did so before. -/
def Judge.KeepsDistinct {Memory : Type} (judge : Judge Memory) : Prop :=
  ∀ job result, Respects (Bench.OnDirectory Directory.KeepsDistinct) (judge.report job result)

namespace Session

variable {PlanMemory JudgeMemory : Type}

/-! ### Locations that stand once -/

section Distinct

variable {setup : SessionSetup PlanMemory JudgeMemory} (orderly : setup.judge.KeepsDistinct)

include orderly in
theorem confined_keepsDistinct :
    Confined (Bench.OnDirectory Directory.KeepsDistinct) setup where
  write _ _ _ := Bench.respects_onDirectory (JobFiles.keepsDistinct_write _ _ _)
  judge _ _ _ _ := orderly _ _
  unjudge _ _ := Bench.respects_onDirectory (FileAction.keepsDistinct_removeIfPresent _)
  mark _ _ := Bench.respects_onDirectory (FileAction.keepsDistinct_touch _)

theorem tagging_keepsDistinct : Tagging (Bench.OnDirectory Directory.KeepsDistinct) setup :=
  fun _ _ => Bench.respects_onDirectory (JobFiles.keepsDistinct_move _ _ true)

end Distinct

/-! ### What the parts of a session leave -/

/-- The paths of the files of the job with a name, and of its result. -/
def FilesOf (setup : SessionSetup PlanMemory JudgeMemory) (name : Text) (path : Path) : Prop :=
  path ∈ JobFiles.beside (jobPath setup name) JobFiles.resultEnding ::
    JobFiles.places (jobPath setup name)

theorem confinedTo_filesOf {setup : SessionSetup PlanMemory JudgeMemory}
    (tidy : setup.judge.WritesOnlyResult) (name : Text) :
    ConfinedTo (Bench.OnDirectory (ChangesAt (FilesOf setup name))) setup name where
  write job := Bench.respects_onDirectory ((JobFiles.changesAt_write
    (JobFiles.isJobPath_join _ _)).mono fun _ _ change =>
      change.mono fun _ => List.mem_cons_of_mem _)
  judge result found := by
    have isJobPath : JobFiles.IsJobPath (jobPath setup name) := JobFiles.isJobPath_join _ _
    rw [JobFiles.result_eq_ok isJobPath.plain] at found
    obtain rfl := Except.ok.inj found
    exact (tidy.respects _ _).mono fun _ _ change =>
      change.mono fun _ same => same ▸ List.mem_cons_self

/-- Removing the result of a job changes files of that job only. -/
theorem changesAt_removeResult {setup : SessionSetup PlanMemory JudgeMemory} {name : Text}
    {result : Path} (found : JobFiles.result (jobPath setup name) = .ok result) :
    Respects (ChangesAt (FilesOf setup name)) (FileAction.removeIfPresent result) := by
  have isJobPath : JobFiles.IsJobPath (jobPath setup name) := JobFiles.isJobPath_join _ _
  rw [JobFiles.result_eq_ok isJobPath.plain] at found
  obtain rfl := Except.ok.inj found
  exact (FileAction.changesAt_removeIfPresent _).mono
    fun _ _ change => change.mono fun _ same => same ▸ List.mem_cons_self

/-- Writing a job over the final job and removing the result changes files of that only. -/
theorem changesAt_revertFinal {setup : SessionSetup PlanMemory JudgeMemory}
    (tidy : setup.judge.WritesOnlyResult) (name : Text) {bindings : Option Members} (job : Job) :
    Respects (OffPlan (Bench.OnDirectory (ChangesAt (FilesOf setup name))))
      (revertFinal setup bindings job (jobPath setup name)) :=
  respects_revertFinal (confinedTo_filesOf tidy name)
    (fun _ found => Bench.respects_onDirectory (changesAt_removeResult found)) job

theorem exists_ending_of_filesOf {setup : SessionSetup PlanMemory JudgeMemory} {name : Text}
    (isStem : JobFiles.IsStem name) {path : Path} (among : FilesOf setup name path) :
    ∃ ending ∈ JobFiles.endings, path = setup.folder.join (name ++ ending) := by
  rcases List.mem_cons.1 among with isResult | isPlace
  · refine ⟨JobFiles.resultEnding, by decide, ?_⟩
    rw [isResult, jobPath, JobFiles.beside_join isStem _ JobFiles.isEnding_resultEnding]
  · rw [jobPath, JobFiles.places_join _ isStem] at isPlace
    obtain ⟨ending, isEnding, rfl⟩ := List.mem_map.1 isPlace
    exact ⟨ending, JobFiles.mem_endings_of_mem isEnding, rfl⟩

/-- A session leaves its trail at a site, with a judge that writes only its result. -/
structure LeavesAt (site : Site) (setup : SessionSetup PlanMemory JudgeMemory) : Prop where
  folder : setup.folder = site.folder
  base : setup.base = site.base
  offset : setup.offset = site.offset
  noSlash : .scalar '/' ∉ site.base
  tidy : setup.judge.WritesOnlyResult

section Leaves

variable {site : Site} {setup : SessionSetup PlanMemory JudgeMemory}
  (leaves : LeavesAt site setup) {bindings : Option Members} {steps : List Trail.Step}
  {marked : Bool}

include leaves

theorem LeavesAt.attempt_eq (made : Nat) :
    (made : Int) + 1 + setup.offset = ((site.offset + made + 1 : Nat) : Int) := by
  rw [leaves.offset]
  omega

/-- The files of the input and of the final job are none of a step. -/
theorem LeavesAt.left_of_changesAt {name : Text}
    (isOther : name = setup.base ∨ name = finalName setup.base) {before after : Directory}
    (left : site.Left steps marked before) (change : ChangesAt (FilesOf setup name) before after) :
    site.Left steps marked after := by
  have noSlash : .scalar '/' ∉ name := by
    rcases isOther with rfl | rfl
    · exact leaves.base ▸ leaves.noSlash
    · exact Scene.noSlash_of_untagged (leaves.base ▸ leaves.noSlash) .final
  refine left.of_changesAt leaves.noSlash change fun path among => ?_
  obtain ⟨more, dot, plain, rfl⟩ := exists_dot_of_file noSlash setup.folder among
  refine ⟨name ++ more, ⟨?_, fun isMarker => ?_⟩, plain, leaves.folder ▸ rfl⟩
  · rw [← leaves.base]
    rcases isOther with rfl | rfl
    · exact not_ofStep_of_dot dot
    · exact not_ofStep_finalName _ _
  · have isDot : .scalar '.' ∈ name ++ more :=
      List.mem_append_right _ (List.mem_of_mem_head? (Option.mem_def.2 dot))
    rw [isMarker] at isDot
    exact absurd isDot (by decide)

variable {session after : Session PlanMemory JudgeMemory}

theorem LeavesAt.left_of_mayProceed {job : Job}
    (left : site.Left steps marked session.bench.directory)
    (checked : (mayProceed setup bindings job).startingAt session = (.ok true, after)) :
    site.Left steps marked after.bench.directory := by
  rcases mayProceed_eq_true checked with ⟨-, rfl⟩ | ⟨-, tried⟩
  · exact left
  · exact leaves.left_of_changesAt (.inl rfl) left
      ((respects_tryInitial (confinedTo_filesOf leaves.tidy _) job _).of_eq tried).bench

/-- An attempt leaves one more step. -/
theorem LeavesAt.left_of_passes {made : Nat} {job : Job} {proposed : Session PlanMemory JudgeMemory}
    {attempt : Attempt PlanMemory JudgeMemory} (count : made = steps.length)
    (left : site.Left steps marked session.bench.directory)
    (passes : Passes setup bindings made job session proposed attempt after) :
    site.Left (steps ++ [attempt.step]) marked after.bench.directory := by
  subst count
  obtain ⟨plan, rfl⟩ := (onlyPlan_proposeRetrying _ _).of_eq (nextCandidate_eq_some passes.next).2
  have isStem := Site.isStem_untaggedNameAt leaves.noSlash steps.length
  have judgedIsStem := Site.isStem_nameAt leaves.noSlash steps.length attempt.step
  have apart : ∀ first ∈ JobFiles.endings, ∀ second ∈ JobFiles.endings,
      site.untaggedNameAt steps.length ++ first ≠
        site.nameAt steps.length attempt.step ++ second := fun first member second _ same =>
    (Untagged.step _).not_tagged (Scene.head?_of_mem_endings member)
      (same ▸ Site.tagged_nameAt steps.length attempt.step second)
  have isName : stepName setup.base (steps.length + 1 + setup.offset) =
      site.untaggedNameAt steps.length := by
    rw [leaves.base, leaves.attempt_eq, Site.untaggedNameAt]
  have change : ChangesAt (FilesOf setup (stepName setup.base (steps.length + 1 + setup.offset)))
      session.bench.directory attempt.judged.bench.directory :=
    (passes.tries.offPlan (confinedTo_filesOf leaves.tidy _)).bench
  have writing : ChangesAt (JobFiles.AtEither site.folder (site.untaggedNameAt steps.length)
      (site.nameAt steps.length attempt.step) JobFiles.endings)
      session.bench.directory attempt.judged.bench.directory := by
    refine change.mono fun path among => ?_
    rw [isName] at among
    obtain ⟨ending, member, rfl⟩ := exists_ending_of_filesOf isStem among
    exact ⟨ending, member, .inl (leaves.folder ▸ rfl)⟩
  obtain ⟨directory, memory, moved, -, rfl⟩ := conclude_eq_ok passes.concluded
  rw [stepPath, isName, jobPath, jobPath, leaves.folder, leaves.base, leaves.attempt_eq] at moved
  obtain ⟨moving, renamed, gone⟩ := JobFiles.move_eq_ok isStem judgedIsStem apart
    (left.holds.of_sameFolders writing.folders) moved
  exact left.append leaves.noSlash (writing.trans moving) renamed.present gone

/-- The attempts of a session leave their steps, one after the other. -/
theorem LeavesAt.left_of_course {made : Nat} {job last : Job}
    {attempts : List (Attempt PlanMemory JudgeMemory)} (count : made = steps.length)
    (left : site.Left steps marked session.bench.directory)
    (course : Course setup bindings made job session attempts last after) :
    site.Left (steps ++ attempts.map Attempt.step) marked after.bench.directory := by
  induction course generalizing steps with
  | finished ended =>
    rw [List.map_nil, List.append_nil]
    rcases nextCandidate_eq_none ended with ⟨-, rfl⟩ | ⟨-, exhausted⟩
    · exact left
    · obtain ⟨plan, rfl⟩ := (onlyPlan_proposeRetrying _ _).of_eq exhausted
      exact left
  | @attempted made job last session proposed between after attempt attempts passes rest
      inductionHypothesis =>
    have next := leaves.left_of_passes count left passes
    rw [List.map_cons, ← List.singleton_append, ← List.append_assoc]
    refine inductionHypothesis ?_ next
    rw [List.length_append, List.length_singleton, count]

/-- The marker of an early stop is made if the session was stopped early. -/
theorem LeavesAt.left_of_markIncomplete (left : site.Left steps false session.bench.directory)
    (marked : (markIncomplete setup).startingAt session = (.ok (), after)) :
    site.Left steps after.tally.stoppedEarly after.bench.directory := by
  rcases markIncomplete_eq_ok marked with ⟨stopped, touched⟩ | ⟨running, rfl⟩
  · obtain ⟨directory, run, rfl⟩ := onDirectory_eq_iff.1 touched
    rw [leaves.folder] at run
    rw [show session.tally.stoppedEarly = true from stopped]
    exact left.of_touch leaves.noSlash run
  · rw [running]
    exact left

theorem LeavesAt.left_of_finish {job : Job} {name : Text}
    (left : site.Left steps false session.bench.directory)
    (finished : (finish setup bindings job).startingAt session = (.ok name, after)) :
    site.Left steps after.tally.stoppedEarly after.bench.directory := by
  have confined := confinedTo_filesOf leaves.tidy (finalName setup.base)
  obtain ⟨rfl, interesting, judged, reverted, asked, ending, marked⟩ := finish_eq_ok finished
  have judging := leaves.left_of_changesAt (.inr rfl) left
    ((respects_judgeJob confined _).of_eq asked).bench
  refine leaves.left_of_markIncomplete ?_ marked
  rcases ending with ⟨-, rfl⟩ | ⟨-, revert⟩
  · exact judging
  · exact leaves.left_of_changesAt (.inr rfl) judging
      ((changesAt_revertFinal leaves.tidy _ job).of_eq revert).bench

end Leaves

/-! ### The whole session -/

/-- A session begins in an empty folder, with a judge that changes nothing but its result. -/
structure CleanStart (setup : SessionSetup PlanMemory JudgeMemory) (directory : Directory) :
    Prop where
  noSlash : .scalar '/' ∉ setup.base
  tidy : setup.judge.WritesOnlyResult
  orderly : setup.judge.KeepsDistinct
  distinct : directory.Distinct
  empty : (FileAction.list setup.folder).startingAt directory = (.ok [], directory)

/-- The record of the attempt at an index, after some earlier attempts. -/
def recordOf (setup : SessionSetup PlanMemory JudgeMemory) (offset index : Nat)
    (attempt : Attempt PlanMemory JudgeMemory) : StepRecord :=
  let number := offset + index + 1
  let outcome := Outcome.ofVerdict attempt.accepted
  ⟨number, outcome, jobPath setup (judgedName setup.base number outcome)⟩

/-- The attempts after some earlier ones left their records and nothing under the names of jobs that
were not judged, and a marker tells whether they were stopped early. -/
structure LeavesTrail (setup : SessionSetup PlanMemory JudgeMemory) (offset : Nat)
    (attempts : List (Attempt PlanMemory JudgeMemory)) (after : Session PlanMemory JudgeMemory) :
    Prop where
  records : (Trail.records setup.folder setup.base).startingAt after.bench.directory =
    (.ok (attempts.mapIdx (recordOf setup offset)), after.bench.directory)
  untagged : ∀ number : Nat, ∀ ending ∈ JobFiles.endings,
    after.bench.directory.nodeAt (setup.folder.join (stepName setup.base number ++ ending)) = none
  marked : (after.bench.directory.nodeAt (setup.folder.join incompleteMarker)).isSome =
    after.tally.stoppedEarly

section Whole

variable {setup : SessionSetup PlanMemory JudgeMemory} {directory : Directory}
  {planMemory : PlanMemory} {judgeMemory : JudgeMemory} {name : Text} {budget : Nat} {job : Job}
  {after : Session PlanMemory JudgeMemory} {offset : Nat}

theorem leavesTrail_of_run (clean : CleanStart setup directory) (isOffset : setup.offset = offset)
    (ran : (run setup budget job).startingAt (start directory planMemory judgeMemory) =
      (.ok (some name), after)) :
    LeavesTrail setup offset
      (attempts setup budget job (start directory planMemory judgeMemory)) after := by
  obtain ⟨location, nothing⟩ := Site.exists_left_nil clean.empty setup.base offset
  have leaves : LeavesAt ⟨setup.folder, location, setup.base, offset⟩ setup :=
    ⟨rfl, rfl, isOffset, clean.noSlash, clean.tidy⟩
  obtain ⟨bindings, free, -, opened, last, shrunk, stages⟩ := exists_stages_of_run ran
  have opening := leaves.left_of_mayProceed nothing stages.proceeds
  have begun : Site.Left ⟨setup.folder, location, setup.base, offset⟩ [] false
      { opened with current := some free }.bench.directory := opening
  have left := leaves.left_of_finish (leaves.left_of_course rfl begun stages.course)
    stages.finished
  have distinct : after.bench.directory.Distinct :=
    (respects_run (confined_keepsDistinct clean.orderly) tagging_keepsDistinct budget job).of_eq
      ran clean.distinct
  refine ⟨?_, fun number ending => left.nodeAt_untagged clean.noSlash number, left.marker⟩
  rw [left.startingAt_records clean.noSlash distinct, List.nil_append]
  refine congrArg (fun records => (Except.ok records, after.bench.directory)) ?_
  refine List.ext_getElem? fun index => ?_
  rw [List.getElem?_mapIdx, List.getElem?_map, List.getElem?_mapIdx, Option.map_map]
  rfl

/-- A session that ends with a final job accounts for what it counted, remembered, said to its plan
and asked its judge. If it began in an empty folder, the records found there afterwards are those of
its attempts, and the marker of an early stop is there exactly if it was stopped early. -/
theorem exists_accounts_and_leavesTrail_of_run (remembers : setup.remembers = true)
    (isOffset : setup.offset = offset)
    (ran : (run setup budget job).startingAt (start directory planMemory judgeMemory) =
      (.ok (some name), after)) :
    ∃ bindings free tries, freeForm job = .ok (bindings, free) ∧
      Accounts setup free tries
        (attempts setup budget job (start directory planMemory judgeMemory))
        (messages setup budget job directory planMemory judgeMemory)
        ((judgements setup budget job directory planMemory judgeMemory).map Judgement.path)
        after ∧
      (CleanStart setup directory → LeavesTrail setup offset
        (attempts setup budget job (start directory planMemory judgeMemory)) after) := by
  obtain ⟨bindings, free, tries, form, accounts⟩ := exists_accounts_of_run remembers ran
  exact ⟨bindings, free, tries, form, accounts, fun clean => leavesTrail_of_run clean isOffset ran⟩

end Whole

/-! ### A session that is stopped early -/

/-- The setup in which some jobs are proposed and some verdicts are given, up to three attempts. -/
def stoppedSetup : SessionSetup (List Job) (List Verdict) :=
  { repeatingSetup with limit := .attempts 3 }

theorem cleanStart_stoppedSetup : CleanStart stoppedSetup workDirectory where
  noSlash := by decide
  tidy _ _ _ := ChangesAt.refl _
  orderly _ _ _ := id
  distinct := List.nodup_singleton _
  empty := by
    have located : workDirectory.locate stoppedSetup.folder = .ok ["work"] := rfl
    have nothing : workDirectory.namesIn ["work"] = [] := by decide +kernel
    rw [FileAction.startingAt_list located rfl, nothing]

/-- The input is found interesting the second time, one candidate is rejected by the judge and again
without it, another one is accepted, and the limit is reached before the last one. -/
theorem exists_accounts_and_leavesTrail_of_stoppedSetup :
    let verdicts := [.notInteresting, .interesting, .notInteresting, .interesting]
    let session := start workDirectory repeated verdicts
    let made := attempts stoppedSetup 5 (fragmentJob "c\n") session
    stoppedSetup.remembers = true ∧ stoppedSetup.offset = (0 : Nat) ∧
      (made.map fun attempt => attempt.verdict.toOption) = [some false, some false, some true] ∧
      ∃ after,
        (run stoppedSetup 5 (fragmentJob "c\n")).startingAt session =
          (.ok (some "job_reduced_final"), after) ∧
        (∃ bindings free tries, freeForm (fragmentJob "c\n") = .ok (bindings, free) ∧
          Accounts stoppedSetup free tries made
            (messages stoppedSetup 5 (fragmentJob "c\n") workDirectory repeated verdicts)
            ((judgements stoppedSetup 5 (fragmentJob "c\n") workDirectory repeated verdicts).map
              Judgement.path) after ∧
          (CleanStart stoppedSetup workDirectory → LeavesTrail stoppedSetup 0 made after)) ∧
        CleanStart stoppedSetup workDirectory := by
  intro verdicts session made
  have answers : (made.map fun attempt => attempt.verdict.toOption) =
      [some false, some false, some true] := by
    decide +kernel
  have ended := eq_ok_of_toOption (show
    ((run stoppedSetup 5 (fragmentJob "c\n")).startingAt session).1.toOption =
      some (some ("job_reduced_final" : Text)) by
    decide +kernel)
  exact ⟨rfl, rfl, answers, _, ended, exists_accounts_and_leavesTrail_of_run rfl rfl ended,
    cleanStart_stoppedSetup⟩

end Session

end ShaderReduction
