/-
This file proves that sessions whose directories differ in results only go on alike.

The results of the jobs that a session writes after the check of its input are set aside: no other
file of a job has the name of a result. Two sessions that got equally far (`Mirrors`) ask their
plans alike, write and rename jobs alike and end alike. A judge whose answer depends on the files of
the job alone (`Follows`) answers both alike, and what it writes is set aside. That it wrote a
result in one session and none in the other makes a difference only where no file can be made at the
path of the result, under the name of the step or under the one that its tag gives it.
-/

import Mathlib.Data.List.Basic
import ShaderReduction.Proofs.JobFiles.Likeness
import ShaderReduction.Proofs.Session.Judgements
import ShaderReduction.Proofs.Session.Verdicts

namespace ShaderReduction

open ShaderReduction.Action Directory

/-! ### Judges that look at the files of the job alone -/

/-- Wherever its result can be written, the answer of a judge depends on what stands at the places
of the files of the job alone, up to the job that a failure names. The judge changes no file but the
result. -/
structure Judge.Follows {Memory : Type} (judge : Judge Memory)
    (answer : List (Option Node) → Except (Path → Fault) Bool) : Prop where
  tidy : judge.WritesOnlyResult
  answers : ∀ job result bench nodes, JobFiles.result job = .ok result →
    FileAction.Writable bench.directory result → JobFiles.view job bench.directory = .ok nodes →
      ((judge.isInteresting job result).startingAt bench).1 =
        (answer nodes).mapError fun fault => fault job

namespace Session

variable {PlanMemory JudgeMemory : Type}

/-! ### The names of the jobs of a session -/

/-- A name goes on from a base without a dot or a slash, as the names of a session's jobs do. -/
def OfBase (base name : Text) : Prop :=
  ∃ tag : Text, .scalar '.' ∉ tag ∧ .scalar '/' ∉ tag ∧ name = base ++ tag

/-- The names of the jobs that a session writes or tags after the check of its input, by the
verdicts on its attempts. An attempt without a verdict is not tagged. -/
inductive RunName (base : Text) (offset : Int) (verdicts : List (Except Fault Bool)) : Text → Prop
  | final : RunName base offset verdicts (Trail.finalName base)
  | step (made : Nat) (within : made < verdicts.length) :
      RunName base offset verdicts (Trail.stepName base ((made : Int) + 1 + offset))
  | judged (made : Nat) (interesting : Bool) (found : verdicts[made]? = some (.ok interesting)) :
      RunName base offset verdicts
        (Trail.judgedName base ((made : Int) + 1 + offset) (Outcome.ofVerdict interesting))

/-- The names of the results of these jobs. -/
def ResultName (setup : SessionSetup PlanMemory JudgeMemory) (verdicts : List (Except Fault Bool))
    (name : Text) : Prop :=
  ∃ stem, RunName setup.base setup.offset verdicts stem ∧ name = stem ++ JobFiles.resultEnding

/-- The paths of these results. -/
def ResultPath (setup : SessionSetup PlanMemory JudgeMemory) (verdicts : List (Except Fault Bool))
    (path : Path) : Prop :=
  ∃ name, ResultName setup verdicts name ∧ path = setup.folder.join name

section Names

variable {setup : SessionSetup PlanMemory JudgeMemory} {verdicts : List (Except Fault Bool)}
  {base name : Text}

theorem ofBase_base (base : Text) : OfBase base base :=
  ⟨[], List.not_mem_nil, List.not_mem_nil, (List.append_nil base).symm⟩

theorem ofBase_finalName (base : Text) : OfBase base (Trail.finalName base) :=
  ⟨("_reduced_final" : Text), by decide, by decide, rfl⟩

theorem OfBase.append {more : Text} (ofBase : OfBase base name)
    (noDot : .scalar '.' ∉ more) (noSlash : .scalar '/' ∉ more) : OfBase base (name ++ more) := by
  obtain ⟨tag, tagNoDot, tagNoSlash, rfl⟩ := ofBase
  refine ⟨tag ++ more, ?_, ?_, List.append_assoc _ _ _⟩
  · exact fun member => (List.mem_append.1 member).elim tagNoDot noDot
  · exact fun member => (List.mem_append.1 member).elim tagNoSlash noSlash

theorem ofBase_stepName (base : Text) (number : Int) :
    OfBase base (Trail.stepName base number) := by
  have marked : OfBase base (base ++ ("_reduced_" : Text)) :=
    (ofBase_base base).append (by decide) (by decide)
  exact marked.append (notMem_ofIntPadded (by decide) (by decide) 4 number)
    (notMem_ofIntPadded (by decide) (by decide) 4 number)

theorem ofBase_judgedName (base : Text) (number : Int) (outcome : Outcome) :
    OfBase base (Trail.judgedName base number outcome) := by
  have written : outcome.tag ≠ [] ∧ .scalar '.' ∉ outcome.tag ∧ .scalar '/' ∉ outcome.tag := by
    cases outcome <;> decide
  rw [Trail.judgedName, Trail.taggedName, if_neg written.1]
  have marked : OfBase base (Trail.stepName base number ++ ("_" : Text)) :=
    (ofBase_stepName base number).append (by decide) (by decide)
  exact marked.append written.2.1 written.2.2

theorem RunName.ofBase {offset : Int} (isRunName : RunName base offset verdicts name) :
    OfBase base name := by
  cases isRunName with
  | final => exact ofBase_finalName base
  | step made within => exact ofBase_stepName base _
  | judged made interesting found => exact ofBase_judgedName base _ _

theorem OfBase.isStem (ofBase : OfBase base name) (isStem : JobFiles.IsStem base) :
    JobFiles.IsStem name := by
  obtain ⟨tag, -, noSlash, rfl⟩ := ofBase
  refine ⟨List.append_ne_nil_of_left_ne_nil isStem.nonempty _, ?_⟩
  exact fun member => (List.mem_append.1 member).elim isStem.noSlash noSlash

theorem plainName_of_resultName (isStem : JobFiles.IsStem setup.base)
    (isResult : ResultName setup verdicts name) : Path.PlainName name := by
  obtain ⟨stem, isRunName, rfl⟩ := isResult
  exact (isRunName.ofBase.isStem isStem).plainName_append JobFiles.isEnding_resultEnding

/-- Of the files of a job of a session, only its result may have the name of a result. -/
theorem OfBase.setsAside (ofBase : OfBase setup.base name)
    (isStem : JobFiles.IsStem setup.base) :
    JobFiles.SetsAside (ResultName setup verdicts) name := by
  refine ⟨ofBase.isStem isStem, ?_⟩
  obtain ⟨tag, noDot, -, rfl⟩ := ofBase
  rintro ending member ⟨stem, isOther, same⟩
  obtain ⟨otherTag, -, -, rfl⟩ := isOther.ofBase
  rcases List.mem_cons.1 member with rfl | isSuffix
  · have parts : JobFiles.resultEnding = (".info" : Text) ++ (".json" : Text) := by decide
    rw [parts, ← List.append_assoc] at same
    have tags := List.append_cancel_right same
    rw [List.append_assoc] at tags
    rw [List.append_cancel_left tags] at noDot
    exact noDot (List.mem_append_right _ (by decide))
  · have lasts : ∀ suffix ∈ JobFiles.suffixes,
        suffix ≠ [] ∧ suffix.getLast? ≠ JobFiles.resultEnding.getLast? := by decide
    have last := congrArg List.getLast? same
    rw [List.getLast?_append_of_ne_nil _ (lasts ending isSuffix).1,
      List.getLast?_append_of_ne_nil _ (by decide)] at last
    exact (lasts ending isSuffix).2 last

end Names

/-! ### What goes alike -/

/-- Two sessions got equally far, and their directories differ in results only. -/
structure Mirrors (setup : SessionSetup PlanMemory JudgeMemory)
    (verdicts : List (Except Fault Bool)) (location : Location)
    (first second : Session PlanMemory JudgeMemory) : Prop where
  directory : SameBut setup.folder location (ResultName setup verdicts) first.bench.directory
    second.bench.directory
  progress : SameProgress first second

section Mirrors

variable {setup : SessionSetup PlanMemory JudgeMemory} {verdicts : List (Except Fault Bool)}
  {location : Location} {bindings : Option Members} {first second : Session PlanMemory JudgeMemory}

theorem inStep_onDirectory {Result : Type} {action : FileAction Result}
    (mirrors : Mirrors setup verdicts location first second)
    (inStep : InStep (SameBut setup.folder location (ResultName setup verdicts))
      first.bench.directory second.bench.directory action) :
    InStep (Mirrors setup verdicts location) first second (onDirectory action) :=
  ⟨inStep.result, inStep.related, mirrors.progress.plan, mirrors.progress.accepted,
    mirrors.progress.current, mirrors.progress.stoppedEarly⟩

theorem lockstep_onDirectory {Result : Type} {action : FileAction Result}
    (lockstep : Lockstep (SameBut setup.folder location (ResultName setup verdicts)) action) :
    Lockstep (Mirrors setup verdicts location) (onDirectory action) :=
  fun _ _ mirrors => inStep_onDirectory mirrors (lockstep _ _ mirrors.directory)

theorem lockstep_onPlan {Result : Type} (action : Action PlanMemory Result) :
    Lockstep (Mirrors setup verdicts location) (onPlan action) := by
  intro first second mirrors
  constructor
  · rw [onPlan, startingAt_onPart, startingAt_onPart, mirrors.progress.plan]
  · refine ⟨mirrors.directory, ?_, mirrors.progress.accepted, mirrors.progress.current,
      mirrors.progress.stoppedEarly⟩
    show (action.startingAt first.plan).2 = (action.startingAt second.plan).2
    rw [mirrors.progress.plan]

theorem lockstep_count {change : Tally → Tally}
    (keeps : ∀ tally other : Tally, tally.stoppedEarly = other.stoppedEarly →
      (change tally).stoppedEarly = (change other).stoppedEarly) :
    Lockstep (Mirrors setup verdicts location) (count change) :=
  lockstep_modify fun _ _ mirrors => ⟨mirrors.directory, mirrors.progress.plan,
    mirrors.progress.accepted, mirrors.progress.current, keeps _ _ mirrors.progress.stoppedEarly⟩

end Mirrors

/-! ### Writing and judging -/

section Judging

variable {setup : SessionSetup PlanMemory JudgeMemory} {verdicts : List (Except Fault Bool)}
  {location : Location} {bindings : Option Members}
  {first second session : Session PlanMemory JudgeMemory}
  {answer : List (Option Node) → Except (Path → Fault) Bool} {name : Text}
  (isStem : JobFiles.IsStem setup.base)

include isStem

theorem lockstep_writeJob (ofBase : OfBase setup.base name) (job : Job) :
    Lockstep (Mirrors setup verdicts location)
      (writeJob setup bindings job (jobPath setup name)) :=
  (lockstep_ofExcept _).bind fun _ => lockstep_onDirectory
    (JobFiles.lockstep_write (ofBase.setsAside isStem) setup.storage _)

variable (isRunName : RunName setup.base setup.offset verdicts name)

include isRunName

variable (follows : setup.judge.Follows answer)

include follows

/-- The judge gives the answer that the files of the job call for and changes only what is set
aside. -/
theorem exists_consultJudge_eq
    (room : Room setup.folder location (ResultName setup verdicts) session.bench.directory)
    {nodes : List (Option Node)}
    (view : JobFiles.view (jobPath setup name) session.bench.directory = .ok nodes) :
    ∃ bench, (consultJudge setup (jobPath setup name)).startingAt session =
        ((answer nodes).mapError fun fault => fault (jobPath setup name), session.asking bench) ∧
      ChangesIn location (ResultName setup verdicts) session.bench.directory bench.directory := by
  have isJobPath : JobFiles.IsJobPath (jobPath setup name) := JobFiles.isJobPath_join _ _
  have result : JobFiles.beside (jobPath setup name) JobFiles.resultEnding =
      setup.folder.join (name ++ JobFiles.resultEnding) :=
    JobFiles.beside_join (isRunName.ofBase.isStem isStem) setup.folder
      JobFiles.isEnding_resultEnding
  have isResult : ResultName setup verdicts (name ++ JobFiles.resultEnding) :=
    ⟨name, isRunName, rfl⟩
  have answered := follows.answers (jobPath setup name) _ session.bench nodes
    (result ▸ JobFiles.result_eq_ok isJobPath.plain)
    ⟨_, room.locate_eq_ok isResult, room.free _ isResult⟩ view
  have change := follows.tidy.respects_isInteresting (jobPath setup name)
    (setup.folder.join (name ++ JobFiles.resultEnding)) session.bench
  rw [startingAt_consultJudge isJobPath, result]
  cases asked : (setup.judge.isInteresting (jobPath setup name)
      (setup.folder.join (name ++ JobFiles.resultEnding))).startingAt session.bench with
  | mk outcome bench =>
    rw [asked] at answered change
    refine ⟨bench, Prod.ext answered rfl, room.changesIn change fun path same => ?_⟩
    exact ⟨_, isResult, same⟩

theorem lockstep_consultJudge :
    Lockstep (Mirrors setup verdicts location) (consultJudge setup (jobPath setup name)) := by
  intro first second mirrors
  have isJobPath : JobFiles.IsJobPath (jobPath setup name) := JobFiles.isJobPath_join _ _
  have view : JobFiles.view (jobPath setup name) first.bench.directory = .ok _ :=
    JobFiles.view_eq_ok isJobPath
  obtain ⟨bench, run, change⟩ :=
    exists_consultJudge_eq isStem isRunName follows mirrors.directory.room view
  obtain ⟨otherBench, otherRun, otherChange⟩ :=
    exists_consultJudge_eq isStem isRunName follows mirrors.directory.otherRoom
      (((isRunName.ofBase.setsAside isStem).view_eq mirrors.directory).trans view)
  exact inStep_of_eq run otherRun ⟨mirrors.directory.of_changesIn change otherChange,
    mirrors.progress.plan, mirrors.progress.accepted, mirrors.progress.current,
    mirrors.progress.stoppedEarly⟩

theorem lockstep_judgeJob (job : Job) :
    Lockstep (Mirrors setup verdicts location) (judgeJob setup bindings job name) :=
  (lockstep_writeJob isStem isRunName.ofBase job).bind fun _ =>
    lockstep_consultJudge isStem isRunName follows

/-! ### The check of the input and the final job -/

omit isStem isRunName follows in
/-- The check of the input makes and removes no folders. -/
theorem sameFolders_of_mayProceed (tidy : setup.judge.WritesOnlyResult) {job : Job}
    {outcome : Except Fault Bool} {after : Session PlanMemory JudgeMemory}
    (checked : (mayProceed setup bindings job).startingAt session = (outcome, after)) :
    SameFolders session.bench.directory after.bench.directory := by
  have confined : ConfinedTo (Bench.OnDirectory (ChangesAt fun _ => True)) setup setup.base := by
    refine ⟨fun job => Bench.respects_onDirectory ?_, fun result _ => ?_⟩
    · exact (JobFiles.changesAt_write (JobFiles.isJobPath_join _ _)).mono fun _ _ change =>
        change.mono fun _ _ => trivial
    · exact (tidy.respects _ result).mono fun _ _ change => change.mono fun _ _ => trivial
  have marked : Respects (OffPlan (Bench.OnDirectory (ChangesAt fun _ => True)))
      (onDirectory (FileAction.touch (setup.folder.join Trail.notInterestingMarker)) :
        Step PlanMemory JudgeMemory Unit) :=
    respects_onBench (Bench.respects_onDirectory ((FileAction.changesAt_touch _).mono
      fun _ _ change => change.mono fun _ _ => trivial))
  exact ((holds_mayProceed composes_respects (respects_judgeJob confined job) marked).of_eq
    checked).bench.folders

omit isStem isRunName follows in
/-- Markers are no results. -/
theorem not_resultName_marker {marker : Text}
    (isMarker : marker ∈ [Trail.notInterestingMarker, Trail.incompleteMarker]) :
    ¬ResultName setup verdicts marker := by
  rintro ⟨stem, -, same⟩
  have noDot : ∀ marker ∈ [Trail.notInterestingMarker, Trail.incompleteMarker],
      .scalar '.' ∉ marker := by decide
  refine noDot marker isMarker ?_
  rw [same]
  exact List.mem_append_right _ (by decide)

omit isStem isRunName follows in
theorem lockstep_touch {marker : Text}
    (isMarker : marker ∈ [Trail.notInterestingMarker, Trail.incompleteMarker]) :
    Lockstep (Mirrors setup verdicts location)
      (onDirectory (FileAction.touch (setup.folder.join marker))) :=
  lockstep_onDirectory (FileAction.lockstep_touch (JobFiles.plainName_marker isMarker)
    (not_resultName_marker isMarker))

omit isStem isRunName follows in
theorem lockstep_markIncomplete :
    Lockstep (Mirrors setup verdicts location) (markIncomplete setup) := by
  intro first second mirrors
  have run : ∀ session : Session PlanMemory JudgeMemory,
      (markIncomplete setup).startingAt session =
        if session.tally.stoppedEarly then
          (onDirectory (FileAction.touch (setup.folder.join Trail.incompleteMarker))).startingAt
            session
        else (.ok (), session) := by
    intro session
    rw [markIncomplete, startingAt_bind, startingAt_get]
    dsimp only
    split <;> rfl
  have stopped := mirrors.progress.stoppedEarly
  constructor
  · rw [run, run, ← stopped]
    split
    · exact (lockstep_touch (by decide) first second mirrors).result
    · rfl
  · rw [run, run, ← stopped]
    split
    · exact (lockstep_touch (by decide) first second mirrors).related
    · exact mirrors

omit isStem follows in
theorem lockstep_removeResult :
    Lockstep (Mirrors setup verdicts location) (onDirectory (FileAction.removeIfPresent
      (setup.folder.join (name ++ JobFiles.resultEnding)))) := by
  refine lockstep_onDirectory fun first second alike => ?_
  have isResult : ResultName setup verdicts (name ++ JobFiles.resultEnding) :=
    ⟨name, isRunName, rfl⟩
  obtain ⟨after, run, change⟩ :=
    FileAction.exists_changesIn_of_removeIfPresent alike.room isResult
  obtain ⟨other, otherRun, otherChange⟩ :=
    FileAction.exists_changesIn_of_removeIfPresent alike.otherRoom isResult
  exact inStep_of_eq run otherRun (alike.of_changesIn change otherChange)

omit isRunName follows in
theorem lockstep_revertFinal (job : Job) :
    Lockstep (Mirrors setup verdicts location)
      (revertFinal setup bindings job (jobPath setup (Trail.finalName setup.base))) := by
  have isJobPath : JobFiles.IsJobPath (jobPath setup (Trail.finalName setup.base)) :=
    JobFiles.isJobPath_join _ _
  have ofBase : OfBase setup.base (Trail.finalName setup.base) := ofBase_finalName setup.base
  have result : JobFiles.beside (jobPath setup (Trail.finalName setup.base)) JobFiles.resultEnding =
      setup.folder.join (Trail.finalName setup.base ++ JobFiles.resultEnding) :=
    JobFiles.beside_join (ofBase.isStem isStem) setup.folder JobFiles.isEnding_resultEnding
  rw [revertFinal, JobFiles.result_eq_ok isJobPath.plain, ofExcept_ok_bind, result]
  exact (lockstep_writeJob isStem ofBase job).bind fun _ => lockstep_removeResult .final

omit isRunName in
theorem lockstep_finish (job : Job) :
    Lockstep (Mirrors setup verdicts location) (finish setup bindings job) :=
  holds_finish composes_lockstep (lockstep_judgeJob isStem .final follows _)
    (lockstep_revertFinal isStem job) lockstep_markIncomplete

end Judging

/-! ### The steps of an attempt -/

section Steps

variable {setup : SessionSetup PlanMemory JudgeMemory} {verdicts : List (Except Fault Bool)}
  {location : Location} {bindings : Option Members}
  {first second : Session PlanMemory JudgeMemory} {made : Nat}

theorem lockstep_propose (job : Job) :
    Lockstep (Mirrors setup verdicts location) (propose setup job) := by
  intro first second mirrors
  obtain ⟨result, related⟩ := lockstep_onPlan (setup.plan.propose job) first second mirrors
  rcases run : (onPlan (setup.plan.propose job)).startingAt first with ⟨fault | candidate, after⟩
  all_goals
    rcases otherRun : (onPlan (setup.plan.propose job)).startingAt second with ⟨outcome, other⟩
    rw [run, otherRun] at result related
    cases result
    constructor
  all_goals rw [startingAt_propose, startingAt_propose, run, otherRun]
  · cases fault <;> rfl
  · cases fault <;> exact related
  · exact related

theorem lockstep_proposeRetrying (job : Job) (retries : Nat) :
    Lockstep (Mirrors setup verdicts location) (proposeRetrying setup job retries) := by
  induction retries with
  | zero => exact lockstep_propose job
  | succ retries inductionHypothesis =>
    intro first second mirrors
    obtain ⟨result, related⟩ := lockstep_propose job first second mirrors
    rcases run : (propose setup job).startingAt first with ⟨fault | candidate, after⟩
    all_goals
      rcases otherRun : (propose setup job).startingAt second with ⟨outcome, other⟩
      rw [run, otherRun] at result related
      cases result
      constructor
    all_goals
      rw [startingAt_proposeRetrying_succ, startingAt_proposeRetrying_succ, run, otherRun]
    · cases fault <;> first | rfl | exact (inductionHypothesis after other related).result
    · cases fault <;>
        first
        | exact related
        | exact (inductionHypothesis after other related).related
    · exact related

theorem lockstep_nextCandidate (job : Job) :
    Lockstep (Mirrors setup verdicts location) (nextCandidate setup made job) := by
  refine (lockstep_ofExcept _).bind fun reached => ?_
  split
  · exact (lockstep_count fun _ _ _ => rfl).bind fun _ => lockstep_pure _
  · exact lockstep_proposeRetrying job _

variable (isStem : JobFiles.IsStem setup.base)

include isStem

theorem lockstep_writeCandidate (candidate : Job) :
    Lockstep (Mirrors setup verdicts location) (writeCandidate setup bindings candidate made) := by
  refine Lockstep.bind (lockstep_count ?_) fun _ =>
    lockstep_writeJob isStem (ofBase_stepName _ _) candidate
  exact fun _ _ same => same

omit isStem in
theorem stepName_ne_judgedName (base : Text) (number : Int) (outcome : Outcome) :
    Trail.stepName base number ≠ Trail.judgedName base number outcome := by
  have tagged : outcome.tag ≠ [] := by cases outcome <;> decide
  rw [Trail.judgedName, Trail.taggedName, if_neg tagged]
  intro same
  have lengths := congrArg List.length same
  have mark : ("_" : Text).length = 1 := rfl
  rw [List.length_append, List.length_append, mark] at lengths
  omega

/-- An attempt whose files can be read is concluded alike. -/
theorem inStep_conclude (candidate : Job) {interesting : Bool}
    (found : verdicts[made]? = some (.ok interesting))
    (mirrors : Mirrors setup verdicts location first second)
    (noFolder : ∀ place ∈ JobFiles.places (stepPath setup made),
      first.bench.directory.nodeAt place ≠ some .folder) :
    InStep (Mirrors setup verdicts location) first second
      (conclude setup candidate made interesting) := by
  have isStep : RunName setup.base setup.offset verdicts
      (Trail.stepName setup.base ((made : Int) + 1 + setup.offset)) :=
    .step made (List.getElem?_eq_some_iff.1 found).1
  have isJudged : RunName setup.base setup.offset verdicts
      (Trail.judgedName setup.base ((made : Int) + 1 + setup.offset)
        (Outcome.ofVerdict interesting)) := .judged made interesting found
  have setsAside : JobFiles.SetsAside (ResultName setup verdicts) _ :=
    isStep.ofBase.setsAside isStem
  have settled : Lockstep (Mirrors setup verdicts location)
      (settle setup candidate interesting >>= fun _ => pure interesting) := by
    have told : Lockstep (Mirrors setup verdicts location)
        (onPlan (setup.plan.update interesting) : Step PlanMemory JudgeMemory Unit) :=
      lockstep_onPlan _
    refine Lockstep.bind ?_ fun _ => lockstep_pure _
    cases interesting with
    | true =>
      refine Lockstep.bind (lockstep_modify fun _ _ mirrors => ?_) fun _ => told
      exact ⟨mirrors.directory, mirrors.progress.plan, congrArg (· + 1) mirrors.progress.accepted,
        rfl, mirrors.progress.stoppedEarly⟩
    | false =>
      refine Lockstep.bind (lockstep_count ?_) fun _ => told
      exact fun _ _ same => same
  refine InStep.bind (inStep_onDirectory mirrors ?_) fun _ after other _ _ => settled after other
  refine JobFiles.inStep_move setsAside (isJudged.ofBase.setsAside isStem) ⟨_, isStep, rfl⟩
    ⟨_, isJudged, rfl⟩ (stepName_ne_judgedName _ _ _) mirrors.directory fun ending member =>
      noFolder _ ?_
  rw [stepPath, jobPath, JobFiles.places_join _ setsAside.isStem]
  exact List.mem_map_of_mem member

end Steps

end Session

end ShaderReduction
