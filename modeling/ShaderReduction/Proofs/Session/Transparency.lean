/-
This file proves that a session goes on in the same way whether it remembers verdicts or not.

A candidate that is rejected without the judge has the contents of one that was rejected before, and
the answer of the judge depends on the contents alone, so the judge would have rejected it as well.
A session that ends with no loop therefore passes the same jobs to its plan and tells it the same as
one that judges every candidate. The directories of the two differ in results only, since nothing
else is written for a candidate that is judged.

This needs that a result can be written for each job that the session writes after the check of its
input. A candidate that is rejected without the judge has no result to be renamed, while the result
of one that is judged may have a name that is too long once it is tagged, and then the session
fails. Two sessions in which only the one that remembers comes to its end stand at the end of this
file.
-/

import ShaderReduction.Proofs.JobFiles.Replacement
import ShaderReduction.Proofs.Session.Detection
import ShaderReduction.Proofs.Session.Likeness
import ShaderReduction.Proofs.Session.Messages

namespace ShaderReduction

open ShaderReduction.Action Directory

/-- The setup in which no verdict is remembered. -/
def SessionSetup.forgetful {PlanMemory JudgeMemory : Type}
    (setup : SessionSetup PlanMemory JudgeMemory) : SessionSetup PlanMemory JudgeMemory :=
  { setup with remembers := false }

namespace Session

variable {PlanMemory JudgeMemory : Type}

/-! ### Ending alike -/

section EndsAlike

variable {setup : SessionSetup PlanMemory JudgeMemory}
  {verdicts : List (Except Fault Bool)} {location : Location}
  {Result Next : Type} {first second : Session PlanMemory JudgeMemory}

/-- The second of two runs ends as the first one, in a session that mirrors the other, unless the
first finds a loop. -/
def EndsAlike (setup : SessionSetup PlanMemory JudgeMemory) (verdicts : List (Except Fault Bool))
    (location : Location)
    (ended other : Except Fault Result × Session PlanMemory JudgeMemory) : Prop :=
  ended.1 ≠ .error .loop → other.1 = ended.1 ∧ Mirrors setup verdicts location ended.2 other.2

theorem endsAlike_pure (mirrors : Mirrors setup verdicts location first second) (result : Result) :
    EndsAlike setup verdicts location
      ((pure result : Step PlanMemory JudgeMemory Result).startingAt first)
      ((pure result : Step PlanMemory JudgeMemory Result).startingAt second) :=
  fun _ => ⟨rfl, mirrors⟩

theorem endsAlike_of_inStep {action : Step PlanMemory JudgeMemory Result}
    (inStep : InStep (Mirrors setup verdicts location) first second action) :
    EndsAlike setup verdicts location (action.startingAt first) (action.startingAt second) :=
  fun _ => ⟨inStep.result.symm, inStep.related⟩

theorem EndsAlike.exists_eq {ended other : Except Fault Result × Session PlanMemory JudgeMemory}
    (alike : EndsAlike setup verdicts location ended other) (noLoop : ended.1 ≠ .error .loop) :
    ∃ after, other = (ended.1, after) ∧ Mirrors setup verdicts location ended.2 after :=
  have ⟨result, mirrors⟩ := alike noLoop
  ⟨other.2, Prod.ext result rfl, mirrors⟩

/-- What ends alike may be followed by what ends alike wherever the first left off. -/
theorem EndsAlike.bind {action otherAction : Step PlanMemory JudgeMemory Result}
    {rest otherRest : Result → Step PlanMemory JudgeMemory Next}
    (alike : EndsAlike setup verdicts location (action.startingAt first)
      (otherAction.startingAt second))
    (restAlike : ∀ result after other, action.startingAt first = (.ok result, after) →
      Mirrors setup verdicts location after other →
        EndsAlike setup verdicts location ((rest result).startingAt after)
          ((otherRest result).startingAt other)) :
    EndsAlike setup verdicts location ((action >>= rest).startingAt first)
      ((otherAction >>= otherRest).startingAt second) := by
  rw [startingAt_bind, startingAt_bind]
  rcases run : action.startingAt first with ⟨fault | result, after⟩
  all_goals
    rw [run] at alike
    intro noLoop
  · obtain ⟨other, otherRun, mirrors⟩ := alike.exists_eq fun loop =>
      noLoop (congrArg Except.error (Except.error.inj loop))
    rw [otherRun]
    exact ⟨rfl, mirrors⟩
  · obtain ⟨other, otherRun, mirrors⟩ := alike.exists_eq fun impossible => nomatch impossible
    rw [otherRun]
    exact restAlike result after other run mirrors noLoop

end EndsAlike

/-! ### One attempt -/

/-- The verdicts of some attempts are the answers that their contents call for. -/
def Truthful (answer : List (Option Node) → Except (Path → Fault) Bool)
    (attempts : List (Attempt PlanMemory JudgeMemory)) : Prop :=
  ∀ attempt ∈ attempts, ∃ nodes, attempt.content = .ok nodes ∧
    ∀ interesting, attempt.verdict = .ok interesting → answer nodes = .ok interesting

section Attempt

variable {setup : SessionSetup PlanMemory JudgeMemory} {bindings : Option Members}
  {verdicts : List (Except Fault Bool)} {made : Nat} {location : Location} {candidate : Job}
  {answer : List (Option Node) → Except (Path → Fault) Bool}
  {earlier : List (Attempt PlanMemory JudgeMemory)} {attempt : Attempt PlanMemory JudgeMemory}
  {session other : Session PlanMemory JudgeMemory} {nodes : List (Option Node)}
  (isStem : JobFiles.IsStem setup.base) (follows : setup.judge.Follows answer)
  (found : verdicts[made]? = some attempt.verdict)
  (tries : Tries setup bindings candidate made session attempt)
  (remembered : Remembers setup earlier attempt.standing.cache)
  (isExact : Exact setup earlier attempt) (truthful : Truthful answer earlier)

include isStem follows found tries remembered isExact truthful

/-- Whether the judge is asked or not, the verdict is the answer that the contents call for, and
nothing but the result changes. -/
theorem verdict_eq_answer (noLoop : attempt.verdict ≠ .error .loop)
    (room : Room setup.folder location (ResultName setup verdicts) attempt.standing.bench.directory)
    (content : attempt.content = .ok nodes) :
    attempt.verdict = (answer nodes).mapError (fun fault => fault attempt.path) ∧
      ChangesIn location (ResultName setup verdicts) attempt.standing.bench.directory
        attempt.judged.bench.directory := by
  have path : attempt.path = jobPath setup (Trail.stepName setup.base _) := tries.path
  rw [Attempt.content, path] at content
  by_cases asked : attempt.Asked
  · have isJobPath : JobFiles.IsJobPath (jobPath setup (Trail.stepName setup.base
        ((made : Int) + 1 + setup.offset))) := JobFiles.isJobPath_join _ _
    obtain ⟨bench, consulted, change⟩ := exists_consultJudge_eq isStem
      (.step made (List.getElem?_eq_some_iff.1 found).1) follows room content
    obtain ⟨result, isResult, answered⟩ := isExact.asked asked
    rw [path, JobFiles.result_eq_ok isJobPath.plain] at isResult
    rw [← Except.ok.inj isResult, path] at answered
    rw [startingAt_consultJudge isJobPath, answered] at consulted
    obtain ⟨verdict, same⟩ := Prod.mk.inj consulted
    obtain rfl : attempt.judged.bench = bench := congrArg Session.bench same
    exact ⟨path ▸ verdict, change⟩
  · rw [isExact.unasked asked]
    refine ⟨?_, ChangesOnly.refl _⟩
    -- The judge was not asked, so an earlier candidate had the same contents.
    obtain ⟨former, among, same⟩ : ∃ former ∈ earlier, former.content = attempt.content := by
      by_contra none
      exact asked (isExact.asked_iff.2 fun former among same => none ⟨former, among, same⟩)
    obtain ⟨interesting, -, verdict, -, -⟩ := remembered.settled former among
    cases interesting with
    | true => exact absurd (isExact.loop_iff.2 ⟨former, among, same, verdict⟩).1 noLoop
    | false =>
      obtain ⟨formerNodes, formerContent, answers⟩ := truthful former among
      rw [(isExact.rejected ⟨former, among, same, verdict⟩).1]
      rw [formerContent, Attempt.content, path, content] at same
      rw [← Except.ok.inj same, answers false verdict]
      rfl

theorem truthful_append (noLoop : attempt.verdict ≠ .error .loop)
    (room : Room setup.folder location (ResultName setup verdicts)
      attempt.standing.bench.directory) :
    Truthful answer (earlier ++ [attempt]) := by
  obtain ⟨nodes, content, -⟩ := tries.exists_content
  obtain ⟨verdict, -⟩ := verdict_eq_answer isStem follows found tries remembered isExact truthful
    noLoop room content
  refine List.forall_mem_append.2 ⟨truthful, fun last member => ?_⟩
  rw [List.mem_singleton.1 member]
  refine ⟨nodes, content, fun interesting found => ?_⟩
  rw [verdict] at found
  cases answered : answer nodes with
  | error fault =>
    rw [answered] at found
    cases found
  | ok given =>
    rw [answered] at found
    exact congrArg Except.ok (Except.ok.inj found)

/-- The files of a candidate that was judged are still no folders. -/
theorem noFolder_of_judged (noLoop : attempt.verdict ≠ .error .loop)
    (room : Room setup.folder location (ResultName setup verdicts)
      attempt.standing.bench.directory) :
    ∀ place ∈ JobFiles.places (stepPath setup made),
      attempt.judged.bench.directory.nodeAt place ≠ some .folder := by
  intro place member
  obtain ⟨nodes, content, -⟩ := tries.exists_content
  obtain ⟨-, change⟩ := verdict_eq_answer isStem follows found tries remembered isExact truthful
    noLoop room content
  exact change.folders.nodeAt_ne_folder
    ((readable_of_writeCandidate tries.written).noFolder place member)

/-- A session that remembers nothing finds the same verdict. -/
theorem endsAlike_consult (remembers : setup.remembers = true)
    (mirrors : Mirrors setup verdicts location attempt.standing other) :
    EndsAlike setup verdicts location (attempt.verdict, attempt.judged)
      ((consult setup.forgetful (stepPath setup made)).startingAt other) := by
  intro noLoop
  have isRunName : RunName setup.base setup.offset verdicts
      (Trail.stepName setup.base ((made : Int) + 1 + setup.offset)) :=
    .step made (List.getElem?_eq_some_iff.1 found).1
  obtain ⟨nodes, content, -⟩ := tries.exists_content
  obtain ⟨verdict, change⟩ := verdict_eq_answer isStem follows found tries remembered isExact
    truthful noLoop mirrors.directory.room content
  have view : JobFiles.view (jobPath setup (Trail.stepName setup.base
      ((made : Int) + 1 + setup.offset))) attempt.standing.bench.directory = .ok nodes := by
    rw [← content, Attempt.content, tries.path]
    rfl
  obtain ⟨bench, consulted, otherChange⟩ := exists_consultJudge_eq isStem isRunName follows
    mirrors.directory.otherRoom
      (((isRunName.ofBase.setsAside isStem).view_eq mirrors.directory).trans view)
  have progress : SameProgress attempt.standing attempt.judged := by
    refine (sameProgress_consultCache setup attempt.path).of_eq (Eq.trans ?_ tries.consulted)
    rw [consult, if_pos remembers]
  have otherProgress : SameProgress other (other.asking bench) := ⟨rfl, rfl, rfl, rfl⟩
  have run : (consult setup.forgetful (stepPath setup made)).startingAt other =
      (attempt.verdict, other.asking bench) := by
    rw [verdict, tries.path]
    exact consulted
  rw [run]
  exact ⟨rfl, mirrors.directory.of_changesIn change otherChange,
    trans_of SameProgress progress.symm (trans_of SameProgress mirrors.progress otherProgress)⟩

end Attempt

/-! ### The attempts of a session -/

section Shrink

variable {setup : SessionSetup PlanMemory JudgeMemory} {bindings : Option Members}
  {verdicts : List (Except Fault Bool)} {location : Location}
  {answer : List (Option Node) → Except (Path → Fault) Bool}
  (remembers : setup.remembers = true) (isStem : JobFiles.IsStem setup.base)
  (follows : setup.judge.Follows answer)

include isStem in
theorem Tries.room {made : Nat} {candidate : Job} {first second : Session PlanMemory JudgeMemory}
    {attempt : Attempt PlanMemory JudgeMemory}
    (tries : Tries setup bindings candidate made first attempt)
    (mirrors : Mirrors setup verdicts location first second) :
    Room setup.folder location (ResultName setup verdicts) attempt.standing.bench.directory :=
  have ⟨_, _, alike⟩ := (lockstep_writeCandidate isStem candidate first second
    mirrors).exists_eq tries.written
  alike.directory.room

include remembers isStem follows

/-- The same attempt in a session that remembers nothing: it is made on the same candidate, with the
same verdict. -/
theorem endsAlike_attemptCandidate {made : Nat} {candidate : Job}
    {first second : Session PlanMemory JudgeMemory}
    {earlier : List (Attempt PlanMemory JudgeMemory)}
    (mirrors : Mirrors setup verdicts location first second)
    (found : ∀ attempt, Tries setup bindings candidate made first attempt →
      verdicts[made]? = some attempt.verdict)
    (remembered : ∀ attempt, Tries setup bindings candidate made first attempt →
      Remembers setup earlier attempt.standing.cache) (truthful : Truthful answer earlier)
    (isExact : ∀ attempt, Tries setup bindings candidate made first attempt →
      Exact setup earlier attempt) :
    EndsAlike setup verdicts location
      ((attemptCandidate setup bindings candidate made).startingAt first)
      ((attemptCandidate setup.forgetful bindings candidate made).startingAt second) := by
  rw [attemptCandidate_eq, attemptCandidate_eq]
  refine (endsAlike_of_inStep
    (lockstep_writeCandidate isStem candidate first second mirrors)).bind
    fun _ standing other written alike => ?_
  refine EndsAlike.bind ?_ fun interesting judged otherJudged consulted alikeJudged => ?_
  · have tries : Tries setup bindings candidate made first
        ⟨candidate, stepPath setup made, standing,
          ((consult setup (stepPath setup made)).startingAt standing).1,
          ((consult setup (stepPath setup made)).startingAt standing).2⟩ :=
      ⟨rfl, rfl, written, rfl⟩
    exact endsAlike_consult isStem follows (found _ tries) tries (remembered _ tries)
      (isExact _ tries) truthful remembers alike
  · have tries : Tries setup bindings candidate made first
        ⟨candidate, stepPath setup made, standing, .ok interesting, judged⟩ :=
      ⟨rfl, rfl, written, consulted⟩
    have noLoop : (.ok interesting : Except Fault Bool) ≠ .error .loop := by rintro ⟨⟩
    exact endsAlike_of_inStep (inStep_conclude isStem candidate (found _ tries) alikeJudged
      (noFolder_of_judged isStem follows (found _ tries) tries (remembered _ tries)
        (isExact _ tries) truthful noLoop alike.directory.room))

/-- The attempts of a session that remembers nothing follow those of one that remembers its
verdicts, unless the latter finds a loop. -/
theorem endsAlike_shrink {budget made : Nat} {job : Job}
    {first second : Session PlanMemory JudgeMemory}
    {earlier : List (Attempt PlanMemory JudgeMemory)}
    (mirrors : Mirrors setup verdicts location first second)
    (remembered : Remembers setup earlier first.cache) (truthful : Truthful answer earlier)
    (count : earlier.length = made)
    (whole : verdicts =
      (earlier ++ attemptsFrom setup bindings budget made job first).map Attempt.verdict)
    (separates : Separates setup.storage
      (earlier ++ attemptsFrom setup bindings budget made job first)) :
    EndsAlike setup verdicts location ((shrink setup bindings budget made job).startingAt first)
      ((shrink setup.forgetful bindings budget made job).startingAt second) := by
  induction budget generalizing made job first second earlier with
  | zero => exact fun _ => ⟨rfl, mirrors⟩
  | succ budget inductionHypothesis =>
    rw [attemptsFrom] at separates whole
    rw [shrink_succ, shrink_succ]
    refine (endsAlike_of_inStep (lockstep_nextCandidate job first second mirrors)).bind
      fun proposal proposed other next alike => ?_
    rw [next] at separates whole
    have sameCache := (sameCache_nextCandidate made job).of_eq next
    cases proposal with
    | none => exact endsAlike_pure alike job
    | some candidate =>
      dsimp only at separates whole
      have standingCache : ∀ attempt, Tries setup bindings candidate made proposed attempt →
          Remembers setup earlier attempt.standing.cache := fun attempt tries =>
        (sameCache_writeCandidate candidate made).of_eq tries.written ▸ sameCache ▸ remembered
      have settles : ∀ attempt, Tries setup bindings candidate made proposed attempt →
          Exact setup earlier attempt ∧ ∀ interesting, attempt.verdict = .ok interesting →
            Remembers setup (earlier ++ [attempt]) attempt.judged.cache := by
        intro attempt tries
        rw [tries.attempt?_eq, ← List.append_assoc] at separates
        exact exact_of_made (standingCache attempt tries) (made_of_tries remembers tries)
          (separates.mono (List.subset_append_left _ _))
      have found : ∀ attempt, Tries setup bindings candidate made proposed attempt →
          verdicts[made]? = some attempt.verdict := by
        intro attempt tries
        rw [whole, tries.attempt?_eq, List.getElem?_map, List.getElem?_append_right count.le, count,
          Nat.sub_self]
        rfl
      refine (endsAlike_attemptCandidate remembers isStem follows alike found standingCache truthful
        fun attempt tries => (settles attempt tries).1).bind
        fun accepted after otherAfter attempted alikeAfter => ?_
      obtain ⟨attempt, tries, verdict, concluded⟩ := attemptCandidate_eq_ok attempted
      obtain ⟨isExact, remembering⟩ := settles attempt tries
      have sameCache := (sameCache_conclude candidate made accepted).of_eq concluded
      have noLoop : attempt.verdict ≠ .error .loop := by
        rw [verdict]
        rintro ⟨⟩
      rw [tries.attempt?_eq, attempted, ← List.append_assoc] at separates whole
      refine inductionHypothesis alikeAfter (sameCache ▸ remembering accepted verdict)
        (truthful_append isStem follows (found attempt tries) tries (standingCache attempt tries)
          isExact truthful noLoop (Tries.room isStem tries alike)) ?_ whole separates
      rw [List.length_append, List.length_singleton, count]

/-! ### The whole session -/

theorem endsAlike_proceed {budget : Nat} {job : Job}
    {first second : Session PlanMemory JudgeMemory}
    (mirrors : Mirrors setup verdicts location first second)
    (remembered : Remembers setup [] first.cache)
    (whole : verdicts = (attemptsFrom setup bindings budget 0 job
      { first with current := some job }).map Attempt.verdict)
    (separates : Separates setup.storage
      (attemptsFrom setup bindings budget 0 job { first with current := some job })) :
    EndsAlike setup verdicts location ((proceed setup bindings budget job).startingAt first)
      ((proceed setup.forgetful bindings budget job).startingAt second) := by
  have begun : Mirrors setup verdicts location { first with current := some job }
      { second with current := some job } :=
    ⟨mirrors.directory, mirrors.progress.plan, mirrors.progress.accepted, rfl,
      mirrors.progress.stoppedEarly⟩
  rw [proceed, startingAt_bind, startingAt_modify, proceed, startingAt_bind, startingAt_modify]
  have truthful : Truthful answer ([] : List (Attempt PlanMemory JudgeMemory)) :=
    fun _ member => absurd member List.not_mem_nil
  refine (endsAlike_shrink remembers isStem follows begun remembered truthful List.length_nil whole
    separates).bind fun last between other _ alike => ?_
  exact endsAlike_of_inStep (lockstep_finish isStem follows last between other alike)

/-- Up to its attempts a session goes the same way whether it remembers verdicts or not. -/
theorem endsAlike_runFree {budget : Nat} {free : Job} {session : Session PlanMemory JudgeMemory}
    (room : Room setup.folder location (ResultName setup verdicts) session.bench.directory)
    (remembered : Remembers setup [] session.cache)
    (opens : ∀ opened, (mayProceed setup bindings free).startingAt session = (.ok true, opened) →
      verdicts = (attemptsFrom setup bindings budget 0 free
        { opened with current := some free }).map Attempt.verdict ∧
      Separates setup.storage
        (attemptsFrom setup bindings budget 0 free { opened with current := some free })) :
    EndsAlike setup verdicts location ((runFree setup bindings budget free).startingAt session)
      ((runFree setup.forgetful bindings budget free).startingAt session) := by
  have same : mayProceed setup.forgetful bindings free = mayProceed setup bindings free := rfl
  have opening : EndsAlike setup verdicts location
      ((mayProceed setup bindings free).startingAt session)
      ((mayProceed setup.forgetful bindings free).startingAt session) := by
    rw [same]
    have folders : SameFolders session.bench.directory
        ((mayProceed setup bindings free).startingAt session).2.bench.directory :=
      sameFolders_of_mayProceed follows.tidy rfl
    exact fun _ => ⟨rfl, (room.of_sameFolders folders).sameBut_self, refl_of SameProgress _⟩
  refine opening.bind fun may opened other checked alike => ?_
  cases may with
  | false => exact endsAlike_pure alike none
  | true =>
    have same := (sameCache_mayProceed free).of_eq checked
    obtain ⟨whole, separates⟩ := opens opened checked
    exact (endsAlike_proceed remembers isStem follows alike (same ▸ remembered) whole
      separates).bind fun name _ _ _ alike => endsAlike_pure alike (some name)

/-- A session that remembers nothing ends as one that remembers its verdicts, unless the latter
finds a loop. -/
theorem endsAlike_run {budget : Nat} {job : Job} {session : Session PlanMemory JudgeMemory}
    (room : Room setup.folder location (ResultName setup verdicts) session.bench.directory)
    (remembered : Remembers setup [] session.cache)
    (whole : verdicts = (attempts setup budget job session).map Attempt.verdict)
    (separates : Separates setup.storage (attempts setup budget job session)) :
    EndsAlike setup verdicts location ((run setup budget job).startingAt session)
      ((run setup.forgetful budget job).startingAt session) := by
  unfold attempts at separates whole
  rw [run_eq, run_eq]
  cases form : freeForm job with
  | error fault =>
    rw [ofExcept_error_bind, ofExcept_error_bind]
    exact fun _ => ⟨rfl, room.sameBut_self, refl_of SameProgress session⟩
  | ok pair =>
    obtain ⟨bindings, free⟩ := pair
    rw [ofExcept_ok_bind, ofExcept_ok_bind]
    rw [form] at separates whole
    refine endsAlike_runFree remembers isStem follows room remembered fun opened checked => ?_
    dsimp only at separates whole
    rw [checked] at separates whole
    exact ⟨whole, separates⟩

end Shrink

section Transparent

variable (setup : SessionSetup PlanMemory JudgeMemory) (remembers : setup.remembers = true)
  (budget : Nat) (job : Job)

include remembers

/-- Remembering verdicts shows in no way but in results that are missing. If a session that
remembers its verdicts finds no loop, and a result can be written for its final job and for each of
its attempts, under the name of the step and under that of the tagged step, then the session that
judges every candidate says the same to its plan, ends with the same result or fault and the same
current job, and leaves the same files, these results apart. -/
theorem forgetful_alike_of_run {answer : List (Option Node) → Except (Path → Fault) Bool}
    (isStem : JobFiles.IsStem setup.base) (follows : setup.judge.Follows answer)
    (directory : Directory) (planMemory : PlanMemory) (judgeMemory : JudgeMemory)
    (writable : FileAction.AllWritable (ResultPath setup
      ((attempts setup budget job (start directory planMemory judgeMemory)).map Attempt.verdict))
      directory)
    (separates : Separates setup.storage
      (attempts setup budget job (start directory planMemory judgeMemory)))
    (noLoop : ((run setup budget job).startingAt (start directory planMemory judgeMemory)).1 ≠
      .error .loop) :
    let made := attempts setup budget job (start directory planMemory judgeMemory)
    let remembering := (run setup budget job).startingAt (start directory planMemory judgeMemory)
    let judging :=
      (run setup.forgetful budget job).startingAt (start directory planMemory judgeMemory)
    judging.1 = remembering.1 ∧
      messages setup.forgetful budget job directory planMemory judgeMemory =
        messages setup budget job directory planMemory judgeMemory ∧
      judging.2.current = remembering.2.current ∧
      ChangesAt (ResultPath setup (made.map Attempt.verdict)) remembering.2.bench.directory
        judging.2.bench.directory := by
  intro made remembering judging
  obtain ⟨location, room⟩ : ∃ location,
      Room setup.folder location (ResultName setup (made.map Attempt.verdict)) directory :=
    exists_room_of_writable ⟨_, .final, rfl⟩ (fun _ => plainName_of_resultName isStem) writable
  have watches := setup.plan.watches_logged
  have judges := setup.judge.watches_self
  have forgotten := attempts_forget watches judges budget job
    (startLogged directory planMemory judgeMemory)
  have separatesLogged : Separates setup.storage
      (attempts setup.logged budget job (startLogged directory planMemory judgeMemory)) := by
    intro first firstMember second secondMember same
    refine separates (first.forget Logged.memory id) ?_ (second.forget Logged.memory id) ?_ same
    · exact forgotten ▸ List.mem_map_of_mem firstMember
    · exact forgotten ▸ List.mem_map_of_mem secondMember
  have whole : made.map Attempt.verdict = (attempts setup.logged budget job
      (startLogged directory planMemory judgeMemory)).map Attempt.verdict := by
    refine (congrArg (List.map Attempt.verdict) forgotten).symm.trans ?_
    rw [List.map_map]
    rfl
  cases logged : (run setup.logged budget job).startingAt
      (startLogged directory planMemory judgeMemory) with
  | mk outcome after =>
    have remembered : remembering = (outcome, after.forget Logged.memory id) :=
      (projects_run watches judges budget job).of_eq logged
    have remembersLogged : setup.logged.remembers = true := remembers
    have endsAlike : EndsAlike setup.logged (made.map Attempt.verdict) location
        ((run setup.logged budget job).startingAt (startLogged directory planMemory judgeMemory))
        ((run setup.logged.forgetful budget job).startingAt
          (startLogged directory planMemory judgeMemory)) :=
      endsAlike_run remembersLogged isStem follows room (remembers_empty setup.logged) whole
        separatesLogged
    rw [logged] at endsAlike
    obtain ⟨other, otherLogged, alike⟩ := endsAlike.exists_eq fun loop =>
      noLoop ((congrArg Prod.fst remembered).trans loop)
    have judged : judging = (outcome, other.forget Logged.memory id) :=
      (projects_run setup.forgetful.plan.watches_logged setup.forgetful.judge.watches_self budget
        job).of_eq otherLogged
    have messagesEq : messages setup budget job directory planMemory judgeMemory =
        after.plan.messages := by rw [messages, logged]
    have judgedMessages : messages setup.forgetful budget job directory planMemory judgeMemory =
        other.plan.messages :=
      congrArg (fun ended => ended.2.plan.messages) otherLogged
    rw [remembered, judged, messagesEq, judgedMessages, alike.progress.plan]
    exact ⟨rfl, rfl, alike.progress.current.symm,
      alike.directory.room.changesAt alike.directory.change⟩

end Transparent

end Session

/-! ### A session that remembers a rejection -/

/-- The judge that rejects the jobs that have a file with some content, and leaves an empty result
where one can be written. -/
def rejecting (content : Bytes) : Judge Unit where
  report job result := do
    let files ← Action.ofExcept (JobFiles.view job (← get).directory)
    Bench.onDirectory (tryCatch (FileAction.touch result) fun _ => pure ())
    let verdict := if some (.file content) ∈ files then .notInteresting else .interesting
    pure ⟨verdict, [], none, false, [], .finite false 0 0⟩

theorem writesOnlyResult_rejecting (content : Bytes) : (rejecting content).WritesOnlyResult := by
  intro job result bench
  have touched : Respects (ChangesAt (· = result))
      (tryCatch (FileAction.touch result) fun _ => pure ()) :=
    (FileAction.changesAt_touch result).tryCatch fun _ => respects_pure _
  have change : Respects (Bench.OnDirectory (ChangesAt (· = result)))
      ((rejecting content).report job result) :=
    respects_get.bind fun _ => (respects_ofExcept _).bind fun _ =>
      (Bench.respects_onDirectory touched).bind fun _ => respects_pure _
  exact change bench

/-- The answer depends on the files of the job alone, wherever the judge is asked. -/
theorem rejecting_answers {content : Bytes} {job result : Path} {bench : Bench Unit}
    {files : List (Option Node)} (view : JobFiles.view job bench.directory = .ok files) :
    (((rejecting content).isInteresting job result).startingAt bench).1 =
      .ok (decide (some (.file content) ∉ files)) := by
  have touched : ∃ after, (tryCatch (FileAction.touch result) fun _ => pure ()).startingAt
      bench.directory = (.ok (), after) := by
    rw [startingAt_tryCatch]
    rcases (FileAction.touch result).startingAt bench.directory with ⟨_ | _, after⟩ <;>
      exact ⟨after, rfl⟩
  obtain ⟨after, touched⟩ := touched
  rw [Judge.isInteresting, rejecting]
  simp only [startingAt_bind, startingAt_get, startingAt_ofExcept, view, Bench.onDirectory,
    startingAt_onPart, touched, startingAt_pure]
  by_cases member : some (Node.file content) ∈ files
  · rw [if_pos member, decide_eq_false (not_not_intro member)]
    rfl
  · rw [if_neg member, decide_eq_true member]
    rfl

theorem follows_rejecting (content : Bytes) :
    (rejecting content).Follows fun files => .ok (decide (some (.file content) ∉ files)) where
  tidy := writesOnlyResult_rejecting content
  answers _ _ _ _ _ _ view := rejecting_answers view

namespace Session

/-- The setup in which some jobs are proposed and those with one text are rejected. -/
def rejectingSetup : SessionSetup (List Job) Unit where
  plan := proposeAll
  judge := rejecting [0x61, 0x0A]
  storage := Storage.usual false
  base := "job"
  folder := "work"
  offset := 0
  limit := .unlimited
  remembers := true

/-- The candidates of a session that repeats a rejected one. -/
def rejectedTwice : List Job := [fragmentJob "a\n", fragmentJob "a\n", fragmentJob "b\n"]

/-- In an empty folder the results of the first attempts can be written. -/
theorem allWritable_rejectingSetup {verdicts : List (Except Fault Bool)}
    (few : verdicts.length ≤ 3) :
    FileAction.AllWritable (ResultPath rejectingSetup verdicts) workDirectory := by
  have isStem : JobFiles.IsStem rejectingSetup.base := ⟨by decide, by decide⟩
  have holds : HoldsFiles workDirectory rejectingSetup.folder ["work"] :=
    ⟨⟨rfl, rfl⟩, fun name _ isFolder => by cases isFolder⟩
  have steps : ∀ made : Nat, made < 3 → childFault? rejectingSetup.folder
      (Trail.stepName rejectingSetup.base ((made : Int) + 1 + rejectingSetup.offset) ++
        JobFiles.resultEnding) = none := by
    decide +kernel
  have judged : ∀ interesting : Bool, ∀ made : Nat, made < 3 → childFault? rejectingSetup.folder
      (Trail.judgedName rejectingSetup.base ((made : Int) + 1 + rejectingSetup.offset)
        (Outcome.ofVerdict interesting) ++ JobFiles.resultEnding) = none := by
    decide +kernel
  rintro path ⟨name, isResult, rfl⟩
  refine FileAction.writable_join holds (plainName_of_resultName isStem isResult) ?_
  obtain ⟨stem, isRunName, rfl⟩ := isResult
  cases isRunName with
  | final => decide +kernel
  | step made within => exact steps made (by omega)
  | judged made interesting found =>
    have within := (List.getElem?_eq_some_iff.1 found).1
    exact judged interesting made (by omega)

set_option maxRecDepth 10000 in
theorem forgetful_alike_of_rejectingSetup :
    let session := start workDirectory rejectedTwice ()
    let made := attempts rejectingSetup 4 (fragmentJob "c\n") session
    let remembering := (run rejectingSetup 4 (fragmentJob "c\n")).startingAt session
    let judging := (run rejectingSetup.forgetful 4 (fragmentJob "c\n")).startingAt session
    remembering.1.toOption = some (some ("job_reduced_final" : Text)) ∧
      remembering.2.tally.cacheHits = 1 ∧ judging.2.tally.cacheHits = 0 ∧
      judging.1 = remembering.1 ∧
      messages rejectingSetup.forgetful 4 (fragmentJob "c\n") workDirectory rejectedTwice () =
        messages rejectingSetup 4 (fragmentJob "c\n") workDirectory rejectedTwice () ∧
      judging.2.current = remembering.2.current ∧
      ChangesAt (ResultPath rejectingSetup (made.map Attempt.verdict))
        remembering.2.bench.directory judging.2.bench.directory := by
  intro session made remembering judging
  have isStem : JobFiles.IsStem rejectingSetup.base := ⟨by decide, by decide⟩
  obtain ⟨ended, hits, misses, toldApart, few⟩ :
      remembering.1.toOption = some (some ("job_reduced_final" : Text)) ∧
      remembering.2.tally.cacheHits = 1 ∧ judging.2.tally.cacheHits = 0 ∧
      ToldApart rejectingSetup.storage made ∧ made.length = 3 := by
    decide +kernel
  have noLoop : remembering.1 ≠ .error .loop := by
    rw [eq_ok_of_toOption ended]
    exact fun impossible => nomatch impossible
  have writable : FileAction.AllWritable
      (ResultPath rejectingSetup (made.map Attempt.verdict)) workDirectory :=
    allWritable_rejectingSetup (by rw [List.length_map, few])
  exact ⟨ended, hits, misses,
    forgetful_alike_of_run rejectingSetup rfl 4 (fragmentJob "c\n") isStem
      (follows_rejecting [0x61, 0x0A]) workDirectory rejectedTwice () writable toldApart.separates
      noLoop⟩

/-! ### Sessions that cannot rename a result -/

/-- The same setup with a base so long that the result of a rejected step has a name that is too
long as soon as the number of the step has five digits, after so many steps that the second attempt
is the first of them. -/
def longSetup : SessionSetup (List Job) Unit :=
  { rejectingSetup with base := List.replicate 227 (.scalar 'a'), offset := 9998 }

/-- A folder in which the name for the result of the second attempt, once it is rejected, stands for
a folder with a file in it that has the name of the result itself. -/
def blockedDirectory : Directory :=
  ⟨[([("work" : Text)], .folder),
    ([("work" : Text), ("job_reduced_0002_fail.info.json" : Text)], .folder),
    ([("work" : Text), ("job_reduced_0002_fail.info.json" : Text),
      ("job_reduced_0002.info.json" : Text)], .file [])]⟩

/-- The session that begins in a directory and is proposed a rejected job twice. -/
def startTwice (directory : Directory) : Session (List Job) Unit :=
  start directory (rejectedTwice.take 2) ()

/-- A session that is proposed a rejected job twice ends with a final job if it remembers verdicts,
and fails if it judges every candidate. -/
structure FailsForgetful (setup : SessionSetup (List Job) Unit) (directory : Directory) : Prop where
  isStem : JobFiles.IsStem setup.base
  separates : Separates setup.storage
    (attempts setup 3 (fragmentJob "c\n") (startTwice directory))
  remembering : ((run setup 3 (fragmentJob "c\n")).startingAt (startTwice directory)).1.toOption =
    some (some (Trail.finalName setup.base))
  judging : ((run setup.forgetful 3 (fragmentJob "c\n")).startingAt
    (startTwice directory)).1.toOption = none

theorem failsForgetful_of_ended {setup : SessionSetup (List Job) Unit} {directory : Directory}
    (isStem : JobFiles.IsStem setup.base)
    (ended : ToldApart setup.storage
        (attempts setup 3 (fragmentJob "c\n") (startTwice directory)) ∧
      ((run setup 3 (fragmentJob "c\n")).startingAt (startTwice directory)).1.toOption =
        some (some (Trail.finalName setup.base)) ∧
      ((run setup.forgetful 3 (fragmentJob "c\n")).startingAt
        (startTwice directory)).1.toOption = none) :
    FailsForgetful setup directory :=
  ⟨isStem, ended.1.separates, ended.2.1, ended.2.2⟩

set_option maxRecDepth 10000 in
/-- Remembering verdicts shows where the result of a rejected candidate cannot be renamed, because
its name is too long then or stands for a folder. -/
theorem forgetful_fails_of_unwritable :
    longSetup.judge.WritesOnlyResult ∧
      (∀ job result bench files, JobFiles.view job bench.directory = .ok files →
        ((longSetup.judge.isInteresting job result).startingAt bench).1 =
          .ok (decide (some (.file [0x61, 0x0A]) ∉ files))) ∧
      FailsForgetful longSetup workDirectory ∧ FailsForgetful rejectingSetup blockedDirectory :=
  ⟨writesOnlyResult_rejecting _, fun _ _ _ _ => rejecting_answers,
    failsForgetful_of_ended ⟨by decide, by decide⟩ (by decide +kernel),
    failsForgetful_of_ended ⟨by decide, by decide⟩ (by decide +kernel)⟩

end Session

end ShaderReduction
