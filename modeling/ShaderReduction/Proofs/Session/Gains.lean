/-
This file proves what a session tells in a folder that may have been used before.

Writing and judging jobs is quiet, and so is reverting the final one. So a session that ends tells,
beside what was told before, the steps of its attempts, and the marker of an input that is not
interesting or that of an early stop if it came to that; nothing is cleared away first. Whatever
ends a session, the markers that it finds stay.
-/

import ShaderReduction.Proofs.Session.Record
import ShaderReduction.Proofs.Trail.Gains

namespace ShaderReduction

open ShaderReduction.Action Directory Trail

namespace Session

variable {PlanMemory JudgeMemory : Type}

/-! ### What is counted besides attempts -/

/-- Two sessions have the same counts, questions to the judge apart. -/
def OnlyCalls (before after : Session PlanMemory JudgeMemory) : Prop :=
  ∃ judgeCalls, after.tally = { before.tally with judgeCalls }

instance : IsPreorder (Session PlanMemory JudgeMemory) OnlyCalls where
  refl session := ⟨session.tally.judgeCalls, rfl⟩
  trans _ _ _ := by
    rintro ⟨calls, first⟩ ⟨more, second⟩
    exact ⟨more, by rw [second, first]⟩

theorem onlyCalls_onBench {Result : Type} (action : Action (Bench JudgeMemory) Result) :
    Respects OnlyCalls (onBench action : Step PlanMemory JudgeMemory Result) :=
  fun session => ⟨session.tally.judgeCalls, rfl⟩

section Initial

variable {setup : SessionSetup PlanMemory JudgeMemory} {bindings : Option Members}

/-- The check of the input counts nothing but questions to the judge. -/
theorem onlyCalls_mayProceed (job : Job) : Respects OnlyCalls (mayProceed setup bindings job) := by
  have written : Respects OnlyCalls (writeJob setup bindings job (jobPath setup setup.base)) :=
    (respects_ofExcept _).bind fun _ => onlyCalls_onBench _
  have asked : Respects OnlyCalls (consultJudge setup (jobPath setup setup.base)) :=
    Respects.bind (fun _ => ⟨_, rfl⟩) fun _ => (respects_ofExcept _).bind fun _ =>
      onlyCalls_onBench _
  exact holds_mayProceed composes_respects (written.bind fun _ => asked) (onlyCalls_onBench _)

end Initial

/-! ### What the parts of a session tell -/

section Leaves

variable {site : Site} {setup : SessionSetup PlanMemory JudgeMemory}
  (leaves : LeavesAt site setup) {bindings : Option Members} {name : Text}

include leaves

theorem LeavesAt.quiet_of_changesAt (untagged : Untagged site.base name)
    {before after : Directory} (change : ChangesAt (FilesOf setup name) before after) :
    site.Quiet before after := by
  refine Site.quiet_of_changesAt change fun path among => ?_
  obtain ⟨more, dot, plain, rfl⟩ :=
    exists_dot_of_file (Scene.noSlash_of_untagged leaves.noSlash untagged) setup.folder among
  exact ⟨name ++ more, untagged.not_telling dot, plain, leaves.folder ▸ rfl⟩

/-- Writing and judging jobs that are no judged steps tells nothing. -/
theorem LeavesAt.quiet (untagged : Untagged site.base name) :
    ConfinedTo (Bench.OnDirectory site.Quiet) setup name where
  write job := ((confinedTo_filesOf leaves.tidy name).write job).mono fun _ _ =>
    leaves.quiet_of_changesAt untagged
  judge result found := ((confinedTo_filesOf leaves.tidy name).judge result found).mono fun _ _ =>
    leaves.quiet_of_changesAt untagged

theorem LeavesAt.untagged_step (made : Nat) :
    Untagged site.base (stepName setup.base (made + 1 + setup.offset)) := by
  rw [leaves.base, leaves.attempt_eq]
  exact .step _

variable {session after : Session PlanMemory JudgeMemory}

theorem LeavesAt.gains_of_mayProceed {job : Job} {proceeds : Bool}
    (checked : (mayProceed setup bindings job).startingAt session = (.ok proceeds, after)) :
    site.Gains (fun name => proceeds = false ∧ name = notInterestingMarker)
      session.bench.directory after.bench.directory := by
  have nothing : ∀ name, False ↔ true = false ∧ name = notInterestingMarker := fun _ =>
    ⟨False.elim, fun both => Bool.noConfusion both.1⟩
  have quiet : Respects (OffPlan (Bench.OnDirectory site.Quiet))
      (tryInitial setup bindings job initialTries) :=
    respects_tryInitial (leaves.base ▸ leaves.quiet .input) job _
  cases proceeds with
  | true =>
    rcases mayProceed_eq_true checked with ⟨-, rfl⟩ | ⟨-, tried⟩
    · exact (Site.Quiet.refl _).congr nothing
    · exact Site.Gains.congr (quiet.of_eq tried).bench nothing
  | false =>
    obtain ⟨between, tried, touched⟩ := mayProceed_eq_false checked
    have trying : site.Quiet session.bench.directory between.bench.directory :=
      (quiet.of_eq tried).bench
    obtain ⟨directory, run, rfl⟩ := onDirectory_eq_iff.1 touched
    rw [leaves.folder] at run
    exact (trying.gains (Site.gains_of_touch (by decide) run)).congr fun _ =>
      (and_iff_right rfl).symm

/-- An attempt tells its step. -/
theorem LeavesAt.gains_of_passes {made : Nat} {job : Job}
    {proposed : Session PlanMemory JudgeMemory} {attempt : Attempt PlanMemory JudgeMemory}
    (passes : Passes setup bindings made job session proposed attempt after) :
    site.Gains (· = fileName (site.nameAt made attempt.step)) session.bench.directory
      after.bench.directory := by
  obtain ⟨plan, rfl⟩ := (onlyPlan_proposeRetrying _ _).of_eq (nextCandidate_eq_some passes.next).2
  have quiet : site.Quiet session.bench.directory attempt.judged.bench.directory :=
    (passes.tries.offPlan (leaves.quiet (leaves.untagged_step made))).bench
  obtain ⟨directory, memory, moved, -, rfl⟩ := conclude_eq_ok passes.concluded
  rw [stepPath, jobPath, jobPath, leaves.folder, leaves.base, leaves.attempt_eq] at moved
  exact quiet.gains (Site.gains_of_move leaves.noSlash _ _ moved)

/-- The attempts of a session tell their steps. -/
theorem LeavesAt.gains_of_course {made : Nat} {job last : Job}
    {attempts : List (Attempt PlanMemory JudgeMemory)}
    (course : Course setup bindings made job session attempts last after) :
    site.Gains (fun name => ∃ index attempt, attempts[index]? = some attempt ∧
      name = fileName (site.nameAt (made + index) attempt.step)) session.bench.directory
        after.bench.directory := by
  induction course with
  | @finished made job session after ended =>
    have same : session.bench = after.bench := by
      rcases nextCandidate_eq_none ended with ⟨-, rfl⟩ | ⟨-, exhausted⟩
      · rfl
      · obtain ⟨plan, rfl⟩ := (onlyPlan_proposeRetrying _ _).of_eq exhausted
        rfl
    rw [same]
    refine (Site.Quiet.refl _).congr fun name => ⟨False.elim, ?_⟩
    rintro ⟨index, attempt, found, -⟩
    cases found
  | @attempted made job last session proposed between after attempt attempts passes rest
      inductionHypothesis =>
    refine ((leaves.gains_of_passes passes).trans inductionHypothesis).congr fun name => ?_
    constructor
    · rintro (rfl | ⟨index, other, found, rfl⟩)
      · exact ⟨0, attempt, rfl, rfl⟩
      · refine ⟨index + 1, other, found, ?_⟩
        rw [Nat.add_assoc, Nat.add_comm 1 index]
    · rintro ⟨_ | index, other, found, rfl⟩
      · cases found
        exact .inl rfl
      · refine .inr ⟨index, other, found, ?_⟩
        rw [Nat.add_assoc, Nat.add_comm 1 index]

theorem LeavesAt.gains_of_markIncomplete
    (marked : (markIncomplete setup).startingAt session = (.ok (), after)) :
    site.Gains (fun name => after.tally.stoppedEarly = true ∧ name = incompleteMarker)
      session.bench.directory after.bench.directory := by
  rcases markIncomplete_eq_ok marked with ⟨stopped, touched⟩ | ⟨running, rfl⟩
  · obtain ⟨directory, run, rfl⟩ := onDirectory_eq_iff.1 touched
    rw [leaves.folder] at run
    exact (Site.gains_of_touch (by decide) run).congr fun _ => (and_iff_right stopped).symm
  · exact (Site.Quiet.refl _).congr fun _ =>
      ⟨False.elim, fun both => Bool.eq_false_iff.1 running both.1⟩

theorem LeavesAt.gains_of_finish {job : Job} {final : Text}
    (finished : (finish setup bindings job).startingAt session = (.ok final, after)) :
    site.Gains (fun name => after.tally.stoppedEarly = true ∧ name = incompleteMarker)
      session.bench.directory after.bench.directory := by
  have confined : ConfinedTo (Bench.OnDirectory site.Quiet) setup (finalName setup.base) :=
    leaves.base ▸ leaves.quiet .final
  obtain ⟨rfl, interesting, judged, reverted, asked, ending, marked⟩ := finish_eq_ok finished
  have judging : site.Quiet session.bench.directory judged.bench.directory :=
    ((respects_judgeJob confined _).of_eq asked).bench
  have marking := leaves.gains_of_markIncomplete marked
  rcases ending with ⟨-, rfl⟩ | ⟨-, revert⟩
  · exact judging.gains marking
  · have reverting : site.Quiet judged.bench.directory reverted.bench.directory :=
      leaves.quiet_of_changesAt (leaves.base ▸ .final)
        ((changesAt_revertFinal leaves.tidy _ job).of_eq revert).bench
    exact judging.gains (reverting.gains marking)

end Leaves

/-! ### The whole session -/

section Whole

variable {site : Site} {setup : SessionSetup PlanMemory JudgeMemory}
  (leaves : LeavesAt site setup) {budget : Nat} {job : Job}
  {session after : Session PlanMemory JudgeMemory}

/-- A session that ends without a final job made no attempt and counted nothing but questions to the
judge. -/
theorem proceeds_of_run_eq_none
    (ran : (run setup budget job).startingAt session = (.ok none, after)) :
    attempts setup budget job session = [] ∧ OnlyCalls session after ∧
      ∃ bindings free,
        (mayProceed setup bindings free).startingAt session = (.ok false, after) := by
  obtain ⟨bindings, free, isForm, rest⟩ := run_eq_ok ran
  have checked := runFree_eq_none rest
  refine ⟨?_, (onlyCalls_mayProceed free).of_eq checked, bindings, free, checked⟩
  unfold attempts
  rw [isForm]
  dsimp only
  rw [checked]

include leaves

/-- A session that ends tells the steps of its attempts, that the input was not interesting or that
it was stopped early, beside what was told before. -/
theorem LeavesAt.gains_of_run {result : Option Text}
    (running : session.tally.stoppedEarly = false)
    (ran : (run setup budget job).startingAt session = (.ok result, after)) :
    site.Gains (fun name =>
      (∃ index attempt, (attempts setup budget job session)[index]? = some attempt ∧
        name = fileName (site.nameAt index attempt.step)) ∨
      (result.isNone = true ∧ name = notInterestingMarker) ∨
      (after.tally.stoppedEarly = true ∧ name = incompleteMarker))
        session.bench.directory after.bench.directory := by
  cases result with
  | none =>
    obtain ⟨nothing, ⟨calls, counts⟩, bindings, free, checked⟩ := proceeds_of_run_eq_none ran
    refine (leaves.gains_of_mayProceed checked).congr fun name => ?_
    rw [nothing, counts, running]
    simp
  | some final =>
    obtain ⟨bindings, free, -, opened, last, shrunk, stages⟩ := exists_stages_of_run ran
    have opening := leaves.gains_of_mayProceed stages.proceeds
    have course := leaves.gains_of_course stages.course
    refine ((opening.trans course).trans (leaves.gains_of_finish stages.finished)).congr ?_
    simp

/-- The records found after a session that ends are those found before it and those of its attempts.
-/
theorem LeavesAt.mem_recordsOf_iff_of_run {result : Option Text}
    (running : session.tally.stoppedEarly = false)
    (ran : (run setup budget job).startingAt session = (.ok result, after))
    (flat : site.Flat session.bench.directory) {found : StepRecord} :
    found ∈ recordsOf site.folder site.base (after.bench.directory.namesIn site.location) ↔
      found ∈ recordsOf site.folder site.base
          (session.bench.directory.namesIn site.location) ∨
        found ∈ ((attempts setup budget job session).map Attempt.step).mapIdx site.record := by
  rw [(leaves.gains_of_run running ran).mem_recordsOf_iff leaves.noSlash flat, List.mem_mapIdx]
  refine or_congr_right ⟨?_, ?_⟩
  · rintro ⟨name, ⟨index, attempt, isIndex, rfl⟩ | ⟨-, rfl⟩ | ⟨-, rfl⟩, isStep, isAt⟩
    · have step : ((attempts setup budget job session).map Attempt.step)[index]? =
          some attempt.step := by
        rw [List.getElem?_map, isIndex, Option.map_some]
      obtain ⟨inside, same⟩ := List.getElem?_eq_some_iff.1 step
      rw [Site.nameAt, readStep?_judgedName] at isStep
      obtain ⟨number, outcome, path⟩ := found
      cases isStep
      refine ⟨index, inside, ?_⟩
      rw [same]
      exact congrArg (StepRecord.mk _ _) isAt.symm
    · rw [readStep?_of_mem_markers site.base (by decide)] at isStep
      cases isStep
    · rw [readStep?_of_mem_markers site.base (by decide)] at isStep
      cases isStep
  · rintro ⟨index, inside, rfl⟩
    rw [List.length_map] at inside
    refine ⟨_, .inl ⟨index, _, List.getElem?_eq_getElem inside, rfl⟩, ?_, ?_⟩
    · rw [Site.nameAt, readStep?_judgedName, List.getElem_map, Site.record]
    · rw [List.getElem_map, Site.record]

/-- Whatever ends a session, markers that were there stay. -/
theorem LeavesAt.lasts_run (budget : Nat) (job : Job) :
    Respects (OnBench (Bench.OnDirectory site.Lasts)) (run setup budget job) := by
  have untagged : ∀ name, JobName setup name → Untagged site.base name := by
    rintro name (rfl | rfl | ⟨made, rfl⟩)
    · exact leaves.base ▸ .input
    · exact leaves.base ▸ .final
    · exact leaves.untagged_step made
  have confined : Confined (Bench.OnDirectory site.Lasts) setup := {
    write := fun name isJobName job => ((leaves.quiet (untagged name isJobName)).write job).mono
      fun _ _ quiet => Site.Gains.lasts quiet
    judge := fun name isJobName result found =>
      ((leaves.quiet (untagged name isJobName)).judge result found).mono
        fun _ _ quiet => Site.Gains.lasts quiet
    unjudge := fun result found => Bench.respects_onDirectory
      ((changesAt_removeResult found).mono fun _ _ change =>
        (leaves.quiet_of_changesAt (untagged _ (.inr (.inl rfl))) change).lasts)
    mark := fun marker member => leaves.folder ▸
      Bench.respects_onDirectory (Site.lasts_touch member) }
  have tagging : Tagging (Bench.OnDirectory site.Lasts) setup := by
    intro made outcome
    rw [jobPath, jobPath, leaves.folder, leaves.base, leaves.attempt_eq]
    exact Bench.respects_onDirectory (Site.lasts_move leaves.noSlash _ outcome)
  exact respects_run confined tagging budget job

end Whole

end Session

end ShaderReduction
