/-
This file proves that a session keeps the steps of earlier ones and adds its own.

Writing and judging jobs touches no file of a step, whatever comes of it. An attempt that ends
makes one more step, stored as its candidate; an attempt that its judge ends makes none. So after a
session that ended, or that was ended by a failure of its judge, the folder keeps the earlier steps
and those that the plan of the session was told about. It also kept the earlier ones each time that
the judge was asked.
-/

import ShaderReduction.Proofs.Session.Faults
import ShaderReduction.Proofs.Session.Judgements
import ShaderReduction.Proofs.Session.Noting

namespace ShaderReduction

open ShaderReduction.Action Directory

/-! ### What spares the steps -/

namespace Trail.Scene

/-- Whatever steps a directory keeps, another one keeps them too. -/
def Spared (scene : Scene) (before after : Directory) : Prop :=
  ∀ steps, scene.Kept steps before → scene.Kept steps after

instance (scene : Scene) : IsPreorder Directory scene.Spared where
  refl _ _ kept := kept
  trans _ _ _ first second steps kept := second steps (first steps kept)

/-- Whatever steps a bench keeps, another one keeps them too, and so do the directories about which
the judge was asked in between. -/
structure SparedOn {Memory : Type} (scene : Scene) (before after : Bench (Recorded Memory)) :
    Prop where
  directory : scene.Spared before.directory after.directory
  judgements : ∀ judgement ∈ after.memory.judgements, judgement ∈ before.memory.judgements ∨
    scene.Spared before.directory judgement.directory

instance {Memory : Type} (scene : Scene) :
    IsPreorder (Bench (Recorded Memory)) scene.SparedOn where
  refl bench := ⟨refl_of scene.Spared bench.directory, fun _ => .inl⟩
  trans _ _ _ first second := by
    refine ⟨trans_of scene.Spared first.directory second.directory, fun judgement member => ?_⟩
    rcases second.judgements judgement member with earlier | spared
    · exact first.judgements judgement earlier
    · exact .inr (trans_of scene.Spared first.directory spared)

/-- A bench keeps the earlier steps and those that were told since, and the earlier ones were kept
each time that the judge was asked. -/
structure Keeps {Memory : Type} (scene : Scene) (earlier told : List Step)
    (bench : Bench (Recorded Memory)) : Prop where
  kept : scene.Kept (earlier ++ told) bench.directory
  asked : ∀ judgement ∈ bench.memory.judgements,
    ∃ more, scene.Kept (earlier ++ more) judgement.directory

theorem Keeps.of_sparedOn {Memory : Type} {scene : Scene} {earlier told : List Step}
    {before after : Bench (Recorded Memory)} (keeps : scene.Keeps earlier told before)
    (change : scene.SparedOn before after) : scene.Keeps earlier told after := by
  refine ⟨change.directory _ keeps.kept, fun judgement member => ?_⟩
  rcases change.judgements judgement member with early | spared
  · exact keeps.asked judgement early
  · exact ⟨_, spared _ keeps.kept⟩

theorem Kept.keeps_start {Memory : Type} {scene : Scene} {earlier : List Step}
    {directory : Directory} (kept : scene.Kept earlier directory) (memory : Memory) :
    scene.Keeps earlier [] ⟨directory, ⟨memory, []⟩⟩ := by
  refine ⟨?_, fun judgement member => absurd member List.not_mem_nil⟩
  rw [List.append_nil]
  exact kept

theorem respects_sparedOn {Memory Result : Type} {scene : Scene} {action : FileAction Result}
    (respects : Respects scene.Spared action) :
    Respects scene.SparedOn (Bench.onDirectory action : Action (Bench (Recorded Memory)) Result) :=
  respects.onPart fun _ _ spared => ⟨spared, fun _ => .inl⟩

/-- A path to a file in the folder that has no name of a file of a step. -/
def Aside (scene : Scene) (path : Path) : Prop :=
  ∃ name, ¬Tagged scene.base name ∧ Path.PlainName name ∧ path = scene.folder.join name

variable {scene : Scene}

theorem spared_of_changesAt (isFit : scene.IsFit) {paths : Path → Prop} {before after : Directory}
    (change : ChangesAt paths before after) (aside : ∀ path, paths path → scene.Aside path) :
    scene.Spared before after := fun _ kept =>
  kept.of_changesIn isFit (change.changesIn kept.holds.toReaches aside) fun _ => id

theorem aside_of_untagged (isFit : scene.IsFit) {name ending : Text}
    (untagged : Untagged scene.base name) (member : ending ∈ JobFiles.endings) :
    scene.Aside (scene.folder.join (name ++ ending)) :=
  ⟨name ++ ending, untagged.not_tagged (head?_of_mem_endings member),
    (isStem_of_untagged isFit.isStem untagged).plainName_append
      (JobFiles.isEnding_of_mem_endings member), rfl⟩

theorem aside_of_mem_places (isFit : scene.IsFit) {name : Text}
    (untagged : Untagged scene.base name) {path : Path}
    (member : path ∈ JobFiles.places (scene.folder.join (fileName name))) : scene.Aside path := by
  rw [JobFiles.places_join _ (isStem_of_untagged isFit.isStem untagged)] at member
  obtain ⟨ending, isEnding, rfl⟩ := List.mem_map.1 member
  exact aside_of_untagged isFit untagged (JobFiles.mem_endings_of_mem isEnding)

theorem aside_of_result (isFit : scene.IsFit) {name : Text} (untagged : Untagged scene.base name)
    {result : Path}
    (found : JobFiles.result (scene.folder.join (fileName name)) = .ok result) :
    Path.PlainName result.name ∧ scene.Aside result := by
  have isStem := isStem_of_untagged isFit.isStem untagged
  rw [JobFiles.result_join isStem] at found
  obtain rfl := Except.ok.inj found
  have plain := isStem.plainName_append JobFiles.isEnding_resultEnding
  exact ⟨(Path.name_join_of_plainName _ plain).symm ▸ plain,
    aside_of_untagged isFit untagged (by decide)⟩

theorem aside_of_marker {marker : Text}
    (isMarker : marker ∈ [notInterestingMarker, incompleteMarker]) :
    scene.Aside (scene.folder.join marker) := by
  have all : ∀ marker ∈ [notInterestingMarker, incompleteMarker], .scalar 'd' ∉ marker := by decide
  exact ⟨marker, not_tagged_of_notMem (all marker isMarker), JobFiles.plainName_marker isMarker,
    rfl⟩

/-- The directory about which a judge is asked keeps what was kept when it was asked. -/
theorem respects_recorded_report {Memory : Type} (isFit : scene.IsFit) {judge : Judge Memory}
    (tidy : judge.WritesOnlyResult) {job result : Path} (aside : scene.Aside result) :
    Respects scene.SparedOn (judge.recorded.report job result) := by
  intro bench
  have spared : scene.Spared bench.directory _ :=
    spared_of_changesAt isFit (tidy job result (bench.forget Recorded.memory)) fun _ same =>
      same ▸ aside
  rw [Judge.startingAt_recorded_report]
  rcases run : (judge.report job result).startingAt (bench.forget Recorded.memory) with
    ⟨fault | report, after⟩
  all_goals rw [run] at spared
  · exact ⟨spared, fun _ => .inl⟩
  · refine ⟨spared, fun judgement member => ?_⟩
    rcases List.mem_append.1 member with earlier | now
    · exact .inl earlier
    · rw [List.mem_singleton.1 now]
      exact .inr (refl_of scene.Spared bench.directory)

end Trail.Scene

namespace Session

variable {PlanMemory JudgeMemory : Type} {scene : Trail.Scene} {earlier : List Trail.Step}

/-- A session goes on with the reduction of a scene after some steps, with a judge that writes only
its result and whose answers are noted. -/
structure Continues (scene : Trail.Scene) (earlier : List Trail.Step) (judge : Judge JudgeMemory)
    (setup : SessionSetup PlanMemory (Recorded JudgeMemory)) : Prop where
  base : setup.base = scene.base
  folder : setup.folder = scene.folder
  offset : setup.offset = earlier.length
  storage : setup.storage = Storage.usual false
  recorded : setup.judge = judge.recorded
  tidy : judge.WritesOnlyResult

section Spared

variable {judge : Judge JudgeMemory} {setup : SessionSetup PlanMemory (Recorded JudgeMemory)}
  (continues : Continues scene earlier judge setup)

include continues

theorem Continues.jobPath_eq (name : Text) :
    jobPath setup name = scene.folder.join (Trail.fileName name) := by
  rw [jobPath, continues.folder]

theorem Continues.attempt_eq (made : Nat) :
    (made : Int) + 1 + setup.offset = ((earlier.length + made + 1 : Nat) : Int) := by
  rw [continues.offset]
  omega

theorem Continues.untagged {name : Text} (isJobName : JobName setup name) :
    Trail.Untagged scene.base name := by
  rcases isJobName with rfl | rfl | ⟨made, rfl⟩
  · exact continues.base ▸ .input
  · exact continues.base ▸ .final
  · rw [continues.base, continues.attempt_eq]
    exact .step _

theorem Continues.confined (isFit : scene.IsFit) : Confined scene.SparedOn setup where
  write name isJobName job := by
    refine Trail.Scene.respects_sparedOn ((JobFiles.changesAt_write
      (JobFiles.isJobPath_join _ _)).mono fun _ _ change => ?_)
    refine Trail.Scene.spared_of_changesAt isFit change fun path member => ?_
    have inFolder : path ∈ JobFiles.places (jobPath setup name) := member
    rw [continues.jobPath_eq] at inFolder
    exact Trail.Scene.aside_of_mem_places isFit (continues.untagged isJobName) inFolder
  judge name isJobName result found := by
    rw [continues.jobPath_eq] at found
    rw [continues.recorded]
    exact Trail.Scene.respects_recorded_report isFit continues.tidy
      (Trail.Scene.aside_of_result isFit (continues.untagged isJobName) found).2
  unjudge result found := by
    rw [continues.jobPath_eq] at found
    have aside := (Trail.Scene.aside_of_result isFit (continues.untagged (.inr (.inl rfl))) found).2
    exact Trail.Scene.respects_sparedOn ((FileAction.changesAt_removeIfPresent _).mono
      fun _ _ change => Trail.Scene.spared_of_changesAt isFit change fun _ same => same ▸ aside)
  mark marker isMarker := by
    have aside : scene.Aside (setup.folder.join marker) :=
      continues.folder ▸ Trail.Scene.aside_of_marker isMarker
    exact Trail.Scene.respects_sparedOn ((FileAction.changesAt_touch _).mono fun _ _ change =>
      Trail.Scene.spared_of_changesAt isFit change fun _ same => same ▸ aside)

/-! ### Tagging the job of an attempt -/

theorem Continues.tagStep_eq (made : Nat) (outcome : Outcome) :
    tagStep setup (made + 1 + setup.offset) outcome =
      onDirectory (JobFiles.move
        (scene.folder.join (Trail.fileName
          (Trail.stepName scene.base ((earlier.length + made + 1 : Nat) : Int))))
        (scene.folder.join (Trail.fileName
          (Trail.judgedName scene.base ((earlier.length + made + 1 : Nat) : Int) outcome)))
        true) := by
  rw [tagStep, continues.jobPath_eq, continues.jobPath_eq, continues.base, continues.attempt_eq]

/-- The job of an attempt that was tagged makes the next step. -/
theorem Continues.kept_of_tagStep (isFit : scene.IsFit) {made : Nat} {candidate : Job}
    {interesting : Bool} {steps : List Trail.Step}
    {session after : Session PlanMemory (Recorded JudgeMemory)} (count : made = steps.length)
    (kept : scene.Kept (earlier ++ steps) session.bench.directory)
    (suits : scene.Suits candidate)
    (view : JobFiles.view (jobPath setup (Trail.stepName setup.base (made + 1 + setup.offset)))
      session.bench.directory = .ok (JobFiles.stored setup.storage candidate))
    (tagged : (tagStep setup (made + 1 + setup.offset) (Outcome.ofVerdict interesting)).startingAt
      session = (.ok (), after)) :
    scene.Kept (earlier ++ (steps ++ [⟨candidate, interesting⟩])) after.bench.directory := by
  have number : (earlier ++ steps).length + 1 = earlier.length + made + 1 := by
    rw [List.length_append, count]
  rw [continues.tagStep_eq, ← number] at tagged
  rw [continues.jobPath_eq, continues.base, continues.attempt_eq, ← number,
    continues.storage] at view
  obtain ⟨directory, moved, rfl⟩ := onDirectory_eq_iff.1 tagged
  have isStem := Trail.Scene.isStem_of_untagged isFit.isStem (.step ((earlier ++ steps).length + 1))
  have judgedIsStem := Trail.Scene.isStem_judgedName isFit.isStem.noSlash
    ((earlier ++ steps).length + 1) (Outcome.ofVerdict interesting)
  obtain ⟨change, renamed, -⟩ := JobFiles.move_eq_ok isStem judgedIsStem
    (fun first member second _ => Trail.Scene.stepName_append_ne_nameAt _ _
      ⟨candidate, interesting⟩ second (Trail.Scene.head?_of_mem_endings member)) kept.holds moved
  have isStored : JobFiles.StoredAt directory (Storage.usual false)
      (scene.pathAt (earlier ++ steps).length ⟨candidate, interesting⟩) candidate :=
    ⟨renamed.view.trans view, renamed.present, renamed.short⟩
  rw [← List.append_assoc]
  exact kept.append isFit (JobFiles.changesIn_of_atEither isStem judgedIsStem (List.Subset.refl _)
    change kept.holds.toReaches) suits isStored

end Spared

/-! ### The attempts -/

section Attempts

variable {judge : Judge JudgeMemory}
  {setup : SessionSetup (Noted PlanMemory) (Recorded JudgeMemory)} {plan : Plan PlanMemory}
  (continues : Continues scene earlier judge setup) (isFit : scene.IsFit)
  (isNoted : setup.plan = plan.noted) (steady : plan.Steady scene.Suits)

/-- The steps that an attempt completes: one if it ended, and none if its judge ended it. -/
def completed (candidate : Job) : Except Fault Bool → List Trail.Step
  | .ok accepted => [⟨candidate, accepted⟩]
  | .error _ => []

variable {session after : Session (Noted PlanMemory) (Recorded JudgeMemory)}

theorem keeps_of_offPlan (keeps : scene.Keeps earlier session.plan.steps session.bench)
    (change : OffPlan scene.SparedOn session after) :
    scene.Keeps earlier after.plan.steps after.bench := by
  rw [← change.plan]
  exact keeps.of_sparedOn change.bench

theorem keeps_of_asked (keeps : scene.Keeps earlier session.plan.steps session.bench)
    {good : Job → Prop} {outcome : Except Fault (Option Job)}
    (asked : Asked good session after outcome) :
    scene.Keeps earlier after.plan.steps after.bench := by
  rw [← asked.bench, ← asked.steps]
  exact keeps

include isNoted in
theorem settle_eq_ok {candidate : Job} {interesting : Bool}
    (pending : session.plan.pending = some candidate)
    (settled : (settle setup candidate interesting).startingAt session = (.ok (), after)) :
    after.plan.steps = session.plan.steps ++ [⟨candidate, interesting⟩] := by
  obtain ⟨memory, told, rfl⟩ := settle_eq_ok_iff.1 settled
  rw [isNoted] at told
  exact Plan.noted_update_eq_ok told pending

include continues isFit isNoted steady

/-- An attempt that ends is kept as one more step, and of one that its judge ends no step is
kept. -/
theorem keeps_of_attemptCandidate {candidate : Job} {made : Nat} {outcome : Except Fault Bool}
    (count : made = session.plan.steps.length)
    (keeps : scene.Keeps earlier session.plan.steps session.bench)
    (pending : session.plan.pending = some candidate) (suits : scene.Suits candidate)
    (attempted : (attemptCandidate setup none candidate made).startingAt session =
      (outcome, after)) (regular : Regular outcome) :
    scene.Keeps earlier after.plan.steps after.bench ∧
      after.plan.steps = session.plan.steps ++ completed candidate outcome := by
  have confined := continues.confined isFit
  rcases bind_eq_iff.1 attempted with ⟨_, impossible, -⟩ | ⟨_, first, counted, rest⟩
  · cases impossible
  have begun : OffPlan scene.SparedOn session first :=
    (respects_count _).of_eq counted
  rcases bind_eq_iff.1 rest with ⟨fault, failed, rfl⟩ | ⟨interesting, second, judged, rest⟩
  · have change :=
      (respects_judgeCandidate (confined.to (.inr (.inr ⟨made, rfl⟩))) candidate).of_eq failed
    refine ⟨keeps_of_offPlan (keeps_of_offPlan keeps begun) change, ?_⟩
    rw [completed, List.append_nil, begun.plan, change.plan]
  have change :=
    (respects_judgeCandidate (confined.to (.inr (.inr ⟨made, rfl⟩))) candidate).of_eq judged
  have samePlan : session.plan = second.plan := begun.plan.trans change.plan
  have kept : scene.Keeps earlier second.plan.steps second.bench :=
    keeps_of_offPlan (keeps_of_offPlan keeps begun) change
  have tidy : setup.judge.WritesOnlyResult := continues.recorded ▸ continues.tidy.recorded
  obtain ⟨form, formed, view⟩ := judgeCandidate_eq_ok tidy.keepsJobs judged
  obtain rfl : candidate = form := Except.ok.inj formed
  rcases bind_eq_iff.1 rest with ⟨fault, failed, rfl⟩ | ⟨_, third, tagged, rest⟩
  · exact absurd regular
      (((fails_tagStep _ _).mono fun _ ofFiles => ofFiles.plain.1).not_regular failed)
  obtain ⟨sameThird, sameMemory⟩ :
      second.plan = third.plan ∧ second.bench.memory = third.bench.memory := by
    obtain ⟨directory, -, rfl⟩ := onDirectory_eq_iff.1 tagged
    exact ⟨rfl, rfl⟩
  have next := continues.kept_of_tagStep isFit (samePlan ▸ count) kept.kept suits view tagged
  rcases bind_eq_iff.1 rest with ⟨fault, failed, rfl⟩ | ⟨_, fourth, settled, answer⟩
  · have tells : Fails Fault.NotOfJudge (setup.plan.update interesting) := by
      rw [isNoted]
      exact steady.fails_noted_update interesting
    exact absurd regular ((fails_settle candidate tells).not_regular failed)
  cases answer
  have bench : OnBench Eq third after := (respects_settle candidate interesting).of_eq settled
  have steps := settle_eq_ok isNoted (sameThird ▸ samePlan ▸ pending) settled
  rw [← sameThird] at steps
  refine ⟨⟨?_, ?_⟩, ?_⟩
  · rw [steps, ← bench]
    exact next
  · rw [← bench, ← sameMemory]
    exact kept.asked
  · rw [steps, samePlan, completed]

/-- Attempts keep the steps, one after the other. -/
theorem keeps_of_shrink {budget made : Nat} {job : Job} {outcome : Except Fault Job}
    (count : made = session.plan.steps.length)
    (keeps : scene.Keeps earlier session.plan.steps session.bench)
    (suits : scene.Suits job)
    (shrunk : (shrink setup none budget made job).startingAt session = (outcome, after))
    (regular : Regular outcome) : scene.Keeps earlier after.plan.steps after.bench := by
  induction budget generalizing made job session with
  | zero =>
    cases shrunk
    exact absurd trivial (regular _ rfl)
  | succ budget inductionHypothesis =>
    rcases bind_eq_iff.1 shrunk with ⟨_, failed, -⟩ | ⟨reached, first, asked, rest⟩
    · obtain rfl : session = after := congrArg Prod.snd failed
      exact keeps
    obtain rfl : session = first := congrArg Prod.snd asked
    split at rest
    · have change : OffPlan scene.SparedOn session after :=
        ((respects_count _).bind fun _ => respects_pure _).of_eq rest
      exact keeps_of_offPlan keeps change
    rcases bind_eq_iff.1 rest with ⟨_, failed, -⟩ | ⟨proposal, second, proposed, rest⟩
    · exact keeps_of_asked keeps (asked_of_proposeRetrying isNoted steady suits failed)
    have asked := asked_of_proposeRetrying isNoted steady suits proposed
    have kept : scene.Keeps earlier second.plan.steps second.bench := keeps_of_asked keeps asked
    cases proposal with
    | none =>
      cases rest
      exact kept
    | some candidate =>
      obtain ⟨pending, candidateSuits⟩ := asked.candidate candidate rfl
      rcases bind_eq_iff.1 rest with ⟨_, failed, rfl⟩ | ⟨accepted, third, attempted, rest⟩
      · exact (keeps_of_attemptCandidate continues isFit isNoted steady (asked.steps ▸ count) kept
          pending candidateSuits failed regular.error).1
      · obtain ⟨next, steps⟩ := keeps_of_attemptCandidate continues isFit isNoted steady
          (asked.steps ▸ count) kept pending candidateSuits attempted (regular_ok _)
        refine inductionHypothesis ?_ next ?_ rest
        · rw [steps, List.length_append, ← asked.steps, count]
          rfl
        · split
          · exact candidateSuits
          · exact suits

/-! ### The whole session -/

theorem keeps_of_proceed {budget : Nat} {job : Job} {outcome : Except Fault Text}
    (start : session.plan.steps = [])
    (keeps : scene.Keeps earlier session.plan.steps session.bench)
    (suits : scene.Suits job)
    (proceeded : (proceed setup none budget job).startingAt session = (outcome, after))
    (regular : Regular outcome) : scene.Keeps earlier after.plan.steps after.bench := by
  rcases bind_eq_iff.1 proceeded with ⟨_, impossible, -⟩ | ⟨_, first, noted, rest⟩
  · cases impossible
  have begun : OffPlan scene.SparedOn session first := by
    cases noted
    exact ⟨refl_of scene.SparedOn session.bench, rfl⟩
  have kept := keeps_of_offPlan keeps begun
  have count : 0 = first.plan.steps.length := by
    rw [← begun.plan, start]
    rfl
  rcases bind_eq_iff.1 rest with ⟨_, failed, rfl⟩ | ⟨last, second, shrunk, rest⟩
  · exact keeps_of_shrink continues isFit isNoted steady count kept suits failed regular.error
  · have shrunkKept : scene.Keeps earlier second.plan.steps second.bench :=
      keeps_of_shrink continues isFit isNoted steady count kept suits shrunk (regular_ok _)
    exact keeps_of_offPlan shrunkKept
      ((respects_finish (continues.confined isFit).around last).of_eq rest)

/-- After a session that ended or was ended by its judge, the folder keeps the steps that its plan
was told about beside the earlier ones. -/
theorem keeps_of_run {budget : Nat} {job : Job} {outcome : Except Fault (Option Text)}
    (free : job.hasBindings = .ok false) (start : session.plan.steps = [])
    (keeps : scene.Keeps earlier session.plan.steps session.bench) (suits : scene.Suits job)
    (ran : (run setup budget job).startingAt session = (outcome, after))
    (regular : Regular outcome) : scene.Keeps earlier after.plan.steps after.bench := by
  have confined := continues.confined isFit
  rw [run, free, ofExcept_ok_bind] at ran
  rcases bind_eq_iff.1 ran with ⟨_, failed, -⟩ | ⟨proceeds, first, checked, rest⟩
  · exact keeps_of_offPlan keeps ((respects_mayProceed confined.around job).of_eq failed)
  have change := (respects_mayProceed confined.around job).of_eq checked
  have kept : scene.Keeps earlier first.plan.steps first.bench := keeps_of_offPlan keeps change
  have unstarted : first.plan.steps = [] := change.plan ▸ start
  split at rest
  · rcases bind_eq_iff.1 rest with ⟨_, failed, rfl⟩ | ⟨name, second, proceeded, answer⟩
    · exact keeps_of_proceed continues isFit isNoted steady unstarted kept suits failed
        regular.error
    · cases answer
      exact keeps_of_proceed continues isFit isNoted steady unstarted kept suits proceeded
        (regular_ok name)
  · cases rest
    exact kept

end Attempts

end Session

end ShaderReduction
