/-
This file proves of which stages a reduction consists.

A reduction makes its folder, works out where to start, runs one session and writes a summary. The
folder and the judge decide whether there is a session at all; working out where to start only
reads. So what a reduction does to its bench is what its session does there, beside the folder and
the summary, and a reduction that ends has the counts and the final job of its session.
-/

import ShaderReduction.Proofs.Directory.Folder
import ShaderReduction.Proofs.Reduction.Noting
import ShaderReduction.Proofs.Session.Confinement

namespace ShaderReduction

open ShaderReduction.Action

namespace Reduction

variable {PlanMemory JudgeMemory : Type}

/-! ### The parts of the state -/

/-- Two states have related benches. -/
def State.OnBench (relation : Bench JudgeMemory → Bench JudgeMemory → Prop)
    (before after : State PlanMemory JudgeMemory) : Prop := relation before.bench after.bench

/-- Two states have related benches, and the plan has the same memory. -/
structure State.OffPlan (relation : Bench JudgeMemory → Bench JudgeMemory → Prop)
    (before after : State PlanMemory JudgeMemory) : Prop where
  bench : relation before.bench after.bench
  plan : before.plan = after.plan

instance {relation : Bench JudgeMemory → Bench JudgeMemory → Prop}
    [IsPreorder (Bench JudgeMemory) relation] :
    IsPreorder (State PlanMemory JudgeMemory) (State.OnBench relation) where
  refl state := refl_of relation state.bench
  trans _ _ _ first second := trans_of relation first second

instance {relation : Bench JudgeMemory → Bench JudgeMemory → Prop}
    [IsPreorder (Bench JudgeMemory) relation] :
    IsPreorder (State PlanMemory JudgeMemory) (State.OffPlan relation) where
  refl state := ⟨refl_of relation state.bench, rfl⟩
  trans _ _ _ first second :=
    ⟨trans_of relation first.bench second.bench, first.plan.trans second.plan⟩

theorem respects_onDirectory {Result : Type}
    {relation : Bench JudgeMemory → Bench JudgeMemory → Prop} {action : FileAction Result}
    (respects : Respects relation (Bench.onDirectory action)) :
    Respects (State.OffPlan relation)
      (onDirectory action : Action (State PlanMemory JudgeMemory) Result) :=
  respects.onPart fun _ _ related => ⟨related, rfl⟩

theorem onDirectory_eq_iff {Result : Type} {action : FileAction Result}
    {state after : State PlanMemory JudgeMemory} {result : Except Fault Result} :
    (onDirectory action).startingAt state = (result, after) ↔
      ∃ directory, action.startingAt state.bench.directory = (result, directory) ∧
        after = { state with bench := { state.bench with directory } } := by
  rw [onDirectory, onPart_eq_iff, Bench.onDirectory, startingAt_onPart]
  constructor
  · rintro ⟨bench, run, rfl⟩
    cases run
    exact ⟨_, rfl, rfl⟩
  · rintro ⟨directory, run, rfl⟩
    rw [run]
    exact ⟨_, rfl, rfl⟩

theorem runSession_eq_iff {session : Session.Step PlanMemory JudgeMemory (Option Text)}
    {state after : State PlanMemory JudgeMemory} {outcome : Except Fault SessionEnd} :
    (runSession session).startingAt state = (outcome, after) ↔
      ∃ result last, session.startingAt
          (Session.start state.bench.directory state.plan state.bench.memory) = (result, last) ∧
        outcome = result.map (fun finalName => ⟨finalName, last.tally⟩) ∧
          after = ⟨last.bench, last.plan⟩ := by
  rw [startingAt_runSession]
  constructor
  · intro run
    cases run
    exact ⟨_, _, rfl, rfl, rfl⟩
  · rintro ⟨result, last, run, rfl, rfl⟩
    rw [run]

/-! ### Where to start -/

theorem reads_startingPoint (settings : Settings) (folder : Path) (base : Text) :
    Reads (startingPoint settings folder base) := by
  have listed : Reads (FileAction.list folder) := by
    refine Respects.bind (fun _ => rfl) fun location => respects_get.bind fun directory => ?_
    split
    · exact respects_throw _
    · exact respects_throw _
    · exact respects_pure _
  unfold startingPoint
  split
  · exact (listed.bind fun _ => respects_pure _).bind fun _ => respects_pure _
  · exact respects_pure _

/-- Working out where to start changes nothing. -/
theorem reads_opening (settings : Settings) (folder path : Path) :
    Reads (opening settings folder path) :=
  (reads_startingPoint settings folder path.stem).bind fun _ =>
    (JobFiles.reads_read _).bind fun _ => respects_pure _

/-- A reduction that does not go on starts at the job itself. -/
theorem opening_eq_ok {settings : Settings} {folder path : Path} {opening : Opening}
    {directory after : Directory} (anew : settings.continuePrevious.isGiven = false)
    (opened : (Reduction.opening settings folder path).startingAt directory =
      (.ok opening, after)) :
    opening.offset = 0 ∧
      (JobFiles.read path).startingAt directory = (.ok opening.job, directory) := by
  have point : startingPoint settings folder path.stem = pure ⟨0, none⟩ := by
    rw [startingPoint, anew, if_neg Bool.false_ne_true]
  rw [Reduction.opening, point, pure_bind] at opened
  obtain ⟨job, between, read, answer⟩ := bind_eq_ok_iff.1 opened
  cases answer
  obtain rfl := (JobFiles.reads_read _).of_eq read
  exact ⟨rfl, read⟩

/-- A reduction that goes on starts after the last attempt in its folder. -/
theorem offset_of_opening_eq_ok {settings : Settings} {folder path : Path} {opening : Opening}
    {directory after : Directory} {records : List StepRecord}
    (continues : settings.continuePrevious.isGiven = true)
    (listed : (Trail.records folder path.stem).startingAt directory = (.ok records, directory))
    (opened : (Reduction.opening settings folder path).startingAt directory =
      (.ok opening, after)) :
    opening.offset = (Trail.resumePointOf records).offset := by
  rw [Reduction.opening, startingPoint, if_pos continues] at opened
  obtain ⟨point, between, found, rest⟩ := bind_eq_ok_iff.1 opened
  obtain ⟨job, last, read, answer⟩ := bind_eq_ok_iff.1 rest
  cases answer
  rw [Trail.resumePoint, startingAt_bind, listed] at found
  cases found
  rfl

/-! ### The session -/

/-- How the session of a reduction is set up that starts after some attempts. -/
def sessionSetup (settings : Settings) (method : Method PlanMemory JudgeMemory)
    (judge : Judge JudgeMemory) (folder path : Path) (offset : Nat) :
    SessionSetup PlanMemory JudgeMemory :=
  ⟨method.plan, judge, Storage.usual settings.emitDefinitions.isGiven, path.stem, folder, offset,
    StepLimit.ofDocument settings.stepLimit, true⟩

/-- How many attempts the session on a job may make. -/
def sessionBudget (settings : Settings) (method : Method PlanMemory JudgeMemory) (plan : PlanMemory)
    (job : Job) : Nat :=
  (StepLimit.ofDocument settings.stepLimit).budget (method.attemptBound plan job)

section Session

variable {settings : Settings} {method : Method PlanMemory JudgeMemory}
  {judge : Judge JudgeMemory} {folder path : Path} {opening : Opening}
  {state after : State PlanMemory JudgeMemory}

/-- A reduction that ends has what its session ended with, and wrote the summary after that. -/
theorem reduceFrom_eq_ok {result : ReductionResult}
    (ran : (reduceFrom settings method judge folder path opening).startingAt state =
      (.ok result, after)) :
    ∃ finalName last,
      (Session.run (sessionSetup settings method judge folder path opening.offset)
        (sessionBudget settings method state.plan opening.job) opening.job).startingAt
          (Session.start state.bench.directory state.plan state.bench.memory) =
            (.ok finalName, last) ∧
      result = ⟨path.stem, folder, last.tally, finalName, opening.offset⟩ ∧
      (writeSummary result opening.job.lineCount).startingAt last.bench.directory =
        (.ok (), after.bench.directory) := by
  obtain ⟨_, same, got, rest⟩ := bind_eq_ok_iff.1 ran
  cases got
  obtain ⟨ended, between, session, rest⟩ := bind_eq_ok_iff.1 rest
  obtain ⟨_, written, summary, answer⟩ := bind_eq_ok_iff.1 rest
  cases answer
  obtain ⟨outcome, last, run, isEnd, rfl⟩ := runSession_eq_iff.1 session
  obtain ⟨directory, wrote, rfl⟩ := onDirectory_eq_iff.1 summary
  cases outcome with
  | error fault => cases isEnd
  | ok finalName =>
    cases isEnd
    exact ⟨finalName, last, run, rfl, wrote⟩

/-- What a session respects that starts in a given way, the reduction respects that runs it and
writes the summary. -/
theorem respects_reduceFrom {relation : Bench JudgeMemory → Bench JudgeMemory → Prop}
    [IsPreorder (Bench JudgeMemory) relation]
    (session : ∀ budget, Respects (Session.OnBench relation)
      (Session.run (sessionSetup settings method judge folder path opening.offset) budget
        opening.job))
    (summary : ∀ result inputLines, result.folder = folder →
      Respects relation (Bench.onDirectory (writeSummary result inputLines))) :
    Respects (State.OnBench relation) (reduceFrom settings method judge folder path opening) := by
  have ended : ∀ budget, Respects (State.OnBench relation) (runSession (Session.run
      (sessionSetup settings method judge folder path opening.offset) budget opening.job)) :=
    fun budget state =>
      session budget (Session.start state.bench.directory state.plan state.bench.memory)
  refine respects_get.bind fun state => (ended _).bind fun _ => ?_
  exact ((respects_onDirectory (summary _ _ rfl)).mono fun _ _ related => related.bench).bind
    fun _ => respects_pure _

/-- What making the folder, the sessions and the summary respect, a reduction respects. -/
theorem respects_reduce {relation : Bench JudgeMemory → Bench JudgeMemory → Prop}
    [IsPreorder (Bench JudgeMemory) relation] (inFolder : settings.folder = .ok folder)
    (ensured : Respects relation (Bench.onDirectory (FileAction.ensureFolder folder)))
    (session : ∀ judge, method.judge = .ok judge → ∀ (offset budget : Nat) job,
      Respects (Session.OnBench relation)
        (Session.run (sessionSetup settings method judge folder path offset) budget job))
    (summary : ∀ result inputLines, result.folder = folder →
      Respects relation (Bench.onDirectory (writeSummary result inputLines))) :
    Respects (State.OnBench relation) (reduce settings method path) := by
  rw [reduce, inFolder, ofExcept_ok_bind]
  refine ((respects_onDirectory ensured).mono fun _ _ related => related.bench).bind fun _ => ?_
  cases hasJudge : method.judge with
  | error fault => exact respects_throw _
  | ok judge =>
    rw [ofExcept_ok_bind]
    refine ((respects_onDirectory (Bench.respects_onDirectory_of_reads
      (reads_opening _ _ _))).mono fun _ _ related => related.bench).bind fun opening => ?_
    exact respects_reduceFrom (fun budget => session judge hasJudge _ budget _) summary

/-- A reduction in a folder that is there runs a session after it worked out where to start, or it
fails before that and changes nothing. -/
theorem reduce_eq {location : Location} (inFolder : settings.folder = .ok folder)
    (located : state.bench.directory.locate folder = .ok location)
    (isFolder : state.bench.directory.node? location = some .folder)
    {outcome : Except Fault ReductionResult}
    (ran : (reduce settings method path).startingAt state = (outcome, after)) :
    (∃ fault, outcome = .error fault ∧ after = state) ∨
      ∃ judge opening, method.judge = .ok judge ∧
        (Reduction.opening settings folder path).startingAt state.bench.directory =
          (.ok opening, state.bench.directory) ∧
        (reduceFrom settings method judge folder path opening).startingAt state =
          (outcome, after) := by
  rw [reduce, inFolder, ofExcept_ok_bind] at ran
  have ensured : (onDirectory (FileAction.ensureFolder folder)).startingAt state =
      (.ok (), state) :=
    onDirectory_eq_iff.2 ⟨_, FileAction.startingAt_ensureFolder located isFolder, rfl⟩
  rw [startingAt_bind, ensured] at ran
  dsimp only at ran
  cases hasJudge : method.judge with
  | error fault =>
    rw [hasJudge] at ran
    cases ran
    exact .inl ⟨fault, rfl, rfl⟩
  | ok judge =>
    rw [hasJudge, ofExcept_ok_bind] at ran
    rcases bind_eq_iff.1 ran with ⟨fault, failed, rfl⟩ | ⟨opening, between, opened, rest⟩
    · obtain ⟨directory, run, rfl⟩ := onDirectory_eq_iff.1 failed
      obtain rfl := (reads_opening _ _ _).of_eq run
      exact .inl ⟨fault, rfl, rfl⟩
    · obtain ⟨directory, run, rfl⟩ := onDirectory_eq_iff.1 opened
      obtain rfl := (reads_opening _ _ _).of_eq run
      exact .inr ⟨judge, opening, rfl, run, rest⟩

/-- A reduction that ends in a folder that was there ran a session, after it worked out where to
start. -/
theorem reduce_eq_ok {location : Location} (inFolder : settings.folder = .ok folder)
    (located : state.bench.directory.locate folder = .ok location)
    (isFolder : state.bench.directory.node? location = some .folder) {result : ReductionResult}
    (ran : (reduce settings method path).startingAt state = (.ok result, after)) :
    ∃ judge opening, method.judge = .ok judge ∧
      (Reduction.opening settings folder path).startingAt state.bench.directory =
        (.ok opening, state.bench.directory) ∧
      (reduceFrom settings method judge folder path opening).startingAt state =
        (.ok result, after) := by
  refine (reduce_eq inFolder located isFolder ran).resolve_left ?_
  rintro ⟨fault, impossible, -⟩
  cases impossible

/-- Whatever comes of a reduction, its bench is that of its session, on which the summary was
written if it came to that. -/
theorem exists_run_of_reduceFrom {outcome : Except Fault ReductionResult}
    (ran : (reduceFrom settings method judge folder path opening).startingAt state =
      (outcome, after)) :
    ∃ ended last,
      (Session.run (sessionSetup settings method judge folder path opening.offset)
        (sessionBudget settings method state.plan opening.job) opening.job).startingAt
          (Session.start state.bench.directory state.plan state.bench.memory) = (ended, last) ∧
      (after.bench = last.bench ∨ ∃ result : ReductionResult, result.folder = folder ∧
        ∃ inputLines written, (Bench.onDirectory (writeSummary result inputLines)).startingAt
          last.bench = (written, after.bench)) := by
  rcases bind_eq_iff.1 ran with ⟨_, impossible, -⟩ | ⟨_, same, got, rest⟩
  · cases impossible
  cases got
  rcases bind_eq_iff.1 rest with ⟨fault, failed, -⟩ | ⟨ended, between, session, rest⟩
  · obtain ⟨outcome, last, run, -, rfl⟩ := runSession_eq_iff.1 failed
    exact ⟨outcome, last, run, .inl rfl⟩
  · obtain ⟨outcome, last, run, -, rfl⟩ := runSession_eq_iff.1 session
    refine ⟨outcome, last, run, .inr ?_⟩
    rcases bind_eq_iff.1 rest with ⟨fault, failed, -⟩ | ⟨_, written, wrote, answer⟩
    · obtain ⟨bench, summary, rfl⟩ := onPart_eq_iff.1 failed
      refine ⟨_, ?_, _, _, summary⟩
      rfl
    · obtain ⟨bench, summary, rfl⟩ := onPart_eq_iff.1 wrote
      cases answer
      refine ⟨_, ?_, _, _, summary⟩
      rfl

end Session

/-! ### The summary -/

/-- What writing texts to the file of the summary respects, writing the summary respects. -/
theorem respects_writeSummary_of {relation : Directory → Directory → Prop}
    [IsPreorder Directory relation] {result : ReductionResult}
    (writes : ∀ text, Respects relation
      (FileAction.writeText (result.folder.join ("summary.txt" : Text)) text)) (inputLines : Nat) :
    Respects relation (writeSummary result inputLines) := by
  refine (writes _).bind fun _ => ?_
  dsimp only
  split
  · exact (respects_pure _).bind fun _ => writes _
  · exact (JobFiles.reads_read _).respects.bind fun _ => (respects_pure _).bind fun _ => writes _

/-- Writing the summary changes that file only. -/
theorem changesAt_writeSummary (result : ReductionResult) (inputLines : Nat) :
    Respects (Directory.ChangesAt (· = result.folder.join ("summary.txt" : Text)))
      (writeSummary result inputLines) :=
  respects_writeSummary_of (FileAction.changesAt_writeText _) inputLines

end Reduction

end ShaderReduction
