/-
This file proves that a reduction in several sittings goes on exactly where it stopped.

A sitting reduces a job in a folder with a plan that knows nothing yet, from whatever the sittings
before it left there. It ends with a result or is ended by its judge, at any question that it asks
the judge. However many sittings there were, the next one starts after all steps that they
completed, from the candidate accepted last. The jobs of these steps are the same whenever a later
sitting asks its judge and when it is over. An attempt that the judge ended is no step: it is
neither counted nor gone on from.
-/

import ShaderReduction.Proofs.LineChunk.Candidates
import ShaderReduction.Proofs.LineChunk.Termination
import ShaderReduction.Proofs.Reduction.Stages
import ShaderReduction.Proofs.Session.Steps
import ShaderReduction.Proofs.Trail.Resuming

namespace ShaderReduction

open ShaderReduction.Action Directory Trail

/-! ### One reduction among the steps of earlier ones -/

namespace Reduction

variable {PlanMemory JudgeMemory : Type} {scene : Scene} {steps : List Trail.Step}
  {settings : Settings} {directory : Directory}

theorem steady_lineChunk (scene : Scene) : LineChunk.plan.Steady scene.Suits where
  propose job memory candidate after suits proposed := by
    obtain ⟨start, stop, rfl⟩ := LineChunk.exists_remove_of_propose_eq_ok proposed
    exact ⟨LineChunk.restorable_remove suits.restorable, suits.uniforms⟩
  update accepted := (LineChunk.fails_update accepted).mono fun _ plain => plain.1

/-- The summary is no file of a step. -/
theorem respects_writeSummary (isFit : scene.IsFit) {result : ReductionResult} (inputLines : Nat)
    (folder : result.folder = scene.folder) :
    Respects scene.Spared (writeSummary result inputLines) := by
  have plain : Path.PlainName ("summary.txt" : Text) :=
    Path.plainName_of_length (by decide) (by decide)
  have untagged : ¬Tagged scene.base ("summary.txt" : Text) := not_tagged_of_notMem (by decide)
  refine (changesAt_writeSummary result inputLines).mono fun _ _ change => ?_
  exact Scene.spared_of_changesAt isFit change fun path same =>
    ⟨_, untagged, plain, same.trans (folder ▸ rfl)⟩

/-- A reduction that goes on in a folder starts after the steps that are kept there, from the
candidate accepted last. -/
theorem startingAt_reduce_of_kept (isFit : scene.IsFit) (kept : scene.Kept steps directory)
    {method : Method PlanMemory JudgeMemory} {judge : Judge JudgeMemory}
    (inFolder : settings.folder = .ok scene.folder)
    (continues : settings.continuePrevious.isGiven = true) (hasJudge : method.judge = .ok judge)
    (memory : JudgeMemory) (plan : PlanMemory) :
    (reduce settings method scene.path).startingAt ⟨⟨directory, memory⟩, plan⟩ =
      (reduceFrom settings method judge scene.folder scene.path
        ⟨steps.length, scene.current steps⟩).startingAt ⟨⟨directory, memory⟩, plan⟩ := by
  have ensured : (onDirectory (FileAction.ensureFolder scene.folder)).startingAt
      (⟨⟨directory, memory⟩, plan⟩ : State PlanMemory JudgeMemory) =
        (.ok (), ⟨⟨directory, memory⟩, plan⟩) := by
    have run := FileAction.startingAt_ensureFolder kept.located kept.holds.isFolder
    simp only [onDirectory, Bench.onDirectory, startingAt_onPart, run]
  have opened : (onDirectory (opening settings scene.folder scene.path)).startingAt
      (⟨⟨directory, memory⟩, plan⟩ : State PlanMemory JudgeMemory) =
        (.ok ⟨steps.length, scene.current steps⟩, ⟨⟨directory, memory⟩, plan⟩) := by
    have run := kept.startingAt_opening isFit continues
    simp only [onDirectory, Bench.onDirectory, startingAt_onPart, run]
  rw [reduce, inFolder, ofExcept_ok_bind, startingAt_bind, ensured]
  dsimp only
  rw [hasJudge, ofExcept_ok_bind, startingAt_bind, opened]

/-- After a reduction that ended or was ended by its judge, the folder keeps its steps beside the
earlier ones. -/
theorem keeps_of_reduceFrom (isFit : scene.IsFit) (free : scene.input.hasBindings = .ok false)
    (kept : scene.Kept steps directory) {method : Method PlanMemory JudgeMemory}
    {judge : Judge JudgeMemory} (steady : method.plan.Steady scene.Suits)
    (plainText : settings.emitDefinitions.isGiven = false) (tidy : judge.WritesOnlyResult)
    {memory : JudgeMemory} {plan : PlanMemory} {outcome : Except Fault ReductionResult}
    {after : State (Noted PlanMemory) (Recorded JudgeMemory)}
    (ran : (reduceFrom settings method.noted judge.recorded scene.folder scene.path
      ⟨steps.length, scene.current steps⟩).startingAt
        ⟨⟨directory, ⟨memory, []⟩⟩, ⟨plan, none, []⟩⟩ = (outcome, after))
    (regular : Regular outcome) : scene.Keeps steps after.plan.steps after.bench := by
  have suits := kept.suits_current isFit
  have currentFree : (scene.current steps).hasBindings = .ok false := by
    rw [Job.hasBindings, suits.uniforms]
    exact free
  have continues : Session.Continues scene steps judge
      (sessionSetup settings method.noted judge.recorded scene.folder scene.path steps.length) :=
    ⟨rfl, rfl, rfl, congrArg Storage.usual plainText, rfl, tidy⟩
  rcases bind_eq_iff.1 ran with ⟨_, impossible, -⟩ | ⟨state, first, got, rest⟩
  · cases impossible
  cases got
  obtain ⟨ended, second, session, endedRegular, change⟩ : ∃ ended second,
      (runSession (Session.run
        (sessionSetup settings method.noted judge.recorded scene.folder scene.path steps.length)
        (sessionBudget settings method plan (scene.current steps))
        (scene.current steps))).startingAt
          ⟨⟨directory, ⟨memory, []⟩⟩, ⟨plan, none, []⟩⟩ = (ended, second) ∧ Regular ended ∧
        State.OffPlan scene.SparedOn second after := by
    rcases bind_eq_iff.1 rest with ⟨fault, failed, rfl⟩ | ⟨ended, second, session, rest⟩
    · exact ⟨_, _, failed, regular.error, refl_of (State.OffPlan scene.SparedOn) after⟩
    · refine ⟨_, _, session, regular_ok ended, ?_⟩
      exact ((respects_onDirectory (Scene.respects_sparedOn
        (respects_writeSummary isFit _ rfl))).bind fun _ => respects_pure _).of_eq rest
  obtain ⟨result, last, run, rfl, rfl⟩ := runSession_eq_iff.1 session
  have lastKeeps : scene.Keeps steps last.plan.steps last.bench :=
    Session.keeps_of_run continues isFit rfl steady currentFree rfl (kept.keeps_start memory) suits
      run endedRegular.of_map
  rw [← change.plan]
  exact lastKeeps.of_sparedOn change.bench

end Reduction

/-! ### Sittings -/

/-- One sitting at a reduction: the settings, the size of the first chunks if it is given, and the
judge with its memory. -/
structure Sitting (JudgeMemory : Type) where
  settings : Settings
  initialSize : Option Int
  judge : Judge JudgeMemory
  memory : JudgeMemory

namespace Sitting

variable {JudgeMemory : Type}

/-- The method of a sitting: its judge, and the plan that removes chunks of lines. -/
def method (sitting : Sitting JudgeMemory) : Method LineChunk.Memory JudgeMemory :=
  ⟨LineChunk.plan, fun memory => LineChunk.attemptBound memory.initialSize, .ok sitting.judge⟩

/-- The state in which a sitting begins: its plan has proposed nothing yet. -/
def start (sitting : Sitting JudgeMemory) (directory : Directory) :
    Reduction.State LineChunk.Memory JudgeMemory :=
  ⟨⟨directory, sitting.memory⟩, LineChunk.start sitting.initialSize⟩

/-- What a sitting on the job at a path gives and leaves. -/
def run (sitting : Sitting JudgeMemory) (path : Path) (directory : Directory) :
    Except Fault ReductionResult × Reduction.State LineChunk.Memory JudgeMemory :=
  (Reduction.reduce sitting.settings sitting.method path).startingAt (sitting.start directory)

/-- What a sitting gives and leaves whose session starts in a given way. -/
def runFrom (sitting : Sitting JudgeMemory) (folder path : Path) (opening : Reduction.Opening)
    (directory : Directory) :
    Except Fault ReductionResult × Reduction.State LineChunk.Memory JudgeMemory :=
  (Reduction.reduceFrom sitting.settings sitting.method sitting.judge folder path
    opening).startingAt (sitting.start directory)

/-- The directory that a sitting leaves. -/
def left (sitting : Sitting JudgeMemory) (path : Path) (directory : Directory) : Directory :=
  (sitting.run path directory).2.bench.directory

/-- What a sitting leaves in which the steps of the plan and the answers of the judge are noted. -/
def noted (sitting : Sitting JudgeMemory) (path : Path) (directory : Directory) :
    Reduction.State (Noted LineChunk.Memory) (Recorded JudgeMemory) :=
  ((Reduction.reduce sitting.settings sitting.method.noted path).startingAt
    ⟨⟨directory, ⟨sitting.memory, []⟩⟩, ⟨LineChunk.start sitting.initialSize, none, []⟩⟩).2

/-- The steps that a sitting completes: those attempts of which its plan is told, once they were
judged, or known to fail, and tagged. -/
def steps (sitting : Sitting JudgeMemory) (path : Path) (directory : Directory) :
    List Trail.Step :=
  (sitting.noted path directory).plan.steps

/-- The answers of the judge in a sitting. -/
def judgements (sitting : Sitting JudgeMemory) (path : Path) (directory : Directory) :
    List Judgement :=
  (sitting.noted path directory).bench.memory.judgements

/-- A sitting goes on in a folder without macro definitions, with a judge that writes only its
result, and ends or is ended by the judge. -/
structure GoesOn (folder path : Path) (directory : Directory) (sitting : Sitting JudgeMemory) :
    Prop where
  folder : sitting.settings.folder = .ok folder
  continues : sitting.settings.continuePrevious.isGiven = true
  plainText : sitting.settings.emitDefinitions.isGiven = false
  tidy : sitting.judge.WritesOnlyResult
  regular : Regular (sitting.run path directory).1

section OneSitting

variable {scene : Scene} {earlier : List Trail.Step} {directory : Directory}
  {sitting : Sitting JudgeMemory}

/-- A sitting adds the steps that it completes to those that are kept, which are there each time
that it asks its judge. -/
theorem keeps_of_goesOn (isFit : scene.IsFit) (free : scene.input.hasBindings = .ok false)
    (kept : scene.Kept earlier directory)
    (goesOn : sitting.GoesOn scene.folder scene.path directory) :
    scene.Kept (earlier ++ sitting.steps scene.path directory)
        (sitting.left scene.path directory) ∧
      ∀ judgement ∈ sitting.judgements scene.path directory,
        ∃ more, scene.Kept (earlier ++ more) judgement.directory := by
  have projects := Reduction.projects_reduce sitting.settings sitting.method scene.path
  have opened := Reduction.startingAt_reduce_of_kept isFit kept goesOn.folder goesOn.continues
    (show sitting.method.noted.judge = .ok sitting.judge.recorded from rfl)
    (⟨sitting.memory, []⟩ : Recorded JudgeMemory)
    (⟨LineChunk.start sitting.initialSize, none, []⟩ : Noted LineChunk.Memory)
  cases ran : (Reduction.reduce sitting.settings sitting.method.noted scene.path).startingAt
      ⟨⟨directory, ⟨sitting.memory, []⟩⟩, ⟨LineChunk.start sitting.initialSize, none, []⟩⟩ with
  | mk outcome after =>
    have same : sitting.run scene.path directory = (outcome, after.forget) := projects.of_eq ran
    have regular : Regular outcome := by
      have regular := goesOn.regular
      rw [same] at regular
      exact regular
    have keeps := Reduction.keeps_of_reduceFrom isFit free kept (Reduction.steady_lineChunk scene)
      goesOn.plainText goesOn.tidy (opened ▸ ran) regular
    rw [steps, judgements, noted, left, same, ran]
    exact ⟨keeps.kept, keeps.asked⟩

end OneSitting

/-! ### One sitting after the other -/

/-- The directory that sittings leave one after the other. -/
def leftBy (path : Path) : List (Sitting JudgeMemory) → Directory → Directory
  | [], directory => directory
  | sitting :: sittings, directory => leftBy path sittings (sitting.left path directory)

/-- The steps that sittings complete one after the other. -/
def stepsOf (path : Path) : List (Sitting JudgeMemory) → Directory → List Trail.Step
  | [], _ => []
  | sitting :: sittings, directory =>
    sitting.steps path directory ++ stepsOf path sittings (sitting.left path directory)

/-- The answers of the judges in sittings one after the other. -/
def judgementsOf (path : Path) : List (Sitting JudgeMemory) → Directory → List Judgement
  | [], _ => []
  | sitting :: sittings, directory =>
    sitting.judgements path directory ++ judgementsOf path sittings (sitting.left path directory)

/-- Each sitting goes on from what those before it left. -/
def AllGoOn (folder path : Path) : List (Sitting JudgeMemory) → Directory → Prop
  | [], _ => True
  | sitting :: sittings, directory =>
    sitting.GoesOn folder path directory ∧
      AllGoOn folder path sittings (sitting.left path directory)

section Sittings

variable {scene : Scene} {before : List Trail.Step} {folder path : Path} {directory : Directory}
  {sittings earlier later : List (Sitting JudgeMemory)}

theorem leftBy_append : leftBy path (earlier ++ later) directory =
    leftBy path later (leftBy path earlier directory) := by
  induction earlier generalizing directory with
  | nil => rfl
  | cons sitting earlier inductionHypothesis => exact inductionHypothesis

theorem allGoOn_append : AllGoOn folder path (earlier ++ later) directory ↔
    AllGoOn folder path earlier directory ∧
      AllGoOn folder path later (leftBy path earlier directory) := by
  induction earlier generalizing directory with
  | nil => exact ⟨fun goOn => ⟨trivial, goOn⟩, And.right⟩
  | cons sitting earlier inductionHypothesis =>
    exact (and_congr_right fun _ => inductionHypothesis).trans and_assoc.symm

/-- Sittings keep all steps that they complete, and those before them are there each time that a
judge is asked. -/
theorem keeps_of_allGoOn (isFit : scene.IsFit) (free : scene.input.hasBindings = .ok false)
    (kept : scene.Kept before directory)
    (goOn : AllGoOn scene.folder scene.path sittings directory) :
    scene.Kept (before ++ stepsOf scene.path sittings directory)
        (leftBy scene.path sittings directory) ∧
      ∀ judgement ∈ judgementsOf scene.path sittings directory,
        ∃ more, scene.Kept (before ++ more) judgement.directory := by
  induction sittings generalizing before directory with
  | nil =>
    rw [stepsOf, List.append_nil]
    exact ⟨kept, fun _ member => absurd member List.not_mem_nil⟩
  | cons sitting sittings inductionHypothesis =>
    obtain ⟨next, asked⟩ := keeps_of_goesOn isFit free kept goOn.1
    obtain ⟨last, restAsked⟩ := inductionHypothesis next goOn.2
    rw [stepsOf, ← List.append_assoc]
    refine ⟨last, fun judgement member => ?_⟩
    rcases List.mem_append.1 member with now | later
    · exact asked judgement now
    · obtain ⟨more, keptThen⟩ := restAsked judgement later
      rw [List.append_assoc] at keptThen
      exact ⟨_, keptThen⟩

end Sittings

/-! ### What sittings start from and leave alone -/

/-- A reduction begins: its folder is empty, and there is a job to read, with no bound uniform and
no line that holds the beginning of a block of macro definitions, whose uniforms are read as they
were once they are written. -/
structure Begins (folder : Path) (text : Text) (input : Job) (directory : Directory) : Prop where
  empty : (FileAction.list folder).startingAt directory = (.ok [], directory)
  read : (JobFiles.read (Path.ofText text)).startingAt directory = (.ok input, directory)
  free : input.hasBindings = .ok false
  unguarded : ∀ shader ∈ input.shaders, Definitions.Unguarded shader.lines
  document : Document.read (Text.normalizeLineEnds
    (input.uniforms.document.indented ++ [.scalar '\n'])) = .ok input.uniforms.document

/-- How a session starts after some steps: after the last of them, from the candidate accepted last,
or from the input if none was accepted. -/
def openingAfter (input : Job) (steps : List Trail.Step) : Reduction.Opening :=
  ⟨steps.length,
    (((steps.filter Trail.Step.accepted).getLast?).map Trail.Step.candidate).getD input⟩

/-- The path of the job of the step at an index. -/
def stepPath (folder path : Path) (index : Nat) (step : Trail.Step) : Path :=
  folder.join (fileName (judgedName path.stem ((index + 1 : Nat) : Int)
    (Outcome.ofVerdict step.accepted)))

/-- The job of the step at an index has the files in which its candidate is stored. -/
def Stands (folder path : Path) (index : Nat) (step : Trail.Step) (directory : Directory) : Prop :=
  JobFiles.view (stepPath folder path index step) directory =
    .ok (JobFiles.stored (Storage.usual false) step.candidate)

theorem stands_of_kept {scene : Scene} {before more : List Trail.Step} {directory : Directory}
    (kept : scene.Kept (before ++ more) directory) {index : Nat} {step : Trail.Step}
    (found : before[index]? = some step) :
    Stands scene.folder scene.path index step directory := by
  refine (kept.stored index step ?_).view
  rw [List.getElem?_append_left (List.getElem?_eq_some_iff.1 found).1]
  exact found

/-- A reduction goes on exactly where it stopped, however many sittings there were and wherever the
judge ended them: the next sitting starts after all steps that they completed, from the candidate
accepted last. The jobs of these steps have the files in which their candidates are stored, also
each time that a later sitting asks its judge, and after it. -/
theorem resumes_after_completed_steps {folder : Path} {text : Text} {input : Job}
    {directory : Directory} {earlier later : List (Sitting JudgeMemory)}
    (begins : Begins folder text input directory)
    (goOn : AllGoOn folder (Path.ofText text) (earlier ++ later) directory) :
    (∀ next : Sitting JudgeMemory, next.settings.folder = .ok folder →
      next.settings.continuePrevious.isGiven = true →
        next.run (Path.ofText text) (leftBy (Path.ofText text) earlier directory) =
          next.runFrom folder (Path.ofText text)
            (openingAfter input (stepsOf (Path.ofText text) earlier directory))
            (leftBy (Path.ofText text) earlier directory)) ∧
      ∀ index step, (stepsOf (Path.ofText text) earlier directory)[index]? = some step →
        Stands folder (Path.ofText text) index step
            (leftBy (Path.ofText text) earlier directory) ∧
          (∀ judgement ∈ judgementsOf (Path.ofText text) later
              (leftBy (Path.ofText text) earlier directory),
            Stands folder (Path.ofText text) index step judgement.directory) ∧
          Stands folder (Path.ofText text) index step
            (leftBy (Path.ofText text) (earlier ++ later) directory) := by
  obtain ⟨location, isFit, begun⟩ :=
    Scene.exists_scene begins.empty begins.read begins.unguarded begins.document
  obtain ⟨earlierGoOn, laterGoOn⟩ := allGoOn_append.1 goOn
  have kept := (keeps_of_allGoOn isFit begins.free begun earlierGoOn).1
  rw [List.nil_append] at kept
  obtain ⟨last, asked⟩ := keeps_of_allGoOn isFit begins.free kept laterGoOn
  refine ⟨fun next inFolder continues => ?_, fun index step found =>
    ⟨(kept.stored index step found).view, fun judgement member => ?_, ?_⟩⟩
  · exact Reduction.startingAt_reduce_of_kept isFit kept inFolder continues rfl next.memory
      (LineChunk.start next.initialSize)
  · obtain ⟨more, keptThen⟩ := asked judgement member
    exact stands_of_kept keptThen found
  · rw [leftBy_append]
    exact stands_of_kept last found

/-! ### Two sittings of which the first one is interrupted -/

/-- The judge that gives the verdicts in its memory one after the other, and then none any more. -/
def scripted : Judge (List Verdict) where
  report _ _ := do
    let asked ← get
    Bench.remember List.tail
    pure ⟨asked.memory.head?.getD .error, [], none, false, [], .finite false 0 0⟩

theorem writesOnlyResult_scripted : scripted.WritesOnlyResult := fun _ _ _ => ChangesAt.refl _

/-- A sitting of one attempt that removes one line, with a judge that gives some verdicts. -/
def oneAttempt (verdicts : List Verdict) : Sitting (List Verdict) where
  settings :=
    { Settings.default with
      outputFolder := some "work"
      stepLimit := .integer 1
      continuePrevious := .boolean true }
  initialSize := some 1
  judge := scripted
  memory := verdicts

/-- The sitting that accepts its candidate and is interrupted at the final job. -/
def interrupted : Sitting (List Verdict) := oneAttempt [.interesting, .interesting]

/-- The sitting that rejects its candidate and the final job. -/
def concluding : Sitting (List Verdict) := oneAttempt [.notInteresting, .notInteresting]

/-- A job of two lines. -/
def twoLines : Job := ⟨[], ⟨.object [], List.nodup_nil⟩, [⟨.fragment, "a\nb\n"⟩]⟩

/-- The directory with that job and an empty folder. -/
def prepared : Directory :=
  ⟨[([("work" : Text)], .folder), ([("job.json" : Text)], .file [0x7b, 0x7d]),
    ([("job.frag" : Text)], .file [0x61, 0x0a, 0x62, 0x0a])]⟩

theorem begins_prepared : Begins "work" "job.json" twoLines prepared where
  empty := by
    have located : prepared.locate "work" = .ok ["work"] := rfl
    rw [FileAction.startingAt_list located rfl]
    have nothing : prepared.namesIn ["work"] = [] := by decide +kernel
    rw [nothing]
  read := rfl
  free := by
    have names : twoLines.uniforms.names = .ok [] :=
      congrArg Except.ok (show Uniforms.ofUniforms [] = [] by decide +kernel)
    unfold Job.hasBindings Uniforms.hasBindings
    rw [names]
    rfl
  unguarded := by
    unfold Definitions.Unguarded
    decide +kernel
  document := rfl

theorem goesOn_interrupted : interrupted.GoesOn "work" (Path.ofText "job.json") prepared where
  folder := rfl
  continues := rfl
  plainText := rfl
  tidy := writesOnlyResult_scripted
  regular := by
    unfold run method LineChunk.plan LineChunk.propose
    rw [LineChunk.search_eq_searchTrying 10]
    decide +kernel

theorem length_stepsOf_interrupted :
    (stepsOf (Path.ofText "job.json") [interrupted] prepared).length = 1 := by
  unfold stepsOf steps noted method LineChunk.plan LineChunk.propose
  rw [LineChunk.search_eq_searchTrying 10]
  decide +kernel

theorem regular_concluding : Regular (concluding.runFrom "work" (Path.ofText "job.json")
    (openingAfter twoLines (stepsOf (Path.ofText "job.json") [interrupted] prepared))
    (leftBy (Path.ofText "job.json") [interrupted] prepared)).1 := by
  unfold runFrom leftBy left run stepsOf steps noted method LineChunk.plan LineChunk.propose
  rw [LineChunk.search_eq_searchTrying 10]
  decide +kernel

theorem resumes_after_interrupted :
    Begins "work" "job.json" twoLines prepared ∧
      AllGoOn "work" (Path.ofText "job.json") ([interrupted] ++ [concluding]) prepared ∧
        ∃ step, (stepsOf (Path.ofText "job.json") [interrupted] prepared)[0]? = some step ∧
          Stands "work" (Path.ofText "job.json") 0 step
            (leftBy (Path.ofText "job.json") ([interrupted] ++ [concluding]) prepared) := by
  have first : AllGoOn "work" (Path.ofText "job.json") ([interrupted] ++ []) prepared :=
    ⟨goesOn_interrupted, trivial⟩
  have opened := (resumes_after_completed_steps begins_prepared first).1 concluding rfl rfl
  have both : AllGoOn "work" (Path.ofText "job.json") ([interrupted] ++ [concluding]) prepared := by
    refine ⟨goesOn_interrupted, ⟨rfl, rfl, rfl, writesOnlyResult_scripted, ?_⟩, trivial⟩
    have regular := regular_concluding
    rw [← opened] at regular
    exact regular
  have one := length_stepsOf_interrupted
  obtain ⟨step, found⟩ : ∃ step,
      (stepsOf (Path.ofText "job.json") [interrupted] prepared)[0]? = some step :=
    ⟨_, List.getElem?_eq_getElem (by omega)⟩
  obtain ⟨-, -, last⟩ := (resumes_after_completed_steps begins_prepared both).2 0 step found
  exact ⟨begins_prepared, both, step, found, last⟩

end Sitting

end ShaderReduction
