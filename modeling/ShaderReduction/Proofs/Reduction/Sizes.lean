/-
This file proves that the sizes in the summary of a reduction never grow.

The original size is that of the job from which the session starts, be it the job itself or the last
one that was accepted in the folder. The reduced size is that of the final job as it is read back
from its files. These are the files of a job with no more lines than the first one; what was read
has no other line ends than line feeds, so reading the files changes nothing but to take out a block
of macro definitions. The summary itself is no file of a job, so the job is read the same after it
is written.

Nobody but the judge touches the final job between its writing and its reading. A judge that
rewrites it can make it as long as it likes, as one does in the last reduction of this file, so the
judge is assumed to leave the files of the final job alone when it accepts it.
-/

import ShaderReduction.Proofs.Reduction.Reuse
import ShaderReduction.Proofs.Session.Sizes

namespace ShaderReduction

open ShaderReduction.Action Directory

/-- Texts that were read and are stored without the block of definitions come back with no more
lines. -/
theorem Shader.AtMost.returned {limit : Nat} {shaders : List Shader} {storage : Storage}
    (atMost : AtMost limit shaders) (plainText : storage.emitDefinitions = false) :
    AtMost limit (shaders.map (JobFiles.returned storage)) := by
  have stripped : shaders.map (JobFiles.returned storage) =
      shaders.map fun shader => { shader with text := Definitions.strip shader.text } := by
    refine List.map_congr_left fun shader member => ?_
    rw [JobFiles.returned, JobFiles.storedText, if_neg (Bool.eq_false_iff.1 plainText),
      Text.normalizeLineEnds_of_isRead (atMost.areRead shader member)]
  rw [stripped]
  exact atMost.map Macro.thins_strip

namespace Reduction

variable {JudgeMemory : Type}

/-! ### The summary -/

/-- The summary of a reduction that ended with a final job at a path. -/
def summaryWithFinal (result : ReductionResult) (inputLines : Nat) (path : Path)
    (finalLines : Nat) : Text :=
  summaryStart result inputLines ++ summaryOfFinal result path finalLines ++
    result.tally.summary 0 ++ ("\n" : Text)

theorem apart_summary {path : Path} (isJobPath : JobFiles.IsJobPath path) (folder : Path) :
    JobFiles.Apart path (folder.join ("summary.txt" : Text)) :=
  JobFiles.apart_join isJobPath folder (Path.plainName_of_length (by decide) (by decide))
    (by decide)

/-- The summary tells the size of the final job, as it can be read afterwards. -/
theorem writeSummary_eq_ok {result : ReductionResult} {inputLines : Nat} {path : Path}
    {directory after : Directory} (isFinal : result.finalPath = some path)
    (isJobPath : JobFiles.IsJobPath path)
    (wrote : (writeSummary result inputLines).startingAt directory = (.ok (), after)) :
    ∃ final content, (JobFiles.read path).startingAt after = (.ok final, after) ∧
      JobFiles.view path after = JobFiles.view path directory ∧
      Utf8.encode? (summaryWithFinal result inputLines path final.lineCount) = some content ∧
      after.nodeAt (result.folder.join ("summary.txt" : Text)) = some (.file content) := by
  have apart : ∀ other, other = result.folder.join ("summary.txt" : Text) →
      JobFiles.Apart path other := fun other same => same ▸ apart_summary isJobPath result.folder
  have change := (changesAt_writeSummary result inputLines).of_eq wrote
  obtain ⟨_, started, -, rest⟩ := bind_eq_ok_iff.1 wrote
  dsimp only at rest
  rw [isFinal] at rest
  obtain ⟨final, between, found, rest⟩ := bind_eq_ok_iff.1 rest
  obtain rfl := (JobFiles.reads_read path).of_eq found
  obtain ⟨middle, _, isMiddle, written⟩ := bind_eq_ok_iff.1 rest
  cases isMiddle
  have later := (FileAction.changesAt_writeText _ _).of_eq written
  obtain ⟨content, encoded, isFile⟩ := FileAction.writeText_eq_ok written
  exact ⟨final, content, JobFiles.startingAt_read_of_changesAt isJobPath later apart found,
    JobFiles.view_of_changesAt isJobPath change apart, encoded, isFile⟩

/-! ### The whole reduction -/

/-- How a reduction opens in a folder that it makes first. -/
def openingIn (settings : Settings) (folder path : Path) : FileAction Opening := do
  FileAction.ensureFolder folder
  opening settings folder path

section Reduce

variable {settings : Settings} {folder path : Path} {opening : Opening} {prepared : Directory}

/-- The job from which the session starts was read. -/
theorem isRead_of_openingIn {directory : Directory}
    (opened : (openingIn settings folder path).startingAt directory = (.ok opening, prepared)) :
    JobFiles.IsRead opening.job := by
  obtain ⟨_, _, -, opened⟩ := bind_eq_ok_iff.1 opened
  obtain ⟨point, _, -, rest⟩ := bind_eq_ok_iff.1 opened
  obtain ⟨job, _, found, answer⟩ := bind_eq_ok_iff.1 rest
  cases answer
  exact JobFiles.isRead_of_read_eq_ok found

/-- A reduction that ends ran the session that it had opened. -/
theorem reduceFrom_of_openingIn {PlanMemory : Type} {method : Method PlanMemory JudgeMemory}
    {judge : Judge JudgeMemory} {state after : State PlanMemory JudgeMemory}
    {result : ReductionResult} (inFolder : settings.folder = .ok folder)
    (hasJudge : method.judge = .ok judge)
    (opened : (openingIn settings folder path).startingAt state.bench.directory =
      (.ok opening, prepared))
    (ran : (reduce settings method path).startingAt state = (.ok result, after)) :
    (reduceFrom settings method judge folder path opening).startingAt
      { state with bench := { state.bench with directory := prepared } } = (.ok result, after) := by
  rw [reduce, inFolder, ofExcept_ok_bind] at ran
  obtain ⟨_, first, ensured, rest⟩ := bind_eq_ok_iff.1 ran
  obtain ⟨made, ensuring, rfl⟩ := onDirectory_eq_iff.1 ensured
  rw [hasJudge, ofExcept_ok_bind] at rest
  obtain ⟨found, second, foundHere, rest⟩ := bind_eq_ok_iff.1 rest
  obtain ⟨last, opening, rfl⟩ := onDirectory_eq_iff.1 foundHere
  have whole : (openingIn settings folder path).startingAt state.bench.directory =
      (.ok found, last) := bind_eq_ok_iff.2 ⟨_, made, ensuring, opening⟩
  cases whole.symm.trans opened
  exact rest

/-- The reduced size is not above the original one. A reduction that removes chunks of lines from a
job whose bindings are numbers, writes no block of definitions and ends with a final job, which the
judge leaves as it is if it accepts it, leaves files from which that job can be read, with no more
lines than the job from which the session started had. These are the two sizes in the summary. -/
theorem exists_lineCount_le_of_reduce {method : Method LineChunk.Memory JudgeMemory}
    {judge : Judge JudgeMemory} {state after : State LineChunk.Memory JudgeMemory}
    {result : ReductionResult} {final : Path} (inFolder : settings.folder = .ok folder)
    (plainText : settings.emitDefinitions.isGiven = false) (isPlan : method.plan = LineChunk.plan)
    (hasJudge : method.judge = .ok judge) (keeps : judge.KeepsAccepted final)
    (opened : (openingIn settings folder path).startingAt state.bench.directory =
      (.ok opening, prepared))
    (integers : ∀ given, opening.job.uniforms.bindings = .ok given → Uniforms.AreIntegers given)
    (ran : (reduce settings method path).startingAt state = (.ok result, after))
    (isFinal : result.finalPath = some final) :
    ∃ job content,
      (JobFiles.read final).startingAt after.bench.directory = (.ok job, after.bench.directory) ∧
      job.lineCount ≤ opening.job.lineCount ∧
      Utf8.encode? (summaryWithFinal result opening.job.lineCount final job.lineCount) =
        some content ∧
      after.bench.directory.nodeAt (folder.join ("summary.txt" : Text)) =
        some (.file content) := by
  obtain ⟨finalName, last, run, isResult, wrote⟩ :=
    reduceFrom_eq_ok (reduceFrom_of_openingIn inFolder hasJudge opened ran)
  subst isResult
  obtain ⟨name, rfl, rfl⟩ := Option.map_eq_some_iff.1 isFinal
  have isJobPath : JobFiles.IsJobPath (folder.join (Trail.fileName name)) :=
    JobFiles.isJobPath_join _ _
  obtain ⟨form, atMost, view⟩ := Session.exists_atMost_of_run isPlan
    (isRead_of_openingIn opened) integers keeps run
  obtain ⟨job, content, found, same, encoded, isFile⟩ := writeSummary_eq_ok rfl isJobPath wrote
  have shaders := JobFiles.shaders_of_read_eq_ok isJobPath (same.trans view) found
    (fun shader member => (atMost.areRead shader member).isEncodable) atMost.ordered
  refine ⟨job, content, found, ?_, encoded, isFile⟩
  rw [Job.lineCount, shaders]
  exact (atMost.returned plainText).within

end Reduce

/-- A text with a bound declaration. -/
def boundText : Text := ("a\n" : Text) ++ Session.boundSize

/-- The directory with a job of that text and an empty folder. -/
def preparedBound : Directory :=
  ⟨[([("work" : Text)], .folder),
    ([("job.json" : Text)],
      .file ((Utf8.encode? "\x7b\"size\": \x7b\"binding\": 0\x7d\x7d").getD [])),
    ([("job.frag" : Text)], .file ((Utf8.encode? boundText).getD []))]⟩

/-- A reduction of that job starts from its two lines, and its binding is a number. -/
theorem exists_opening_preparedBound : ∃ opening prepared given,
    (openingIn stopping.settings "work" stopping.path).startingAt preparedBound =
        (.ok opening, prepared) ∧
      opening.job.lineCount = 2 ∧ opening.job.uniforms.bindings = .ok given ∧
      Uniforms.AreIntegers given := by
  have computed : ((openingIn stopping.settings "work" stopping.path).startingAt
      preparedBound).1.toOption.map (fun opening => (opening.job.lineCount,
        opening.job.uniforms.bindings.toOption.map fun given =>
          decide (Uniforms.AreIntegers given))) = some (2, some true) := by
    decide +kernel
  obtain ⟨opening, opens, facts⟩ := Option.map_eq_some_iff.1 computed
  obtain ⟨two, numbers⟩ := Prod.mk.inj facts
  obtain ⟨given, isGiven, areIntegers⟩ := Option.map_eq_some_iff.1 numbers
  exact ⟨opening, _, given, eq_ok_of_toOption opens, two, Session.eq_ok_of_toOption_eq isGiven,
    of_decide_eq_true areIntegers⟩

theorem isSome_finalPath_stopping :
    ((stopping.run preparedBound).1.toOption.bind ReductionResult.finalPath).isSome = true := by
  unfold Request.run stopping fresh LineChunk.plan LineChunk.propose
  rw [LineChunk.search_eq_searchTrying 10]
  decide +kernel

theorem exists_lineCount_le_of_stopping : ∃ opening prepared result after final job,
    (openingIn stopping.settings "work" stopping.path).startingAt
        (stopping.start preparedBound).bench.directory = (.ok opening, prepared) ∧
      opening.job.lineCount = 2 ∧
      (∃ given, opening.job.uniforms.bindings = .ok given ∧ Uniforms.AreIntegers given) ∧
      (reduce stopping.settings stopping.method stopping.path).startingAt
        (stopping.start preparedBound) = (.ok result, after) ∧
      result.finalPath = some final ∧
      (JobFiles.read final).startingAt after.bench.directory = (.ok job, after.bench.directory) ∧
      job.lineCount ≤ opening.job.lineCount := by
  obtain ⟨final, found⟩ := Option.isSome_iff_exists.1 isSome_finalPath_stopping
  obtain ⟨result, returned, isFinal⟩ := Option.bind_eq_some_iff.1 found
  obtain ⟨after, ran⟩ : ∃ after, stopping.run preparedBound = (.ok result, after) :=
    ⟨_, eq_ok_of_toOption returned⟩
  obtain ⟨opening, prepared, given, opened, two, isGiven, areIntegers⟩ :=
    exists_opening_preparedBound
  have opened : (openingIn stopping.settings "work" stopping.path).startingAt
      (stopping.start preparedBound).bench.directory = (.ok opening, prepared) := opened
  have integers : ∀ other, opening.job.uniforms.bindings = .ok other →
      Uniforms.AreIntegers other := by
    intro other isOther
    obtain rfl := Except.ok.inj (isGiven.symm.trans isOther)
    exact areIntegers
  obtain ⟨name, -, isPath⟩ := Option.map_eq_some_iff.1 isFinal
  have keeps : Sitting.scripted.KeepsAccepted final := isPath ▸
    Sitting.writesOnlyResult_scripted.keepsJobs.keepsAccepted (JobFiles.isJobPath_join _ _)
  obtain ⟨job, -, read, atMost, -, -⟩ :=
    exists_lineCount_le_of_reduce rfl rfl rfl rfl keeps opened integers ran isFinal
  exact ⟨opening, prepared, result, after, final, job, opened, two, ⟨given, isGiven, areIntegers⟩,
    ran, isFinal, read, atMost⟩

/-- The judge that accepts every job and puts a text in the place of its fragment shader. -/
def rewriting (text : Text) : Judge Unit where
  report job _ := do
    Bench.onDirectory
      (FileAction.writeText (JobFiles.beside job Stage.fragment.suffix) text)
    pure ⟨.interesting, [], none, false, [], .finite false 0 0⟩

/-- The request that is stopped after one attempt, with a judge that puts three lines in the place
of the two that the job has. -/
def rewritten : Request where
  PlanMemory := LineChunk.Memory
  JudgeMemory := Unit
  settings := stopping.settings
  method :=
    ⟨LineChunk.plan, fun memory => LineChunk.attemptBound memory.initialSize,
      .ok (rewriting "a\nb\nc\n")⟩
  plan := LineChunk.start (some 1)
  memory := ()
  path := stopping.path

/-- Reduces the job of a request and reads the final job. -/
def Request.readFinal (request : Request) :
    Action (State request.PlanMemory request.JudgeMemory) (Option Job) := do
  let result ← reduce request.settings request.method request.path
  match result.finalPath with
  | some path => return some (← onDirectory (JobFiles.read path))
  | none => return none

theorem Request.readFinal_eq_some {request : Request} {directory : Directory} {job : Job}
    {last : State request.PlanMemory request.JudgeMemory}
    (found : request.readFinal.startingAt (request.start directory) = (.ok (some job), last)) :
    ∃ result after final, request.run directory = (.ok result, after) ∧
      result.finalPath = some final ∧
      (JobFiles.read final).startingAt after.bench.directory =
        (.ok job, after.bench.directory) := by
  obtain ⟨result, after, ran, rest⟩ := bind_eq_ok_iff.1 found
  cases isFinal : result.finalPath with
  | none =>
    rw [isFinal] at rest
    cases rest
  | some final =>
    rw [isFinal] at rest
    obtain ⟨other, between, read, answer⟩ := bind_eq_ok_iff.1 rest
    cases answer
    obtain ⟨directory, run, rfl⟩ := onDirectory_eq_iff.1 read
    obtain rfl := (JobFiles.reads_read final).of_eq run
    exact ⟨result, after, final, ran, isFinal, run⟩

theorem lineCount_rewritten :
    ((rewritten.readFinal.startingAt (rewritten.start preparedBound)).1.toOption.bind fun final =>
      final.map Job.lineCount) = some 3 := by
  unfold Request.readFinal rewritten stopping fresh LineChunk.plan LineChunk.propose
  rw [LineChunk.search_eq_searchTrying 10]
  decide +kernel

/-- The reduced size is above the original one if the judge rewrites the final job while it is
asked. -/
theorem exists_lt_lineCount_of_rewritten : ∃ opening prepared result after final job,
    rewritten.settings.folder = .ok "work" ∧
      rewritten.settings.emitDefinitions.isGiven = false ∧
      rewritten.method.plan = LineChunk.plan ∧
      (openingIn rewritten.settings "work" rewritten.path).startingAt
        (rewritten.start preparedBound).bench.directory = (.ok opening, prepared) ∧
      (∃ given, opening.job.uniforms.bindings = .ok given ∧ Uniforms.AreIntegers given) ∧
      (reduce rewritten.settings rewritten.method rewritten.path).startingAt
        (rewritten.start preparedBound) = (.ok result, after) ∧
      result.finalPath = some final ∧
      (JobFiles.read final).startingAt after.bench.directory = (.ok job, after.bench.directory) ∧
      opening.job.lineCount < job.lineCount := by
  obtain ⟨found, read, counted⟩ := Option.bind_eq_some_iff.1 lineCount_rewritten
  obtain ⟨job, rfl, three⟩ := Option.map_eq_some_iff.1 counted
  obtain ⟨result, after, final, ran, isFinal, reads⟩ :=
    Request.readFinal_eq_some (eq_ok_of_toOption read)
  obtain ⟨opening, prepared, given, opened, two, isGiven, areIntegers⟩ :=
    exists_opening_preparedBound
  exact ⟨opening, prepared, result, after, final, job, rfl, rfl, rfl, opened,
    ⟨given, isGiven, areIntegers⟩, ran, isFinal, reads, by omega⟩

end Reduction

end ShaderReduction
