/-
This file proves that the results beside the steps of a reduction are those that the verdicts on
them call for, however many sittings there were and whatever ended them.

Every request goes on in the folder where those before it left off, with a judge that runs a
command. The command may find the job interesting or not, run out of time, be missing or fail to
start, and a failure may end a reduction at any question to its judge. Still the outcome of each
step in the folder is by the last verdict on its job, which stands in its result; a step without a
verdict was rejected by what was remembered, and has none. Only a step for whose result the name is
too long is tagged without it.
-/

import ShaderReduction.Proofs.Reduction.Requests
import ShaderReduction.Proofs.Reduction.Resumption
import ShaderReduction.Proofs.Session.Results
import ShaderReduction.Replay

namespace ShaderReduction

open ShaderReduction.Action Directory Trail

namespace Reduction

/-- A request goes on with the reduction of a job with a name in a folder, with a judge that runs a
command. -/
structure Request.GoesOn (folder : Path) (base : Text) (request : Request) : Prop where
  folder : request.settings.folder = .ok folder
  base : request.path.stem = base
  continues : request.settings.continuePrevious.isGiven = true
  runsCommand : ∃ launcher : Launcher request.JudgeMemory, launcher.IsQuiet ∧
    ∃ command, request.method.judge = commandJudge request.settings launcher command

section Requests

variable {site : Site} {last : Nat} {earlier : List Judgement} {directory : Directory}
  {request : Request} {requests : List Request}

theorem Request.GoesOn.writesDown (goesOn : request.GoesOn site.folder site.base)
    {judge : Judge request.JudgeMemory} (hasJudge : request.method.judge = .ok judge) :
    judge.WritesDown := by
  obtain ⟨launcher, quiet, command, isCommand⟩ := goesOn.runsCommand
  rw [isCommand, commandJudge] at hasJudge
  cases isSetup : judgeSetup request.settings command with
  | error fault =>
    rw [isSetup] at hasJudge
    cases hasJudge
  | ok setup =>
    rw [isSetup] at hasJudge
    exact CommandJudge.writesDown_judge quiet hasJudge

/-- The summary leaves everything attested. -/
theorem keepsAttested_writeSummary (noSlash : .scalar '/' ∉ site.base) {Memory : Type}
    {result : ReductionResult} (folder : result.folder = site.folder) (inputLines : Nat) :
    Respects (site.KeepsAttested earlier last)
      (Bench.onDirectory (writeSummary result inputLines) :
        Action (Bench (Recorded Memory)) Unit) := by
  refine Site.respects_keepsAttested noSlash (changesAt_writeSummary result inputLines)
    fun path same => ⟨("summary.txt" : Text), .inl (not_ofStep_of_notMem (by decide)),
      Path.plainName_of_length (by decide) (by decide), ?_⟩
  rw [same, folder]

/-- Whatever comes of a request, the verdicts on the steps are attested afterwards. -/
theorem attested_left (noSlash : .scalar '/' ∉ site.base)
    (goesOn : request.GoesOn site.folder site.base)
    (attested : site.Attested last earlier directory) :
    ∃ last, site.Attested last (earlier ++ request.judgements directory)
      (request.left directory) := by
  have flat := attested.flat
  rw [Request.left_eq, Request.judgements]
  rcases ran : request.noted directory with ⟨outcome, after⟩
  rcases reduce_eq goesOn.folder flat.located flat.holds.isFolder ran with
    ⟨fault, -, rfl⟩ | ⟨judge, opening, hasJudge, opened, rest⟩
  · exact ⟨last, (List.append_nil earlier).symm ▸ attested⟩
  obtain ⟨plain, isJudge, rfl⟩ : ∃ plain, request.method.judge = .ok plain ∧
      plain.recorded = judge := by
    rw [Method.noted] at hasJudge
    cases isJudge : request.method.judge with
    | error fault =>
      rw [isJudge] at hasJudge
      cases hasJudge
    | ok plain =>
      rw [isJudge] at hasJudge
      exact ⟨plain, rfl, Except.ok.inj hasJudge⟩
  have listed := flat.startingAt_records site.base
  rw [← goesOn.base] at listed
  obtain rfl : opening.offset = last := by
    rw [offset_of_opening_eq_ok goesOn.continues listed opened, goesOn.base]
    exact attested.offset_resumePointOf noSlash
  obtain ⟨ended, final, run, summary⟩ := exists_run_of_reduceFrom rest
  have reports : Session.Reports site opening.offset plain
      (sessionSetup request.settings request.method.noted plain.recorded site.folder request.path
        opening.offset) :=
    ⟨rfl, goesOn.base, rfl, noSlash, rfl, goesOn.writesDown isJudge⟩
  have begun : site.AttestedOn earlier opening.offset
      (⟨directory, ⟨request.memory, []⟩⟩ : Bench (Recorded request.JudgeMemory)) := by
    rw [Site.AttestedOn, List.append_nil]
    exact attested
  obtain ⟨last, kept⟩ := reports.attested_of_run begun rfl run
  refine ⟨last, show site.AttestedOn earlier last after.bench from ?_⟩
  rcases summary with same | ⟨result, folder, inputLines, written, wrote⟩
  · rw [same]
    exact kept
  · exact (keepsAttested_writeSummary noSlash folder inputLines).of_eq wrote kept

/-- Requests that go on one after the other leave the verdicts on all steps attested. -/
theorem attested_leftBy (noSlash : .scalar '/' ∉ site.base)
    (goOn : ∀ request ∈ requests, request.GoesOn site.folder site.base)
    (attested : site.Attested last earlier directory) :
    ∃ last, site.Attested last (earlier ++ Request.judgementsOf requests directory)
      (Request.leftBy requests directory) := by
  induction requests generalizing last earlier directory with
  | nil => exact ⟨last, (List.append_nil earlier).symm ▸ attested⟩
  | cons request requests inductionHypothesis =>
    obtain ⟨goesOn, restGoOn⟩ := List.forall_mem_cons.1 goOn
    obtain ⟨next, nextAttested⟩ := attested_left noSlash goesOn attested
    obtain ⟨last, lastAttested⟩ := inductionHypothesis restGoOn nextAttested
    rw [List.append_assoc] at lastAttested
    exact ⟨last, lastAttested⟩

/-- What stands under the name of the job of a step is found as that step. -/
theorem mem_records_of_goesOn {folder : Path} {base : Text} (noSlash : .scalar '/' ∉ base)
    (empty : (FileAction.list folder).startingAt directory = (.ok [], directory))
    (goOn : ∀ request ∈ requests, request.GoesOn folder base) {number : Nat} {outcome : Outcome}
    (present : ((Request.leftBy requests directory).nodeAt
      (folder.join (fileName (judgedName base number outcome)))).isSome = true)
    {found : List StepRecord}
    (listed : (Trail.records folder base).startingAt (Request.leftBy requests directory) =
      (.ok found, Request.leftBy requests directory)) :
    ⟨number, outcome, folder.join (fileName (judgedName base number outcome))⟩ ∈ found := by
  obtain ⟨location, nothing⟩ := Site.exists_attested_of_empty empty noSlash
  obtain ⟨last, attested⟩ := attested_leftBy noSlash goOn nothing
  have plain := (Scene.isStem_judgedName noSlash number outcome).plainName_fileName
  have has := attested.flat.has_of_nodeAt plain present
  rw [attested.flat.startingAt_records base] at listed
  cases listed
  exact Scene.mem_recordsOf_of_mem noSlash ((mem_namesIn_iff plain).2 has)

end Requests

/-! ### A reduction whose judge fails -/

theorem isQuiet_scriptedLauncher (rules : List Replay.Rule) :
    (Replay.scriptedLauncher rules).IsQuiet := by
  have reads : ∀ job, Reads (Replay.checkAll job rules) := by
    intro job
    induction rules with
    | nil => exact respects_pure _
    | cons rule rules inductionHypothesis =>
      have holds : ∀ suffix word, Reads (Replay.jobHolds job suffix word) := by
        intro suffix word
        unfold Replay.jobHolds
        split
        · refine (FileAction.reads_isPresent _).bind fun present => ?_
          split
          · refine (FileAction.reads_readBytes _).bind fun content => ?_
            split
            · exact respects_pure _
            · exact respects_throw _
          · exact respects_pure _
        · exact respects_pure _
      have checks : Reads (rule.check job) := by
        cases rule with
        | holds suffix word => exact holds suffix word
        | lacks suffix word => exact (holds suffix word).bind fun _ => respects_pure _
      refine checks.bind fun fits => ?_
      split
      · exact inductionHypothesis
      · exact respects_pure _
  intro command limit
  refine Respects.bind (fun _ => rfl) fun _ => respects_get.bind fun bench => ?_
  split
  · exact Respects.bind (fun _ => rfl) fun _ => respects_pure _
  · exact (Bench.respects_onDirectory_of_reads (reads _)).bind fun _ => respects_pure _

/-- The settings under which a reduction goes on, up to two attempts at a time. -/
def continuing : Settings :=
  { Settings.default with
    outputFolder := some "work"
    stepLimit := .integer 2
    continuePrevious := .boolean true
    judgeCommand := .array [.string "./test"] }

/-- A request to go on with the job at a path, line by line, with a command whose runs end in some
ways. -/
def goingOn (path : Path) (ends : List RunOutcome) : Request where
  PlanMemory := LineChunk.Memory
  JudgeMemory := Replay.LauncherMemory
  settings := continuing
  method := usualMethod continuing (Replay.scriptedLauncher [])
  plan := LineChunk.start (some 1)
  memory := Replay.LauncherMemory.start (ends.map fun ended => (ended, .finite false 0 0))
  path := path

theorem goesOn_goingOn (path : Path) (ends : List RunOutcome) :
    (goingOn path ends).GoesOn "work" path.stem :=
  ⟨rfl, rfl, rfl, _, isQuiet_scriptedLauncher [], _, rfl⟩

/-- The request whose first candidate is rejected and whose second one is accepted, before the
command of the judge is missing. -/
def failing : Request :=
  goingOn (Path.ofText "job.json")
    [.exited 0 [] [], .exited 1 [] [], .exited 0 [] [], .commandMissing]

theorem left_failing :
    (failing.run Sitting.prepared).1.toOption.isNone = true ∧
      ((failing.left Sitting.prepared).nodeAt (Path.join "work"
        (fileName (judgedName "job" (1 : Nat) .rejected)))).isSome = true ∧
      ((failing.left Sitting.prepared).nodeAt (Path.join "work"
        (fileName (judgedName "job" (2 : Nat) .accepted)))).isSome = true := by
  unfold Request.left Request.run failing goingOn usualMethod LineChunk.plan LineChunk.propose
  rw [LineChunk.search_eq_searchTrying 10]
  decide +kernel

/-! ### A name that is too long -/

/-- A name of a job of which the names of steps are not too long, but those of their results are. -/
def longBase : Text := List.replicate 225 (.scalar 's')

/-- The directory with a job of that name and an empty folder. -/
def longNamed : Directory :=
  ⟨[([("work" : Text)], .folder), ([longBase ++ (".json" : Text)], .file [0x7b, 0x7d]),
    ([longBase ++ (".frag" : Text)], .file [0x61, 0x0a, 0x62, 0x0a])]⟩

/-- The request that accepts its first candidate. -/
def accepting : Request :=
  goingOn (Path.ofText (longBase ++ (".json" : Text))) [.exited 0 [] [], .exited 0 [] []]

theorem left_accepting :
    ((accepting.left longNamed).nodeAt (Path.join "work"
        (fileName (judgedName longBase (1 : Nat) .accepted)))).isSome = true ∧
      (accepting.left longNamed).nodeAt (Path.join "work"
        (judgedName longBase (1 : Nat) .accepted ++ JobFiles.resultEnding)) = none := by
  unfold Request.left Request.run accepting goingOn usualMethod LineChunk.plan LineChunk.propose
  rw [LineChunk.search_eq_searchTrying 10]
  decide +kernel

/-! ### The results of the steps -/

section Requests

variable {directory : Directory} {requests : List Request}

/-- The results beside the steps are those that the verdicts on them call for: after requests that
go on one after the other in a folder that was empty, wherever failures ended them, the outcome of
each step found there is by the last verdict on its job, and that stands in its result. A step
without a verdict was rejected and has no result. This is so unless the name for the result is too
long. -/
theorem attests_of_goesOn {folder : Path} {base : Text} (noSlash : .scalar '/' ∉ base)
    (empty : (FileAction.list folder).startingAt directory = (.ok [], directory))
    (goOn : ∀ request ∈ requests, request.GoesOn folder base) :
    ∃ found, (Trail.records folder base).startingAt (Request.leftBy requests directory) =
        (.ok found, Request.leftBy requests directory) ∧
      ∀ record ∈ found, ∃ result, JobFiles.result record.path = .ok result ∧
        ((Request.leftBy requests directory).locate result ≠ .error .nameTooLong →
          Attests record.outcome ((Request.leftBy requests directory).nodeAt result)
            (verdictOn (folder.join (fileName (stepName base record.attempt)))
              (Request.judgementsOf requests directory))) := by
  obtain ⟨location, nothing⟩ := Site.exists_attested_of_empty empty noSlash
  obtain ⟨last, attested⟩ := attested_leftBy noSlash goOn nothing
  refine ⟨_, attested.flat.startingAt_records base, fun record member => ?_⟩
  obtain ⟨-, bound, isAt, has⟩ := attested.exists_of_mem_recordsOf noSlash member
  have isStem := Scene.isStem_judgedName noSlash record.attempt record.outcome
  refine ⟨_, isAt ▸ JobFiles.result_join isStem folder, fun short => ?_⟩
  refine attested.results record.attempt record.outcome bound has fun tooLong => short ?_
  rw [attested.flat.holds.toReaches.locate_join
    (isStem.plainName_append JobFiles.isEnding_resultEnding), tooLong]

end Requests

theorem attests_of_failing :
    .scalar '/' ∉ ("job" : Text) ∧
      (FileAction.list "work").startingAt Sitting.prepared = (.ok [], Sitting.prepared) ∧
      (∀ request ∈ [failing], request.GoesOn "work" "job") ∧
      (failing.run Sitting.prepared).1.toOption.isNone = true ∧
      ∃ found, (Trail.records "work" "job").startingAt (Request.leftBy [failing] Sitting.prepared) =
          (.ok found, Request.leftBy [failing] Sitting.prepared) ∧
        ((∃ record ∈ found, record.outcome = .rejected) ∧
          ∃ record ∈ found, record.outcome = .accepted) ∧
        ∀ record ∈ found, ∃ result, JobFiles.result record.path = .ok result ∧
          ((Request.leftBy [failing] Sitting.prepared).locate result ≠ .error .nameTooLong →
            Attests record.outcome ((Request.leftBy [failing] Sitting.prepared).nodeAt result)
              (verdictOn (Path.join "work" (fileName (stepName "job" record.attempt)))
                (Request.judgementsOf [failing] Sitting.prepared))) := by
  have noSlash : .scalar '/' ∉ ("job" : Text) := by decide
  have empty := Sitting.begins_prepared.empty
  have isBase : (Path.ofText "job.json").stem = ("job" : Text) := by decide +kernel
  have goOn : ∀ request ∈ [failing], request.GoesOn "work" "job" :=
    List.forall_mem_singleton.2 (isBase ▸ goesOn_goingOn _ _)
  obtain ⟨ended, rejected, accepted⟩ := left_failing
  obtain ⟨found, listed, attests⟩ := attests_of_goesOn noSlash empty goOn
  exact ⟨noSlash, empty, goOn, ended, found, listed,
    ⟨⟨_, mem_records_of_goesOn noSlash empty goOn rejected listed, rfl⟩,
      ⟨_, mem_records_of_goesOn noSlash empty goOn accepted listed, rfl⟩⟩, attests⟩

/-- If the name for the result of a step is too long, the step may be tagged without it. -/
theorem exists_record_not_attests :
    .scalar '/' ∉ longBase ∧
      (FileAction.list "work").startingAt longNamed = (.ok [], longNamed) ∧
      (∀ request ∈ [accepting], request.GoesOn "work" longBase) ∧
      ∃ found, (Trail.records "work" longBase).startingAt (Request.leftBy [accepting] longNamed) =
          (.ok found, Request.leftBy [accepting] longNamed) ∧
        ∃ record ∈ found, ∃ result, JobFiles.result record.path = .ok result ∧
          ¬Attests record.outcome ((Request.leftBy [accepting] longNamed).nodeAt result)
            (verdictOn (Path.join "work" (fileName (stepName longBase record.attempt)))
              (Request.judgementsOf [accepting] longNamed)) := by
  have noSlash : .scalar '/' ∉ longBase := by decide +kernel
  have empty : (FileAction.list "work").startingAt longNamed = (.ok [], longNamed) := by
    have located : longNamed.locate "work" = .ok ["work"] := rfl
    have nothing : longNamed.namesIn ["work"] = [] := by decide +kernel
    rw [FileAction.startingAt_list located rfl, nothing]
  have isBase : (Path.ofText (longBase ++ (".json" : Text))).stem = longBase := by decide +kernel
  have goOn : ∀ request ∈ [accepting], request.GoesOn "work" longBase :=
    List.forall_mem_singleton.2 (isBase ▸ goesOn_goingOn _ _)
  obtain ⟨present, nothing⟩ := left_accepting
  obtain ⟨location, begun⟩ := Site.exists_attested_of_empty empty noSlash
  obtain ⟨last, attested⟩ := attested_leftBy noSlash goOn begun
  have listed := attested.flat.startingAt_records longBase
  have isStem := Scene.isStem_judgedName noSlash 1 .accepted
  refine ⟨noSlash, empty, goOn, _, listed, _,
    mem_records_of_goesOn noSlash empty goOn present listed, _,
    JobFiles.result_join isStem "work", ?_⟩
  show ¬Attests .accepted ((accepting.left longNamed).nodeAt _) _
  rw [nothing]
  cases verdictOn _ (Request.judgementsOf [accepting] longNamed) with
  | none =>
    rintro ⟨impossible, -⟩
    cases impossible
  | some verdict =>
    rintro ⟨-, report, content, -, -, impossible⟩
    cases impossible

end Reduction

end ShaderReduction
