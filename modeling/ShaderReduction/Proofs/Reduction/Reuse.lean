/-
This file proves what reductions of a job leave in a folder that they use again and again.

Nothing is cleared away before a reduction. One that starts at the job itself, though earlier ones
left their trail in the folder, puts the records of its attempts among theirs, and a later one goes
on after the greatest number of them all. The markers are made and never removed, so they tell what
came of some reduction in the folder and not of the last one.
-/

import ShaderReduction.Proofs.Reduction.Requests
import ShaderReduction.Proofs.Reduction.Resumption
import ShaderReduction.Proofs.Session.Gains

namespace ShaderReduction

open ShaderReduction.Action Directory Trail

namespace Reduction

/-! ### The attempts of a request -/

namespace Request

/-- The attempts of the session of a request in a folder that is there, none if it does not come to
a session. -/
def attempts (request : Request) (directory : Directory) :
    List (Session.Attempt request.PlanMemory request.JudgeMemory) :=
  let made : Except Fault (List (Session.Attempt request.PlanMemory request.JudgeMemory)) := do
    let folder ← request.settings.folder
    let judge ← request.method.judge
    let opening ← ((opening request.settings folder request.path).startingAt directory).1
    return Session.attempts
      (sessionSetup request.settings request.method judge folder request.path opening.offset)
      (sessionBudget request.settings request.method request.plan opening.job) opening.job
      (Session.start directory request.plan request.memory)
  made.toOption.getD []

/-- The records of the attempts of a request that starts at the job itself. -/
def records (folder : Path) (base : Text) (request : Request) (directory : Directory) :
    List StepRecord :=
  (request.attempts directory).mapIdx fun index attempt =>
    let outcome := Outcome.ofVerdict attempt.accepted
    ⟨index + 1, outcome,
      folder.join (fileName (judgedName base ((index + 1 : Nat) : Int) outcome))⟩

/-- A request is to reduce a job with a name in a folder, with a judge that writes only its
result. -/
structure AimsAt (folder : Path) (base : Text) (request : Request) : Prop where
  folder : request.settings.folder = .ok folder
  base : request.path.stem = base
  tidy : ∀ judge, request.method.judge = .ok judge → judge.WritesOnlyResult

/-- The judge of a request leaves every location standing once. -/
def IsOrderly (request : Request) : Prop :=
  ∀ judge, request.method.judge = .ok judge → judge.KeepsDistinct

end Request

/-! ### What lasts -/

section Lasting

variable {site : Site} {request : Request} {directory : Directory}

theorem leavesAt_sessionSetup (aims : request.AimsAt site.folder site.base)
    (noSlash : .scalar '/' ∉ site.base) {judge : Judge request.JudgeMemory}
    (hasJudge : request.method.judge = .ok judge) (offset : Nat) :
    Session.LeavesAt { site with offset } (sessionSetup request.settings request.method judge
      site.folder request.path offset) :=
  ⟨rfl, aims.base, rfl, noSlash, aims.tidy judge hasJudge⟩

/-- The summary tells nothing. -/
theorem quiet_writeSummary (site : Site) {result : ReductionResult} (inputLines : Nat)
    (folder : result.folder = site.folder) :
    Respects site.Quiet (writeSummary result inputLines) := by
  refine (changesAt_writeSummary result inputLines).mono fun _ _ change => ?_
  refine Site.quiet_of_changesAt change fun path same => ⟨("summary.txt" : Text),
    not_telling_of_notMem (by decide) (by decide), Path.plainName_of_length (by decide) (by decide),
    ?_⟩
  rw [same, folder]

/-- Whatever comes of a request, the folder stays one of files, and its markers stay. -/
theorem lasts_left (aims : request.AimsAt site.folder site.base)
    (noSlash : .scalar '/' ∉ site.base) (directory : Directory) :
    site.Lasts directory (request.left directory) := by
  have ensured : Respects site.Lasts (FileAction.ensureFolder site.folder) := by
    intro before flat
    rw [FileAction.startingAt_ensureFolder flat.located flat.holds.isFolder]
    exact ⟨flat, fun _ _ => id⟩
  have respects : Respects (State.OnBench (Bench.OnDirectory site.Lasts))
      (reduce request.settings request.method request.path) :=
    respects_reduce aims.folder (Bench.respects_onDirectory ensured)
      (fun judge hasJudge offset budget job =>
        (leavesAt_sessionSetup aims noSlash hasJudge offset).lasts_run budget job)
      fun result inputLines folder => Bench.respects_onDirectory
        ((quiet_writeSummary site inputLines folder).mono fun _ _ => Site.Gains.lasts)
  exact respects (request.start directory)

theorem lasts_leftBy {requests : List Request}
    (aim : ∀ request ∈ requests, request.AimsAt site.folder site.base)
    (noSlash : .scalar '/' ∉ site.base) (directory : Directory) :
    site.Lasts directory (Request.leftBy requests directory) := by
  induction requests generalizing directory with
  | nil => exact refl_of site.Lasts directory
  | cons request requests inductionHypothesis =>
    exact trans_of site.Lasts (lasts_left (aim request List.mem_cons_self) noSlash directory)
      (inductionHypothesis (fun other later => aim other (List.mem_cons_of_mem _ later)) _)

/-! ### What a request tells -/

/-- The session of a request that returns: after how many attempts it began, its result and what it
left. -/
structure Returned (site : Site) (request : Request) (directory : Directory)
    (result : ReductionResult) (setup : SessionSetup request.PlanMemory request.JudgeMemory)
    (budget : Nat) (job : Job) (finalName : Option Text)
    (last : Session request.PlanMemory request.JudgeMemory) : Prop where
  leaves : Session.LeavesAt { site with offset := result.offset } setup
  remembers : setup.remembers = true
  anew : request.settings.continuePrevious.isGiven = false → result.offset = 0
  ran : (Session.run setup budget job).startingAt
    (Session.start directory request.plan request.memory) = (.ok finalName, last)
  attempts : request.attempts directory =
    Session.attempts setup budget job (Session.start directory request.plan request.memory)
  tally : result.tally = last.tally
  finalName : result.finalName = finalName
  summary : site.Quiet last.bench.directory (request.left directory)

theorem exists_returned (aims : request.AimsAt site.folder site.base)
    (noSlash : .scalar '/' ∉ site.base) (flat : site.Flat directory) {result : ReductionResult}
    (returned : (request.run directory).1 = .ok result) :
    ∃ setup budget job finalName last,
      Returned site request directory result setup budget job finalName last := by
  have ran : (reduce request.settings request.method request.path).startingAt
      (request.start directory) = (.ok result, (request.run directory).2) :=
    Prod.ext returned rfl
  obtain ⟨judge, opening, hasJudge, opened, rest⟩ :=
    reduce_eq_ok aims.folder flat.located flat.holds.isFolder ran
  obtain ⟨finalName, last, run, rfl, wrote⟩ := reduceFrom_eq_ok rest
  have made : request.attempts directory = Session.attempts
      (sessionSetup request.settings request.method judge site.folder request.path opening.offset)
      (sessionBudget request.settings request.method request.plan opening.job) opening.job
      (Session.start directory request.plan request.memory) := by
    have start : (Reduction.opening request.settings site.folder request.path).startingAt
        directory = (.ok opening, directory) := opened
    rw [Request.attempts, aims.folder, hasJudge]
    dsimp only [bind, Except.bind]
    rw [start]
    rfl
  exact ⟨_, _, _, finalName, last, leavesAt_sessionSetup aims noSlash hasJudge _, rfl,
    fun anew => (opening_eq_ok anew opened).1, run, made, rfl, rfl,
    (quiet_writeSummary site _ rfl).of_eq wrote⟩

/-- A request that returns tells the steps of its attempts, that the input was not interesting or
that it was stopped early, beside what was told before. -/
theorem gains_of_returned {result : ReductionResult} (aims : request.AimsAt site.folder site.base)
    (noSlash : .scalar '/' ∉ site.base) (flat : site.Flat directory)
    (returned : (request.run directory).1 = .ok result) :
    site.Gains (fun name =>
      (∃ index, ∃ attempt : Session.Attempt request.PlanMemory request.JudgeMemory,
        (request.attempts directory)[index]? = some attempt ∧
          name = fileName ({ site with offset := result.offset }.nameAt index attempt.step)) ∨
      (result.notInteresting = true ∧ name = notInterestingMarker) ∨
      (result.incomplete = true ∧ name = incompleteMarker)) directory (request.left directory) := by
  obtain ⟨setup, budget, job, finalName, last, session⟩ :=
    exists_returned aims noSlash flat returned
  have gains := session.leaves.gains_of_run rfl session.ran
  rw [ReductionResult.notInteresting, ReductionResult.incomplete, session.attempts, session.tally,
    session.finalName]
  exact Site.Gains.quiet gains session.summary

end Lasting

/-! ### Two reductions in one folder -/

/-- A request to reduce the job of two lines from the start, line by line up to a limit, with a
judge that gives some verdicts. -/
def fresh (stepLimit : Int) (verdicts : List Verdict) : Request where
  PlanMemory := LineChunk.Memory
  JudgeMemory := List Verdict
  settings :=
    { Settings.default with outputFolder := some "work", stepLimit := .integer stepLimit }
  method :=
    ⟨LineChunk.plan, fun memory => LineChunk.attemptBound memory.initialSize, .ok Sitting.scripted⟩
  plan := LineChunk.start (some 1)
  memory := verdicts
  path := Path.ofText "job.json"

/-- The request that rejects both candidates and comes to its end. -/
def rejecting : Request :=
  fresh (-1) [.interesting, .notInteresting, .notInteresting, .interesting]

/-- The request that accepts the first candidate and is stopped there. -/
def stopping : Request := fresh 1 [.interesting, .interesting, .interesting]

theorem aimsAt_of_eq {request : Request} (either : request = rejecting ∨ request = stopping) :
    request.AimsAt "work" "job" ∧ request.IsOrderly := by
  have isBase : (Path.ofText "job.json").stem = ("job" : Text) := by decide +kernel
  have tidy : ∀ judge, .ok Sitting.scripted = (.ok judge : Except Fault (Judge (List Verdict))) →
      judge.WritesOnlyResult ∧ judge.KeepsDistinct := by
    intro judge isJudge
    cases isJudge
    exact ⟨Sitting.writesOnlyResult_scripted, fun _ _ _ => id⟩
  rcases either with rfl | rfl
  · exact ⟨⟨rfl, isBase, fun judge isJudge => (tidy judge isJudge).1⟩,
      fun judge isJudge => (tidy judge isJudge).2⟩
  · exact ⟨⟨rfl, isBase, fun judge isJudge => (tidy judge isJudge).1⟩,
      fun judge isJudge => (tidy judge isJudge).2⟩

theorem flatAt_prepared : FlatAt "work" ["work"] Sitting.prepared where
  located := rfl
  holds := {
    followed := rfl
    isFolder := rfl
    flat := fun name plain isFolder => by
      have nothing : Sitting.prepared.namesIn ["work"] = [] := by decide +kernel
      rw [node?_of_namesIn_eq_nil nothing plain] at isFolder
      cases isFolder }

/-- The reduction that comes to its end after one that was stopped leaves the marker of that. -/
theorem left_rejecting :
    ((rejecting.run (Request.leftBy [stopping] Sitting.prepared)).1.toOption.map
        ReductionResult.incomplete) = some false ∧
      ((Request.leftBy [stopping, rejecting] Sitting.prepared).node?
        ([("work" : Text)] ++ [incompleteMarker])).isSome = true := by
  unfold Request.leftBy Request.left Request.run rejecting stopping fresh LineChunk.plan
    LineChunk.propose
  rw [LineChunk.search_eq_searchTrying 10]
  decide +kernel

/-- The reduction that is stopped after one that came to its end leaves a later step of that. -/
theorem left_stopping :
    ((stopping.run (Request.leftBy [rejecting] Sitting.prepared)).1.toOption.map
        fun result => result.tally.attempts) = some 1 ∧
      ((Request.leftBy [rejecting, stopping] Sitting.prepared).node? ([("work" : Text)] ++
        [fileName (judgedName "job" (2 : Nat) .rejected)])).isSome = true := by
  unfold Request.leftBy Request.left Request.run rejecting stopping fresh LineChunk.plan
    LineChunk.propose
  rw [LineChunk.search_eq_searchTrying 10]
  decide +kernel

theorem exists_returned_rejecting : ∃ result,
    (rejecting.run (Request.leftBy [stopping] Sitting.prepared)).1 = .ok result ∧
      result.incomplete = false := by
  obtain ⟨result, isResult, complete⟩ := Option.map_eq_some_iff.1 left_rejecting.1
  exact ⟨result, congrArg Prod.fst (eq_ok_of_toOption isResult), complete⟩

theorem exists_returned_stopping : ∃ result,
    (stopping.run (Request.leftBy [rejecting] Sitting.prepared)).1 = .ok result ∧
      result.tally.attempts = 1 := by
  obtain ⟨result, isResult, one⟩ := Option.map_eq_some_iff.1 left_stopping.1
  exact ⟨result, congrArg Prod.fst (eq_ok_of_toOption isResult), one⟩

/-! ### The markers -/

/-- A marker does not tell what came of the last reduction: after one that returns, it is there if
that was stopped early, or found its input not interesting, or if the marker was there before. Once
it is there it stays, whatever comes of later reductions. -/
theorem has_marker_iff_of_returned {site : Site} {start : Directory} {request : Request}
    {earlier later : List Request} {result : ReductionResult}
    (aim : ∀ other ∈ earlier ++ request :: later, other.AimsAt site.folder site.base)
    (noSlash : .scalar '/' ∉ site.base) (flat : site.Flat start)
    (returned : (request.run (Request.leftBy earlier start)).1 = .ok result) :
    (site.Has (Request.leftBy (earlier ++ [request]) start) incompleteMarker ↔
        result.incomplete = true ∨ site.Has (Request.leftBy earlier start) incompleteMarker) ∧
      (site.Has (Request.leftBy (earlier ++ [request]) start) notInterestingMarker ↔
        result.notInteresting = true ∨
          site.Has (Request.leftBy earlier start) notInterestingMarker) ∧
      ∀ marker ∈ markers, site.Has (Request.leftBy (earlier ++ [request]) start) marker →
        site.Has (Request.leftBy (earlier ++ request :: later) start) marker := by
  have aims := aim request (List.mem_append_right _ List.mem_cons_self)
  have before := (lasts_leftBy (fun other among => aim other (List.mem_append_left _ among)) noSlash
    start flat).1
  have gains := gains_of_returned aims noSlash before returned
  have after : Request.leftBy (earlier ++ [request]) start =
      request.left (Request.leftBy earlier start) := Request.leftBy_append _ _ _
  have noStep : ∀ marker ∈ markers, ∀ index step,
      marker ≠ fileName ({ site with offset := result.offset }.nameAt index step) := by
    rintro marker member index step rfl
    exact not_ofStep_of_mem_markers site.base member (Site.ofStep_nameAt index step _)
  have told : ∀ marker ∈ markers, _ := fun marker member =>
    (gains before).2 marker (.inr member) (plainName_of_mem_markers member)
  have isMarker : incompleteMarker ∈ markers ∧ notInterestingMarker ∈ markers := by decide
  refine ⟨?_, ?_, fun marker member has => ?_⟩
  · rw [after, told _ isMarker.1, or_comm]
    refine or_congr_left ⟨?_, fun stopped => .inr (.inr ⟨stopped, rfl⟩)⟩
    rintro (⟨index, attempt, -, same⟩ | ⟨-, same⟩ | ⟨stopped, -⟩)
    · exact absurd same (noStep _ isMarker.1 index attempt.step)
    · exact absurd same (by decide)
    · exact stopped
  · rw [after, told _ isMarker.2, or_comm]
    refine or_congr_left ⟨?_, fun refused => .inr (.inl ⟨refused, rfl⟩)⟩
    rintro (⟨index, attempt, -, same⟩ | ⟨refused, -⟩ | ⟨-, same⟩)
    · exact absurd same (noStep _ isMarker.2 index attempt.step)
    · exact refused
    · exact absurd same (by decide)
  · have split : earlier ++ request :: later = (earlier ++ [request]) ++ later := by
      rw [List.append_assoc, List.singleton_append]
    rw [split, Request.leftBy_append]
    rw [after] at has ⊢
    exact (lasts_leftBy (fun other among => aim other (List.mem_append_right _
      (List.mem_cons_of_mem _ among))) noSlash _ (gains before).1).2 marker member has

theorem has_marker_iff_of_rejecting :
    (∀ other ∈ [stopping] ++ rejecting :: [stopping], other.AimsAt "work" "job") ∧
      FlatAt "work" ["work"] Sitting.prepared ∧
      ∃ result, (rejecting.run (Request.leftBy [stopping] Sitting.prepared)).1 = .ok result ∧
        let site : Site := ⟨"work", ["work"], "job", 0⟩
        (site.Has (Request.leftBy ([stopping] ++ [rejecting]) Sitting.prepared) incompleteMarker ↔
          result.incomplete = true ∨
            site.Has (Request.leftBy [stopping] Sitting.prepared) incompleteMarker) := by
  have aim : ∀ other ∈ [stopping] ++ rejecting :: [stopping], other.AimsAt "work" "job" := by
    intro other member
    rcases List.mem_cons.1 member with rfl | rest
    · exact (aimsAt_of_eq (.inr rfl)).1
    · exact (aimsAt_of_eq (List.mem_pair.1 rest)).1
  obtain ⟨result, returned, -⟩ := exists_returned_rejecting
  let site : Site := ⟨"work", ["work"], "job", 0⟩
  have aimAtSite : ∀ other ∈ [stopping] ++ rejecting :: [stopping],
      other.AimsAt site.folder site.base := aim
  exact ⟨aim, flatAt_prepared, result, returned,
    (has_marker_iff_of_returned aimAtSite (by decide) flatAt_prepared returned).1⟩

/-- The marker of an early stop is there after a reduction that came to its end. -/
theorem has_incompleteMarker_after_rejecting :
    (∃ result, (rejecting.run (Request.leftBy [stopping] Sitting.prepared)).1 = .ok result ∧
      result.incomplete = false) ∧
    Site.Has ⟨"work", ["work"], "job", 0⟩
      (Request.leftBy [stopping, rejecting] Sitting.prepared) incompleteMarker :=
  ⟨exists_returned_rejecting, left_rejecting.2⟩

/-! ### The records -/

/-- The trail that is found after a reduction consists of the records that earlier ones left and of
those that it made, each once and in the order of their numbers. It is no other than that made now
only if nothing else was there, and it ends after the greatest number of all. It leads to the step
accepted last now only if no step accepted earlier is ahead of that. -/
structure Mixed (earlier made found : List StepRecord) : Prop where
  once : found.Nodup
  sorted : found.Pairwise fun left right => left.attempt ≤ right.attempt
  mem : ∀ record, record ∈ found ↔ record ∈ earlier ∨ record ∈ made
  exact : found = made ↔ ∀ record ∈ earlier, record ∈ made
  offset : (resumePointOf found).offset = max (resumePointOf earlier).offset made.length
  path : (∀ record ∈ earlier, record.outcome = .accepted → record ∈ made ∨
      ∃ other ∈ made, other.outcome = .accepted ∧ record.attempt < other.attempt) →
    (resumePointOf found).path = (resumePointOf made).path

section Records

variable {site : Site} {request : Request} {directory : Directory}

theorem keepsDistinct_left (aims : request.AimsAt site.folder site.base)
    (orderly : request.IsOrderly) (directory : Directory) :
    Directory.KeepsDistinct directory (request.left directory) := by
  have respects : Respects (State.OnBench (Bench.OnDirectory Directory.KeepsDistinct))
      (reduce request.settings request.method request.path) :=
    respects_reduce aims.folder
      (Bench.respects_onDirectory (FileAction.keepsDistinct_ensureSteps _ _))
      (fun judge hasJudge offset budget job => Session.respects_run
        (Session.confined_keepsDistinct (orderly judge hasJudge)) Session.tagging_keepsDistinct
          budget job)
      fun result inputLines _ => Bench.respects_onDirectory
        (respects_writeSummary_of (FileAction.keepsDistinct_writeText _) inputLines)
  exact respects (request.start directory)

theorem distinct_leftBy {requests : List Request}
    (aim : ∀ request ∈ requests, request.AimsAt site.folder site.base)
    (orderly : ∀ request ∈ requests, request.IsOrderly) {start : Directory}
    (distinct : start.Distinct) : (Request.leftBy requests start).Distinct := by
  induction requests generalizing start with
  | nil => exact distinct
  | cons request requests inductionHypothesis =>
    exact inductionHypothesis (fun other later => aim other (List.mem_cons_of_mem _ later))
      (fun other later => orderly other (List.mem_cons_of_mem _ later))
      (keepsDistinct_left (aim request List.mem_cons_self) (orderly request List.mem_cons_self) _
        distinct)

/-- The records of the attempts are those of their steps. -/
theorem records_eq (site : Site) (request : Request) (directory : Directory) :
    request.records site.folder site.base directory =
      ((request.attempts directory).map Session.Attempt.step).mapIdx
        { site with offset := 0 }.record := by
  refine List.ext_getElem? fun index => ?_
  rw [Request.records, List.getElem?_mapIdx, List.getElem?_mapIdx, List.getElem?_map,
    Option.map_map]
  refine congrArg (fun give => Option.map give _) (funext fun attempt => ?_)
  dsimp only [Function.comp, Site.record, Site.nameAt]
  rw [Nat.zero_add]
  rfl

theorem pairwise_records (request : Request) (folder : Path) (base : Text) (directory : Directory) :
    (request.records folder base directory).Pairwise fun left right =>
      left.attempt < right.attempt := by
  unfold Request.records
  refine List.pairwise_iff_getElem.2 fun first second _ _ before => ?_
  rw [List.getElem_mapIdx, List.getElem_mapIdx]
  exact Nat.succ_lt_succ before

/-- The records of the attempts end after as many of them as there are. -/
theorem offset_resumePointOf_records (request : Request) (folder : Path) (base : Text)
    (directory : Directory) :
    (resumePointOf (request.records folder base directory)).offset =
      (request.records folder base directory).length := by
  unfold resumePointOf Request.records
  rw [List.getLast?_eq_getElem?, List.getElem?_mapIdx, List.length_mapIdx]
  cases isLast : (request.attempts directory)[(request.attempts directory).length - 1]? with
  | none =>
    have outside := List.getElem?_eq_none_iff.1 isLast
    show 0 = _
    omega
  | some attempt =>
    have inside := (List.getElem?_eq_some_iff.1 isLast).1
    show (request.attempts directory).length - 1 + 1 = _
    omega

/-- A request that starts at the job itself and returns counts its attempts, and the records found
after it are those found before and those of its attempts. -/
theorem counts_and_mem_recordsOf_of_returned {result : ReductionResult}
    (aims : request.AimsAt site.folder site.base) (noSlash : .scalar '/' ∉ site.base)
    (flat : site.Flat directory) (anew : request.settings.continuePrevious.isGiven = false)
    (returned : (request.run directory).1 = .ok result) :
    result.tally.attempts = (request.attempts directory).length ∧
      ∀ record,
        record ∈ recordsOf site.folder site.base
            ((request.left directory).namesIn site.location) ↔
          record ∈ recordsOf site.folder site.base (directory.namesIn site.location) ∨
            record ∈ request.records site.folder site.base directory := by
  obtain ⟨setup, budget, job, finalName, last, session⟩ :=
    exists_returned aims noSlash flat returned
  have leaves := session.leaves
  rw [session.anew anew] at leaves
  constructor
  · rw [session.attempts, session.tally]
    cases finalName with
    | none =>
      obtain ⟨nothing, ⟨calls, counts⟩, -⟩ := Session.proceeds_of_run_eq_none session.ran
      rw [nothing, counts]
      rfl
    | some name =>
      obtain ⟨_, _, _, -, accounts⟩ :=
        Session.exists_accounts_of_run session.remembers session.ran
      exact accounts.counted
  · intro record
    have between : site.Flat last.bench.directory :=
      (leaves.gains_of_run rfl session.ran flat).1
    rw [session.summary.mem_recordsOf_iff noSlash between, records_eq, session.attempts]
    refine (or_iff_left ?_).trans (leaves.mem_recordsOf_iff_of_run rfl session.ran flat)
    rintro ⟨_, impossible, -⟩
    exact impossible

/-- A reduction that starts at the job itself in a folder that earlier ones used, whatever came of
them, puts the records of its attempts among those that were found there. -/
theorem exists_mixed_of_returned {start : Directory} {earlier : List Request}
    {result : ReductionResult}
    (aim : ∀ other ∈ earlier ++ [request], other.AimsAt site.folder site.base)
    (orderly : ∀ other ∈ earlier ++ [request], other.IsOrderly)
    (noSlash : .scalar '/' ∉ site.base) (flat : site.Flat start) (distinct : start.Distinct)
    (anew : request.settings.continuePrevious.isGiven = false)
    (returned : (request.run (Request.leftBy earlier start)).1 = .ok result) :
    result.tally.attempts = (request.attempts (Request.leftBy earlier start)).length ∧
      ∃ before after,
        (Trail.records site.folder site.base).startingAt (Request.leftBy earlier start) =
          (.ok before, Request.leftBy earlier start) ∧
        (Trail.records site.folder site.base).startingAt
            (Request.leftBy (earlier ++ [request]) start) =
          (.ok after, Request.leftBy (earlier ++ [request]) start) ∧
        Mixed before (request.records site.folder site.base (Request.leftBy earlier start))
          after := by
  have aims := aim request (List.mem_append_right _ List.mem_cons_self)
  have flatBefore := (lasts_leftBy (fun other among => aim other (List.mem_append_left _ among))
    noSlash start flat).1
  have flatAfter := (lasts_left aims noSlash (Request.leftBy earlier start) flatBefore).1
  have distinctAfter := distinct_leftBy aim orderly distinct
  rw [Request.leftBy_append] at distinctAfter ⊢
  obtain ⟨counts, mem⟩ :=
    counts_and_mem_recordsOf_of_returned aims noSlash flatBefore anew returned
  have once := Site.nodup_recordsOf distinctAfter site.folder site.base site.location
  have sorted := Scene.pairwise_recordsOf site.folder site.base
    ((request.left (Request.leftBy earlier start)).namesIn site.location)
  have madeSorted := pairwise_records request site.folder site.base (Request.leftBy earlier start)
  refine ⟨counts, _, _, flatBefore.startingAt_records site.base,
    flatAfter.startingAt_records site.base, once, sorted, mem, ?_, ?_, ?_⟩
  · constructor
    · intro same record old
      rw [← same]
      exact (mem record).2 (.inl old)
    · intro within
      rw [records_eq] at mem within ⊢
      exact Site.eq_mapIdx_record once sorted fun record =>
        (mem record).trans (or_iff_right_of_imp (within record))
  · rw [offset_resumePointOf_mixed mem sorted (Scene.pairwise_recordsOf _ _ _)
      (madeSorted.imp Nat.le_of_lt), offset_resumePointOf_records]
  · exact path_resumePointOf_mixed mem sorted madeSorted

end Records

theorem exists_mixed_of_stopping :
    (∀ other ∈ [rejecting] ++ [stopping], other.AimsAt "work" "job") ∧
      (∀ other ∈ [rejecting] ++ [stopping], other.IsOrderly) ∧
      FlatAt "work" ["work"] Sitting.prepared ∧ Sitting.prepared.Distinct ∧
      stopping.settings.continuePrevious.isGiven = false ∧
      ∃ result before after,
        (stopping.run (Request.leftBy [rejecting] Sitting.prepared)).1 = .ok result ∧
        (Trail.records "work" "job").startingAt (Request.leftBy [rejecting] Sitting.prepared) =
          (.ok before, Request.leftBy [rejecting] Sitting.prepared) ∧
        (Trail.records "work" "job").startingAt
            (Request.leftBy ([rejecting] ++ [stopping]) Sitting.prepared) =
          (.ok after, Request.leftBy ([rejecting] ++ [stopping]) Sitting.prepared) ∧
        Mixed before
          (stopping.records "work" "job" (Request.leftBy [rejecting] Sitting.prepared)) after := by
  have both : ∀ other ∈ [rejecting] ++ [stopping], other.AimsAt "work" "job" ∧ other.IsOrderly :=
    fun other member => aimsAt_of_eq (List.mem_pair.1 member)
  have aim : ∀ other ∈ [rejecting] ++ [stopping], other.AimsAt "work" "job" :=
    fun other member => (both other member).1
  have orderly : ∀ other ∈ [rejecting] ++ [stopping], other.IsOrderly :=
    fun other member => (both other member).2
  have distinct : Sitting.prepared.Distinct := by
    unfold Directory.Distinct
    decide +kernel
  obtain ⟨result, returned, -⟩ := exists_returned_stopping
  let site : Site := ⟨"work", ["work"], "job", 0⟩
  have aimAtSite : ∀ other ∈ [rejecting] ++ [stopping], other.AimsAt site.folder site.base := aim
  obtain ⟨-, before, after, found, foundAfter, mixed⟩ := exists_mixed_of_returned aimAtSite orderly
    (by decide) flatAt_prepared distinct rfl returned
  exact ⟨aim, orderly, flatAt_prepared, distinct, rfl, result, before, after, returned, found,
    foundAfter, mixed⟩

/-- After a reduction of one attempt that starts at the job itself, a record with a greater number
is found. -/
theorem exists_record_beyond_attempts :
    stopping.settings.continuePrevious.isGiven = false ∧
      (∃ result, (stopping.run (Request.leftBy [rejecting] Sitting.prepared)).1 = .ok result ∧
        result.tally.attempts = 1) ∧
      ∃ after record, (Trail.records "work" "job").startingAt
          (Request.leftBy [rejecting, stopping] Sitting.prepared) =
            (.ok after, Request.leftBy [rejecting, stopping] Sitting.prepared) ∧
        record ∈ after ∧ record.attempt = 2 := by
  let site : Site := ⟨"work", ["work"], "job", 0⟩
  have noSlash : .scalar '/' ∉ site.base := by decide
  have flat := (lasts_leftBy (fun other member => (aimsAt_of_eq (List.mem_pair.1 member)).1)
    noSlash Sitting.prepared flatAt_prepared).1
  refine ⟨rfl, exists_returned_stopping, _, _, flat.startingAt_records site.base,
    Scene.mem_recordsOf_of_mem noSlash ((mem_namesIn_iff ?_).2 left_stopping.2), rfl⟩
  exact (Scene.isStem_judgedName noSlash 2 .rejected).plainName_fileName

end Reduction

end ShaderReduction
