/-
This file proves that a session leaves with each step the result that its last verdict calls for.

The judge writes a result down with every verdict that it gives. The attempt after the last step may
have been broken off before, with a result that attests nothing any more. A session that makes it
again has rejected nothing yet, so it asks its judge, and the result is written over; the attempts
after that one are new, and have no result before they are judged. So the result that a step takes
along when it is tagged is that of the last verdict on it, and there is none if it was rejected
without a verdict.

Whatever ends the session, the folder attests the verdicts on its steps afterwards, those apart for
whose results the names are too long.
-/

import ShaderReduction.Proofs.Session.Record
import ShaderReduction.Proofs.Trail.Results

namespace ShaderReduction

open ShaderReduction.Action Directory Trail

/-! ### Judges that write their verdicts down -/

theorem Outcome.verdict_ofVerdict (interesting : Bool) :
    (Outcome.ofVerdict interesting).verdict =
      if interesting then Verdict.interesting else Verdict.notInteresting := by
  cases interesting <;> rfl

namespace Judge

variable {Memory : Type}

/-- A judge writes nothing but the result that it is given, and that with each verdict. -/
structure WritesDown (judge : Judge Memory) : Prop where
  tidy : judge.WritesOnlyResult
  written : ∀ {job result bench report after},
    (judge.report job result).startingAt bench = (.ok report, after) →
      HoldsResult report.verdict (after.directory.nodeAt result)

variable {judge : Judge Memory} {job result : Path}

/-- With an answer that is noted, the verdict stands in the result. -/
theorem WritesDown.holdsResult_of_recorded (writesDown : judge.WritesDown)
    {bench after : Bench (Recorded Memory)} {interesting : Bool}
    (answered : (judge.recorded.isInteresting job result).startingAt bench =
      (.ok interesting, after)) :
    HoldsResult (if interesting then .interesting else .notInteresting)
      (after.directory.nodeAt result) := by
  obtain ⟨report, between, reported, rest⟩ := bind_eq_ok_iff.1 answered
  have holds : HoldsResult report.verdict (between.directory.nodeAt result) :=
    writesDown.written (judge.watches_recorded.report job result |>.of_eq reported)
  cases verdict : report.verdict <;> rw [verdict] at rest holds
  · cases rest
    exact holds
  · cases rest
    exact holds
  · cases rest

end Judge

/-- Running a command leaves the directory as it is. -/
def Launcher.IsQuiet {Memory : Type} (launcher : Launcher Memory) : Prop :=
  ∀ command limit, Respects (Bench.OnDirectory Eq) (launcher.launch command limit)

/-- A judge that runs a command writes its verdicts down. -/
theorem CommandJudge.writesDown_judge {Memory : Type} {launcher : Launcher Memory}
    (quiet : launcher.IsQuiet) {setup : Setup} {judge : Judge Memory}
    (isJudge : CommandJudge.judge launcher setup = .ok judge) : judge.WritesDown := by
  obtain rfl : ⟨run launcher setup⟩ = judge := by
    unfold CommandJudge.judge at isJudge
    split at isJudge
    · cases isJudge
    · exact Except.ok.inj isJudge
  constructor
  · intro job result
    have tidy : Respects (Bench.OnDirectory (ChangesAt (· = result)))
        (run launcher setup job result) := by
      refine (respects_ofExcept _).bind fun path => (respects_ofExcept _).bind fun command =>
        (respects_ofExcept _).bind fun limit => ?_
      refine ((quiet _ _).mono fun before after same => ?_).bind fun ended => ?_
      · show ChangesAt (· = result) before.directory after.directory
        rw [show before.directory = after.directory from same]
        exact ChangesAt.refl _
      · exact (Bench.respects_onDirectory (FileAction.changesAt_writeText _ _)).bind fun _ =>
          respects_pure _
    exact tidy
  · intro job result bench report after ran
    obtain ⟨path, _, _, rest⟩ := bind_eq_ok_iff.1 ran
    obtain ⟨command, _, _, rest⟩ := bind_eq_ok_iff.1 rest
    obtain ⟨limit, _, _, rest⟩ := bind_eq_ok_iff.1 rest
    obtain ⟨⟨ended, runtime⟩, between, _, rest⟩ := bind_eq_ok_iff.1 rest
    obtain ⟨_, last, written, answer⟩ := bind_eq_ok_iff.1 rest
    cases answer
    obtain ⟨directory, wrote, rfl⟩ := onPart_eq_iff.1 written
    obtain ⟨content, encoded, file⟩ := FileAction.writeText_eq_ok wrote
    exact ⟨_, content, rfl, encoded, file⟩

/-! ### What stays attested -/

namespace Trail.Site

variable {Memory : Type} {site : Site} {earlier : List Judgement} {last : Nat}

/-- The folder attests the verdicts that were given earlier and those that are noted. -/
def AttestedOn (site : Site) (earlier : List Judgement) (last : Nat)
    (bench : Bench (Recorded Memory)) : Prop :=
  site.Attested last (earlier ++ bench.memory.judgements) bench.directory

/-- If the verdicts on the steps up to the last one are attested on a bench, they are on another. -/
def KeepsAttested (site : Site) (earlier : List Judgement) (last : Nat)
    (before after : Bench (Recorded Memory)) : Prop :=
  site.AttestedOn earlier last before → site.AttestedOn earlier last after

instance : IsPreorder (Bench (Recorded Memory)) (site.KeepsAttested earlier last) where
  refl _ attested := attested
  trans _ _ _ first second attested := second (first attested)

/-- A path to a file in the folder that is of no step, or of the attempt after the last one. -/
def Spare (site : Site) (last : Nat) (path : Path) : Prop :=
  ∃ name, (¬OfStep site.base name ∨ OfAttempt site.base (last + 1) name) ∧ Path.PlainName name ∧
    path = site.folder.join name

/-- Changing such files leaves everything attested. -/
theorem respects_keepsAttested (noSlash : .scalar '/' ∉ site.base) {Result : Type}
    {action : FileAction Result} {paths : Path → Prop} (change : Respects (ChangesAt paths) action)
    (spare : ∀ path, paths path → site.Spare last path) :
    Respects (site.KeepsAttested earlier last)
      (Bench.onDirectory action : Action (Bench (Recorded Memory)) Result) := by
  intro bench attested
  have changing := (change bench.directory).changesIn attested.flat.holds.toReaches spare
  have after := attested.of_changesIn noSlash changing (fun _ => id)
    (fun judgement member => absurd member List.not_mem_nil)
  rwa [List.append_nil] at after

/-- Asking about the job of the attempt after the last step, or about one that is no step, leaves
everything attested. -/
theorem respects_recorded_report (noSlash : .scalar '/' ∉ site.base) {judge : Judge Memory}
    (tidy : judge.WritesOnlyResult) {job result : Path} (spare : site.Spare last result)
    (asked : ∀ number, job = site.attemptPath number → number = last + 1) :
    Respects (site.KeepsAttested earlier last) (judge.recorded.report job result) := by
  intro bench attested
  have changing := (tidy job result (bench.forget Recorded.memory)).changesIn
    attested.flat.holds.toReaches fun path same => same ▸ spare
  rw [Judge.startingAt_recorded_report]
  rcases run : (judge.report job result).startingAt (bench.forget Recorded.memory) with
    ⟨fault | report, after⟩
  all_goals rw [run] at changing
  · have kept := attested.of_changesIn noSlash changing (fun _ => id)
      (fun judgement member => absurd member List.not_mem_nil)
    rwa [List.append_nil] at kept
  · have among : ∀ judgement ∈ [(⟨job, bench.directory, report.verdict⟩ : Judgement)],
        ∀ number, judgement.path = site.attemptPath number → number = last + 1 := by
      intro judgement member
      rw [List.mem_singleton.1 member]
      exact asked
    have kept := attested.of_changesIn noSlash changing (fun _ => id) among
    rwa [List.append_assoc] at kept

end Trail.Site

namespace Session

variable {PlanMemory JudgeMemory : Type}

/-- A session goes on at a site after some attempts, with a judge that writes its verdicts down and
whose answers are noted. -/
structure Reports (site : Site) (offset : Nat) (judge : Judge JudgeMemory)
    (setup : SessionSetup PlanMemory (Recorded JudgeMemory)) : Prop where
  folder : setup.folder = site.folder
  base : setup.base = site.base
  offset : setup.offset = offset
  noSlash : .scalar '/' ∉ site.base
  recorded : setup.judge = judge.recorded
  writesDown : judge.WritesDown

/-- After some steps, a session can make its next attempt: if it has rejected a candidate before,
the attempt was never made. -/
structure CanGoOn (site : Site) (earlier : List Judgement) (last : Nat)
    (session : Session PlanMemory (Recorded JudgeMemory)) : Prop where
  attested : site.AttestedOn earlier last session.bench
  unused : session.cache.failing = [] ∨ site.Fresh (last + 1)
    (earlier ++ session.bench.memory.judgements) session.bench.directory

section Reports

variable {site : Site} {offset last : Nat} {judge : Judge JudgeMemory}
  {setup : SessionSetup PlanMemory (Recorded JudgeMemory)} {bindings : Option Members}
  {earlier : List Judgement} {name : Text}
  (reports : Reports site offset judge setup)

/-- The names of jobs other than those of steps. -/
def OtherName (setup : SessionSetup PlanMemory (Recorded JudgeMemory)) (last : Nat)
    (name : Text) : Prop :=
  name = setup.base ∨ name = finalName setup.base ∨
    name = stepName setup.base ((last + 1 : Nat) : Int)

include reports

/-! ### The jobs of a session -/

theorem Reports.jobPath_step (number : Nat) :
    jobPath setup (stepName setup.base number) = site.attemptPath number := by
  rw [jobPath, reports.folder, reports.base, Site.attemptPath]

theorem Reports.spare_of_filesOf (isOther : OtherName setup last name) {path : Path}
    (among : FilesOf setup name path) : site.Spare last path := by
  have noSlash := reports.base ▸ reports.noSlash
  rcases isOther with rfl | rfl | rfl
  · obtain ⟨more, dot, plain, rfl⟩ := exists_dot_of_file noSlash setup.folder among
    exact ⟨_, .inl (reports.base ▸ not_ofStep_of_dot dot), plain, by rw [reports.folder]⟩
  · have finalNoSlash := Scene.noSlash_of_untagged noSlash .final
    obtain ⟨more, -, plain, rfl⟩ := exists_dot_of_file finalNoSlash setup.folder among
    exact ⟨_, .inl (reports.base ▸ not_ofStep_finalName _ _), plain, by rw [reports.folder]⟩
  · have isStem := Scene.isStem_stepName noSlash (last + 1)
    obtain ⟨ending, member, rfl⟩ := exists_ending_of_filesOf isStem among
    exact ⟨_, .inr ⟨ending, member, reports.base ▸ rfl⟩,
      isStem.plainName_append (JobFiles.isEnding_of_mem_endings member), by rw [reports.folder]⟩

theorem Reports.eq_of_jobPath_eq (isOther : OtherName setup last name) {number : Nat}
    (same : jobPath setup name = site.attemptPath number) : number = last + 1 := by
  have noSlash := reports.base ▸ reports.noSlash
  rcases isOther with rfl | rfl | rfl
  · rw [jobPath, reports.folder] at same
    exact absurd same (Site.attemptPath_ne_of_not_ofStep reports.noSlash
      (JobFiles.plainName_fileName noSlash) (reports.base ▸ not_ofStep_of_dot rfl) number)
  · have finalNoSlash := Scene.noSlash_of_untagged noSlash .final
    rw [jobPath, reports.folder] at same
    exact absurd same (Site.attemptPath_ne_of_not_ofStep reports.noSlash
      (JobFiles.plainName_fileName finalNoSlash) (reports.base ▸ not_ofStep_finalName _ _) number)
  · rw [reports.jobPath_step] at same
    exact (Site.number_eq_of_attemptPath_eq reports.noSlash same).symm

/-- Writing and judging jobs that are no steps leaves everything attested. -/
theorem Reports.confinedTo (isOther : OtherName setup last name) :
    ConfinedTo (site.KeepsAttested earlier last) setup name where
  write job := by
    have isJobPath : JobFiles.IsJobPath (jobPath setup name) := JobFiles.isJobPath_join _ _
    exact Site.respects_keepsAttested reports.noSlash (JobFiles.changesAt_write isJobPath)
      fun path among => reports.spare_of_filesOf isOther (List.mem_cons_of_mem _ among)
  judge result found := by
    have isJobPath : JobFiles.IsJobPath (jobPath setup name) := JobFiles.isJobPath_join _ _
    rw [JobFiles.result_eq_ok isJobPath.plain] at found
    obtain rfl := Except.ok.inj found
    rw [reports.recorded]
    exact Site.respects_recorded_report reports.noSlash reports.writesDown.tidy
      (reports.spare_of_filesOf isOther List.mem_cons_self)
      fun number same => reports.eq_of_jobPath_eq isOther same

theorem Reports.around : ConfinedAround (site.KeepsAttested earlier last) setup where
  input := reports.confinedTo (.inl rfl)
  final := reports.confinedTo (.inr (.inl rfl))
  unjudge result found := Site.respects_keepsAttested reports.noSlash (changesAt_removeResult found)
    fun path among => reports.spare_of_filesOf (.inr (.inl rfl)) among
  mark marker member := Site.respects_keepsAttested reports.noSlash
    (FileAction.changesAt_touch _) fun path same =>
      ⟨marker, .inl (not_ofStep_of_notMem (by
        have all : ∀ marker ∈ [notInterestingMarker, incompleteMarker], .scalar 'd' ∉ marker := by
          decide
        exact all marker member)), JobFiles.plainName_marker member, by rw [same, reports.folder]⟩

/-! ### The verdict on a candidate -/

variable {session after : Session PlanMemory (Recorded JudgeMemory)} {path : Path}

/-- A job of which the judge is asked has the verdict in its result. -/
theorem Reports.attests_of_consultJudge (isJobPath : JobFiles.IsJobPath path) {interesting : Bool}
    (consulted : (consultJudge setup path).startingAt session = (.ok interesting, after)) :
    Attests (Outcome.ofVerdict interesting)
      (after.bench.directory.nodeAt (JobFiles.beside path JobFiles.resultEnding))
      (verdictOn path (earlier ++ after.bench.memory.judgements)) := by
  rw [consultJudge, reports.recorded, JobFiles.result_eq_ok isJobPath.plain, ofExcept_ok_bind]
    at consulted
  obtain ⟨_, counted, counts, asked⟩ := bind_eq_ok_iff.1 consulted
  obtain ⟨bench, answered, rfl⟩ := onBench_eq_iff.1 asked
  have holds := reports.writesDown.holdsResult_of_recorded answered
  show Attests _ (bench.directory.nodeAt _) (verdictOn path (earlier ++ bench.memory.judgements))
  rw [Judge.recorded_isInteresting_eq_ok answered, ← List.append_assoc, verdictOn_concat, Attests,
    Outcome.verdict_ofVerdict]
  exact ⟨rfl, holds⟩

/-- The result of a candidate that has an outcome attests the last verdict on it. -/
theorem Reports.attests_of_judgeCandidate {job : Job} {interesting : Bool}
    (judged : (judgeCandidate setup bindings job
      (stepName setup.base ((last + 1 : Nat) : Int))).startingAt session =
        (.ok interesting, after))
    (unused : session.cache.failing = [] ∨ site.Fresh (last + 1)
      (earlier ++ session.bench.memory.judgements) session.bench.directory) :
    site.AttestsAttempt (last + 1) (Outcome.ofVerdict interesting)
      (earlier ++ after.bench.memory.judgements) after.bench.directory := by
  have isJobPath : JobFiles.IsJobPath (site.attemptPath (last + 1)) := JobFiles.isJobPath_join _ _
  have isResult : JobFiles.beside (site.attemptPath (last + 1)) JobFiles.resultEnding =
      site.folder.join (stepName site.base ((last + 1 : Nat) : Int) ++ JobFiles.resultEnding) :=
    JobFiles.beside_join (Scene.isStem_stepName reports.noSlash (last + 1)) _
      JobFiles.isEnding_resultEnding
  rw [judgeCandidate, reports.jobPath_step] at judged
  obtain ⟨_, between, written, rest⟩ := bind_eq_ok_iff.1 judged
  rw [Site.AttestsAttempt, Site.resultOf, ← isResult]
  by_cases remembers : setup.remembers = true
  · rw [if_pos remembers] at rest
    rcases consultCache_eq_ok rest with ⟨rfl, rejected, same⟩ | ⟨first, asked, -, consulted, same⟩
    · -- Something was rejected before, so this is not an attempt that is made again.
      obtain ⟨form, formedIn, formed, run⟩ := bind_eq_ok_iff.1 written
      obtain rfl : session = formedIn := congrArg Prod.snd formed
      obtain ⟨directory, wrote, rfl⟩ := onDirectory_eq_iff.1 run
      have fresh := unused.resolve_left rejected
      have noResult : session.bench.directory.nodeAt
          (JobFiles.beside (site.attemptPath (last + 1)) JobFiles.resultEnding) = none :=
        isResult ▸ fresh.noResult
      have apart := JobFiles.apart_result isJobPath
      rw [same, ((JobFiles.changesAt_write isJobPath).of_eq wrote).nodeAt_eq apart.1
        fun place member => ⟨JobFiles.plainName_of_mem_places isJobPath.plain member,
          (apart.2 place member).symm⟩, noResult, verdictOn_eq_none fresh.notJudged]
      exact ⟨rfl, rfl⟩
    · rw [same]
      exact reports.attests_of_consultJudge isJobPath consulted
  · rw [if_neg remembers] at rest
    exact reports.attests_of_consultJudge isJobPath rest

/-! ### The attempts -/

/-- After an attempt that ends, its step is the last one and the next attempt is new. Whatever ends
an attempt, the verdicts on the steps are attested. -/
theorem Reports.attested_of_attemptCandidate {candidate : Job} {made : Nat}
    {outcome : Except Fault Bool} (count : last = offset + made)
    (canGoOn : CanGoOn site earlier last session)
    (attempted : (attemptCandidate setup bindings candidate made).startingAt session =
      (outcome, after)) :
    (∃ last, site.AttestedOn earlier last after.bench) ∧
      ∀ accepted, outcome = .ok accepted → CanGoOn site earlier (last + 1) after := by
  have attempt : (made : Int) + 1 + setup.offset = ((last + 1 : Nat) : Int) := by
    rw [reports.offset, count]
    omega
  rw [attemptCandidate] at attempted
  dsimp only at attempted
  rw [attempt] at attempted
  have confined : ConfinedTo (site.KeepsAttested earlier last) setup
      (stepName setup.base ((last + 1 : Nat) : Int)) := reports.confinedTo (.inr (.inr rfl))
  rcases bind_eq_iff.1 attempted with ⟨_, impossible, -⟩ | ⟨_, first, counted, rest⟩
  · cases impossible
  cases counted
  rcases bind_eq_iff.1 rest with ⟨fault, failed, rfl⟩ | ⟨interesting, second, judged, rest⟩
  · have change := (respects_judgeCandidate confined candidate).of_eq failed
    refine ⟨⟨last, change.bench canGoOn.attested⟩, fun accepted impossible => ?_⟩
    cases impossible
  have attested : site.AttestedOn earlier last second.bench :=
    ((respects_judgeCandidate confined candidate).of_eq judged).bench canGoOn.attested
  have attests := reports.attests_of_judgeCandidate judged canGoOn.unused
  have isTag : tagStep setup ((last + 1 : Nat) : Int) (Outcome.ofVerdict interesting) =
      onDirectory (JobFiles.move (site.attemptPath (last + 1)) (site.folder.join (fileName
        (judgedName site.base ((last + 1 : Nat) : Int)
          (Outcome.ofVerdict interesting)))) true) := by
    rw [tagStep, reports.jobPath_step, jobPath, reports.folder, reports.base]
  rw [isTag] at rest
  rcases bind_eq_iff.1 rest with ⟨fault, failed, rfl⟩ | ⟨_, third, tagged, rest⟩
  · obtain ⟨directory, moved, rfl⟩ := onDirectory_eq_iff.1 failed
    constructor
    · rcases attested.eq_or_tag reports.noSlash moved attests with rfl | next
      · exact ⟨last, attested⟩
      · exact ⟨last + 1, next⟩
    · intro accepted impossible
      cases impossible
  obtain ⟨directory, moved, rfl⟩ := onDirectory_eq_iff.1 tagged
  have next : site.AttestedOn earlier (last + 1) ⟨directory, second.bench.memory⟩ :=
    attested.tag reports.noSlash moved rfl attests
  have fresh := attested.fresh_of_move reports.noSlash moved (Nat.lt_succ_self (last + 1))
  have settled : Respects (OnBench Eq)
      (settle setup candidate interesting >>= fun _ => pure interesting) :=
    (respects_settle candidate interesting).bind fun _ => respects_pure _
  have same : _ = after.bench := settled.of_eq rest
  rw [← same]
  exact ⟨⟨last + 1, next⟩, fun accepted _ => ⟨same ▸ next, .inr (same ▸ fresh)⟩⟩

/-- Attempts leave the verdicts attested, one after the other. -/
theorem Reports.attested_of_shrink {budget made : Nat} {job : Job} {outcome : Except Fault Job}
    (count : last = offset + made) (canGoOn : CanGoOn site earlier last session)
    (shrunk : (shrink setup bindings budget made job).startingAt session = (outcome, after)) :
    ∃ last, site.AttestedOn earlier last after.bench := by
  induction budget generalizing made last job session with
  | zero =>
    cases shrunk
    exact ⟨last, canGoOn.attested⟩
  | succ budget inductionHypothesis =>
    rcases bind_eq_iff.1 shrunk with ⟨_, failed, -⟩ | ⟨reached, first, asked, rest⟩
    · obtain rfl : session = after := congrArg Prod.snd failed
      exact ⟨last, canGoOn.attested⟩
    obtain rfl : session = first := congrArg Prod.snd asked
    split at rest
    · cases rest
      exact ⟨last, canGoOn.attested⟩
    rcases bind_eq_iff.1 rest with ⟨_, failed, -⟩ | ⟨proposal, second, proposed, rest⟩
    · obtain ⟨plan, rfl⟩ := (onlyPlan_proposeRetrying _ _).of_eq failed
      exact ⟨last, canGoOn.attested⟩
    obtain ⟨plan, rfl⟩ := (onlyPlan_proposeRetrying _ _).of_eq proposed
    have still : CanGoOn site earlier last { session with plan } :=
      ⟨canGoOn.attested, canGoOn.unused⟩
    cases proposal with
    | none =>
      cases rest
      exact ⟨last, canGoOn.attested⟩
    | some candidate =>
      rcases bind_eq_iff.1 rest with ⟨_, failed, rfl⟩ | ⟨accepted, third, attempted, rest⟩
      · exact (reports.attested_of_attemptCandidate count still failed).1
      · have next :=
          (reports.attested_of_attemptCandidate count still attempted).2 accepted rfl
        exact inductionHypothesis (by omega) next rest

/-! ### The whole session -/

theorem Reports.attested_of_proceed {budget : Nat} {job : Job} {outcome : Except Fault Text}
    (canGoOn : CanGoOn site earlier offset session)
    (proceeded : (proceed setup bindings budget job).startingAt session = (outcome, after)) :
    ∃ last, site.AttestedOn earlier last after.bench := by
  rcases bind_eq_iff.1 proceeded with ⟨_, impossible, -⟩ | ⟨_, first, noted, rest⟩
  · cases impossible
  have begun : CanGoOn site earlier offset first := by
    cases noted
    exact ⟨canGoOn.attested, canGoOn.unused⟩
  rcases bind_eq_iff.1 rest with ⟨_, failed, rfl⟩ | ⟨smallest, second, shrunk, finished⟩
  · exact reports.attested_of_shrink (Nat.add_zero offset).symm begun failed
  · obtain ⟨last, attested⟩ := reports.attested_of_shrink (Nat.add_zero offset).symm begun shrunk
    exact ⟨last, ((respects_finish reports.around smallest).of_eq finished).bench attested⟩

/-- Whatever ends a session, the folder attests the verdicts on its steps and on those before it. -/
theorem Reports.attested_of_run {budget : Nat} {job : Job} {outcome : Except Fault (Option Text)}
    (attested : site.AttestedOn earlier offset session.bench)
    (start : session.cache.failing = [])
    (ran : (run setup budget job).startingAt session = (outcome, after)) :
    ∃ last, site.AttestedOn earlier last after.bench := by
  rw [run_eq] at ran
  rcases bind_eq_iff.1 ran with ⟨_, failed, -⟩ | ⟨⟨bindings, free⟩, first, formed, rest⟩
  · obtain rfl : session = after := congrArg Prod.snd failed
    exact ⟨offset, attested⟩
  obtain rfl : session = first := congrArg Prod.snd formed
  rcases bind_eq_iff.1 rest with ⟨_, failed, -⟩ | ⟨proceeds, opened, checked, rest⟩
  · exact ⟨offset, ((respects_mayProceed reports.around free).of_eq failed).bench attested⟩
  have kept : site.AttestedOn earlier offset opened.bench :=
    ((respects_mayProceed reports.around free).of_eq checked).bench attested
  cases proceeds with
  | false =>
    cases rest
    exact ⟨offset, kept⟩
  | true =>
    have same : session.cache = opened.cache := (sameCache_mayProceed free).of_eq checked
    have canGoOn : CanGoOn site earlier offset opened := ⟨kept, .inl (same ▸ start)⟩
    rcases bind_eq_iff.1 rest with ⟨_, failed, rfl⟩ | ⟨name, second, proceeded, answer⟩
    · exact reports.attested_of_proceed canGoOn failed
    · cases answer
      exact reports.attested_of_proceed canGoOn proceeded

end Reports

end Session

end ShaderReduction
