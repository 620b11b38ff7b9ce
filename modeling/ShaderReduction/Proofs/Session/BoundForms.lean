/-
This file proves that bindings are written by a session but never kept.

Of a job with bound uniforms the plan sees the free form only, and what it proposes, the candidates
and the current job are free. The uniforms that stand in the files are those of the input without
its bindings to which these were given back: where a candidate was written, where the judge was
asked, and in the final job, be it the simplified one or the one that takes its place.
-/

import ShaderReduction.Proofs.Session.Advancing
import ShaderReduction.Proofs.Session.FinalJob
import ShaderReduction.Proofs.Session.Shrinking

namespace ShaderReduction

open ShaderReduction.Action

namespace Session

variable {PlanMemory JudgeMemory : Type}

/-! ### The attempts and the final job -/

section Attempts

variable {setup : SessionSetup PlanMemory JudgeMemory} {holds : PlanMemory → Prop}
  {given : Members} {free whole : Uniforms} {job : Job}
  (toggles : Uniforms.Toggles given free whole)

include toggles

/-- The candidates of the attempts on a free job are free, and the uniforms that are written stand
where each was written. -/
theorem forall_mem_attemptsFrom (spares : setup.plan.Spares holds free) (budget : Nat) {made : Nat}
    (isFree : job.uniforms = free) {session : Session PlanMemory JudgeMemory} :
    ∀ attempt ∈ attemptsFrom setup (some given) budget made job session,
      attempt.candidate.uniforms = free ∧
        JobFiles.HoldsUniforms whole attempt.path attempt.standing.bench.directory := by
  induction budget generalizing made job session with
  | zero => exact fun _ member => absurd member List.not_mem_nil
  | succ budget inductionHypothesis =>
    have candidateFree : ∀ {candidate proposed},
        (nextCandidate setup made job).startingAt session = (.ok (some candidate), proposed) →
          candidate.uniforms = free := by
      intro candidate proposed next
      have advances : Advances setup holds free whole _ (nextCandidate setup made job) :=
        advances_nextCandidate spares isFree made
      exact ((advances session).of_eq next).2.2 _ rfl candidate rfl
    have tried : ∀ {candidate proposed attempt},
        (nextCandidate setup made job).startingAt session = (.ok (some candidate), proposed) →
        Tries setup (some given) candidate made proposed attempt →
          attempt.candidate.uniforms = free ∧
            JobFiles.HoldsUniforms whole attempt.path attempt.standing.bench.directory := by
      intro candidate proposed attempt next tries
      rw [tries.isOf, tries.path]
      exact ⟨candidateFree next,
        holdsUniforms_of_writeCandidate toggles (candidateFree next) tries.written⟩
    rcases shrunk : (shrink setup (some given) (budget + 1) made job).startingAt session with
      ⟨outcome, final⟩
    have turns := turns_of_shrink shrunk
    generalize attemptsFrom setup (some given) (budget + 1) made job session = attempts at turns ⊢
    cases turns with
    | unproposed | finished | unwritten => exact fun _ member => absurd member List.not_mem_nil
    | unjudged next tries => exact List.forall_mem_singleton.2 (tried next tries)
    | unconcluded next tries => exact List.forall_mem_singleton.2 (tried next tries)
    | @concluded candidate proposed between after attempt interesting outcome next tries =>
      refine List.forall_mem_cons.2 ⟨tried next tries, inductionHypothesis ?_⟩
      cases interesting with
      | true => exact candidateFree next
      | false => exact isFree

/-- If the judge changes no job, the uniforms that are written stand in the final job. -/
theorem holdsUniforms_of_finish (tidy : setup.judge.WritesOnlyResult) (isFree : job.uniforms = free)
    {name : Text} {session after : Session PlanMemory JudgeMemory}
    (finished : (finish setup (some given) job).startingAt session = (.ok name, after)) :
    JobFiles.HoldsUniforms whole (jobPath setup name) after.bench.directory := by
  obtain ⟨final, before, written, isFinal, wrote, same⟩ :=
    exists_writeJob_of_finish (tidy.keepsJobs.keepsAccepted (JobFiles.isJobPath_join _ _)) finished
  have finalFree : final.uniforms = free := by
    rcases isFinal with rfl | rfl <;> exact isFree
  exact (holdsUniforms_of_writeJob toggles finalFree wrote).of_view (JobFiles.isJobPath_join _ _)
    same

theorem holdsUniforms_of_runFree (tidy : setup.judge.WritesOnlyResult)
    (spares : setup.plan.Spares holds free) {budget : Nat} (isFree : job.uniforms = free)
    {name : Text} {session after : Session PlanMemory JudgeMemory}
    (ended : (runFree setup (some given) budget job).startingAt session =
      (.ok (some name), after)) :
    JobFiles.HoldsUniforms whole (jobPath setup name) after.bench.directory := by
  obtain ⟨opened, last, shrunk, -, made, finished⟩ := runFree_eq_some ended
  have advanced := (advances_shrink toggles spares budget isFree _).of_eq made
  have lastFree : last.uniforms = free := advanced.2.2 last rfl
  exact holdsUniforms_of_finish toggles tidy lastFree finished

end Attempts

/-! ### What the judge is asked about -/

section Judgements

variable {setup : SessionSetup PlanMemory JudgeMemory} {whole : Uniforms}
  {bench after : Bench (Recorded JudgeMemory)}
  (before : ∀ judgement ∈ bench.memory.judgements,
    JobFiles.HoldsUniforms whole judgement.path judgement.directory)

include before

/-- Only the judge notes something, and it does so where the uniforms that are written stand. -/
theorem forall_mem_judgements_of_works (works : Works setup.recorded whole bench after) :
    ∀ judgement ∈ after.memory.judgements,
      JobFiles.HoldsUniforms whole judgement.path judgement.directory := by
  cases works with
  | writes | clears | marks | tags => exact before
  | @asks name result _ isJobName found stands =>
    rw [show setup.recorded.judge = setup.judge.recorded from rfl,
      Judge.startingAt_recorded_report]
    rcases (setup.judge.report (jobPath setup.recorded name) result).startingAt
      (bench.forget Recorded.memory) with ⟨fault | report, after⟩
    · exact before
    · refine List.forall_mem_append.2 ⟨before, fun judgement member => ?_⟩
      obtain rfl := List.mem_singleton.1 member
      exact stands

theorem forall_mem_judgements_of_leads (leads : Leads setup.recorded whole bench after) :
    ∀ judgement ∈ after.memory.judgements,
      JobFiles.HoldsUniforms whole judgement.path judgement.directory := by
  induction leads with
  | refl => exact before
  | tail _ works inductionHypothesis =>
    exact forall_mem_judgements_of_works inductionHypothesis works

end Judgements

/-! ### The whole session -/

/-- The free form of a job with bound uniforms has the free uniforms. -/
theorem exists_freeForm {job : Job} {given : Members} {free whole : Uniforms}
    (isBound : job.uniforms.hasBindings = .ok true) (isGiven : job.uniforms.bindings = .ok given)
    (freed : job.uniforms.withoutBindings = .ok free)
    (toggles : Uniforms.Toggles given free whole) :
    ∃ freeJob, freeForm job = .ok (some given, freeJob) ∧ freeJob.uniforms = free := by
  obtain ⟨names, isNames, -⟩ := except_bind_eq_ok toggles.isFree
  refine ⟨{ job with uniforms := free }.mapTexts (Declaration.unbindBlocks names), ?_, rfl⟩
  rw [freeForm, Job.hasBindings, isBound, isGiven, Job.withoutBindings, freed]
  show (do
    let freeJob ← free.names >>= fun names =>
      pure ({ job with uniforms := free }.mapTexts (Declaration.unbindBlocks names))
    pure (some given, freeJob)) = _
  rw [isNames]
  rfl

/-- What a session on a job with bound uniforms does with their bindings. The jobs that the plan is
asked about, what it proposes for them, the candidates and the current job are free. The uniforms
that are written are the same each time: on its way the session writes jobs with these uniforms
only, they stand where a candidate was written, where the judge was asked, and in the end, if the
judge changes no job, in the final job. And no fault comes from uniforms unless the judge answers
for it. -/
structure WritesBound (setup : SessionSetup PlanMemory JudgeMemory) (budget : Nat) (job : Job)
    (directory : Directory) (planMemory : PlanMemory) (judgeMemory : JudgeMemory)
    (whole : Uniforms) (outcome : Except Fault (Option Text))
    (after : Session PlanMemory JudgeMemory) : Prop where
  asked : ∀ asked, .asked asked ∈ messages setup budget job directory planMemory judgeMemory →
    asked.hasBindings = .ok false
  proposed : ∀ asked, .asked asked ∈ messages setup budget job directory planMemory judgeMemory →
    ∀ memory candidate later,
      (setup.plan.propose asked).startingAt memory = (.ok candidate, later) →
        candidate.hasBindings = .ok false
  candidates : ∀ attempt ∈ attempts setup budget job (start directory planMemory judgeMemory),
    attempt.candidate.hasBindings = .ok false ∧
      JobFiles.HoldsUniforms whole attempt.path attempt.standing.bench.directory
  current : ∀ current, after.current = some current → current.hasBindings = .ok false
  faults : Errs setup.judge.AnswersFor outcome
  leads : Leads setup whole ⟨directory, judgeMemory⟩ after.bench
  judged : ∀ judgement ∈ judgements setup budget job directory planMemory judgeMemory,
    JobFiles.HoldsUniforms whole judgement.path judgement.directory
  final : setup.judge.WritesOnlyResult → ∀ name, outcome = .ok (some name) →
    JobFiles.HoldsUniforms whole (jobPath setup name) after.bench.directory

section Run

variable {setup : SessionSetup PlanMemory JudgeMemory} {given : Members} {free whole : Uniforms}
  {job freeJob : Job} (form : freeForm job = .ok (some given, freeJob))
  (isFree : freeJob.uniforms = free) (toggles : Uniforms.Toggles given free whole)

include form isFree toggles

theorem advances_run {holds : PlanMemory → Prop} (spares : setup.plan.Spares holds free)
    (budget : Nat) :
    Advances setup holds free whole (fun _ => True) (run setup budget job) := by
  rw [run_eq, form, ofExcept_ok_bind]
  exact advances_runFree toggles spares budget isFree

/-- No job is asked about that is not free. -/
theorem uniforms_of_asked (spares : setup.plan.Spares (fun _ => True) free) {budget : Nat}
    {directory : Directory} {planMemory : PlanMemory} {judgeMemory : JudgeMemory} :
    ∀ asked, .asked asked ∈ messages setup budget job directory planMemory judgeMemory →
      asked.uniforms = free := by
  have advances : Advances setup.logged (Logged.AskedWith free) free whole (fun _ => True)
      (run setup.logged budget job) := advances_run form isFree toggles spares.logged budget
  have fresh : KeepsFree (Logged.AskedWith free) free
      (startLogged directory planMemory judgeMemory) := by
    refine ⟨fun _ member => absurd member List.not_mem_nil, fun current same => ?_⟩
    cases same
  exact ((advances (startLogged directory planMemory judgeMemory)).related.kept fresh).plan

theorem holdsUniforms_of_judged (spares : setup.plan.Spares (fun _ => True) free) {budget : Nat}
    {directory : Directory} {planMemory : PlanMemory} {judgeMemory : JudgeMemory} :
    ∀ judgement ∈ judgements setup budget job directory planMemory judgeMemory,
      JobFiles.HoldsUniforms whole judgement.path judgement.directory := by
  have recorded : setup.recorded.plan.Spares (fun _ => True) free := spares
  have advances : Advances setup.recorded (fun _ => True) free whole (fun _ => True)
      (run setup.recorded budget job) := advances_run form isFree toggles recorded budget
  exact forall_mem_judgements_of_leads (fun _ member => absurd member List.not_mem_nil)
    (advances (start directory planMemory ⟨judgeMemory, []⟩)).related.bench

theorem forall_mem_attempts (spares : setup.plan.Spares (fun _ => True) free) (budget : Nat)
    (session : Session PlanMemory JudgeMemory) :
    ∀ attempt ∈ attempts setup budget job session, attempt.candidate.uniforms = free ∧
      JobFiles.HoldsUniforms whole attempt.path attempt.standing.bench.directory := by
  rw [attempts, form]
  dsimp only
  split
  · exact forall_mem_attemptsFrom toggles spares budget isFree
  · exact fun _ member => absurd member List.not_mem_nil

theorem writesBound_of_run (spares : setup.plan.Spares (fun _ => True) free) {budget : Nat}
    {directory : Directory} {planMemory : PlanMemory} {judgeMemory : JudgeMemory}
    {outcome : Except Fault (Option Text)} {after : Session PlanMemory JudgeMemory}
    (ended : (run setup budget job).startingAt (start directory planMemory judgeMemory) =
      (outcome, after)) :
    WritesBound setup budget job directory planMemory judgeMemory whole outcome after := by
  have unbound : ∀ other : Job, other.uniforms = free → other.hasBindings = .ok false := by
    intro other same
    rw [Job.hasBindings, same]
    exact toggles.isFree
  have asked : ∀ asked,
      .asked asked ∈ messages setup budget job directory planMemory judgeMemory →
        asked.uniforms = free := uniforms_of_asked form isFree toggles spares
  have advances : Advances setup (fun _ => True) free whole (fun _ => True)
      (run setup budget job) := advances_run form isFree toggles spares budget
  obtain ⟨proceeds, errs, -⟩ := (advances (start directory planMemory judgeMemory)).of_eq ended
  have fresh : KeepsFree (fun _ => True) free (start directory planMemory judgeMemory) := by
    refine ⟨trivial, fun current same => ?_⟩
    cases same
  refine ⟨fun job member => unbound job (asked job member), ?_, ?_, ?_, errs, proceeds.bench,
    holdsUniforms_of_judged form isFree toggles spares, ?_⟩
  · intro job member memory candidate later answered
    have given := ((spares.propose job (asked job member)) memory).of_eq answered
    exact unbound candidate (given.2.2 candidate rfl)
  · intro attempt member
    obtain ⟨candidateFree, stands⟩ :=
      forall_mem_attempts form isFree toggles spares budget _ attempt member
    exact ⟨unbound attempt.candidate candidateFree, stands⟩
  · exact fun current same => unbound current ((proceeds.kept fresh).current current same)
  · rintro tidy name rfl
    rw [run_eq, form, ofExcept_ok_bind] at ended
    exact holdsUniforms_of_runFree toggles tidy spares isFree ended

end Run

section LineChunk

variable {setup : SessionSetup LineChunk.Memory JudgeMemory}

/-- A session that removes chunks of lines from a job with bound uniforms, whose descriptors are
objects and whose bindings are integers, never keeps the bindings and writes them every time. What
it writes are the uniforms without their bindings to which these were given back. They are the same
as before if all were bound, and otherwise differ only in that each of the others has got a number
that no uniform is bound to. -/
theorem exists_rebound_and_writesBound_of_run (isPlan : setup.plan = LineChunk.plan) {job : Job}
    {members : Members} (isBound : job.uniforms.IsBound members) (budget : Nat)
    (directory : Directory) (planMemory : LineChunk.Memory) (judgeMemory : JudgeMemory) :
    ∃ given free whole others,
      job.uniforms.bindings = .ok given ∧ job.uniforms.withoutBindings = .ok free ∧
      free.withBindings (.ofMembers given) = .ok whole ∧ whole.document = .object others ∧
      Uniforms.Rebound members others ∧
      ((∀ name ∈ Uniforms.ofUniforms (Table.keys members),
        (Uniforms.bindingIn members name).isSome = true) → Uniforms.SameMapping members others ∧
        (job.uniforms.document.WellFormed → job.uniforms.equals whole = true)) ∧
      ∀ outcome after, (run setup budget job).startingAt
          (start directory planMemory judgeMemory) = (outcome, after) →
        WritesBound setup budget job directory planMemory judgeMemory whole outcome after := by
  obtain ⟨given, free, whole, others, isGiven, freed, toggles, isWhole, rebound⟩ :=
    isBound.exists_rebound
  obtain ⟨freeJob, form, isFree⟩ :=
    exists_freeForm isBound.hasBindings_eq isGiven freed toggles
  have spares : setup.plan.Spares (fun _ => True) free := isPlan ▸ LineChunk.spares_plan free
  refine ⟨given, free, whole, others, isGiven, freed, toggles.isWhole, isWhole, rebound,
    fun all => ⟨rebound.sameMapping all, fun wellFormed => ?_⟩,
    fun outcome after => writesBound_of_run form isFree toggles spares⟩
  rw [isBound.isObject] at wellFormed
  rw [Uniforms.equals, isBound.isObject, isWhole]
  exact rebound.equals wellFormed all

end LineChunk

/-! ### A job that is bound and one that is bound in part -/

/-- The setup in which chunks of lines are removed, at most twice, and some verdicts are given. -/
def bindingSetup : SessionSetup LineChunk.Memory (List Verdict) where
  plan := LineChunk.plan
  judge := answerAll
  storage := Storage.usual false
  base := "job"
  folder := "work"
  offset := 0
  limit := .attempts 2
  remembers := false

/-- The members of bound uniforms with some data. -/
def seededSize : Members := [("size", .object [("binding", .integer 3)]), ("$seed", .integer 7)]

/-- The same with a uniform that is not bound. -/
def coloredSize : Members := ("color", .object []) :: seededSize

/-- A job with some uniforms. -/
def describedJob (members : Members) : Job :=
  ⟨[], .ofMembers members, [⟨.fragment, "uniform float size;\nint a;\n"⟩]⟩

theorem ofUniforms_seededSize : Uniforms.ofUniforms (Table.keys seededSize) = [("size" : Text)] :=
  List.mergeSort_of_pairwise (by decide)

theorem ofUniforms_coloredSize :
    Uniforms.ofUniforms (Table.keys coloredSize) = [("color" : Text), ("size" : Text)] :=
  List.mergeSort_of_pairwise (by decide)

theorem isBound_seededSize : (describedJob seededSize).uniforms.IsBound seededSize := by
  refine ⟨rfl, ?_, ?_, ?_⟩
  all_goals rw [ofUniforms_seededSize]
  · exact List.forall_mem_singleton.2 ⟨_, rfl⟩
  · exact ⟨_, List.mem_singleton_self _, rfl⟩
  · refine List.forall_mem_singleton.2 fun value isGiven => ?_
    cases isGiven
    exact ⟨3, rfl⟩

theorem isBound_coloredSize : (describedJob coloredSize).uniforms.IsBound coloredSize := by
  refine ⟨rfl, ?_, ?_, ?_⟩
  all_goals rw [ofUniforms_coloredSize]
  · exact List.forall_mem_cons.2 ⟨⟨_, rfl⟩, List.forall_mem_singleton.2 ⟨_, rfl⟩⟩
  · exact ⟨_, List.mem_cons_of_mem _ List.mem_cons_self, rfl⟩
  · refine List.forall_mem_cons.2 ⟨fun value isGiven => ?_, List.forall_mem_singleton.2 ?_⟩
    · cases isGiven
    · intro value isGiven
      cases isGiven
      exact ⟨3, rfl⟩

/-- In the first session a candidate is rejected, the next one is accepted and the simplified job is
rejected, so each kind of job that a session writes is written there. In the second one a uniform
gets a number. -/
theorem exists_rebound_and_writesBound_of_bindingSetup :
    let verdicts := [.interesting, .notInteresting, .interesting]
    let session := start workDirectory (LineChunk.start none) verdicts
    bindingSetup.plan = LineChunk.plan ∧
      (describedJob seededSize).uniforms.IsBound seededSize ∧
      (attempts bindingSetup 3 (describedJob seededSize) session).map
        (fun attempt => attempt.verdict.toOption) = [some false, some true] ∧
      (∃ (whole : Uniforms) (others : Members) (after : Session LineChunk.Memory (List Verdict)),
        whole.document = .object others ∧ Uniforms.SameMapping seededSize others ∧
        (describedJob seededSize).uniforms.equals whole = true ∧
        (run bindingSetup 3 (describedJob seededSize)).startingAt session =
          (.ok (some "job_reduced_final"), after) ∧
        WritesBound bindingSetup 3 (describedJob seededSize) workDirectory (LineChunk.start none)
          verdicts whole (.ok (some "job_reduced_final")) after) ∧
      (describedJob coloredSize).uniforms.IsBound coloredSize ∧
      ∃ (whole : Uniforms) (others : Members) (number : Nat),
        whole.document = .object others ∧
        Table.find? ("color" : Text) others =
          some (.object [(Descriptor.bindingName, .integer number)]) ∧
        ∀ outcome after,
          (run bindingSetup 3 (describedJob coloredSize)).startingAt session = (outcome, after) →
          WritesBound bindingSetup 3 (describedJob coloredSize) workDirectory (LineChunk.start none)
            verdicts whole outcome after := by
  intro verdicts session
  have isPlan : bindingSetup.plan = LineChunk.plan := rfl
  have answers : (attempts bindingSetup 3 (describedJob seededSize) session).map
      (fun attempt => attempt.verdict.toOption) = [some false, some true] := by
    unfold bindingSetup LineChunk.plan LineChunk.propose
    rw [LineChunk.search_eq_searchTrying 10]
    decide +kernel
  have ended := eq_ok_of_toOption (show
    ((run bindingSetup 3 (describedJob seededSize)).startingAt session).1.toOption =
      some (some ("job_reduced_final" : Text)) by
    unfold bindingSetup LineChunk.plan LineChunk.propose
    rw [LineChunk.search_eq_searchTrying 10]
    decide +kernel)
  obtain ⟨given, free, whole, others, -, -, -, isObject, -, same, writes⟩ :=
    exists_rebound_and_writesBound_of_run isPlan isBound_seededSize 3 workDirectory
      (LineChunk.start none) verdicts
  have all : ∀ name ∈ Uniforms.ofUniforms (Table.keys seededSize),
      (Uniforms.bindingIn seededSize name).isSome = true := by
    rw [ofUniforms_seededSize]
    exact List.forall_mem_singleton.2 rfl
  have wellFormed : (describedJob seededSize).uniforms.document.WellFormed := by
    refine ⟨by decide, ⟨by decide, trivial, trivial⟩, trivial, trivial⟩
  obtain ⟨otherGiven, otherFree, otherWhole, otherOthers, -, -, -, otherObject, rebound, -,
    otherWrites⟩ := exists_rebound_and_writesBound_of_run isPlan isBound_coloredSize 3 workDirectory
      (LineChunk.start none) verdicts
  have color : ("color" : Text) ∈ Uniforms.ofUniforms (Table.keys coloredSize) := by
    rw [ofUniforms_coloredSize]
    exact List.mem_cons_self
  obtain ⟨fields, number, found, added, -⟩ := rebound.added "color" color rfl
  cases found
  exact ⟨isPlan, isBound_seededSize, answers,
    ⟨whole, others, _, isObject, (same all).1, (same all).2 wellFormed, ended, writes _ _ ended⟩,
    isBound_coloredSize,
    otherWhole, otherOthers, number, otherObject, added, otherWrites⟩

end Session

end ShaderReduction
