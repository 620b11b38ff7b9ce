/-
This file proves that a session which removes chunks of lines finds no loop, provided that every
declaration of a job that is bound as it is written stands on one line.

Every candidate has fewer lines than the job it was made from, and so than every candidate that was
accepted before. The files of a candidate tell how many lines it has. So no candidate has the files
of one that was accepted before. The proviso is needed: the bound form of a declaration drops line
breaks, so that two candidates of different lengths may have the same files.
-/

import ShaderReduction.Proofs.Session.Detection
import ShaderReduction.Proofs.Session.WrittenForms

namespace ShaderReduction

open ShaderReduction.Action

namespace Session

variable {JudgeMemory : Type} {setup : SessionSetup LineChunk.Memory JudgeMemory}
  {bindings : Option Members} {budget made : Nat} {job candidate : Job}
  {session proposed after : Session LineChunk.Memory JudgeMemory}

/-! ### Turns of the plan -/

section Plan

variable (isPlan : setup.plan = LineChunk.plan)

include isPlan

/-- The plan proposes what its search finds, the first time that it is asked. -/
theorem startingAt_proposeRetrying_lineChunk (job : Job) (retries : Nat)
    (session : Session LineChunk.Memory JudgeMemory) :
    (proposeRetrying setup job retries).startingAt session =
      match LineChunk.search (LineChunk.linesOf job) (LineChunk.standing job session.plan) with
      | .chunk found stop => (.ok (some (LineChunk.remove job found.cursor stop)),
          { session with plan := session.plan.proposing found stop })
      | .nothing position => (.ok none, { session with plan := session.plan.at position }) := by
  have asked : (propose setup job).startingAt session =
      match LineChunk.search (LineChunk.linesOf job) (LineChunk.standing job session.plan) with
      | .chunk found stop => (.ok (some (LineChunk.remove job found.cursor stop)),
          { session with plan := session.plan.proposing found stop })
      | .nothing position => (.ok none, { session with plan := session.plan.at position }) := by
    rw [startingAt_propose, isPlan, onPlan, startingAt_onPart]
    have run : (LineChunk.plan.propose job).startingAt session.plan = _ :=
      LineChunk.startingAt_propose job session.plan
    rw [run]
    cases LineChunk.search (LineChunk.linesOf job) (LineChunk.standing job session.plan) <;> rfl
  cases retries with
  | zero => exact asked
  | succ retries =>
    rw [startingAt_proposeRetrying_succ, asked]
    cases LineChunk.search (LineChunk.linesOf job) (LineChunk.standing job session.plan) <;> rfl

theorem nextCandidate_eq_ok
    (next : (nextCandidate setup made job).startingAt session = (.ok (some candidate), proposed)) :
    ∃ found stop, LineChunk.search (LineChunk.linesOf job) (LineChunk.standing job session.plan) =
        .chunk found stop ∧ candidate = LineChunk.remove job found.cursor stop ∧
      proposed.plan = session.plan.proposing found stop := by
  obtain ⟨-, asked⟩ := nextCandidate_eq_some next
  rw [startingAt_proposeRetrying_lineChunk isPlan] at asked
  cases result : LineChunk.search (LineChunk.linesOf job)
      (LineChunk.standing job session.plan) with
  | nothing position =>
    rw [result] at asked
    cases asked
  | chunk found stop =>
    rw [result] at asked
    cases asked
    exact ⟨found, stop, rfl, rfl, rfl⟩

/-- Once an attempt is concluded, the plan has settled what it proposed. -/
theorem plan_of_conclude {memory : LineChunk.Memory} {found : LineChunk.Position} {stop : Int}
    {interesting accepted : Bool} (proposing : session.plan = memory.proposing found stop)
    (concluded : (conclude setup candidate made interesting).startingAt session =
      (.ok accepted, after)) :
    after.plan = memory.settled found stop interesting := by
  obtain ⟨directory, plan, -, told, rfl⟩ := conclude_eq_ok concluded
  have updated :
      (LineChunk.plan.update interesting).startingAt (memory.proposing found stop) = _ :=
    LineChunk.startingAt_update_proposing memory found stop interesting
  rw [isPlan, proposing, updated] at told
  exact (congrArg Prod.snd told).symm

end Plan

/-! ### Files that tell the number of lines -/

/-- The files of an attempt are those of its candidate in its written form, which tell how many
lines the candidate has. -/
structure Recounts (setup : SessionSetup LineChunk.Memory JudgeMemory) (bindings : Option Members)
    (attempt : Attempt LineChunk.Memory JudgeMemory) : Prop where
  onLines : OnLines bindings attempt.candidate
  feeds : JobFiles.FeedsLines attempt.candidate
  ordered : (attempt.candidate.shaders.map Shader.stage).Sublist Stage.all
  written : ∃ form, writtenForm bindings attempt.candidate = .ok form ∧
    JobFiles.Encodes setup.storage form ∧
      attempt.content = .ok (JobFiles.stored setup.storage form)

theorem Recounts.lineCount_eq {first second : Attempt LineChunk.Memory JudgeMemory}
    (firstRecounts : Recounts setup bindings first)
    (secondRecounts : Recounts setup bindings second) (same : first.content = second.content) :
    first.candidate.lineCount = second.candidate.lineCount := by
  obtain ⟨form, formed, encodes, content⟩ := firstRecounts.written
  obtain ⟨otherForm, otherFormed, otherEncodes, otherContent⟩ := secondRecounts.written
  rw [content, otherContent] at same
  exact lineCount_eq_of_stored firstRecounts.onLines secondRecounts.onLines firstRecounts.feeds
    secondRecounts.feeds firstRecounts.ordered secondRecounts.ordered formed otherFormed encodes
    otherEncodes (Except.ok.inj same)

theorem recounts_of_tries {attempt : Attempt LineChunk.Memory JudgeMemory}
    (tries : Tries setup bindings candidate made session attempt)
    (onLines : OnLines bindings candidate) (feeds : JobFiles.FeedsLines candidate)
    (ordered : (candidate.shaders.map Shader.stage).Sublist Stage.all) :
    Recounts setup bindings attempt := by
  have isJobPath : JobFiles.IsJobPath (stepPath setup made) := JobFiles.isJobPath_join _ _
  obtain ⟨form, directory, isForm, run, standing⟩ := writeCandidate_eq_ok tries.written
  refine ⟨tries.isOf ▸ onLines, tries.isOf ▸ feeds, tries.isOf ▸ ordered, form, ?_,
    JobFiles.encodes_of_write isJobPath run, ?_⟩
  · rw [tries.isOf]
    exact isForm
  · rw [Attempt.content, tries.path, standing]
    exact JobFiles.view_of_write isJobPath run

/-! ### No candidate comes back -/

/-- What the attempts on a job begin with: a plan that goes forward, declarations that stand on one
line, and the stages in their order. -/
structure Ready (bindings : Option Members) (job : Job)
    (session : Session LineChunk.Memory JudgeMemory) : Prop where
  forward : (LineChunk.standing job session.plan).Forward
  onLines : OnLines bindings job
  ordered : (job.shaders.map Shader.stage).Sublist Stage.all

/-- The attempts that were accepted were made on no fewer lines than a job has, and their files tell
how many these are. -/
def Longer (setup : SessionSetup LineChunk.Memory JudgeMemory) (bindings : Option Members)
    (earlier : List (Attempt LineChunk.Memory JudgeMemory)) (job : Job) : Prop :=
  ∀ former ∈ earlier, former.verdict = .ok true →
    Recounts setup bindings former ∧ job.lineCount ≤ former.candidate.lineCount

section Shrink

variable (isPlan : setup.plan = LineChunk.plan)

include isPlan

/-- An attempt is made on fewer lines than the job has, its files tell how many these are, and once
it is concluded the next one may begin. -/
theorem Ready.of_tries {attempt : Attempt LineChunk.Memory JudgeMemory}
    (ready : Ready bindings job session)
    (next : (nextCandidate setup made job).startingAt session = (.ok (some candidate), proposed))
    (tries : Tries setup bindings candidate made proposed attempt) :
    Recounts setup bindings attempt ∧ attempt.candidate.lineCount < job.lineCount ∧
      ∀ interesting after, (conclude setup candidate made interesting).startingAt attempt.judged =
          (.ok interesting, after) →
        Ready bindings (if interesting then candidate else job) after := by
  obtain ⟨found, stop, result, rfl, plan⟩ := nextCandidate_eq_ok isPlan next
  obtain ⟨forward, inside, ends⟩ := LineChunk.forward_of_search ready.forward result
  have onLines : OnLines bindings (LineChunk.remove job found.cursor stop) :=
    LineChunk.onLines_remove ready.onLines
  have ordered : ((LineChunk.remove job found.cursor stop).shaders.map
      Shader.stage).Sublist Stage.all := LineChunk.map_stage_remove job _ _ ▸ ready.ordered
  refine ⟨recounts_of_tries tries onLines LineChunk.feedsLines_remove ordered, ?_, ?_⟩
  · have shorter := LineChunk.length_candidate_lt ready.forward result
    rwa [LineChunk.length_linesOf, LineChunk.length_linesOf, ← tries.isOf] at shorter
  · intro interesting after concluded
    have settled := plan_of_conclude isPlan (tries.plan_eq.trans plan) concluded
    cases interesting with
    | true =>
      refine ⟨?_, onLines, ordered⟩
      rw [settled]
      exact ⟨forward.size_pos, forward.cursor_nonneg⟩
    | false =>
      refine ⟨?_, ready.onLines, ready.ordered⟩
      rw [settled, ends]
      exact forward.skip inside

/-- An attempt is not made on the files of a candidate that was accepted before, because that had
more lines. -/
theorem Ready.content_ne {earlier : List (Attempt LineChunk.Memory JudgeMemory)}
    {attempt : Attempt LineChunk.Memory JudgeMemory} (ready : Ready bindings job session)
    (longer : Longer setup bindings earlier job)
    (next : (nextCandidate setup made job).startingAt session = (.ok (some candidate), proposed))
    (tries : Tries setup bindings candidate made proposed attempt) :
    ∀ former ∈ earlier, former.verdict = .ok true → former.content ≠ attempt.content := by
  intro former among accepted same
  obtain ⟨recounts, shorter, -⟩ := ready.of_tries isPlan next tries
  obtain ⟨formerRecounts, atLeast⟩ := longer former among accepted
  have equal := formerRecounts.lineCount_eq recounts same
  omega

/-- With an attempt that is concluded the accepted ones stay longer than what the next one is made
from. -/
theorem Ready.longer_concat {earlier : List (Attempt LineChunk.Memory JudgeMemory)}
    {attempt : Attempt LineChunk.Memory JudgeMemory} {interesting : Bool}
    (ready : Ready bindings job session) (longer : Longer setup bindings earlier job)
    (next : (nextCandidate setup made job).startingAt session = (.ok (some candidate), proposed))
    (tries : Tries setup bindings candidate made proposed attempt)
    (verdict : attempt.verdict = .ok interesting) :
    Longer setup bindings (earlier ++ [attempt]) (if interesting then candidate else job) := by
  obtain ⟨recounts, shorter, -⟩ := ready.of_tries isPlan next tries
  rw [tries.isOf] at shorter
  intro former among accepted
  rcases List.mem_append.1 among with before | last
  · obtain ⟨formerRecounts, atLeast⟩ := longer former before accepted
    refine ⟨formerRecounts, le_trans ?_ atLeast⟩
    cases interesting with
    | true => exact shorter.le
    | false => exact le_refl _
  · obtain rfl := List.mem_singleton.1 last
    obtain rfl : interesting = true := Except.ok.inj (verdict.symm.trans accepted)
    rw [← tries.isOf]
    exact ⟨recounts, le_refl _⟩

/-- No attempt is made on the files of a candidate that was accepted before. -/
theorem content_ne_of_attemptsFrom
    {earlier front back : List (Attempt LineChunk.Memory JudgeMemory)}
    {attempt : Attempt LineChunk.Memory JudgeMemory} (ready : Ready bindings job session)
    (longer : Longer setup bindings earlier job)
    (split : attemptsFrom setup bindings budget made job session = front ++ attempt :: back) :
    ∀ former ∈ earlier ++ front, former.verdict = .ok true →
      former.content ≠ attempt.content := by
  induction budget generalizing made job session earlier front with
  | zero => exact absurd split.symm (List.append_ne_nil_of_right_ne_nil _ (List.cons_ne_nil _ _))
  | succ budget inductionHypothesis =>
    have alone : ∀ {candidate proposed first},
        (nextCandidate setup made job).startingAt session = (.ok (some candidate), proposed) →
        Tries setup bindings candidate made proposed first →
        [first] = front ++ attempt :: back →
        ∀ former ∈ earlier ++ front, former.verdict = .ok true →
          former.content ≠ attempt.content := by
      intro candidate proposed first next tries split
      obtain ⟨rfl, rest⟩ | ⟨-, impossible⟩ := List.singleton_eq_append_iff.1 split
      · obtain ⟨rfl, -⟩ := List.cons.inj rest
        rw [List.append_nil]
        exact ready.content_ne isPlan longer next tries
      · cases impossible
    rcases shrunk : (shrink setup bindings (budget + 1) made job).startingAt session with
      ⟨outcome, final⟩
    have turns := turns_of_shrink shrunk
    generalize attemptsFrom setup bindings (budget + 1) made job session = attempts at split turns
    cases turns with
    | unproposed | finished | unwritten =>
      exact absurd split.symm (List.append_ne_nil_of_right_ne_nil _ (List.cons_ne_nil _ _))
    | unjudged next tries => exact alone next tries split
    | unconcluded next tries => exact alone next tries split
    | @concluded candidate proposed between after first interesting outcome next tries verdict
        settled rest =>
      cases front with
      | nil =>
        obtain ⟨rfl, -⟩ := List.cons.inj split
        rw [List.append_nil]
        exact ready.content_ne isPlan longer next tries
      | cons head front =>
        obtain ⟨rfl, later⟩ := List.cons.inj split
        obtain ⟨-, -, onward⟩ := ready.of_tries isPlan next tries
        rw [← List.singleton_append, ← List.append_assoc]
        exact inductionHypothesis (onward interesting between settled)
          (ready.longer_concat isPlan longer next tries verdict) later

end Shrink

/-! ### The whole session -/

/-- The free form of a job is the job as it is, or without its bindings. -/
theorem freeForm_eq_ok {free : Job} (form : freeForm job = .ok (bindings, free)) :
    (bindings = none ∧ free = job) ∨ ∃ given uniforms names, bindings = some given ∧
      job.uniforms.bindings = .ok given ∧ job.uniforms.withoutBindings = .ok uniforms ∧
        free = { job with uniforms }.mapTexts (Declaration.unbindBlocks names) := by
  obtain ⟨bound, -, rest⟩ := except_bind_eq_ok form
  cases bound with
  | false =>
    cases rest
    exact .inl ⟨rfl, rfl⟩
  | true =>
    obtain ⟨given, isGiven, unbinding⟩ := except_bind_eq_ok rest
    obtain ⟨unbound, isFree, answer⟩ := except_bind_eq_ok unbinding
    obtain ⟨uniforms, freed, named⟩ := except_bind_eq_ok isFree
    obtain ⟨names, -, texts⟩ := except_bind_eq_ok named
    cases answer
    cases texts
    exact .inr ⟨given, uniforms, names, rfl, isGiven, freed, rfl⟩

theorem map_stage_of_freeForm {free : Job} (form : freeForm job = .ok (bindings, free)) :
    free.shaders.map Shader.stage = job.shaders.map Shader.stage := by
  rcases freeForm_eq_ok form with ⟨-, rfl⟩ | ⟨given, uniforms, names, -, -, -, rfl⟩
  · rfl
  · exact List.map_map.trans (List.map_congr_left fun _ _ => rfl)

section Run

variable (isPlan : setup.plan = LineChunk.plan) {initialSize : Option Int}
  (allowed : ∀ size ∈ initialSize, 0 ≤ size)

include isPlan allowed

/-- In a session that removes chunks of lines from a job that was read, no candidate has the files
of one that was accepted before, if every declaration that is bound stands on one line. -/
theorem content_ne_of_run (budget : Nat) (job : Job) (isRead : JobFiles.IsRead job)
    (onLines : ∀ bindings free, freeForm job = .ok (bindings, free) → OnLines bindings free)
    (directory : Directory) (judgeMemory : JudgeMemory)
    {front back : List (Attempt LineChunk.Memory JudgeMemory)}
    {attempt : Attempt LineChunk.Memory JudgeMemory}
    (split : attempts setup budget job (start directory (LineChunk.start initialSize) judgeMemory) =
      front ++ attempt :: back) :
    ∀ former ∈ front, former.verdict = .ok true → former.content ≠ attempt.content := by
  have nothing : ([] : List (Attempt LineChunk.Memory JudgeMemory)) ≠ front ++ attempt :: back :=
    (List.append_ne_nil_of_right_ne_nil _ (List.cons_ne_nil _ _)).symm
  unfold attempts at split
  cases form : freeForm job with
  | error fault =>
    rw [form] at split
    exact absurd split nothing
  | ok pair =>
    obtain ⟨bindings, free⟩ := pair
    rw [form] at split
    dsimp only at split
    rcases checked : (mayProceed setup bindings free).startingAt
      (start directory (LineChunk.start initialSize) judgeMemory) with ⟨fault | may, opened⟩
    all_goals rw [checked] at split
    · exact absurd split nothing
    · cases may with
      | false => exact absurd split nothing
      | true =>
        have plan := ((respects_mayProceed confined_anyBench.around free).of_eq checked).plan
        have ready : Ready bindings free { opened with current := some free } := by
          refine ⟨?_, onLines bindings free form, map_stage_of_freeForm form ▸ isRead.stages⟩
          show (LineChunk.standing free opened.plan).Forward
          rw [← plan]
          exact ⟨LineChunk.firstSize_pos allowed _, Int.le_refl 0⟩
        exact content_ne_of_attemptsFrom isPlan ready
          (fun _ member => absurd member List.not_mem_nil) split

/-- For a job that is not bound there is no proviso. -/
theorem content_ne_of_unbound (budget : Nat) (job : Job) (isRead : JobFiles.IsRead job)
    (unbound : job.hasBindings = .ok false) (directory : Directory) (judgeMemory : JudgeMemory)
    {front back : List (Attempt LineChunk.Memory JudgeMemory)}
    {attempt : Attempt LineChunk.Memory JudgeMemory}
    (split : attempts setup budget job (start directory (LineChunk.start initialSize) judgeMemory) =
      front ++ attempt :: back) :
    ∀ former ∈ front, former.verdict = .ok true → former.content ≠ attempt.content := by
  refine content_ne_of_run isPlan allowed budget job isRead ?_ directory judgeMemory split
  intro bindings free form
  rw [freeForm, unbound] at form
  cases form
  exact onLines_none job

/-- In a session that removes chunks of lines from a job that was read, each candidate has other
files than every one that was accepted before, if every declaration that is bound stands on one
line. If such a session remembers its verdicts, by fingerprints that keep contents apart, it does
not end with the fault of a loop either, unless its judge fails with one. -/
theorem no_loop_of_run (remembers : setup.remembers = true)
    (calm : ∀ path result, Fails (¬·.IsLoop) (setup.judge.report path result)) (budget : Nat)
    (job : Job) (isRead : JobFiles.IsRead job)
    (onLines : ∀ bindings free, freeForm job = .ok (bindings, free) → OnLines bindings free)
    (directory : Directory) (judgeMemory : JudgeMemory)
    (separates : Separates setup.storage
      (attempts setup budget job (start directory (LineChunk.start initialSize) judgeMemory))) :
    (∀ front attempt back,
      attempts setup budget job (start directory (LineChunk.start initialSize) judgeMemory) =
        front ++ attempt :: back →
      ∀ former ∈ front, former.verdict = .ok true → former.content ≠ attempt.content) ∧
    Errs (¬·.IsLoop) ((run setup budget job).startingAt
      (start directory (LineChunk.start initialSize) judgeMemory)).1 := by
  have fresh : ∀ front attempt back, attempts setup budget job
      (start directory (LineChunk.start initialSize) judgeMemory) = front ++ attempt :: back →
      ∀ former ∈ front, former.verdict = .ok true → former.content ≠ attempt.content :=
    fun _ _ _ => content_ne_of_run isPlan allowed budget job isRead onLines directory judgeMemory
  refine ⟨fresh, fun fault same isLoop => ?_⟩
  have quiet : Quiet setup := by
    refine ⟨fun job => ?_, fun accepted => ?_, calm⟩
    · rw [isPlan]
      exact (LineChunk.fails_propose job).ordinary.notLoop
    · rw [isPlan]
      exact (LineChunk.fails_update accepted).ordinary.notLoop
  have detected := detected_of_remembers remembers rfl (remembers_empty setup) separates
  obtain ⟨front, last, split, -, former, among, content, verdict⟩ :=
    detected.found quiet fault same isLoop
  exact fresh front last [] split former among verdict content

end Run

/-! ### Declarations on one line and on several -/

/-- The judge that accepts the jobs that have a file which begins with some content. -/
def requiring (content : Bytes) : Judge Unit where
  report job _ := do
    let files ← Action.ofExcept (JobFiles.view job (← get).directory)
    let begins := files.any fun node =>
      match node with
      | some (.file whole) => content.isPrefixOf whole
      | _ => false
    let verdict := if begins then .interesting else .notInteresting
    pure ⟨verdict, [], none, false, [], .finite false 0 0⟩

theorem fails_requiring (content : Bytes) (job result : Path) :
    Fails Fault.Plain ((requiring content).report job result) :=
  fails_get.bind fun _ => ((fails_ofExcept ((JobFiles.errs_candidates job).map _)).mono
    fun _ ofFiles => ofFiles.plain).bind fun _ => fails_pure _

/-- What a bound declaration of a size is written as. -/
def boundSize : Text := "layout(set = 0, binding = 0) uniform buf0 \x7b float size; \x7d;\n"

/-- The setup in which chunks of lines are removed as long as that declaration is written. -/
def shrinkingSetup : SessionSetup LineChunk.Memory Unit where
  plan := LineChunk.plan
  judge := requiring ((Utf8.encode? boundSize).getD [])
  storage := Storage.usual false
  base := "job"
  folder := "work"
  offset := 0
  limit := .unlimited
  remembers := true

/-- A job with a bound uniform and some text. -/
def sizeJob (text : Text) : Job :=
  ⟨[], .ofMembers [("size", .object [("binding", .integer 0)])], [⟨.fragment, text⟩]⟩

theorem quiet_shrinkingSetup : Quiet shrinkingSetup where
  propose job := (LineChunk.fails_propose job).ordinary.notLoop
  update accepted := (LineChunk.fails_update accepted).ordinary.notLoop
  report job result := (fails_requiring _ job result).ordinary.notLoop

theorem ofUniforms_size : Uniforms.ofUniforms ["size"] = ["size"] := by decide +kernel

theorem names_sizeJob (text : Text) : (sizeJob text).uniforms.names = .ok ["size"] :=
  congrArg Except.ok ofUniforms_size

/-- A job with a uniform that is not bound. -/
def freeSizeJob (text : Text) : Job :=
  ⟨[], .ofMembers [("size", .object [])], [⟨.fragment, text⟩]⟩

theorem names_freeSizeJob (text : Text) : (freeSizeJob text).uniforms.names = .ok ["size"] :=
  congrArg Except.ok ofUniforms_size

theorem bindings_sizeJob (text : Text) :
    (sizeJob text).uniforms.bindings = .ok [("size", .integer 0)] := by
  rw [Uniforms.bindings, names_sizeJob]
  rfl

theorem freeForm_sizeJob (text : Text) : freeForm (sizeJob text) =
    .ok (some [("size", .integer 0)], freeSizeJob (Declaration.unbindBlocks ["size"] text)) := by
  have has : (sizeJob text).uniforms.hasBindings = .ok true := by
    rw [Uniforms.hasBindings, names_sizeJob]
    rfl
  have free : (sizeJob text).uniforms.withoutBindings =
      .ok (.ofMembers [("size", .object [])]) := by
    rw [Uniforms.withoutBindings, has, names_sizeJob]
    rfl
  have unbound : (sizeJob text).withoutBindings =
      .ok (freeSizeJob (Declaration.unbindBlocks ["size"] text)) := by
    rw [Job.withoutBindings, free]
    dsimp only [bind, Except.bind]
    rw [show (Uniforms.ofMembers [("size", .object [])]).names = _ from names_freeSizeJob text]
    rfl
  rw [freeForm, Job.hasBindings, has, bindings_sizeJob, unbound]
  rfl

theorem onLines_freeSizeJob (text : Text) (alone : ∀ line ∈ text.lines, Declaration.Alone line) :
    OnLines (some [("size", .integer 0)]) (freeSizeJob text) where
  alone given isGiven shader member line inShader := by
    rw [List.mem_singleton.1 member] at inShader
    exact alone line inShader
  shown given written isGiven bound := by
    cases isGiven
    have unbound : (freeSizeJob text).uniforms.hasBindings = .ok false := by
      rw [Uniforms.hasBindings, names_freeSizeJob]
      rfl
    have whole : (freeSizeJob text).uniforms.withBindings (.ofMembers [("size", .integer 0)]) =
        .ok (sizeJob text).uniforms := by
      rw [Uniforms.withBindings, unbound, names_freeSizeJob]
      rfl
    have again : writtenBindings [("size", .integer 0)] (freeSizeJob text) =
        .ok [("size", .integer 0)] := by
      rw [writtenBindings, whole]
      exact bindings_sizeJob text
    obtain rfl := Except.ok.inj (again.symm.trans bound)
    intro name binding found
    unfold Table.find? at found
    split at found
    · cases found
      decide
    · cases found

/-- A text with a declaration that takes one line. -/
def singleSize : Text := "uniform float size;\nint a;\n"

theorem isRead_singleSize : JobFiles.IsRead (sizeJob singleSize) where
  license _ member := absurd member List.not_mem_nil
  texts shader member := by
    rw [List.mem_singleton.1 member]
    refine fun point among => ⟨?_, ?_⟩
    · obtain ⟨character, -, rfl⟩ := List.mem_map.1 among
      exact ⟨character, rfl⟩
    · rintro rfl
      exact absurd among (by decide)
  stages := by decide
  nonempty := List.cons_ne_nil _ _
  uniforms := ⟨_, rfl, rfl⟩

theorem no_loop_of_singleSize :
    let session := start workDirectory (LineChunk.start none) ()
    let made := attempts shrinkingSetup 9 (sizeJob singleSize) session
    shrinkingSetup.plan = LineChunk.plan ∧ (∀ size ∈ (none : Option Int), 0 ≤ size) ∧
      shrinkingSetup.remembers = true ∧
      (∀ path result, Fails (¬·.IsLoop) (shrinkingSetup.judge.report path result)) ∧
      JobFiles.IsRead (sizeJob singleSize) ∧
      (∀ bindings free, freeForm (sizeJob singleSize) = .ok (bindings, free) →
        OnLines bindings free) ∧
      Separates shrinkingSetup.storage made ∧
      made.map (fun attempt => attempt.verdict.toOption) =
        [some false, some false, some true, some false] ∧
      (∀ front attempt back, made = front ++ attempt :: back →
        ∀ former ∈ front, former.verdict = .ok true → former.content ≠ attempt.content) ∧
      Errs (¬·.IsLoop) ((run shrinkingSetup 9 (sizeJob singleSize)).startingAt session).1 := by
  intro session made
  obtain ⟨toldApart, verdicts⟩ : ToldApart shrinkingSetup.storage made ∧
      made.map (fun attempt => attempt.verdict.toOption) =
        [some false, some false, some true, some false] := by
    unfold made shrinkingSetup LineChunk.plan LineChunk.propose
    rw [LineChunk.search_eq_searchTrying 10]
    decide +kernel
  have allowed : ∀ size ∈ (none : Option Int), 0 ≤ size := by rintro size ⟨⟩
  have onLines : ∀ bindings free, freeForm (sizeJob singleSize) = .ok (bindings, free) →
      OnLines bindings free := by
    intro bindings free form
    obtain ⟨rfl, rfl⟩ := Prod.mk.inj (Except.ok.inj ((freeForm_sizeJob _).symm.trans form))
    exact onLines_freeSizeJob _ (by decide +kernel)
  have separates := toldApart.separates
  exact ⟨rfl, allowed, rfl, quiet_shrinkingSetup.report, isRead_singleSize, onLines, separates,
    verdicts, no_loop_of_run rfl allowed rfl quiet_shrinkingSetup.report 9 _ isRead_singleSize
      onLines workDirectory () separates⟩

/-- A text with a declaration that takes four lines, two of which are empty. -/
def splitSize : Text := "uniform\n\n\nfloat size;\n"

/-- The directory with the job of that text and an empty folder. -/
def splitDirectory : Directory :=
  ⟨[([("work" : Text)], .folder),
    ([("job.json" : Text)], .file [0x7b, 0x22, 0x73, 0x69, 0x7a, 0x65, 0x22, 0x3a, 0x7b, 0x22, 0x62,
      0x69, 0x6e, 0x64, 0x69, 0x6e, 0x67, 0x22, 0x3a, 0x30, 0x7d, 0x7d]),
    ([("job.frag" : Text)], .file [0x75, 0x6e, 0x69, 0x66, 0x6f, 0x72, 0x6d, 0x0a, 0x0a, 0x0a, 0x66,
      0x6c, 0x6f, 0x61, 0x74, 0x20, 0x73, 0x69, 0x7a, 0x65, 0x3b, 0x0a])]⟩

theorem read_splitDirectory : (JobFiles.read "job.json").startingAt splitDirectory =
    (.ok (sizeJob splitSize), splitDirectory) := by
  have document : (FileAction.readDocument "job.json").startingAt splitDirectory =
      (.ok (.object [("size", .object [("binding", .integer 0)])]), splitDirectory) := rfl
  have base : JobFiles.base "job.json" = .ok "job" := rfl
  have shaders : (JobFiles.readShaders "job" Stage.all).startingAt splitDirectory =
      (.ok [⟨.fragment, splitSize⟩], splitDirectory) := rfl
  have license : JobFiles.sibling "job" JobFiles.licenseSuffix = .ok "job.license" := rfl
  have uniforms : Uniforms.ofDocument (.object [("size", .object [("binding", .integer 0)])]) =
    .ok (sizeJob splitSize).uniforms := rfl
  unfold JobFiles.read
  simp only [startingAt_bind, document, base, shaders, startingAt_ofExcept, license, uniforms]
  rfl

theorem loops_of_splitDeclaration :
    let session := start splitDirectory (LineChunk.start none) ()
    let made := attempts shrinkingSetup 9 (sizeJob splitSize) session
    (JobFiles.read "job.json").startingAt splitDirectory =
        (.ok (sizeJob splitSize), splitDirectory) ∧
      Separates shrinkingSetup.storage made ∧ Quiet shrinkingSetup ∧
      ∃ front former attempt, made = front ++ [former, attempt] ∧ former.verdict = .ok true ∧
        former.content = attempt.content ∧ attempt.verdict = .error .loop ∧
        ((run shrinkingSetup 9 (sizeJob splitSize)).startingAt session).1 = .error .loop := by
  intro session made
  obtain ⟨toldApart, verdicts, alike⟩ : ToldApart shrinkingSetup.storage made ∧
      (made.drop 4).map (fun attempt => attempt.verdict.toOption) = [some true, none] ∧
      ∀ first ∈ made.drop 4, ∀ second ∈ made.drop 4,
        first.content.toOption = second.content.toOption := by
    unfold made shrinkingSetup LineChunk.plan LineChunk.propose
    rw [LineChunk.search_eq_searchTrying 10]
    decide +kernel
  have separates := toldApart.separates
  obtain ⟨former, rest, back, accepted, restVerdicts⟩ := List.map_eq_cons_iff.1 verdicts
  obtain ⟨attempt, none, rfl, -, noneVerdicts⟩ := List.map_eq_cons_iff.1 restVerdicts
  obtain rfl := List.map_eq_nil_iff.1 noneVerdicts
  have split : made = made.take 4 ++ [former, attempt] := back ▸ (List.take_append_drop 4 made).symm
  have detected : Detected shrinkingSetup [] made
      ((run shrinkingSetup 9 (sizeJob splitSize)).startingAt session).1 _ :=
    detected_of_remembers rfl rfl (remembers_empty _) separates
  have isFormer : former ∈ made := split ▸ List.mem_append_right _ List.mem_cons_self
  obtain ⟨files, content⟩ := Option.isSome_iff_exists.1 (toldApart.1 former isFormer)
  have equal := alike attempt (back ▸ List.mem_cons_of_mem _ List.mem_cons_self) former
    (back ▸ List.mem_cons_self)
  have same : former.content = attempt.content :=
    (eq_ok_of_toOption_eq content).trans (eq_ok_of_toOption_eq (equal.trans content)).symm
  have known : former.verdict = .ok true := eq_ok_of_toOption_eq accepted
  have last : made = (made.take 4 ++ [former]) ++ attempt :: [] := by
    rwa [List.append_assoc]
  obtain ⟨looped, notAsked⟩ := (detected.exact (made.take 4 ++ [former]) attempt [] last).loop_iff.2
    ⟨former, List.mem_append_right (made.take 4) (List.mem_singleton_self former), same, known⟩
  obtain ⟨-, ended, -⟩ := detected.loop _ attempt [] last looped notAsked
  exact ⟨read_splitDirectory, separates, quiet_shrinkingSetup, made.take 4, former, attempt, split,
    known, same, looped, ended⟩

end Session

end ShaderReduction
