/-
This file proves which jobs a judge is asked about during a session, however that ends.

A traced judge notes each job that it is asked about before it does anything else, so a call is
noted also if no answer comes of it. Only the search for a verdict calls the judge; finding a
candidate, writing, tagging and settling it do not. So the calls of a session are the tries of its
input, then the candidates that are said to be asked about, in their order, and last the final job,
which is written only once there is a verdict on every candidate.
-/

import ShaderReduction.Proofs.Session.Course
import ShaderReduction.Proofs.Session.Messages

namespace ShaderReduction

open ShaderReduction.Action

/-- The memory of a judge with the paths of the jobs that it was asked about. -/
structure Traced (Memory : Type) where
  memory : Memory
  calls : List Path

namespace Judge

variable {Memory : Type}

/-- The judge that notes what it is asked about before it answers. -/
def traced (judge : Judge Memory) : Judge (Traced Memory) where
  report job result := do
    Bench.remember fun traced => { traced with calls := traced.calls ++ [job] }
    Action.onPart (Bench.forget Traced.memory)
      (fun bench whole => ⟨bench.directory, { whole.memory with memory := bench.memory }⟩)
      (judge.report job result)

theorem watches_traced (judge : Judge Memory) : Judge.Watches Traced.memory judge.traced judge where
  report _ _ _ := rfl

/-- A call is noted once, whatever comes of it. -/
theorem calls_traced_isInteresting (judge : Judge Memory) (job result : Path) :
    Respects (fun before after : Bench (Traced Memory) =>
        after.memory.calls = before.memory.calls ++ [job])
      (judge.traced.isInteresting job result) := by
  intro bench
  have noted : ((judge.traced.report job result).startingAt bench).2.memory.calls =
      bench.memory.calls ++ [job] := rfl
  rw [isInteresting, startingAt_bind]
  rcases run : (judge.traced.report job result).startingAt bench with ⟨fault | report, after⟩
  all_goals rw [run] at noted
  · exact noted
  · dsimp only
    cases report.verdict <;> exact noted

end Judge

/-- The setup whose judge notes what it is asked about. -/
def SessionSetup.traced {PlanMemory JudgeMemory : Type}
    (setup : SessionSetup PlanMemory JudgeMemory) : SessionSetup PlanMemory (Traced JudgeMemory) :=
  setup.with setup.plan setup.judge.traced

namespace Session

variable {PlanMemory JudgeMemory : Type}

/-! ### Calls -/

/-- The judge was asked about the jobs at some paths, in this order, and each call was counted. -/
structure Calls (paths : List Path) (before after : Session PlanMemory (Traced JudgeMemory)) :
    Prop where
  counted : after.tally.judgeCalls = before.tally.judgeCalls + paths.length
  noted : after.bench.memory.calls = before.bench.memory.calls ++ paths

section Calls

variable {paths more : List Path} {before between after : Session PlanMemory (Traced JudgeMemory)}

/-- What leaves the count and the notes alone calls no judge. -/
theorem calls_nil (counted : after.tally.judgeCalls = before.tally.judgeCalls)
    (noted : after.bench.memory.calls = before.bench.memory.calls) : Calls [] before after :=
  ⟨counted.trans (Int.add_zero _).symm, noted.trans (List.append_nil _).symm⟩

theorem Calls.refl (session : Session PlanMemory (Traced JudgeMemory)) :
    Calls [] session session := calls_nil rfl rfl

theorem Calls.trans (first : Calls paths before between) (second : Calls more between after) :
    Calls (paths ++ more) before after := by
  refine ⟨?_, ?_⟩
  · rw [second.counted, first.counted, List.length_append, Int.natCast_add, Int.add_assoc]
  · rw [second.noted, first.noted, List.append_assoc]

end Calls

instance : IsPreorder (Session PlanMemory (Traced JudgeMemory)) (Calls []) where
  refl := Calls.refl
  trans _ _ _ first second := first.trans second

/-- An action asks the judge about one job only, and no more than so often. -/
def CallsAtMost {Result : Type} (most : Nat) (path : Path)
    (action : Step PlanMemory (Traced JudgeMemory) Result) : Prop :=
  Respects (fun before after => ∃ count ≤ most, Calls (List.replicate count path) before after)
    action

section CallsAtMost

variable {path : Path} {few more : Nat} {Result Next : Type}
  {action : Step PlanMemory (Traced JudgeMemory) Result}
  {rest : Result → Step PlanMemory (Traced JudgeMemory) Next}

theorem callsAtMost_zero (quiet : Respects (Calls []) action) : CallsAtMost 0 path action :=
  fun session => ⟨0, Nat.le_refl 0, quiet session⟩

theorem callsAtMost_one (asked : Respects (Calls [path]) action) : CallsAtMost 1 path action :=
  fun session => ⟨1, Nat.le_refl 1, asked session⟩

theorem CallsAtMost.mono (asked : CallsAtMost few path action) (within : few ≤ more) :
    CallsAtMost more path action := by
  intro session
  obtain ⟨count, bound, calls⟩ := asked session
  exact ⟨count, bound.trans within, calls⟩

/-- Of actions one after the other the calls add up. -/
theorem CallsAtMost.bind (first : CallsAtMost few path action)
    (second : ∀ result, CallsAtMost more path (rest result)) :
    CallsAtMost (few + more) path (action >>= rest) := by
  intro session
  rw [startingAt_bind]
  rcases run : action.startingAt session with ⟨fault | result, between⟩
  all_goals obtain ⟨count, bound, calls⟩ := first.of_eq run
  · exact ⟨count, bound.trans (Nat.le_add_right few more), calls⟩
  · obtain ⟨again, further, moreCalls⟩ := second result between
    refine ⟨count + again, Nat.add_le_add bound further, ?_⟩
    rw [List.replicate_add]
    exact calls.trans moreCalls

theorem CallsAtMost.after (quiet : Respects (Calls []) action)
    (asked : ∀ result, CallsAtMost more path (rest result)) :
    CallsAtMost more path (action >>= rest) := by
  have whole := (callsAtMost_zero quiet).bind asked
  rwa [Nat.zero_add] at whole

theorem CallsAtMost.before (asked : CallsAtMost few path action)
    (quiet : ∀ result, Respects (Calls []) (rest result)) :
    CallsAtMost few path (action >>= rest) :=
  asked.bind fun result => callsAtMost_zero (quiet result)

end CallsAtMost

/-! ### What calls no judge -/

section Quiet

variable {setup : SessionSetup PlanMemory (Traced JudgeMemory)} {bindings : Option Members}

theorem calls_onDirectory {Result : Type} (action : FileAction Result) :
    Respects (Calls [])
      (onDirectory action : Step PlanMemory (Traced JudgeMemory) Result) :=
  fun _ => calls_nil rfl rfl

theorem calls_onPlan {Result : Type} (action : Action PlanMemory Result) :
    Respects (Calls []) (onPlan action : Step PlanMemory (Traced JudgeMemory) Result) :=
  fun _ => calls_nil rfl rfl

theorem calls_onCache {Result : Type} (action : Action VerdictCache Result) :
    Respects (Calls []) (onCache action : Step PlanMemory (Traced JudgeMemory) Result) :=
  fun _ => calls_nil rfl rfl

theorem calls_count {change : Tally → Tally}
    (same : ∀ tally, (change tally).judgeCalls = tally.judgeCalls) :
    Respects (Calls []) (count change : Step PlanMemory (Traced JudgeMemory) Unit) :=
  fun _ => calls_nil (same _) rfl

theorem calls_writeJob (job : Job) (path : Path) :
    Respects (Calls []) (writeJob setup bindings job path) :=
  (respects_ofExcept _).bind fun _ => calls_onDirectory _

theorem calls_nextCandidate (made : Nat) (job : Job) :
    Respects (Calls []) (nextCandidate setup made job) := by
  refine (respects_ofExcept _).bind fun reached => ?_
  split
  · exact Respects.bind (calls_count fun _ => rfl) fun _ => respects_pure _
  · exact respects_proposeRetrying_of (calls_onPlan _) _

theorem calls_writeCandidate (candidate : Job) (made : Nat) :
    Respects (Calls []) (writeCandidate setup bindings candidate made) :=
  Respects.bind (calls_count fun _ => rfl) fun _ => calls_writeJob candidate _

theorem calls_conclude (candidate : Job) (made : Nat) (interesting : Bool) :
    Respects (Calls []) (conclude setup candidate made interesting) := by
  refine (calls_onDirectory _).bind fun _ => Respects.bind ?_ fun _ => respects_pure _
  cases interesting with
  | true =>
    have settled : Respects (Calls []) (modify (settling candidate true) :
        Step PlanMemory (Traced JudgeMemory) Unit) := fun _ => calls_nil rfl rfl
    exact settled.bind fun _ => calls_onPlan _
  | false => exact Respects.bind (calls_count fun _ => rfl) fun _ => calls_onPlan _

theorem calls_revertFinal (job : Job) (path : Path) :
    Respects (Calls []) (revertFinal setup bindings job path) :=
  (calls_writeJob job path).bind fun _ => (respects_ofExcept _).bind fun _ => calls_onDirectory _

theorem calls_markIncomplete : Respects (Calls []) (markIncomplete setup) :=
  holds_markIncomplete composes_respects respects_get (calls_onDirectory _)

end Quiet

/-! ### What calls the judge -/

section Judging

variable {setup : SessionSetup PlanMemory JudgeMemory} {bindings : Option Members} {path : Path}

theorem calls_consultJudge (isJobPath : JobFiles.IsJobPath path) :
    Respects (Calls [path]) (consultJudge setup.traced path) := by
  intro session
  rw [startingAt_consultJudge isJobPath]
  exact ⟨rfl, Judge.calls_traced_isInteresting setup.judge path _ session.bench⟩

theorem callsAtMost_consult (isJobPath : JobFiles.IsJobPath path) :
    CallsAtMost 1 path (consult setup.traced path) := by
  have asked : CallsAtMost 1 path (consultJudge setup.traced path) :=
    callsAtMost_one (calls_consultJudge isJobPath)
  unfold consult
  split
  · refine CallsAtMost.after (calls_onDirectory _) fun fingerprint => ?_
    refine CallsAtMost.after (calls_onCache _) fun known => ?_
    split
    · refine (callsAtMost_zero ?_).mono (Nat.zero_le 1)
      exact Respects.bind (calls_count fun _ => rfl) fun _ => respects_pure false
    · exact asked.before fun interesting => (calls_onCache _).bind fun _ => respects_pure _
  · exact asked

theorem callsAtMost_judgeJob (job : Job) (name : Text) :
    CallsAtMost 1 (jobPath setup name) (judgeJob setup.traced bindings job name) :=
  CallsAtMost.after (calls_writeJob job _) fun _ =>
    callsAtMost_one (calls_consultJudge (JobFiles.isJobPath_join _ _))

/-- The input is judged no more often than it is tried. -/
theorem callsAtMost_tryInitial (job : Job) (tries : Nat) :
    CallsAtMost tries (jobPath setup setup.base)
      (tryInitial setup.traced bindings job tries) := by
  induction tries with
  | zero => exact callsAtMost_zero (respects_pure false)
  | succ tries inductionHypothesis =>
    refine CallsAtMost.mono (CallsAtMost.bind (callsAtMost_judgeJob job setup.base)
      fun interesting => ?_) (Nat.le_of_eq (Nat.add_comm 1 tries))
    split
    · exact (callsAtMost_zero (respects_pure true)).mono (Nat.zero_le tries)
    · exact inductionHypothesis

/-- How often the input is judged at most: not at all after earlier attempts. -/
theorem callsAtMost_mayProceed (job : Job) :
    CallsAtMost (if 0 < setup.offset then 0 else initialTries) (jobPath setup setup.base)
      (mayProceed setup.traced bindings job) := by
  unfold mayProceed
  show CallsAtMost _ _ (if 0 < setup.offset then _ else _)
  split
  · exact callsAtMost_zero (respects_pure true)
  · refine CallsAtMost.before (callsAtMost_tryInitial job initialTries) fun interesting => ?_
    split
    · exact respects_pure true
    · exact (calls_onDirectory _).bind fun _ => respects_pure false

/-- The final job is judged once at most. -/
theorem callsAtMost_finish (job : Job) :
    CallsAtMost 1 (jobPath setup (Trail.finalName setup.base))
      (finish setup.traced bindings job) := by
  refine CallsAtMost.before (callsAtMost_judgeJob job.simplify _) fun interesting => ?_
  have ended : Respects (Calls [])
      (markIncomplete setup.traced >>= fun _ => pure (Trail.finalName setup.base)) :=
    calls_markIncomplete.bind fun _ => respects_pure _
  cases interesting with
  | true => exact ended
  | false => exact (calls_revertFinal job _).bind fun _ => ended

end Judging

/-! ### The calls of the attempts -/

/-- The paths of the attempts about which the judge was asked. -/
def askedPaths (attempts : List (Attempt PlanMemory JudgeMemory)) : List Path :=
  (attempts.filter fun attempt => attempt.Asked).map Attempt.path

theorem askedPaths_cons (attempt : Attempt PlanMemory JudgeMemory)
    (attempts : List (Attempt PlanMemory JudgeMemory)) :
    askedPaths (attempt :: attempts) =
      (if attempt.Asked then [attempt.path] else []) ++ askedPaths attempts := by
  by_cases asked : attempt.Asked <;> simp [askedPaths, asked]

/-- Whether the judge was asked about an attempt does not depend on who watches. -/
theorem askedPaths_forget {WatchedPlan WatchedJudge : Type}
    (forgetPlan : WatchedPlan → PlanMemory) (forgetJudge : WatchedJudge → JudgeMemory)
    (attempts : List (Attempt WatchedPlan WatchedJudge)) :
    askedPaths (attempts.map (Attempt.forget forgetPlan forgetJudge)) = askedPaths attempts := by
  rw [askedPaths, List.filter_map, List.map_map]
  rfl

section Attempts

variable {setup : SessionSetup PlanMemory JudgeMemory} {bindings : Option Members}
  {budget made : Nat} {job : Job} {session after : Session PlanMemory (Traced JudgeMemory)}

/-- An attempt calls the judge once if the judge is said to be asked about it, and else not. -/
theorem calls_of_tries {candidate : Job} {attempt : Attempt PlanMemory (Traced JudgeMemory)}
    (tries : Tries setup.traced bindings candidate made session attempt) :
    Calls (if attempt.Asked then [attempt.path] else []) session attempt.judged := by
  have isJobPath : JobFiles.IsJobPath attempt.path := tries.path ▸ JobFiles.isJobPath_join _ _
  have written := (calls_writeCandidate candidate made).of_eq tries.written
  obtain ⟨count, bound, calls⟩ := (callsAtMost_consult isJobPath).of_eq tries.consulted
  have isAsked : attempt.Asked ↔ count = 1 := by
    rw [Attempt.Asked, calls.counted, List.length_replicate]
    omega
  by_cases asked : attempt.Asked
  · rw [if_pos asked]
    rw [isAsked.1 asked] at calls
    exact written.trans calls
  · rw [if_neg asked]
    obtain rfl : count = 0 := by
      have notOne := mt isAsked.2 asked
      omega
    exact written.trans calls

theorem calls_of_shrink {outcome : Except Fault Job}
    (shrunk : (shrink setup.traced bindings budget made job).startingAt session =
      (outcome, after)) :
    Calls (askedPaths (attemptsFrom setup.traced bindings budget made job session)) session
      after := by
  induction budget generalizing made job session with
  | zero =>
    cases shrunk
    exact Calls.refl _
  | succ budget inductionHypothesis =>
    have turns := turns_of_shrink shrunk
    generalize attemptsFrom setup.traced bindings (budget + 1) made job session = attempts at *
    cases turns with
    | unproposed failed => exact (calls_nextCandidate made job).of_eq failed
    | finished ended => exact (calls_nextCandidate made job).of_eq ended
    | unwritten next failed =>
      have proposed := (calls_nextCandidate made job).of_eq next
      exact proposed.trans ((calls_writeCandidate _ made).of_eq failed)
    | unjudged next tries verdict =>
      have proposed := (calls_nextCandidate made job).of_eq next
      rw [askedPaths_cons, askedPaths, List.filter_nil, List.map_nil]
      exact proposed.trans ((calls_of_tries tries).trans (Calls.refl _))
    | unconcluded next tries verdict failed =>
      have proposed := (calls_nextCandidate made job).of_eq next
      rw [askedPaths_cons, askedPaths, List.filter_nil, List.map_nil]
      have concluded := (calls_conclude _ made _).of_eq failed
      exact proposed.trans ((calls_of_tries tries).trans concluded)
    | concluded next tries verdict settled rest =>
      have proposed := (calls_nextCandidate made job).of_eq next
      rw [askedPaths_cons]
      have concluded := (calls_conclude _ made _).of_eq settled
      exact proposed.trans ((calls_of_tries tries).trans
        (concluded.trans (inductionHypothesis rest)))

/-! ### The whole session -/

/-- The jobs that the judge of a session was asked about, by their paths: the input so often, then
attempts about which it was asked, and last the final job so often. Attempts before have shown the
input to be interesting, and a candidate without a verdict ends the session. -/
structure Called (setup : SessionSetup PlanMemory JudgeMemory) (tries finals : Nat)
    (attempts : List (Attempt PlanMemory JudgeMemory)) (calls : List Path) : Prop where
  opening : tries ≤ if 0 < setup.offset then 0 else initialTries
  ending : finals ≤ 1
  ended : (∃ attempt ∈ attempts, ∃ fault, attempt.verdict = .error fault) → finals = 0
  calls : calls = List.replicate tries (jobPath setup setup.base) ++ askedPaths attempts ++
    List.replicate finals (jobPath setup (Trail.finalName setup.base))

theorem called_nil {tries : Nat} (few : tries ≤ if 0 < setup.offset then 0 else initialTries) :
    Called setup tries 0 [] (List.replicate tries (jobPath setup setup.base)) := by
  refine ⟨few, Nat.zero_le 1, fun _ => rfl, ?_⟩
  rw [askedPaths, List.filter_nil, List.map_nil, List.append_nil, List.replicate_zero,
    List.append_nil]

/-- What is called after the input was judged. -/
theorem exists_calls_of_proceed {outcome : Except Fault Text}
    (proceeded : (proceed setup.traced bindings budget job).startingAt session =
      (outcome, after)) :
    ∃ finals ≤ 1,
      ((∃ attempt ∈ attemptsFrom setup.traced bindings budget 0 job
          { session with current := some job }, ∃ fault, attempt.verdict = .error fault) →
        finals = 0) ∧
      Calls (askedPaths (attemptsFrom setup.traced bindings budget 0 job
          { session with current := some job }) ++
        List.replicate finals (jobPath setup (Trail.finalName setup.base))) session after := by
  rcases bind_eq_iff.1 proceeded with ⟨_, impossible, -⟩ | ⟨_, begun, noted, rest⟩
  · cases impossible
  cases noted
  have beginning : Calls [] session { session with current := some job } := calls_nil rfl rfl
  rcases bind_eq_iff.1 rest with ⟨fault, failed, rfl⟩ | ⟨last, shrunk, made, finished⟩
  · have calls := beginning.trans (calls_of_shrink failed)
    exact ⟨0, Nat.zero_le 1, fun _ => rfl, calls.trans (Calls.refl _)⟩
  · have calls := beginning.trans (calls_of_shrink made)
    obtain ⟨finals, bound, more⟩ := (callsAtMost_finish last).of_eq finished
    refine ⟨finals, bound, fun unjudged => ?_, calls.trans more⟩
    obtain ⟨attempt, member, fault, verdict⟩ := unjudged
    cases verdict.symm.trans ((course_of_shrink made).verdict_eq member)

/-- What is called in a session that is traced. -/
theorem exists_calls_of_run {outcome : Except Fault (Option Text)}
    (ran : (run setup.traced budget job).startingAt session = (outcome, after)) :
    ∃ tries finals calls, Called setup.traced tries finals
        (attempts setup.traced budget job session) calls ∧ Calls calls session after := by
  rw [run_eq] at ran
  unfold attempts
  cases form : freeForm job with
  | error fault =>
    rw [form] at ran
    cases ran
    exact ⟨0, 0, [], called_nil (Nat.zero_le _), Calls.refl _⟩
  | ok pair =>
    obtain ⟨bindings, free⟩ := pair
    rw [form] at ran
    change (runFree setup.traced bindings budget free).startingAt session = _ at ran
    rw [runFree, startingAt_bind] at ran
    dsimp only
    rcases checked : (mayProceed setup.traced bindings free).startingAt session with
      ⟨fault | may, opened⟩
    all_goals
      obtain ⟨tries, few, opening⟩ := (callsAtMost_mayProceed free).of_eq checked
      rw [checked] at ran
    · cases ran
      exact ⟨tries, 0, _, called_nil few, opening⟩
    cases may with
    | false =>
      cases ran
      exact ⟨tries, 0, _, called_nil few, opening⟩
    | true =>
      obtain ⟨result, proceeded⟩ : ∃ result, (proceed setup.traced bindings budget free).startingAt
          opened = (result, after) := by
        rcases bind_eq_iff.1 ran with ⟨fault, failed, -⟩ | ⟨name, between, ended, answer⟩
        · exact ⟨_, failed⟩
        · cases answer
          exact ⟨_, ended⟩
      obtain ⟨finals, bound, unjudged, calls⟩ := exists_calls_of_proceed proceeded
      refine ⟨tries, finals, _, ⟨few, bound, unjudged, ?_⟩, opening.trans calls⟩
      exact (List.append_assoc _ _ _).symm

end Attempts

/-- The session that begins in a directory with a judge that was not asked anything. -/
def startTraced (directory : Directory) (plan : PlanMemory) (judge : JudgeMemory) :
    Session PlanMemory (Traced JudgeMemory) :=
  start directory plan ⟨judge, []⟩

/-- The paths of the jobs about which the judge is asked in the session on a job, whatever it
answers. -/
def calls (setup : SessionSetup PlanMemory JudgeMemory) (budget : Nat) (job : Job)
    (directory : Directory) (planMemory : PlanMemory) (judgeMemory : JudgeMemory) : List Path :=
  ((run setup.traced budget job).startingAt
    (startTraced directory planMemory judgeMemory)).2.bench.memory.calls

theorem Called.forget {setup : SessionSetup PlanMemory JudgeMemory} {tries finals : Nat}
    {attempts : List (Attempt PlanMemory (Traced JudgeMemory))} {calls : List Path}
    (called : Called setup.traced tries finals attempts calls) :
    Called setup tries finals (attempts.map (Attempt.forget id Traced.memory)) calls where
  opening := called.opening
  ending := called.ending
  ended := by
    rintro ⟨attempt, member, unjudged⟩
    obtain ⟨traced, among, rfl⟩ := List.mem_map.1 member
    exact called.ended ⟨traced, among, unjudged⟩
  calls := by
    rw [askedPaths_forget]
    exact called.calls

/-- In every session, whatever comes of it, the judge is asked about its input, about the attempts
that are said to be asked about and about the final job, and each call is counted. -/
theorem exists_called_of_run {setup : SessionSetup PlanMemory JudgeMemory} {budget : Nat}
    {job : Job} {directory : Directory} {planMemory : PlanMemory} {judgeMemory : JudgeMemory}
    {outcome : Except Fault (Option Text)} {after : Session PlanMemory JudgeMemory}
    (ran : (run setup budget job).startingAt (start directory planMemory judgeMemory) =
      (outcome, after)) :
    after.tally.judgeCalls = (calls setup budget job directory planMemory judgeMemory).length ∧
      ∃ tries finals, Called setup tries finals
        (attempts setup budget job (start directory planMemory judgeMemory))
        (calls setup budget job directory planMemory judgeMemory) := by
  have projects := projects_run setup.plan.watches_self setup.judge.watches_traced budget job
  rcases traced : (run setup.traced budget job).startingAt
    (startTraced directory planMemory judgeMemory) with ⟨result, tracedAfter⟩
  cases (projects.of_eq traced).symm.trans ran
  obtain ⟨tries, finals, paths, called, noted⟩ := exists_calls_of_run traced
  have isNoted : calls setup budget job directory planMemory judgeMemory = paths := by
    rw [calls, traced]
    exact noted.noted
  rw [isNoted]
  refine ⟨noted.counted.trans (Int.zero_add _), tries, finals, ?_⟩
  have made := attempts_forget setup.plan.watches_self setup.judge.watches_traced budget job
    (startTraced directory planMemory judgeMemory)
  exact made ▸ called.forget

end Session

end ShaderReduction
