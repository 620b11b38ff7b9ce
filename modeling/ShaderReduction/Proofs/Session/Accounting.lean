/-
This file proves that the counts of a session agree with what happened in it.

A watched session notes what it says to its plan and about which jobs its judge gave an answer. In
one that ends with a final job, each count is the number of the events that it stands for, what is
remembered of verdicts has one fingerprint for each event that it was noted at, and the plan was
asked about the job accepted last and told about each candidate before it was asked again.
-/

import Mathlib.Data.List.Nodup
import ShaderReduction.Proofs.Session.Calls
import ShaderReduction.Proofs.Session.Course
import ShaderReduction.Proofs.Session.FinalJob
import ShaderReduction.Proofs.Session.Messages

namespace ShaderReduction

open ShaderReduction.Action

/-- The setup whose plan notes its messages and whose judge notes its answers. -/
def SessionSetup.watched {PlanMemory JudgeMemory : Type}
    (setup : SessionSetup PlanMemory JudgeMemory) :
    SessionSetup (Logged PlanMemory) (Recorded JudgeMemory) :=
  setup.with setup.plan.logged setup.judge.recorded

/-- The verdict that a message tells, if it tells one. -/
def Message.told? : Message → Option Bool
  | asked _ => none
  | told accepted => some accepted

namespace VerdictCache

theorem add_of_notMem {fingerprint : Text} {known : List Text} (new : fingerprint ∉ known) :
    add fingerprint known = known ++ [fingerprint] := by rw [add, if_neg new]

/-- A verdict on files of which nothing is remembered makes one fingerprint more. -/
theorem known_noted {fingerprint : Text} {cache : VerdictCache}
    (notFailing : fingerprint ∉ cache.failing) (notPassing : fingerprint ∉ cache.passing)
    (verdict interesting : Bool) :
    (cache.noted fingerprint verdict).known interesting =
      cache.known interesting ++ if verdict = interesting then [fingerprint] else [] := by
  cases verdict <;> cases interesting <;>
    simp [noted, known, add_of_notMem, notFailing, notPassing]

theorem notMem_known {fingerprint : Text} {cache : VerdictCache}
    (notFailing : fingerprint ∉ cache.failing) (notPassing : fingerprint ∉ cache.passing)
    (interesting : Bool) : fingerprint ∉ cache.known interesting := by
  cases interesting with
  | true => exact notPassing
  | false => exact notFailing

end VerdictCache

namespace Session

variable {PlanMemory JudgeMemory : Type}

/-! ### Asking the judge -/

/-- The paths of the jobs about which the judge gave an answer so far. -/
def judged (session : Session PlanMemory (Recorded JudgeMemory)) : List Path :=
  session.bench.memory.judgements.map Judgement.path

/-- The judge gave answers about the jobs at some paths, and nothing else was counted or
remembered. -/
structure Asks (paths : List Path) (before after : Session PlanMemory (Recorded JudgeMemory)) :
    Prop where
  tally : after.tally =
    { before.tally with judgeCalls := before.tally.judgeCalls + paths.length }
  cache : after.cache = before.cache
  accepted : after.accepted = before.accepted
  judged : after.judged = before.judged ++ paths

theorem Asks.refl (session : Session PlanMemory (Recorded JudgeMemory)) :
    Asks [] session session := by
  refine ⟨?_, rfl, rfl, (List.append_nil _).symm⟩
  rw [List.length_nil, Int.natCast_zero, Int.add_zero]

theorem Asks.trans {paths more : List Path}
    {before between after : Session PlanMemory (Recorded JudgeMemory)}
    (first : Asks paths before between) (second : Asks more between after) :
    Asks (paths ++ more) before after := by
  refine ⟨?_, second.cache.trans first.cache, second.accepted.trans first.accepted, ?_⟩
  · rw [second.tally, first.tally, List.length_append, Int.natCast_add, Int.add_assoc]
  · rw [second.judged, first.judged, List.append_assoc]

instance : IsPreorder (Session PlanMemory (Recorded JudgeMemory)) (Asks []) where
  refl := Asks.refl
  trans _ _ _ first second := first.trans second

section Asking

variable {setup : SessionSetup PlanMemory JudgeMemory} {bindings : Option Members} {job : Job}
  {session after : Session (Logged PlanMemory) (Recorded JudgeMemory)}

theorem asks_onDirectory {Result : Type} (action : FileAction Result) :
    Respects (Asks [])
      (onDirectory action : Step (Logged PlanMemory) (Recorded JudgeMemory) Result) :=
  fun session => ⟨(Asks.refl session).tally, rfl, rfl, (Asks.refl session).judged⟩

theorem asks_writeJob (job : Job) (path : Path) :
    Respects (Asks []) (writeJob setup.watched bindings job path) :=
  (respects_ofExcept _).bind fun _ => asks_onDirectory _

theorem asks_of_consultJudge {path : Path} (isJobPath : JobFiles.IsJobPath path)
    {interesting : Bool}
    (consulted : (consultJudge setup.watched path).startingAt session = (.ok interesting, after)) :
    Asks [path] session after := by
  rw [startingAt_consultJudge isJobPath] at consulted
  rcases answered : (setup.watched.judge.isInteresting path
      (JobFiles.beside path JobFiles.resultEnding)).startingAt session.bench with ⟨outcome, bench⟩
  rw [answered] at consulted
  obtain ⟨rfl, rfl⟩ := Prod.mk.inj consulted
  have noted := Judge.recorded_isInteresting_eq_ok answered
  refine ⟨rfl, rfl, rfl, ?_⟩
  show bench.memory.judgements.map Judgement.path = _
  rw [noted, List.map_append]
  rfl

theorem asks_of_judgeJob {name : Text} {interesting : Bool}
    (judged : (judgeJob setup.watched bindings job name).startingAt session =
      (.ok interesting, after)) : Asks [jobPath setup name] session after := by
  obtain ⟨_, between, written, consulted⟩ := bind_eq_ok_iff.1 judged
  exact ((asks_writeJob job _).of_eq written).trans
    (asks_of_consultJudge (JobFiles.isJobPath_join _ _) consulted)

/-- An input that is found interesting was judged once or more, and not too often. -/
theorem asks_of_tryInitial {tries : Nat}
    (tried : (tryInitial setup.watched bindings job tries).startingAt session =
      (.ok true, after)) :
    ∃ count, 1 ≤ count ∧ count ≤ tries ∧
      Asks (List.replicate count (jobPath setup setup.base)) session after := by
  induction tries generalizing session with
  | zero => cases tried
  | succ tries inductionHypothesis =>
    obtain ⟨interesting, between, judged, rest⟩ := bind_eq_ok_iff.1 tried
    have asked := asks_of_judgeJob judged
    cases interesting with
    | true =>
      cases rest
      exact ⟨1, Nat.le_refl 1, by omega, asked⟩
    | false =>
      obtain ⟨count, some, few, more⟩ := inductionHypothesis rest
      exact ⟨count + 1, by omega, by omega, asked.trans more⟩

/-- How often the input is judged: not at all after earlier attempts. -/
theorem asks_of_mayProceed
    (checked : (mayProceed setup.watched bindings job).startingAt session = (.ok true, after)) :
    ∃ count, (if 0 < setup.offset then count = 0 else 1 ≤ count ∧ count ≤ initialTries) ∧
      Asks (List.replicate count (jobPath setup setup.base)) session after := by
  rcases mayProceed_eq_true checked with ⟨continued, rfl⟩ | ⟨begun, tried⟩
  · exact ⟨0, (if_pos continued).mpr rfl, Asks.refl _⟩
  · obtain ⟨count, some, few, asked⟩ := asks_of_tryInitial tried
    exact ⟨count, (if_neg begun).mpr ⟨some, few⟩, asked⟩

/-- The final job is judged once. -/
theorem asks_of_finish {name : Text}
    (finished : (finish setup.watched bindings job).startingAt session = (.ok name, after)) :
    name = Trail.finalName setup.base ∧ Asks [jobPath setup name] session after := by
  obtain ⟨rfl, interesting, judged, final, asked, ending, marked⟩ := finish_eq_ok finished
  have judging := asks_of_judgeJob asked
  have marking : Asks [] final after := by
    rcases markIncomplete_eq_ok marked with ⟨-, touched⟩ | ⟨-, rfl⟩
    · exact (asks_onDirectory _).of_eq touched
    · exact Asks.refl _
  rcases ending with ⟨-, rfl⟩ | ⟨-, reverted⟩
  · exact ⟨rfl, judging.trans marking⟩
  · have reverts : Respects (Asks []) (revertFinal setup.watched bindings job
        (jobPath setup.watched (Trail.finalName setup.watched.base))) :=
      (asks_writeJob job _).bind fun _ => (respects_ofExcept _).bind fun _ => asks_onDirectory _
    exact ⟨rfl, (judging.trans (reverts.of_eq reverted)).trans marking⟩

end Asking

/-! ### Counting attempts -/

/-- After some attempts the counts are the numbers of what they count, and the judge was asked about
the input, so often as is said, and about the candidates whose verdict was not known. -/
structure Balanced (input : Path) (tries : Nat)
    (attempts : List (Attempt (Logged PlanMemory) (Recorded JudgeMemory)))
    (session : Session (Logged PlanMemory) (Recorded JudgeMemory)) : Prop where
  counted : session.tally.attempts = attempts.length
  settled : session.tally.attempts = session.tally.successes + session.tally.failures
  accepted : session.accepted = (attempts.filter Attempt.accepted).length
  successes : session.tally.successes = session.accepted
  passing : session.tally.successes = (session.cache.known true).length
  failing : session.tally.failures - session.tally.cacheHits = (session.cache.known false).length
  distinct : ∀ interesting, (session.cache.known interesting).Nodup
  calls : session.tally.judgeCalls = tries + (session.tally.attempts - session.tally.cacheHits)
  judged : session.judged = List.replicate tries input ++
    (attempts.filter fun attempt => attempt.Asked).map Attempt.path

section Balanced

variable {setup : SessionSetup PlanMemory JudgeMemory} {bindings : Option Members} {job : Job}
  {input : Path} {tries made : Nat}
  {earlier : List (Attempt (Logged PlanMemory) (Recorded JudgeMemory))}
  {attempt : Attempt (Logged PlanMemory) (Recorded JudgeMemory)}
  {session proposed after : Session (Logged PlanMemory) (Recorded JudgeMemory)}

/-- What one more attempt adds to the counts: it is a success or a failure, and either the judge was
asked about it and its verdict noted, or its files were known to fail. -/
structure Counted (attempt : Attempt (Logged PlanMemory) (Recorded JudgeMemory))
    (before after : Session (Logged PlanMemory) (Recorded JudgeMemory)) : Prop where
  tally : after.tally = { before.tally with
    attempts := before.tally.attempts + 1
    successes := before.tally.successes + attempt.accepted.toNat
    failures := before.tally.failures + (!attempt.accepted).toNat
    cacheHits := before.tally.cacheHits + if attempt.Asked then 0 else 1
    judgeCalls := before.tally.judgeCalls + if attempt.Asked then 1 else 0 }
  accepted : after.accepted = before.accepted + attempt.accepted.toNat
  judged : after.judged = before.judged ++ if attempt.Asked then [attempt.path] else []
  known : ∀ interesting, ((after.cache.known interesting).length : Int) =
    (before.cache.known interesting).length +
      if attempt.Asked ∧ attempt.accepted = interesting then 1 else 0
  distinct : ∀ interesting, (before.cache.known interesting).Nodup →
    (after.cache.known interesting).Nodup
  rejected : ¬attempt.Asked → attempt.accepted = false

theorem counted_of_passes (remembers : setup.remembers = true)
    (passes : Passes setup.watched bindings made job session proposed attempt after) :
    Counted attempt session after := by
  have watchedRemembers : setup.watched.remembers = true := remembers
  obtain ⟨plan, rfl⟩ := (onlyPlan_proposeRetrying _ _).of_eq (nextCandidate_eq_some passes.next).2
  obtain ⟨form, written, -, -, standing⟩ := writeCandidate_eq_ok passes.tries.written
  obtain ⟨directory, memory, -, -, rfl⟩ := conclude_eq_ok passes.concluded
  rcases passes.tries.judged_eq watchedRemembers passes.verdict with
    ⟨rejected, refused⟩ | ⟨fingerprint, bench, notFailing, notPassing, answered, found⟩
  · have notAsked : ¬attempt.Asked := not_asked_of_eq (by rw [refused]; rfl)
    rw [refused, standing]
    have same : ∀ interesting, VerdictCache.known interesting
        ({ session.cache with hits := session.cache.hits + 1 }) =
          session.cache.known interesting := fun _ => rfl
    refine ⟨?_, ?_, ?_, fun interesting => ?_, fun interesting => ?_, fun _ => rejected⟩
    all_goals simp [refusing, notAsked, judged, same]
  · have asked : attempt.Asked := by
      rw [Attempt.Asked, found]
      rfl
    rw [standing] at notFailing notPassing
    have noted := Judge.recorded_isInteresting_eq_ok answered
    have known := VerdictCache.known_noted notFailing notPassing attempt.accepted
    rw [found, standing]
    rw [standing] at noted
    have distinct : ∀ interesting, (session.cache.known interesting).Nodup →
        ((session.cache.noted fingerprint attempt.accepted).known interesting).Nodup := by
      intro interesting unrepeated
      rw [known]
      split
      · exact unrepeated.append (List.nodup_singleton _)
          (List.disjoint_singleton.2 (VerdictCache.notMem_known notFailing notPassing _))
      · rwa [List.append_nil]
    refine ⟨?_, ?_, ?_, fun interesting => ?_, fun interesting => ?_,
      fun notAsked => absurd asked notAsked⟩
    all_goals simp only [settling_tally, settling_accepted, settling_cache, asking, asked, judged,
      noted, if_true, true_and, Int.add_zero, List.map_append, List.map_cons, List.map_nil]
    · rw [known]
      split <;> simp
    · exact distinct interesting

/-- After one more attempt the counts are still those of all attempts. -/
theorem Balanced.step (balanced : Balanced input tries earlier session)
    (counted : Counted attempt session after) :
    Balanced input tries (earlier ++ [attempt]) after := by
  obtain ⟨tally, accepted, judged, known, distinct, rejected⟩ := counted
  have won : (((earlier ++ [attempt]).filter Attempt.accepted).length : Nat) =
      (earlier.filter Attempt.accepted).length + attempt.accepted.toNat := by
    rw [List.filter_append, List.length_append]
    cases isAccepted : attempt.accepted <;> simp [isAccepted]
  refine ⟨?_, ?_, ?_, ?_, ?_, ?_, fun interesting => ?_, ?_, ?_⟩
  · rw [tally, List.length_append, List.length_singleton]
    simp only [balanced.counted]
    omega
  · rw [tally]
    have settled := balanced.settled
    cases attempt.accepted <;> simp <;> omega
  · rw [accepted, won, balanced.accepted]
  · rw [tally, accepted]
    simp only [balanced.successes]
    omega
  · rw [tally, known]
    have passing := balanced.passing
    by_cases asked : attempt.Asked
    · cases isAccepted : attempt.accepted <;> simp [asked] <;> omega
    · simp [asked, rejected asked, passing]
  · rw [tally, known]
    have failing := balanced.failing
    by_cases asked : attempt.Asked
    · cases isAccepted : attempt.accepted <;> simp [asked] <;> omega
    · simp [asked, rejected asked]
      omega
  · exact distinct interesting (balanced.distinct interesting)
  · rw [tally]
    have calls := balanced.calls
    by_cases asked : attempt.Asked <;> simp [asked] <;> omega
  · rw [judged, balanced.judged, List.append_assoc, List.filter_append, List.map_append]
    by_cases asked : attempt.Asked <;> simp [asked]

theorem balanced_of_asks {before : Session (Logged PlanMemory) (Recorded JudgeMemory)}
    (asks : Asks (List.replicate tries input) before session) (tally : before.tally = Tally.empty)
    (cache : before.cache = VerdictCache.empty) (accepted : before.accepted = 0)
    (judged : before.judged = []) : Balanced input tries [] session := by
  have unknown : ∀ interesting, session.cache.known interesting = [] := by
    intro interesting
    rw [asks.cache, cache]
    cases interesting <;> rfl
  have counts := asks.tally
  rw [tally, List.length_replicate] at counts
  constructor
  all_goals simp [counts, unknown, asks.accepted, accepted, asks.judged, judged, Tally.empty]

/-- The counts stay those of all attempts to the end of a course. -/
theorem Balanced.of_course (remembers : setup.remembers = true)
    {attempts : List (Attempt (Logged PlanMemory) (Recorded JudgeMemory))} {last : Job}
    (balanced : Balanced input tries earlier session)
    (course : Course setup.watched bindings made job session attempts last after) :
    Balanced input tries (earlier ++ attempts) after := by
  induction course generalizing earlier with
  | finished ended =>
    rw [List.append_nil]
    obtain ⟨counted, settled, accepted, successes, passing, failing, distinct, calls, judged⟩ :=
      balanced
    rcases nextCandidate_eq_none ended with ⟨-, rfl⟩ | ⟨-, exhausted⟩
    · exact ⟨counted, settled, accepted, successes, passing, failing, distinct, calls, judged⟩
    · obtain ⟨plan, rfl⟩ := (onlyPlan_proposeRetrying _ _).of_eq exhausted
      exact ⟨counted, settled, accepted, successes, passing, failing, distinct, calls, judged⟩
  | attempted passes rest inductionHypothesis =>
    have step := balanced.step (counted_of_passes remembers passes)
    have whole := inductionHypothesis step
    rwa [List.append_assoc, List.singleton_append] at whole

/-- Attempts are stopped early exactly when they reach the limit. -/
theorem stoppedEarly_iff_of_course (remembers : setup.remembers = true)
    {attempts : List (Attempt (Logged PlanMemory) (Recorded JudgeMemory))} {last : Job}
    (running : session.tally.stoppedEarly = false)
    (below : ∀ count, setup.limit = .attempts count → made ≤ count)
    (course : Course setup.watched bindings made job session attempts last after) :
    after.tally.stoppedEarly = true ↔ setup.limit = .attempts (made + attempts.length) := by
  induction course with
  | @finished made job session after ended =>
    have isLimit : setup.watched.limit = setup.limit := rfl
    rcases nextCandidate_eq_none ended with ⟨reached, rfl⟩ | ⟨notReached, exhausted⟩
    · rw [isLimit] at reached
      refine iff_of_true rfl ?_
      cases limit : setup.limit with
      | attempts count =>
        rw [limit] at reached
        have enough := of_decide_eq_true (Except.ok.inj reached)
        have few := below count limit
        rw [List.length_nil, Nat.le_antisymm enough few, Nat.add_zero]
      | unlimited =>
        rw [limit] at reached
        cases reached
      | unusable =>
        rw [limit] at reached
        cases reached
    · obtain ⟨plan, rfl⟩ := (onlyPlan_proposeRetrying _ _).of_eq exhausted
      refine iff_of_false (running ▸ Bool.false_ne_true) fun limit => ?_
      rw [isLimit, limit, StepLimit.reached] at notReached
      exact of_decide_eq_false (Except.ok.inj notReached) (Nat.le_refl made)
  | @attempted made job last session proposed between after attempt attempts passes rest
      inductionHypothesis =>
    have counted := counted_of_passes remembers passes
    have more : ∀ count, setup.limit = .attempts count → made + 1 ≤ count := by
      intro count limit
      have notReached := (nextCandidate_eq_some passes.next).1
      rw [show setup.watched.limit = .attempts count from limit, StepLimit.reached] at notReached
      exact Nat.lt_of_not_le (of_decide_eq_false (Except.ok.inj notReached))
    rw [inductionHypothesis (by rw [counted.tally]; exact running) more, List.length_cons]
    rw [show made + 1 + attempts.length = made + (attempts.length + 1) by omega]

end Balanced

/-! ### What the plan is asked and told -/

/-- How a session that goes on from a job speaks with its plan. It asks about the job accepted last,
again as long as a transformation does not apply, and tells the verdict on the candidate before it
asks for the next one. It is stopped before it asks, or the plan that it asks is exhausted. -/
inductive Exchange : Job → Bool → List Trail.Step → List Message → Prop
  | stopped {job : Job} : Exchange job true [] []
  | exhausted {job : Job} {times : Nat} (some : 1 ≤ times) (few : times ≤ applicationRetries + 1) :
      Exchange job false [] (List.replicate times (.asked job))
  | attempted {job : Job} {stopped : Bool} {step : Trail.Step} {steps : List Trail.Step}
      {messages : List Message} {times : Nat} (some : 1 ≤ times)
      (few : times ≤ applicationRetries + 1)
      (rest : Exchange (if step.accepted then step.candidate else job) stopped steps messages) :
      Exchange job stopped (step :: steps)
        (List.replicate times (.asked job) ++ .told step.accepted :: messages)

theorem filterMap_told?_replicate (times : Nat) (job : Job) :
    (List.replicate times (Message.asked job)).filterMap Message.told? = [] := by
  refine List.filterMap_eq_nil_iff.2 fun message member => ?_
  rw [List.eq_of_mem_replicate member]
  rfl

/-- The plan is told about each step once, in order. -/
theorem Exchange.filterMap_told?_eq {job : Job} {stopped : Bool} {steps : List Trail.Step}
    {messages : List Message} (exchange : Exchange job stopped steps messages) :
    messages.filterMap Message.told? = steps.map Trail.Step.accepted := by
  induction exchange with
  | stopped => rfl
  | exhausted => exact filterMap_told?_replicate _ _
  | attempted some few rest inductionHypothesis =>
    rw [List.filterMap_append, filterMap_told?_replicate, List.nil_append, List.map_cons,
      ← inductionHypothesis]
    rfl

section Exchange

variable {setup : SessionSetup PlanMemory JudgeMemory} {bindings : Option Members} {made : Nat}
  {session proposed after : Session (Logged PlanMemory) (Recorded JudgeMemory)}

/-- A session asks its plan for a candidate once or more. -/
theorem messages_of_proposeRetrying (job : Job) (retries : Nat) :
    Respects (fun before after : Session (Logged PlanMemory) (Recorded JudgeMemory) =>
      ∃ times, 1 ≤ times ∧ times ≤ retries + 1 ∧
        after.plan.messages = before.plan.messages ++ List.replicate times (.asked job))
      (proposeRetrying setup.watched job retries) := by
  have once : Respects (fun before after : Session (Logged PlanMemory) (Recorded JudgeMemory) =>
      after.plan.messages = before.plan.messages ++ [.asked job])
      (propose setup.watched job) := respects_propose_of fun _ => rfl
  induction retries with
  | zero => exact fun session => ⟨1, Nat.le_refl 1, Nat.le_refl 1, once session⟩
  | succ retries inductionHypothesis =>
    intro session
    rw [startingAt_proposeRetrying_succ]
    rcases run : (propose setup.watched job).startingAt session with ⟨fault | candidate, between⟩
    all_goals have first := once.of_eq run
    · by_cases again : ∃ reason, fault = .inapplicable reason
      · obtain ⟨reason, rfl⟩ := again
        obtain ⟨times, some, few, rest⟩ := inductionHypothesis between
        refine ⟨times + 1, by omega, by omega, ?_⟩
        dsimp only
        rw [rest, first, List.append_assoc, List.replicate_succ, List.singleton_append]
      · refine ⟨1, Nat.le_refl 1, by omega, ?_⟩
        cases fault
        case inapplicable reason => exact absurd ⟨reason, rfl⟩ again
        all_goals exact first
    · exact ⟨1, Nat.le_refl 1, by omega, first⟩

/-- An attempt asks for its candidate and tells the verdict on it. -/
theorem messages_of_passes {job : Job}
    {attempt : Attempt (Logged PlanMemory) (Recorded JudgeMemory)}
    (passes : Passes setup.watched bindings made job session proposed attempt after) :
    ∃ times, 1 ≤ times ∧ times ≤ applicationRetries + 1 ∧
      after.plan.messages = session.plan.messages ++
        (List.replicate times (.asked job) ++ [.told attempt.accepted]) := by
  obtain ⟨times, some, few, asked⟩ :=
    (messages_of_proposeRetrying job _).of_eq (nextCandidate_eq_some passes.next).2
  obtain ⟨directory, plan, -, told, rfl⟩ := conclude_eq_ok passes.concluded
  refine ⟨times, some, few, ?_⟩
  have noted : plan.messages = attempt.judged.plan.messages ++ [.told attempt.accepted] :=
    congrArg (fun run => run.2.messages) told.symm
  rw [← List.append_assoc, ← asked, ← passes.tries.plan_eq]
  exact noted

theorem exchange_of_course (remembers : setup.remembers = true) {job last : Job}
    {attempts : List (Attempt (Logged PlanMemory) (Recorded JudgeMemory))}
    (running : session.tally.stoppedEarly = false)
    (course : Course setup.watched bindings made job session attempts last after) :
    ∃ messages, after.plan.messages = session.plan.messages ++ messages ∧
      Exchange job after.tally.stoppedEarly (attempts.map Attempt.step) messages := by
  induction course with
  | @finished made job session after ended =>
    rcases nextCandidate_eq_none ended with ⟨-, rfl⟩ | ⟨-, exhausted⟩
    · exact ⟨[], (List.append_nil _).symm, .stopped⟩
    · obtain ⟨times, some, few, asked⟩ := (messages_of_proposeRetrying job _).of_eq exhausted
      obtain ⟨plan, rfl⟩ := (onlyPlan_proposeRetrying _ _).of_eq exhausted
      refine ⟨_, asked, ?_⟩
      rw [show session.tally.stoppedEarly = false from running]
      exact .exhausted some few
  | attempted passes rest inductionHypothesis =>
    have counted := counted_of_passes remembers passes
    obtain ⟨times, some, few, asked⟩ := messages_of_passes passes
    obtain ⟨messages, said, exchange⟩ :=
      inductionHypothesis (by rw [counted.tally]; exact running)
    refine ⟨_, ?_, .attempted some few exchange⟩
    rw [said, asked, List.append_assoc, List.append_assoc]
    rfl

end Exchange

/-! ### The whole session -/

/-- What a session that ended with a final job, with some attempts and after some tries of its
input, accounts for: its counts, what it remembers of verdicts, the messages to its plan and the
paths about which its judge was asked. -/
structure Accounts (setup : SessionSetup PlanMemory JudgeMemory) (free : Job) (tries : Nat)
    (attempts : List (Attempt PlanMemory JudgeMemory)) (messages : List Message)
    (judged : List Path) (after : Session PlanMemory JudgeMemory) : Prop where
  verdicts : ∀ attempt ∈ attempts, attempt.verdict = .ok attempt.accepted
  exchange : Exchange free after.tally.stoppedEarly (attempts.map Attempt.step) messages
  told : messages.filterMap Message.told? = attempts.map Attempt.accepted
  counted : after.tally.attempts = attempts.length
  settled : after.tally.attempts = after.tally.successes + after.tally.failures
  accepted : after.accepted = (attempts.filter Attempt.accepted).length
  successes : after.tally.successes = after.accepted
  passing : after.tally.successes = after.cache.passing.length
  failing : after.tally.failures - after.tally.cacheHits = after.cache.failing.length
  distinct : after.cache.passing.Nodup ∧ after.cache.failing.Nodup
  opening : if 0 < setup.offset then tries = 0 else 1 ≤ tries ∧ tries ≤ initialTries
  calls : after.tally.judgeCalls = tries + (after.tally.attempts - after.tally.cacheHits) + 1
  judged : judged = List.replicate tries (jobPath setup setup.base) ++
    (attempts.filter fun attempt => attempt.Asked).map Attempt.path ++
      [jobPath setup (Trail.finalName setup.base)]
  within : ∀ count, setup.limit = .attempts count → attempts.length ≤ count
  stopped : after.tally.stoppedEarly = true ↔ setup.limit = .attempts attempts.length

section Accounts

variable {setup : SessionSetup PlanMemory JudgeMemory} {bindings : Option Members}
  {directory : Directory} {planMemory : PlanMemory} {judgeMemory : JudgeMemory} {name : Text}

/-- The session that begins in a directory and is watched. -/
def startWatched (directory : Directory) (plan : PlanMemory) (judge : JudgeMemory) :
    Session (Logged PlanMemory) (Recorded JudgeMemory) :=
  start directory ⟨plan, []⟩ ⟨judge, []⟩

theorem accounts_of_stages (remembers : setup.remembers = true) {free last : Job}
    {attempts : List (Attempt (Logged PlanMemory) (Recorded JudgeMemory))}
    {opened shrunk after : Session (Logged PlanMemory) (Recorded JudgeMemory)}
    (stages : Stages setup.watched bindings free (startWatched directory planMemory judgeMemory)
      opened attempts last shrunk name after) :
    ∃ tries, Accounts setup.watched free tries attempts after.plan.messages after.judged after := by
  obtain ⟨tries, isTries, asked⟩ := asks_of_mayProceed stages.proceeds
  obtain ⟨rfl, final⟩ := asks_of_finish stages.finished
  have running : { opened with current := some free }.tally.stoppedEarly = false := by
    rw [asked.tally]
    rfl
  have begun : Asks (List.replicate tries (jobPath setup setup.base))
      (startWatched directory planMemory judgeMemory) { opened with current := some free } :=
    ⟨asked.tally, asked.cache, asked.accepted, asked.judged⟩
  have balanced := (balanced_of_asks begun rfl rfl rfl rfl).of_course remembers stages.course
  obtain ⟨messages, said, exchange⟩ := exchange_of_course remembers running stages.course
  have heard : after.plan.messages = messages := by
    have opening : OffPlan AnyBench (startWatched directory planMemory judgeMemory) opened :=
      (respects_mayProceed confined_anyBench.around free).of_eq stages.proceeds
    have ending : OffPlan AnyBench shrunk after :=
      (respects_finish confined_anyBench.around last).of_eq stages.finished
    rw [← ending.plan, said, ← opening.plan]
    rfl
  have stopped : after.tally.stoppedEarly = shrunk.tally.stoppedEarly := by rw [final.tally]
  have within : ∀ count, setup.limit = .attempts count → attempts.length ≤ count := by
    intro count limit
    have bound := stages.course.within limit (Nat.zero_le count)
    omega
  refine ⟨tries, ?_⟩
  rw [List.nil_append] at balanced
  exact {
    verdicts := fun attempt => stages.course.verdict_eq
    exchange := heard ▸ stopped ▸ exchange
    told := by
      rw [heard, exchange.filterMap_told?_eq, List.map_map]
      rfl
    counted := by rw [final.tally]; exact balanced.counted
    settled := by rw [final.tally]; exact balanced.settled
    accepted := final.accepted.trans balanced.accepted
    successes := by rw [final.tally, final.accepted]; exact balanced.successes
    passing := by rw [final.tally, final.cache]; exact balanced.passing
    failing := by rw [final.tally, final.cache]; exact balanced.failing
    distinct := by rw [final.cache]; exact ⟨balanced.distinct true, balanced.distinct false⟩
    opening := isTries
    calls := by rw [final.tally, List.length_singleton]; simp only [balanced.calls]; rfl
    judged := by rw [final.judged, balanced.judged]; rfl
    within := within
    stopped := by
      rw [stopped, stoppedEarly_iff_of_course remembers running (fun _ _ => Nat.zero_le _)
        stages.course, Nat.zero_add]
      rfl }

/-- What a watched session accounts for, it accounts for when nobody watches. -/
theorem Accounts.forget {free : Job} {tries : Nat}
    {attempts : List (Attempt (Logged PlanMemory) (Recorded JudgeMemory))}
    {messages : List Message} {judged : List Path}
    {after : Session (Logged PlanMemory) (Recorded JudgeMemory)}
    (accounts : Accounts setup.watched free tries attempts messages judged after) :
    Accounts setup free tries (attempts.map (Attempt.forget Logged.memory Recorded.memory))
      messages judged (after.forget Logged.memory Recorded.memory) := by
  have accepted : Attempt.accepted ∘ Attempt.forget Logged.memory Recorded.memory =
      (Attempt.accepted : Attempt (Logged PlanMemory) (Recorded JudgeMemory) → Bool) := rfl
  have asked : ((attempts.map (Attempt.forget Logged.memory Recorded.memory)).filter
      fun attempt => attempt.Asked).map Attempt.path =
        (attempts.filter fun attempt => attempt.Asked).map Attempt.path :=
    askedPaths_forget _ _ attempts
  exact {
    verdicts := by
      rintro attempt member
      obtain ⟨watched, among, rfl⟩ := List.mem_map.1 member
      exact accounts.verdicts watched among
    exchange := by
      rw [List.map_map]
      exact accounts.exchange
    told := by
      rw [List.map_map]
      exact accounts.told
    counted := by
      rw [List.length_map]
      exact accounts.counted
    settled := accounts.settled
    accepted := by
      rw [List.filter_map, List.length_map, accepted]
      exact accounts.accepted
    successes := accounts.successes
    passing := accounts.passing
    failing := accounts.failing
    distinct := accounts.distinct
    opening := accounts.opening
    calls := accounts.calls
    judged := by
      rw [asked]
      exact accounts.judged
    within := by
      rw [List.length_map]
      exact accounts.within
    stopped := by
      rw [List.length_map]
      exact accounts.stopped }

/-- A session that ends with a final job accounts for what it counted, remembered, said to its plan
and asked its judge. -/
theorem exists_accounts_of_run {budget : Nat} {job : Job} {after : Session PlanMemory JudgeMemory}
    (remembers : setup.remembers = true)
    (ran : (run setup budget job).startingAt (start directory planMemory judgeMemory) =
      (.ok (some name), after)) :
    ∃ bindings free tries, freeForm job = .ok (bindings, free) ∧
      Accounts setup free tries (attempts setup budget job (start directory planMemory judgeMemory))
        (messages setup budget job directory planMemory judgeMemory)
        ((judgements setup budget job directory planMemory judgeMemory).map Judgement.path)
        after := by
  have projects := projects_run setup.plan.watches_logged setup.judge.watches_recorded budget job
  rcases watched : (run setup.watched budget job).startingAt
    (startWatched directory planMemory judgeMemory) with ⟨outcome, watchedAfter⟩
  cases (projects.of_eq watched).symm.trans ran
  obtain ⟨bindings, free, form, opened, last, shrunk, stages⟩ := exists_stages_of_run watched
  obtain ⟨tries, accounts⟩ := accounts_of_stages remembers stages
  refine ⟨bindings, free, tries, form, ?_⟩
  have made := attempts_forget setup.plan.watches_logged setup.judge.watches_recorded budget job
    (startWatched directory planMemory judgeMemory)
  have said : messages setup budget job directory planMemory judgeMemory =
      watchedAfter.plan.messages := by
    have logs : Projects (forget id Recorded.memory) (run setup.watched budget job)
        (run setup.logged budget job) :=
      projects_run setup.logged.plan.watches_self setup.judge.watches_recorded budget job
    exact congrArg (fun run => run.2.plan.messages) (logs.of_eq watched)
  have asked : (judgements setup budget job directory planMemory judgeMemory).map Judgement.path =
      watchedAfter.judged := by
    have records : Projects (forget Logged.memory id) (run setup.watched budget job)
        (run setup.recorded budget job) :=
      projects_run setup.recorded.plan.watches_logged setup.recorded.judge.watches_self budget job
    exact congrArg (fun run => run.2.bench.memory.judgements.map Judgement.path)
      (records.of_eq watched)
  have forgotten := accounts.forget
  rw [said, asked]
  exact made ▸ forgotten

end Accounts

end Session

end ShaderReduction
