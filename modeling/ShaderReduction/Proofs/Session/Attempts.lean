/-
This file defines what the attempts of a session are, and says of one attempt what finding its
candidate, writing it, asking for a verdict and concluding the attempt do.

An attempt is recorded once its candidate is written: the session then, the verdict that was found,
which is a fault if none was, and the session after that. The attempts of a session are collected by
the recursion of the session itself, up to the one at which it ends or fails. What is remembered of
verdicts changes in attempts only; everything else that a session does leaves it alone.
-/

import ShaderReduction.Proofs.JobFiles.Fingerprints
import ShaderReduction.Proofs.Session.Confinement
import ShaderReduction.Proofs.Trail.Names

namespace ShaderReduction

open ShaderReduction.Action

namespace Session

variable {PlanMemory JudgeMemory : Type}

/-! ### The steps of an attempt -/

section Steps

variable (setup : SessionSetup PlanMemory JudgeMemory) (bindings : Option Members)

/-- The path to which the candidate of an attempt is written, after some have been made. -/
def stepPath (made : Nat) : Path :=
  jobPath setup (Trail.stepName setup.base ((made : Int) + 1 + setup.offset))

/-- The candidate of the next attempt, if there is one. -/
def nextCandidate (made : Nat) (job : Job) : Step PlanMemory JudgeMemory (Option Job) := do
  if ← Action.ofExcept (setup.limit.reached made) then
    count fun tally => { tally with stoppedEarly := true }
    pure none
  else proposeRetrying setup job applicationRetries

/-- Counts an attempt and writes its candidate. -/
def writeCandidate (candidate : Job) (made : Nat) : Step PlanMemory JudgeMemory Unit := do
  count fun tally => { tally with attempts := tally.attempts + 1 }
  writeJob setup bindings candidate (stepPath setup made)

/-- Finds a verdict on the candidate at a path. -/
def consult (path : Path) : Step PlanMemory JudgeMemory Bool :=
  if setup.remembers then consultCache setup path else consultJudge setup path

/-- Tags the job of an attempt and notes the verdict. -/
def conclude (candidate : Job) (made : Nat) (interesting : Bool) :
    Step PlanMemory JudgeMemory Bool := do
  tagStep setup ((made : Int) + 1 + setup.offset) (Outcome.ofVerdict interesting)
  settle setup candidate interesting
  pure interesting

theorem attemptCandidate_eq (candidate : Job) (made : Nat) :
    attemptCandidate setup bindings candidate made = (do
      writeCandidate setup bindings candidate made
      let interesting ← consult setup (stepPath setup made)
      conclude setup candidate made interesting) := by
  simp only [attemptCandidate, judgeCandidate, writeCandidate, consult, conclude, stepPath,
    bind_assoc]

theorem shrink_succ (budget made : Nat) (job : Job) :
    shrink setup bindings (budget + 1) made job = (do
      match ← nextCandidate setup made job with
      | none => pure job
      | some candidate =>
        let accepted ← attemptCandidate setup bindings candidate made
        shrink setup bindings budget (made + 1) (if accepted then candidate else job)) := by
  rw [shrink, nextCandidate, bind_assoc]
  refine congrArg _ (funext fun reached => ?_)
  cases reached with
  | true => rfl
  | false => rfl

end Steps

/-! ### Finding a candidate -/

section Next

variable {setup : SessionSetup PlanMemory JudgeMemory} {made : Nat} {job : Job}
  {session after : Session PlanMemory JudgeMemory}

/-- A candidate is found if the limit is not reached and the plan proposes one. -/
theorem nextCandidate_eq_some {candidate : Job}
    (found : (nextCandidate setup made job).startingAt session = (.ok (some candidate), after)) :
    setup.limit.reached made = .ok false ∧
      (proposeRetrying setup job applicationRetries).startingAt session =
        (.ok (some candidate), after) := by
  obtain ⟨reached, first, asked, rest⟩ := bind_eq_ok_iff.1 found
  obtain ⟨isReached, rfl⟩ := Prod.mk.inj asked
  cases reached with
  | true => cases rest
  | false => exact ⟨isReached, rest⟩

/-- No candidate is left to find once the limit is reached, which is noted, or the plan is
exhausted. -/
theorem nextCandidate_eq_none
    (ended : (nextCandidate setup made job).startingAt session = (.ok none, after)) :
    (setup.limit.reached made = .ok true ∧
        after = { session with tally := { session.tally with stoppedEarly := true } }) ∨
      (setup.limit.reached made = .ok false ∧
        (proposeRetrying setup job applicationRetries).startingAt session = (.ok none, after)) := by
  obtain ⟨reached, first, asked, rest⟩ := bind_eq_ok_iff.1 ended
  obtain ⟨isReached, rfl⟩ := Prod.mk.inj asked
  cases reached with
  | true =>
    cases rest
    exact .inl ⟨isReached, rfl⟩
  | false => exact .inr ⟨isReached, rest⟩

end Next

/-! ### Concluding an attempt -/

/-- The session after a verdict on a candidate was noted, before the plan is told. -/
def settling (candidate : Job) (interesting : Bool) (session : Session PlanMemory JudgeMemory) :
    Session PlanMemory JudgeMemory :=
  if interesting then
    { session with
      accepted := session.accepted + 1
      tally := { session.tally with successes := session.tally.successes + 1 }
      current := some candidate }
  else { session with tally := { session.tally with failures := session.tally.failures + 1 } }

section Settling

variable (candidate : Job) (interesting : Bool) (session : Session PlanMemory JudgeMemory)

@[simp]
theorem settling_bench : (session.settling candidate interesting).bench = session.bench := by
  cases interesting <;> rfl

@[simp]
theorem settling_cache : (session.settling candidate interesting).cache = session.cache := by
  cases interesting <;> rfl

@[simp]
theorem settling_accepted : (session.settling candidate interesting).accepted =
    session.accepted + interesting.toNat := by
  cases interesting <;> rfl

@[simp]
theorem settling_tally : (session.settling candidate interesting).tally =
    { session.tally with
      successes := session.tally.successes + interesting.toNat
      failures := session.tally.failures + (!interesting).toNat } := by
  cases interesting <;> simp [settling]

end Settling

section Conclude

variable {setup : SessionSetup PlanMemory JudgeMemory} {candidate : Job} {made : Nat}
  {session after : Session PlanMemory JudgeMemory}

theorem settle_eq_ok_iff {interesting : Bool} :
    (settle setup candidate interesting).startingAt session = (.ok (), after) ↔
      ∃ plan, (setup.plan.update interesting).startingAt session.plan = (.ok (), plan) ∧
        after = { session.settling candidate interesting with plan } := by
  cases interesting with
  | true =>
    have told : (settle setup candidate true).startingAt session =
        (onPlan (setup.plan.update true)).startingAt (session.settling candidate true) := rfl
    rw [told]
    exact onPart_eq_iff
  | false =>
    have told : (settle setup candidate false).startingAt session =
        (onPlan (setup.plan.update false)).startingAt (session.settling candidate false) := rfl
    rw [told]
    exact onPart_eq_iff

/-- Concluding an attempt renames its job, counts the verdict and tells the plan. -/
theorem conclude_eq_ok {interesting accepted : Bool}
    (concluded : (conclude setup candidate made interesting).startingAt session =
      (.ok accepted, after)) :
    ∃ directory plan,
      (JobFiles.move (stepPath setup made)
        (jobPath setup (Trail.judgedName setup.base ((made : Int) + 1 + setup.offset)
          (Outcome.ofVerdict interesting))) true).startingAt session.bench.directory =
        (.ok (), directory) ∧
      (setup.plan.update interesting).startingAt session.plan = (.ok (), plan) ∧
      after = { session.settling candidate interesting with
        bench := { session.bench with directory }, plan } := by
  obtain ⟨_, first, tagged, rest⟩ := bind_eq_ok_iff.1 concluded
  obtain ⟨_, second, settled, answer⟩ := bind_eq_ok_iff.1 rest
  cases answer
  obtain ⟨directory, run, rfl⟩ := onDirectory_eq_iff.1 tagged
  obtain ⟨plan, told, rfl⟩ := settle_eq_ok_iff.1 settled
  refine ⟨directory, plan, run, told, ?_⟩
  cases interesting <;> rfl

end Conclude

/-! ### Attempts -/

/-- An attempt whose candidate was written: the path that it was written to, the session then, the
verdict, and the session once the verdict was found. -/
structure Attempt (PlanMemory JudgeMemory : Type) where
  candidate : Job
  path : Path
  standing : Session PlanMemory JudgeMemory
  verdict : Except Fault Bool
  judged : Session PlanMemory JudgeMemory

namespace Attempt

/-- What stands at the places of the files of the candidate. -/
def content (attempt : Attempt PlanMemory JudgeMemory) : Except Fault (List (Option Node)) :=
  JobFiles.view attempt.path attempt.standing.bench.directory

/-- The fingerprint of the candidate. -/
def fingerprint (storage : Storage) (attempt : Attempt PlanMemory JudgeMemory) :
    Except Fault Text :=
  ((JobFiles.fingerprint storage attempt.path).startingAt attempt.standing.bench.directory).1

/-- The judge was asked about the candidate. -/
def Asked (attempt : Attempt PlanMemory JudgeMemory) : Prop :=
  attempt.judged.tally.judgeCalls = attempt.standing.tally.judgeCalls + 1

end Attempt

theorem not_asked_of_eq {attempt : Attempt PlanMemory JudgeMemory}
    (same : attempt.judged.tally.judgeCalls = attempt.standing.tally.judgeCalls) :
    ¬attempt.Asked := by
  intro asked
  rw [Attempt.Asked, same] at asked
  omega

section Attempts

variable (setup : SessionSetup PlanMemory JudgeMemory) (bindings : Option Members)

/-- The attempt on a candidate, if that can be written. -/
def attempt? (candidate : Job) (made : Nat) (session : Session PlanMemory JudgeMemory) :
    Option (Attempt PlanMemory JudgeMemory) :=
  match (writeCandidate setup bindings candidate made).startingAt session with
  | (.error _, _) => none
  | (.ok _, standing) =>
    let (verdict, judged) := (consult setup (stepPath setup made)).startingAt standing
    some ⟨candidate, stepPath setup made, standing, verdict, judged⟩

/-- The attempts on a job, after some have been made, up to the one at which they end or fail. -/
def attemptsFrom : (budget made : Nat) → Job → Session PlanMemory JudgeMemory →
    List (Attempt PlanMemory JudgeMemory)
  | 0, _, _, _ => []
  | budget + 1, made, job, session =>
    match (nextCandidate setup made job).startingAt session with
    | (.ok (some candidate), proposed) =>
      (attempt? setup bindings candidate made proposed).toList ++
        match (attemptCandidate setup bindings candidate made).startingAt proposed with
        | (.ok accepted, after) =>
          attemptsFrom budget (made + 1) (if accepted then candidate else job) after
        | (.error _, _) => []
    | _ => []

/-- The form in which the plan sees a job, with the bindings with which jobs are written. -/
def freeForm (job : Job) : Except Fault (Option Members × Job) := do
  if ← job.hasBindings then
    let bindings ← job.uniforms.bindings
    return (some bindings, ← job.withoutBindings)
  else return (none, job)

theorem run_eq (budget : Nat) (job : Job) :
    run setup budget job = (do
      let (bindings, free) ← Action.ofExcept (freeForm job)
      runFree setup bindings budget free) := by
  unfold run freeForm
  cases job.hasBindings with
  | error fault => rfl
  | ok bound =>
    cases bound with
    | false => rfl
    | true =>
      cases job.uniforms.bindings with
      | error fault => rfl
      | ok bindings => cases job.withoutBindings <;> rfl

variable {setup} in
/-- A session that ended with a result was run on the free form of its job. -/
theorem run_eq_ok {budget : Nat} {job : Job} {result : Option Text}
    {session after : Session PlanMemory JudgeMemory}
    (ran : (run setup budget job).startingAt session = (.ok result, after)) :
    ∃ bindings free, freeForm job = .ok (bindings, free) ∧
      (runFree setup bindings budget free).startingAt session = (.ok result, after) := by
  rw [run_eq] at ran
  obtain ⟨form, first, formed, rest⟩ := bind_eq_ok_iff.1 ran
  obtain ⟨isForm, rfl⟩ := Prod.mk.inj formed
  exact ⟨form.1, form.2, isForm, rest⟩

/-- The attempts of the session on a job. -/
def attempts (budget : Nat) (job : Job) (session : Session PlanMemory JudgeMemory) :
    List (Attempt PlanMemory JudgeMemory) :=
  match freeForm job with
  | .error _ => []
  | .ok (bindings, free) =>
    match (mayProceed setup bindings free).startingAt session with
    | (.ok true, opened) =>
      attemptsFrom setup bindings budget 0 free { opened with current := some free }
    | _ => []

end Attempts

/-! ### What writing a candidate leaves -/

section Written

variable {setup : SessionSetup PlanMemory JudgeMemory} {bindings : Option Members}

/-- A number is written in digits, after a sign if it is negative. -/
theorem notMem_ofIntPadded {character : Char} (notDigit : character.isDigit = false)
    (notSign : character ≠ '-') (width : Nat) (number : Int) :
    .scalar character ∉ Text.ofIntPadded width number := by
  have padded : ∀ (width number : Nat),
      .scalar character ∉ Text.padStart '0' width (Text.ofNat number) := by
    intro width number member
    rcases List.mem_append.1 member with filler | digit
    · rw [CodePoint.scalar.inj (List.eq_of_mem_replicate filler)] at notDigit
      exact absurd notDigit (by decide)
    · obtain ⟨written, among, same⟩ := List.mem_map.1 digit
      have isDigit := Nat.isDigit_of_mem_toDigits (by decide) (by decide) among
      rw [CodePoint.scalar.inj same, notDigit] at isDigit
      exact Bool.false_ne_true isDigit
  cases number with
  | ofNat number => exact padded width number
  | negSucc number =>
    intro member
    rcases List.mem_cons.1 member with sign | digits
    · exact notSign (CodePoint.scalar.inj sign)
    · exact padded (width - 1) (number + 1) digits

/-- The file of a step has something before its ending, whatever the base of the session. -/
theorem isNamed_stepPath (made : Nat) : JobFiles.IsNamed (stepPath setup made) := by
  have isEnding : JobFiles.IsEnding (("_reduced_" : Text) ++
      Text.ofIntPadded 4 ((made : Int) + 1 + setup.offset) ++ (".json" : Text)) := by
    constructor
    · rw [List.append_assoc, List.length_append]
      exact Nat.lt_of_lt_of_le (by decide) (Nat.le_add_right _ _)
    · intro member
      rcases List.mem_append.1 member with front | ending
      · rcases List.mem_append.1 front with mark | digits
        · exact absurd mark (by decide)
        · exact notMem_ofIntPadded (by decide) (by decide) _ _ digits
      · exact absurd ending (by decide)
  obtain ⟨lead, noSlash, named⟩ :=
    JobFiles.exists_name_join_append setup.folder setup.base isEnding
  refine ⟨lead ++ (("_reduced_" : Text) ++ Text.ofIntPadded 4 ((made : Int) + 1 + setup.offset)),
    ⟨?_, ?_⟩, ?_⟩
  · exact List.append_ne_nil_of_right_ne_nil _ (List.append_ne_nil_of_left_ne_nil (by decide) _)
  · exact fun member => (List.mem_append.1 member).elim noSlash fun rest =>
      isEnding.noSlash (List.mem_append_left _ rest)
  · rw [stepPath, jobPath, Trail.fileName, Trail.fileName, Trail.stepName]
    simp only [List.append_assoc] at named ⊢
    exact named

/-- Writing a candidate counts it and changes the directory only. -/
theorem writeCandidate_eq_ok {candidate : Job} {made : Nat}
    {session after : Session PlanMemory JudgeMemory}
    (written : (writeCandidate setup bindings candidate made).startingAt session =
      (.ok (), after)) :
    ∃ form directory, writtenForm bindings candidate = .ok form ∧
      (JobFiles.write setup.storage form (stepPath setup made)).startingAt
        session.bench.directory = (.ok (), directory) ∧
      after = { session with
        bench := { session.bench with directory }
        tally := { session.tally with attempts := session.tally.attempts + 1 } } := by
  obtain ⟨_, first, counted, rest⟩ := bind_eq_ok_iff.1 written
  cases counted
  obtain ⟨form, second, formed, wrote⟩ := bind_eq_ok_iff.1 rest
  obtain ⟨isForm, rfl⟩ := Prod.mk.inj formed
  obtain ⟨directory, run, rfl⟩ := onDirectory_eq_iff.1 wrote
  exact ⟨form, directory, isForm, run, rfl⟩

/-- A candidate that was written can be read file by file. -/
theorem readable_of_writeCandidate {candidate : Job} {made : Nat}
    {session standing : Session PlanMemory JudgeMemory}
    (written : (writeCandidate setup bindings candidate made).startingAt session =
      (.ok (), standing)) :
    JobFiles.Readable (stepPath setup made) standing.bench.directory := by
  have isNamed : JobFiles.IsNamed (stepPath setup made) := isNamed_stepPath made
  obtain ⟨form, directory, -, run, rfl⟩ := writeCandidate_eq_ok written
  exact JobFiles.readable_of_write isNamed.isJobPath run

/-! ### How attempts follow each other -/

/-- What an attempt on a candidate is: the candidate is written, and a verdict on it is looked
for. -/
structure Tries (setup : SessionSetup PlanMemory JudgeMemory) (bindings : Option Members)
    (candidate : Job) (made : Nat) (session : Session PlanMemory JudgeMemory)
    (attempt : Attempt PlanMemory JudgeMemory) : Prop where
  isOf : attempt.candidate = candidate
  path : attempt.path = stepPath setup made
  written : (writeCandidate setup bindings candidate made).startingAt session =
    (.ok (), attempt.standing)
  consulted : (consult setup attempt.path).startingAt attempt.standing =
    (attempt.verdict, attempt.judged)

theorem Tries.attempt?_eq {candidate : Job} {made : Nat}
    {session : Session PlanMemory JudgeMemory} {attempt : Attempt PlanMemory JudgeMemory}
    (tries : Tries setup bindings candidate made session attempt) :
    attempt? setup bindings candidate made session = some attempt := by
  obtain ⟨isOf, path, written, consulted⟩ := tries
  rw [path] at consulted
  rw [attempt?, written]
  dsimp only
  rw [consulted, ← isOf, ← path]

/-- What was written has a fingerprint, which is taken from the contents alone. -/
theorem Tries.exists_content {candidate : Job} {made : Nat}
    {session : Session PlanMemory JudgeMemory} {attempt : Attempt PlanMemory JudgeMemory}
    (tries : Tries setup bindings candidate made session attempt) :
    ∃ nodes, attempt.content = .ok nodes ∧
      (JobFiles.fingerprint setup.storage attempt.path).startingAt
        attempt.standing.bench.directory =
        (.ok (setup.storage.digest (JobFiles.inputOf nodes)),
          attempt.standing.bench.directory) := by
  have isNamed : JobFiles.IsNamed (stepPath setup made) := isNamed_stepPath made
  rw [Attempt.content, tries.path]
  exact ⟨_, JobFiles.view_eq_ok isNamed.isJobPath,
    JobFiles.startingAt_fingerprint _ isNamed (readable_of_writeCandidate tries.written)⟩

/-- Writing and judging a candidate leaves the memory of the plan alone and respects what writing
and judging jobs under its name does. -/
theorem Tries.offPlan {relation : Bench JudgeMemory → Bench JudgeMemory → Prop}
    [IsPreorder (Bench JudgeMemory) relation] {candidate : Job} {made : Nat}
    {session : Session PlanMemory JudgeMemory} {attempt : Attempt PlanMemory JudgeMemory}
    (tries : Tries setup bindings candidate made session attempt)
    (confined : ConfinedTo relation setup
      (Trail.stepName setup.base ((made : Int) + 1 + setup.offset))) :
    OffPlan relation session attempt.judged := by
  have writes : Respects (OffPlan relation) (writeCandidate setup bindings candidate made) :=
    (respects_count _).bind fun _ => respects_writeJob confined candidate
  have consults : Respects (OffPlan relation) (consult setup (stepPath setup made)) := by
    unfold consult
    split
    · exact respects_consultCache confined
    · exact respects_consultJudge confined
  have consulted := tries.consulted
  rw [tries.path] at consulted
  exact trans_of (OffPlan relation) (writes.of_eq tries.written) (consults.of_eq consulted)

theorem Tries.plan_eq {candidate : Job} {made : Nat}
    {session : Session PlanMemory JudgeMemory} {attempt : Attempt PlanMemory JudgeMemory}
    (tries : Tries setup bindings candidate made session attempt) :
    attempt.judged.plan = session.plan :=
  (tries.offPlan (confined_anyBench.to (.inr (.inr ⟨made, rfl⟩)))).plan.symm

/-- One turn of the attempts of a session and all that may come of it: no candidate is found because
the plan fails or has none, or the candidate cannot be written, or there is no verdict on it, or the
attempt cannot be concluded, or the attempts go on after it. -/
inductive Turns (setup : SessionSetup PlanMemory JudgeMemory) (bindings : Option Members)
    (budget made : Nat) (job : Job) (session : Session PlanMemory JudgeMemory) :
    List (Attempt PlanMemory JudgeMemory) → Except Fault Job → Session PlanMemory JudgeMemory → Prop
  | unproposed {fault : Fault} {after : Session PlanMemory JudgeMemory}
      (failed : (nextCandidate setup made job).startingAt session = (.error fault, after)) :
      Turns setup bindings budget made job session [] (.error fault) after
  | finished {after : Session PlanMemory JudgeMemory}
      (ended : (nextCandidate setup made job).startingAt session = (.ok none, after)) :
      Turns setup bindings budget made job session [] (.ok job) after
  | unwritten {candidate : Job} {proposed after : Session PlanMemory JudgeMemory} {fault : Fault}
      (next : (nextCandidate setup made job).startingAt session = (.ok (some candidate), proposed))
      (failed : (writeCandidate setup bindings candidate made).startingAt proposed =
        (.error fault, after)) :
      Turns setup bindings budget made job session [] (.error fault) after
  | unjudged {candidate : Job} {proposed : Session PlanMemory JudgeMemory}
      {attempt : Attempt PlanMemory JudgeMemory} {fault : Fault}
      (next : (nextCandidate setup made job).startingAt session = (.ok (some candidate), proposed))
      (tries : Tries setup bindings candidate made proposed attempt)
      (verdict : attempt.verdict = .error fault) :
      Turns setup bindings budget made job session [attempt] (.error fault) attempt.judged
  | unconcluded {candidate : Job} {proposed after : Session PlanMemory JudgeMemory}
      {attempt : Attempt PlanMemory JudgeMemory} {interesting : Bool} {fault : Fault}
      (next : (nextCandidate setup made job).startingAt session = (.ok (some candidate), proposed))
      (tries : Tries setup bindings candidate made proposed attempt)
      (verdict : attempt.verdict = .ok interesting)
      (failed : (conclude setup candidate made interesting).startingAt attempt.judged =
        (.error fault, after)) :
      Turns setup bindings budget made job session [attempt] (.error fault) after
  | concluded {candidate : Job} {proposed between after : Session PlanMemory JudgeMemory}
      {attempt : Attempt PlanMemory JudgeMemory} {interesting : Bool} {outcome : Except Fault Job}
      (next : (nextCandidate setup made job).startingAt session = (.ok (some candidate), proposed))
      (tries : Tries setup bindings candidate made proposed attempt)
      (verdict : attempt.verdict = .ok interesting)
      (settled : (conclude setup candidate made interesting).startingAt attempt.judged =
        (.ok interesting, between))
      (rest : (shrink setup bindings budget (made + 1)
        (if interesting then candidate else job)).startingAt between = (outcome, after)) :
      Turns setup bindings budget made job session
        (attempt :: attemptsFrom setup bindings budget (made + 1)
          (if interesting then candidate else job) between) outcome after

theorem eq_of_conclude {candidate : Job} {made : Nat} {interesting accepted : Bool}
    {session after : Session PlanMemory JudgeMemory}
    (concluded : (conclude setup candidate made interesting).startingAt session =
      (.ok accepted, after)) : interesting = accepted := by
  obtain ⟨_, _, _, rest⟩ := bind_eq_ok_iff.1 concluded
  obtain ⟨_, _, _, answer⟩ := bind_eq_ok_iff.1 rest
  exact Except.ok.inj (congrArg Prod.fst answer)

/-- An attempt that ended was concluded with the verdict that was found. -/
theorem attemptCandidate_eq_ok {candidate : Job} {made : Nat} {accepted : Bool}
    {session after : Session PlanMemory JudgeMemory}
    (attempted : (attemptCandidate setup bindings candidate made).startingAt session =
      (.ok accepted, after)) :
    ∃ attempt, Tries setup bindings candidate made session attempt ∧
      attempt.verdict = .ok accepted ∧
      (conclude setup candidate made accepted).startingAt attempt.judged =
        (.ok accepted, after) := by
  rw [attemptCandidate_eq] at attempted
  obtain ⟨_, standing, written, rest⟩ := bind_eq_ok_iff.1 attempted
  obtain ⟨interesting, judged, consulted, concluded⟩ := bind_eq_ok_iff.1 rest
  obtain rfl := eq_of_conclude concluded
  exact ⟨⟨candidate, stepPath setup made, standing, .ok interesting, judged⟩,
    ⟨rfl, rfl, written, consulted⟩, rfl, concluded⟩

/-- The attempts of a session are made turn by turn. -/
theorem turns_of_shrink {budget made : Nat} {job : Job}
    {session after : Session PlanMemory JudgeMemory} {outcome : Except Fault Job}
    (shrunk : (shrink setup bindings (budget + 1) made job).startingAt session =
      (outcome, after)) :
    Turns setup bindings budget made job session
      (attemptsFrom setup bindings (budget + 1) made job session) outcome after := by
  rw [shrink_succ] at shrunk
  rw [attemptsFrom]
  rcases asked : (nextCandidate setup made job).startingAt session with ⟨fault | proposal, proposed⟩
  all_goals rw [startingAt_bind, asked] at shrunk
  · cases shrunk
    exact .unproposed asked
  cases proposal with
  | none =>
    cases shrunk
    exact .finished asked
  | some candidate =>
    dsimp only at shrunk ⊢
    rw [startingAt_bind, attemptCandidate_eq, startingAt_bind] at shrunk
    rw [attemptCandidate_eq, startingAt_bind, attempt?]
    rcases wrote : (writeCandidate setup bindings candidate made).startingAt proposed with
      ⟨fault | _, standing⟩
    all_goals rw [wrote] at shrunk
    · cases shrunk
      exact .unwritten asked wrote
    · dsimp only at shrunk ⊢
      rw [startingAt_bind] at shrunk
      rw [startingAt_bind]
      rcases verdict : (consult setup (stepPath setup made)).startingAt standing with
        ⟨fault | interesting, judged⟩
      all_goals rw [verdict] at shrunk
      · cases shrunk
        exact .unjudged asked ⟨rfl, rfl, wrote, verdict⟩ rfl
      · dsimp only at shrunk ⊢
        rcases settled : (conclude setup candidate made interesting).startingAt judged with
          ⟨fault | accepted, next⟩
        all_goals rw [settled] at shrunk
        · cases shrunk
          exact .unconcluded asked ⟨rfl, rfl, wrote, verdict⟩ rfl settled
        · obtain rfl := eq_of_conclude settled
          exact .concluded asked ⟨rfl, rfl, wrote, verdict⟩ rfl settled shrunk

end Written

end Session

end ShaderReduction
