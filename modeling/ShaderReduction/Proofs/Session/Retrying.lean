/-
This file proves that a session which asks its plan again leaves no trace of that.

The plan of a session is a script, in which some transformations do not apply. A session that skips
these has the script without them. As long as no three of them in a row are met, both sessions do
the same with everything but the script, step by step, and tell their plans the same. Three in a row
end the session with their fault, and nothing else does if its judge does not fail so.
-/

import ShaderReduction.Proofs.Replay
import ShaderReduction.Proofs.Session.Accounting
import ShaderReduction.Proofs.Session.GivingUp
import ShaderReduction.Proofs.Session.Messages

namespace ShaderReduction

open ShaderReduction.Action Directory Replay

namespace Session

variable {JudgeMemory : Type}

/-- A session with a logged script. -/
abbrev Scripted (JudgeMemory : Type) := Session (Logged (List Proposal)) JudgeMemory

/-- What is left of the script. -/
def script (session : Scripted JudgeMemory) : List Proposal := session.plan.memory

/-- The verdicts that the plan was told. -/
def told (session : Scripted JudgeMemory) : List Bool :=
  session.plan.messages.filterMap Message.told?

/-- Two sessions differ in the memory of the plan only, and their plans were told the same. -/
structure OnlyAsked (before after : Scripted JudgeMemory) : Prop where
  onlyPlan : OnlyPlan before after
  told : after.told = before.told

instance : IsPreorder (Scripted JudgeMemory) OnlyAsked where
  refl session := ⟨refl_of OnlyPlan session, rfl⟩
  trans _ _ _ first second :=
    ⟨trans_of OnlyPlan first.onlyPlan second.onlyPlan, second.told.trans first.told⟩

/-- The script of one session is that of another one without the transformations that do not
apply, and all the rest is the same. -/
structure Skips (first second : Scripted JudgeMemory) : Prop extends OnlyAsked first second where
  script : second.script = applicable first.script

/-- Two sessions have the same script left. -/
def SameScript (before after : Scripted JudgeMemory) : Prop := after.script = before.script

instance : IsPreorder (Scripted JudgeMemory) SameScript where
  refl _ := rfl
  trans _ _ _ first second := Eq.trans second first

/-! ### Actions that do not ask the plan -/

/-- An action does not ask the plan: it goes on alike in both sessions, leaves the script alone and
does not give up. -/
structure OffScript {Result : Type} (action : Step (Logged (List Proposal)) JudgeMemory Result) :
    Prop where
  lockstep : Lockstep Skips action
  script : Respects SameScript action
  fails : Fails (¬·.OfAttempts) action

section OffScript

variable {Result Next : Type}

theorem OffScript.bind {first : Step (Logged (List Proposal)) JudgeMemory Result}
    {second : Result → Step (Logged (List Proposal)) JudgeMemory Next}
    (firstOff : OffScript first) (secondOff : ∀ result, OffScript (second result)) :
    OffScript (first >>= second) where
  lockstep := firstOff.lockstep.bind fun result => (secondOff result).lockstep
  script := firstOff.script.bind fun result => (secondOff result).script
  fails := firstOff.fails.bind fun result => (secondOff result).fails

theorem offScript_pure (result : Result) :
    OffScript (pure result : Step (Logged (List Proposal)) JudgeMemory Result) :=
  ⟨lockstep_pure result, respects_pure result, fails_pure result⟩

theorem offScript_ofExcept {result : Except Fault Result} (errs : Errs (¬·.OfAttempts) result) :
    OffScript (Action.ofExcept result : Step (Logged (List Proposal)) JudgeMemory Result) :=
  ⟨lockstep_ofExcept result, respects_ofExcept result, fails_ofExcept errs⟩

/-- Changing everything but the plan. -/
theorem offScript_modify {change : Scripted JudgeMemory → Scripted JudgeMemory}
    (off : ∀ session plan, change { session with plan } = { change session with plan }) :
    OffScript (modify change) := by
  have same : ∀ session, (change session).plan = session.plan := by
    intro session
    have plans := congrArg Session.plan (off session session.plan)
    exact plans
  refine ⟨lockstep_modify ?_, fun session => congrArg Logged.memory (same session),
    fails_modify _⟩
  rintro first second ⟨⟨⟨plan, rfl⟩, isTold⟩, isScript⟩
  refine ⟨⟨⟨plan, off first plan⟩, ?_⟩, ?_⟩
  · rw [told, told, same, same]
    exact isTold
  · rw [script, script, same, same]
    exact isScript

/-- The plan that proposes nothing. -/
def silentPlan : Plan Unit where
  propose _ := throw (.exhausted [])
  update _ := pure ()

/-- The setup with the plan that proposes nothing. -/
def silenced {PlanMemory : Type} (setup : SessionSetup PlanMemory JudgeMemory) :
    SessionSetup Unit JudgeMemory := setup.with silentPlan setup.judge

theorem watches_silenced {PlanMemory : Type} (setup : SessionSetup PlanMemory JudgeMemory) :
    Judge.Watches id setup.judge (silenced setup).judge := setup.judge.watches_self

theorem onlyPlan_of_forget_eq {first second : Scripted JudgeMemory}
    (same : first.forget (fun _ => ()) id = second.forget (fun _ => ()) id) :
    OnlyPlan first second := by
  obtain ⟨⟨directory, memory⟩, plan, cache, tally, accepted, current⟩ := first
  obtain ⟨⟨_, _⟩, otherPlan, _, _, _, _⟩ := second
  cases same
  exact ⟨otherPlan, rfl⟩

/-- What a session could do without a plan, and what leaves the memory of the plan alone. -/
theorem offScript_of_projects {action : Step (Logged (List Proposal)) JudgeMemory Result}
    {unplanned : Step Unit JudgeMemory Result}
    (projects : Projects (forget (fun _ => ()) id) action unplanned)
    (offPlan : Respects (OffPlan AnyBench) action) (fails : Fails (¬·.OfAttempts) action) :
    OffScript action where
  lockstep := by
    rintro first second ⟨⟨⟨plan, rfl⟩, isTold⟩, isScript⟩
    have firstRun := projects first
    have secondRun := projects { first with plan }
    have both := firstRun.symm.trans secondRun
    obtain ⟨outcome, left⟩ := Prod.mk.inj both
    have firstPlan := (offPlan first).plan
    have secondPlan := (offPlan { first with plan }).plan
    refine ⟨outcome, ⟨onlyPlan_of_forget_eq left, ?_⟩, ?_⟩
    · rw [told, told, ← firstPlan, ← secondPlan]
      exact isTold
    · rw [script, script, ← firstPlan, ← secondPlan]
      exact isScript
  script session := congrArg Logged.memory (offPlan session).plan.symm
  fails := fails

end OffScript

section Parts

variable {setup : SessionSetup (List Proposal) JudgeMemory} {bindings : Option Members}
  (isScripted : setup.plan = scriptedPlan)
  (neverGivesUp : setup.judge.NeverGivesUp)

theorem confined_stepName (made : Nat) : ConfinedTo AnyBench setup.logged
    (Trail.stepName setup.base ((made : Int) + 1 + setup.offset)) :=
  confined_anyBench.to (.inr (.inr ⟨made, rfl⟩))

theorem offScript_writeCandidate (candidate : Job) (made : Nat) :
    OffScript (writeCandidate setup.logged bindings candidate made) := by
  have projects : Projects (forget (fun _ => ()) id)
      (writeCandidate ((silenced setup).with setup.plan.logged setup.judge) bindings candidate made)
      (writeCandidate (silenced setup) bindings candidate made) :=
    projects_writeCandidate bindings candidate made
  exact offScript_of_projects projects
    ((respects_count _).bind fun _ => respects_writeJob (confined_stepName made) candidate)
    ((fails_writeCandidate candidate made).mono fun _ ofJobs => ofJobs.not_ofAttempts)

theorem offScript_tagStep (attempt : Int) (outcome : Outcome) :
    OffScript (tagStep setup.logged attempt outcome) :=
  offScript_of_projects (projects_onDirectory _) (respects_onBench fun _ => trivial)
    ((fails_tagStep attempt outcome).mono fun _ ofFiles =>
      Fault.OfJobs.not_ofAttempts (.inl ofFiles))

include isScripted

theorem plan_logged : setup.logged.plan = scriptedPlan.logged := congrArg Plan.logged isScripted

/-- Telling the plan about a verdict notes it and leaves the script alone. -/
theorem startingAt_update_logged (accepted : Bool) (session : Scripted JudgeMemory) :
    (onPlan (setup.logged.plan.update accepted)).startingAt session =
      (.ok (), { session with
        plan := ⟨session.script, session.plan.messages ++ [.told accepted]⟩ }) := by
  rw [plan_logged isScripted]
  rfl

theorem offScript_update (accepted : Bool) :
    OffScript (onPlan (setup.logged.plan.update accepted) :
      Step (Logged (List Proposal)) JudgeMemory Unit) where
  lockstep := by
    rintro first second ⟨⟨⟨plan, rfl⟩, isTold⟩, isScript⟩
    refine inStep_of_eq (startingAt_update_logged isScripted accepted first)
      (startingAt_update_logged isScripted accepted _) ⟨⟨⟨_, rfl⟩, ?_⟩, isScript⟩
    rw [told, told, List.filterMap_append, List.filterMap_append]
    exact congrArg (· ++ _) isTold
  script session := by rw [startingAt_update_logged isScripted]; rfl
  fails := by
    intro session fault after failed
    rw [startingAt_update_logged isScripted] at failed
    cases failed

theorem offScript_settle (candidate : Job) (interesting : Bool) :
    OffScript (settle setup.logged candidate interesting) := by
  cases interesting with
  | true =>
    exact OffScript.bind (offScript_modify fun _ _ => rfl) fun _ => offScript_update isScripted true
  | false =>
    exact OffScript.bind (offScript_modify fun _ _ => rfl) fun _ =>
      offScript_update isScripted false

include neverGivesUp

theorem onlyAsking_logged : OnlyAskingGivesUp setup.logged where
  update accepted := by
    rw [plan_logged isScripted]
    exact Fails.bind (fails_modify _) fun _ => Fails.onPart (fails_pure _)
  report := neverGivesUp

theorem offScript_mayProceed (job : Job) :
    OffScript (mayProceed setup.logged bindings job) :=
  offScript_of_projects (projects_mayProceed (watches_silenced setup) bindings job)
    (respects_mayProceed confined_anyBench.around job)
    ((onlyAsking_logged isScripted neverGivesUp).mayProceed job)

theorem offScript_finish (job : Job) : OffScript (finish setup.logged bindings job) :=
  offScript_of_projects (projects_finish (watches_silenced setup) bindings job)
    (respects_finish confined_anyBench.around job)
    ((onlyAsking_logged isScripted neverGivesUp).finish job)

theorem offScript_consult (made : Nat) :
    OffScript (consult setup.logged (stepPath setup.logged made)) := by
  refine offScript_of_projects (projects_consult (watches_silenced setup) _) ?_
    ((onlyAsking_logged isScripted neverGivesUp).consult _)
  unfold consult
  split
  · exact respects_consultCache (confined_stepName made)
  · exact respects_consultJudge (confined_stepName made)

theorem offScript_attemptCandidate (candidate : Job) (made : Nat) :
    OffScript (attemptCandidate setup.logged bindings candidate made) := by
  rw [attemptCandidate_eq]
  refine (offScript_writeCandidate candidate made).bind fun _ => ?_
  refine (offScript_consult isScripted neverGivesUp made).bind fun interesting => ?_
  refine (offScript_tagStep _ _).bind fun _ => ?_
  exact (offScript_settle isScripted candidate interesting).bind fun _ => offScript_pure _

end Parts

/-! ### Asking the plan -/

/-- What a session makes of the first proposal of a script. -/
def answerOf : List Proposal → Except Fault (Option Job)
  | [] => .ok none
  | .candidate job :: _ => .ok (some job)
  | .inapplicable reason :: _ => .error (.inapplicable reason)
  | .exhausted _ :: _ => .ok none

/-- The session after its plan was asked about a job so many times, with what is left of the
script. -/
def asked (session : Scripted JudgeMemory) (job : Job) (times : Nat) (left : List Proposal) :
    Scripted JudgeMemory :=
  { session with plan := ⟨left, session.plan.messages ++ List.replicate times (.asked job)⟩ }

theorem told_asked (session : Scripted JudgeMemory) (job : Job) (times : Nat)
    (left : List Proposal) : (session.asked job times left).told = session.told := by
  rw [told, asked, List.filterMap_append, filterMap_told?_replicate, List.append_nil]
  rfl

theorem asked_asked (session : Scripted JudgeMemory) (job : Job) (times : Nat)
    (between left : List Proposal) :
    (session.asked job 1 between).asked job times left = session.asked job (times + 1) left := by
  rw [asked, asked, asked, Nat.add_comm, List.replicate_add, List.append_assoc]

section Asking

variable {setup : SessionSetup (List Proposal) JudgeMemory}
  (isScripted : setup.plan = scriptedPlan) (job : Job)

include isScripted

theorem startingAt_propose_logged (session : Scripted JudgeMemory) :
    (propose setup.logged job).startingAt session =
      (answerOf session.script, session.asked job 1 session.script.tail) := by
  rw [startingAt_propose, plan_logged isScripted]
  obtain ⟨bench, ⟨script, messages⟩, cache, tally, accepted, current⟩ := session
  rcases script with _ | ⟨candidate | reason | reason, script⟩ <;> rfl

/-- A plan that proposes what is no such transformation is asked once. -/
theorem startingAt_proposeRetrying_of_startsApplicable {session : Scripted JudgeMemory}
    (ready : StartsApplicable session.script) (retries : Nat) :
    (proposeRetrying setup.logged job retries).startingAt session =
      (answerOf session.script, session.asked job 1 session.script.tail) := by
  have proposed := startingAt_propose_logged isScripted job session
  cases retries with
  | zero => exact proposed
  | succ retries =>
    rw [startingAt_proposeRetrying_succ, proposed]
    generalize session.script = script at ready
    rcases script with _ | ⟨candidate | reason | reason, script⟩
    · rfl
    · rfl
    · cases ready _ rfl
    · rfl

/-- A plan whose transformation does not apply is asked again, if it may be. -/
theorem startingAt_proposeRetrying_of_fails {proposal : Proposal} {proposals : List Proposal}
    {session : Scripted JudgeMemory} (isScript : session.script = proposal :: proposals)
    (fails : proposal.applies = false) (retries : Nat) :
    (proposeRetrying setup.logged job (retries + 1)).startingAt session =
      (proposeRetrying setup.logged job retries).startingAt (session.asked job 1 proposals) := by
  rw [startingAt_proposeRetrying_succ, startingAt_propose_logged isScripted, isScript]
  cases proposal with
  | candidate _ => cases fails
  | inapplicable _ => rfl
  | exhausted _ => cases fails

/-- A plan that is asked often enough answers with what comes after the transformations that do not
apply. -/
theorem startingAt_proposeRetrying_of_few {retries : Nat} {failed left : List Proposal}
    {session : Scripted JudgeMemory} (isScript : session.script = failed ++ left)
    (fails : ∀ proposal ∈ failed, proposal.applies = false) (few : failed.length ≤ retries)
    (ready : StartsApplicable left) :
    (proposeRetrying setup.logged job retries).startingAt session =
      (answerOf left, session.asked job (failed.length + 1) left.tail) := by
  induction failed generalizing session retries with
  | nil =>
    rw [List.nil_append] at isScript
    subst isScript
    exact startingAt_proposeRetrying_of_startsApplicable isScripted job ready retries
  | cons proposal failed inductionHypothesis =>
    obtain ⟨first, rest⟩ := List.forall_mem_cons.1 fails
    cases retries with
    | zero => cases few
    | succ retries =>
      rw [startingAt_proposeRetrying_of_fails isScripted job isScript first,
        inductionHypothesis rfl rest (Nat.le_of_succ_le_succ few), asked_asked]
      rfl

/-- A plan whose transformation did not apply when it was asked last gives no candidate. -/
theorem exists_proposeRetrying_eq_error {retries : Nat} {failed left : List Proposal}
    {session : Scripted JudgeMemory} (isScript : session.script = failed ++ left)
    (fails : ∀ proposal ∈ failed, proposal.applies = false) (length : failed.length = retries + 1) :
    ∃ reason, failed.getLast? = some (.inapplicable reason) ∧
      (proposeRetrying setup.logged job retries).startingAt session =
        (.error (.inapplicable reason), session.asked job failed.length left) := by
  induction failed generalizing session retries with
  | nil => cases length
  | cons proposal failed inductionHypothesis =>
    obtain ⟨first, rest⟩ := List.forall_mem_cons.1 fails
    cases retries with
    | zero =>
      obtain rfl := List.eq_nil_of_length_eq_zero (Nat.succ.inj length)
      have proposed := startingAt_propose_logged isScripted job session
      rw [isScript] at proposed
      cases proposal with
      | candidate _ => cases first
      | inapplicable reason => exact ⟨reason, rfl, proposed⟩
      | exhausted _ => cases first
    | succ retries =>
      have isRest : (session.asked job 1 (failed ++ left)).script = failed ++ left := rfl
      obtain ⟨reason, isLast, refused⟩ :=
        inductionHypothesis isRest rest (Nat.succ.inj length)
      rw [asked_asked] at refused
      refine ⟨reason, ?_,
        (startingAt_proposeRetrying_of_fails isScripted job isScript first retries).trans refused⟩
      rw [List.getLast?_cons, isLast]
      rfl

end Asking

/-! ### Actions that ask the plan -/

/-- How many transformations in a row may not apply until a session gives up. -/
def fatal : Nat := applicationRetries + 1

/-- What comes of an action that asks the plan, and of the same action without the transformations
that do not apply. It uses some proposals of a script, and gives up if too many transformations in a
row do not apply. Otherwise both come to the same, and do not give up, unless a budget is spent,
which takes as many proposals. -/
structure Retries {Result : Type} (used : List Proposal) (budget : Nat) (script : List Proposal)
    (ended skipping : Except Fault Result × Scripted JudgeMemory) : Prop where
  uses : script = used ++ ended.2.script
  fails : FailsInARow fatal used →
    ∃ reason, used.getLast? = some (.inapplicable reason) ∧ ended.1 = .error (.inapplicable reason)
  result : ¬FailsInARow fatal used → ended.1 = skipping.1
  skips : ¬FailsInARow fatal used → Skips ended.2 skipping.2
  errs : ¬FailsInARow fatal used →
    Errs (fun fault => fault.OfAttempts → fault = .outOfAttempts ∧ budget ≤ script.length) ended.1

section Retries

variable {Result Next : Type} {used script : List Proposal} {budget : Nat}
  {first second : Scripted JudgeMemory}
  {action : Step (Logged (List Proposal)) JudgeMemory Result}
  {next : Result → Step (Logged (List Proposal)) JudgeMemory Next}

theorem not_failsInARow_nil : ¬FailsInARow fatal [] :=
  not_failsInARow_of_length_lt (Nat.succ_pos applicationRetries)

theorem OffScript.retries (off : OffScript action) (skips : Skips first second) :
    Retries [] budget first.script (action.startingAt first) (action.startingAt second) where
  uses := (off.script first).symm
  fails inARow := absurd inARow not_failsInARow_nil
  result _ := (off.lockstep first second skips).result
  skips _ := (off.lockstep first second skips).related
  errs _ fault failed ofAttempts := absurd ofAttempts (off.fails.errs rfl fault failed)

/-- What does not ask the plan may stand before an action that asks it. -/
theorem OffScript.exists_retries_bind (off : OffScript action) (skips : Skips first second)
    (rest : ∀ result between other, Skips between other → ∃ used, Retries used budget
      between.script ((next result).startingAt between) ((next result).startingAt other)) :
    ∃ used, Retries used budget first.script ((action >>= next).startingAt first)
      ((action >>= next).startingAt second) := by
  have same := off.script first
  rcases run : action.startingAt first with ⟨fault | result, between⟩
  all_goals
    obtain ⟨other, otherRun, related⟩ := (off.lockstep first second skips).exists_eq run
    rw [run] at same
    rw [startingAt_bind, startingAt_bind, run, otherRun]
  · refine ⟨[], same.symm, fun inARow => absurd inARow not_failsInARow_nil, fun _ => rfl,
      fun _ => related, fun _ => errs_error fun ofAttempts => ?_⟩
    exact absurd ofAttempts (off.fails first fault between run)
  · obtain ⟨used, retries⟩ := rest result between other related
    exact ⟨used, same ▸ retries⟩

/-- What does not ask the plan may stand after an action that asks it. -/
theorem Retries.bind
    (retries : Retries used budget script (action.startingAt first) (action.startingAt second))
    (off : ∀ result, OffScript (next result)) :
    Retries used budget script ((action >>= next).startingAt first)
      ((action >>= next).startingAt second) := by
  have inStep : ¬FailsInARow fatal used → InStep Skips first second (action >>= next) :=
    fun few => InStep.bind ⟨retries.result few, retries.skips few⟩
      fun result between other _ _ related => (off result).lockstep between other related
  refine ⟨?_, ?_, fun few => (inStep few).result, fun few => (inStep few).related, ?_⟩
  all_goals
    obtain ⟨uses, fails, -, -, errs⟩ := retries
    rw [startingAt_bind]
    generalize action.startingAt first = ended at uses fails errs
    obtain ⟨fault | result, between⟩ := ended
  · exact uses
  · exact uses.trans (congrArg _ ((off result).script between).symm)
  · intro inARow
    obtain ⟨reason, isLast, failed⟩ := fails inARow
    cases failed
    exact ⟨reason, isLast, rfl⟩
  · intro inARow
    obtain ⟨_, _, impossible⟩ := fails inARow
    cases impossible
  · exact fun few => (errs few).error
  · exact fun _ fault failed ofAttempts =>
      absurd ofAttempts ((off result).fails.errs rfl fault failed)

/-- What is used before does not matter as long as it fails no more often in a row. -/
theorem Retries.append_left {more : Nat} {before : List Proposal}
    {ended skipping : Except Fault Result × Scripted JudgeMemory}
    (retries : Retries used budget script ended skipping)
    (same : FailsInARow fatal (before ++ used) ↔ FailsInARow fatal used)
    (within : more ≤ budget + before.length) :
    Retries (before ++ used) more (before ++ script) ended skipping := by
  refine ⟨?_, ?_, fun few => retries.result (mt same.2 few),
    fun few => retries.skips (mt same.2 few), ?_⟩
  · rw [retries.uses, List.append_assoc]
  · intro inARow
    obtain ⟨reason, isLast, failed⟩ := retries.fails (same.1 inARow)
    exact ⟨reason, by rw [List.getLast?_append, isLast, Option.some_or], failed⟩
  · intro few fault failed ofAttempts
    obtain ⟨isOut, spent⟩ := retries.errs (mt same.2 few) fault failed ofAttempts
    rw [List.length_append]
    exact ⟨isOut, by omega⟩

end Retries

/-! ### The attempts -/

section Attempts

variable {setup : SessionSetup (List Proposal) JudgeMemory} {bindings : Option Members}
  {Result : Type} {budget : Nat} {first second : Scripted JudgeMemory}
  (isScripted : setup.plan = scriptedPlan)

include isScripted

/-- The plan is asked for a candidate, and then the budget is smaller if there is one. -/
theorem exists_retries_proposeRetrying (job : Job)
    {next : Option Job → Step (Logged (List Proposal)) JudgeMemory Result}
    (stops : OffScript (next none)) (skips : Skips first second)
    (goesOn : ∀ candidate between other, Skips between other →
      ∃ used, Retries used budget between.script ((next (some candidate)).startingAt between)
        ((next (some candidate)).startingAt other)) :
    ∃ used, Retries used (budget + 1) first.script
      ((proposeRetrying setup.logged job applicationRetries >>= next).startingAt first)
      ((proposeRetrying setup.logged job applicationRetries >>= next).startingAt second) := by
  obtain ⟨failed, left, isScript, fails, length | ⟨few, ready⟩⟩ :=
    exists_failed_append fatal first.script
  · obtain ⟨reason, isLast, refused⟩ :=
      exists_proposeRetrying_eq_error isScripted job isScript fails length
    have inARow : FailsInARow fatal failed := length ▸ failsInARow_of_fails fails
    rw [startingAt_bind, refused]
    exact ⟨failed, isScript, fun _ => ⟨reason, isLast, rfl⟩, (absurd inARow ·), (absurd inARow ·),
      (absurd inARow ·)⟩
  -- The few that failed are not in the other script, whose plan is asked once.
  have isSkipped : second.script = applicable left := by
    rw [skips.script, isScript, applicable, List.filter_append]
    exact congrArg (· ++ _) (applicable_of_fails fails)
  have asks := startingAt_proposeRetrying_of_few isScripted job isScript fails
    (Nat.le_of_lt_succ few) ready
  have otherAsks := startingAt_proposeRetrying_of_startsApplicable isScripted job
    (isSkipped ▸ startsApplicable_applicable left) applicationRetries
  have related : Skips (first.asked job (failed.length + 1) left.tail)
      (second.asked job 1 second.script.tail) := by
    obtain ⟨plan, same⟩ := skips.onlyPlan
    refine ⟨⟨?_, ?_⟩, ?_⟩
    · rw [same]
      exact ⟨_, rfl⟩
    · rw [told_asked, told_asked, skips.told]
    · show second.script.tail = applicable left.tail
      rw [isSkipped, tail_applicable ready]
  have fewBefore : ¬FailsInARow fatal failed := not_failsInARow_of_length_lt few
  have cuts : ∀ {proposal : Proposal} (used : List Proposal), proposal.applies = true →
      (FailsInARow fatal (failed ++ [proposal] ++ used) ↔ FailsInARow fatal used) := by
    intro proposal used applies
    rw [List.append_assoc]
    exact (failsInARow_append_cons_iff applies).trans (or_iff_right fewBefore)
  have longer : ∀ proposal : Proposal, budget + 1 ≤ budget + (failed ++ [proposal]).length := by
    intro proposal
    rw [List.length_append]
    exact Nat.add_le_add_left (Nat.le_add_left _ _) _
  rw [startingAt_bind, startingAt_bind, asks, otherAsks, isScript, isSkipped]
  rw [isSkipped] at related
  rcases left with _ | ⟨candidate | reason | reason, left⟩
  · refine ⟨failed ++ [], (stops.retries related).append_left ?_ (Nat.le_add_right _ _)⟩
    rw [List.append_nil]
    exact iff_of_false fewBefore not_failsInARow_nil
  · obtain ⟨used, rest⟩ := goesOn candidate _ _ related
    rw [List.append_cons]
    exact ⟨_, rest.append_left (cuts used rfl) (longer _)⟩
  · cases ready _ rfl
  · rw [List.append_cons]
    exact ⟨_, (stops.retries related).append_left (cuts [] rfl) (longer _)⟩

variable (neverGivesUp : setup.judge.NeverGivesUp)

include neverGivesUp

/-- The attempts of both sessions come to the same, unless the first one gives up. -/
theorem exists_retries_shrink (made : Nat) (job : Job) (skips : Skips first second) :
    ∃ used, Retries used budget first.script
      ((shrink setup.logged bindings budget made job).startingAt first)
      ((shrink setup.logged bindings budget made job).startingAt second) := by
  -- Each attempt uses up a proposal, so the budget that is left is no longer than the script.
  induction budget generalizing made job first second with
  | zero =>
    exact ⟨[], rfl, fun inARow => absurd inARow not_failsInARow_nil, fun _ => rfl, fun _ => skips,
      fun _ => errs_error fun _ => ⟨rfl, Nat.zero_le _⟩⟩
  | succ budget inductionHypothesis =>
    have limits : Errs (¬·.OfAttempts) (setup.limit.reached made) := by
      intro fault failed
      rw [setup.limit.errs_reached made fault failed]
      exact not_false
    refine (offScript_ofExcept limits).exists_retries_bind skips
      fun reached between other skips => ?_
    cases reached with
    | true =>
      have stops : OffScript (count (fun tally => { tally with stoppedEarly := true }) >>=
          fun _ => (pure job : Step (Logged (List Proposal)) JudgeMemory Job)) :=
        (offScript_modify fun _ _ => rfl).bind fun _ => offScript_pure job
      exact ⟨[], stops.retries skips⟩
    | false =>
      refine exists_retries_proposeRetrying isScripted job (offScript_pure job) skips
        fun candidate between other skips => ?_
      have attempts : OffScript (attemptCandidate setup.logged bindings candidate made) :=
        offScript_attemptCandidate isScripted neverGivesUp candidate made
      exact attempts.exists_retries_bind skips
        fun accepted between other skips => inductionHypothesis (made + 1) _ skips

/-! ### The whole session -/

theorem exists_retries_proceed (free : Job) (skips : Skips first second) :
    ∃ used, Retries used budget first.script
      ((proceed setup.logged bindings budget free).startingAt first)
      ((proceed setup.logged bindings budget free).startingAt second) := by
  have begins : OffScript (modify fun session => { session with current := some free } :
      Step (Logged (List Proposal)) JudgeMemory PUnit) := offScript_modify fun _ _ => rfl
  refine begins.exists_retries_bind skips fun _ between other skips => ?_
  obtain ⟨used, retries⟩ := exists_retries_shrink isScripted neverGivesUp 0 free skips
  exact ⟨used, retries.bind (offScript_finish isScripted neverGivesUp)⟩

theorem exists_retries_runFree (free : Job) (skips : Skips first second) :
    ∃ used, Retries used budget first.script
      ((runFree setup.logged bindings budget free).startingAt first)
      ((runFree setup.logged bindings budget free).startingAt second) := by
  refine (offScript_mayProceed isScripted neverGivesUp free).exists_retries_bind skips
    fun may between other skips => ?_
  cases may with
  | false => exact ⟨[], (offScript_pure none).retries skips⟩
  | true =>
    obtain ⟨used, retries⟩ := exists_retries_proceed isScripted neverGivesUp free skips
    exact ⟨used, retries.bind fun name => offScript_pure (some name)⟩

/-- Both sessions come to the same, unless the first one gives up. -/
theorem exists_retries_run (budget : Nat) (job : Job) (skips : Skips first second) :
    ∃ used, Retries used budget first.script ((run setup.logged budget job).startingAt first)
      ((run setup.logged budget job).startingAt second) := by
  have forms : Errs (¬·.OfAttempts) (freeForm job) := fun fault failed =>
    Fault.OfJobs.not_ofAttempts (.inr (errs_freeForm job fault failed))
  rw [run_eq]
  exact (offScript_ofExcept forms).exists_retries_bind skips fun form between other skips =>
    exists_retries_runFree isScripted neverGivesUp form.2 skips

end Attempts

section Run

variable {setup : SessionSetup (List Proposal) JudgeMemory}

/-- Two sessions that begin in a directory, one with a script and one with the script without the
transformations that do not apply. -/
theorem skips_startLogged (directory : Directory) (script : List Proposal)
    (judgeMemory : JudgeMemory) :
    Skips (startLogged directory script judgeMemory)
      (startLogged directory (applicable script) judgeMemory) := ⟨⟨⟨_, rfl⟩, rfl⟩, rfl⟩

theorem onlyAsked_proposeRetrying (job : Job) (retries : Nat) :
    Respects OnlyAsked (proposeRetrying setup.logged job retries) := by
  refine respects_proposeRetrying_of (fun session => ⟨⟨_, rfl⟩, ?_⟩) retries
  have noted : ((onPlan (setup.logged.plan.propose job)).startingAt session).2.plan.messages =
      session.plan.messages ++ [.asked job] := rfl
  rw [told, noted, List.filterMap_append]
  exact List.append_nil _

/-- Proposals that are asked for again leave no trace. A session with a script uses some of it. It
ends with the fault of a transformation that does not apply exactly if three in a row of those that
it used do not. If not, then the session with the script without such transformations ends with the
same result or fault, counts, verdicts, current job, directory and memory of its judge, and tells
its plan the same. If so, then it ends with the fault of the last one, after some completed
attempts, with everything as they left it but for what is left of the script, and the files of the
final job stay as they were. Its budget is only spent if it is not more than the script is long.

The judge may be any that does not fail as a plan does, and so every scripted one. -/
theorem exists_applicable_alike_of_run (isScripted : setup.plan = scriptedPlan)
    (neverGivesUp : setup.judge.NeverGivesUp) {budget : Nat} {job : Job} {directory : Directory}
    {script : List Proposal} {judgeMemory : JudgeMemory} {outcome : Except Fault (Option Text)}
    {after : Session (List Proposal) JudgeMemory}
    (ran : (run setup budget job).startingAt (start directory script judgeMemory) =
      (outcome, after)) :
    ∃ used, script = used ++ after.plan ∧
      ((∃ reason, outcome = .error (.inapplicable reason)) ↔ FailsInARow 3 used) ∧
      (¬FailsInARow 3 used →
        (run setup budget job).startingAt (start directory (applicable script) judgeMemory) =
            (outcome, { after with plan := applicable after.plan }) ∧
          (messages setup budget job directory (applicable script) judgeMemory).filterMap
              Message.told? =
            (messages setup budget job directory script judgeMemory).filterMap Message.told?) ∧
      (FailsInARow 3 used → ∃ reason bindings free opened attempts last completed ended,
        used.getLast? = some (.inapplicable reason) ∧ outcome = .error (.inapplicable reason) ∧
          freeForm job = .ok (bindings, free) ∧
          GivesUp setup.logged bindings free (startLogged directory script judgeMemory) opened
            attempts last completed reason ended ∧
          after = ended.forget Logged.memory id ∧ OnlyAsked completed ended ∧
          (setup.judge.WritesOnlyResult → .scalar '/' ∉ setup.base → ∀ location,
            HoldsFiles directory setup.folder location → ∀ ending ∈ JobFiles.endings,
              after.bench.directory.nodeAt
                  (setup.folder.join (Trail.finalName setup.base ++ ending)) =
                directory.nodeAt (setup.folder.join (Trail.finalName setup.base ++ ending)))) ∧
      (script.length < budget → outcome ≠ .error .outOfAttempts) := by
  have projects := projects_run setup.plan.watches_logged setup.judge.watches_self budget job
  obtain ⟨used, retries⟩ := exists_retries_run isScripted neverGivesUp budget job
    (skips_startLogged directory script judgeMemory)
  rcases logged : (run setup.logged budget job).startingAt
    (startLogged directory script judgeMemory) with ⟨outcome, ended⟩
  rcases skipping : (run setup.logged budget job).startingAt
    (startLogged directory (applicable script) judgeMemory) with ⟨result, other⟩
  cases (projects.of_eq logged).symm.trans ran
  rw [logged, skipping] at retries
  refine ⟨used, retries.uses, ⟨?_, ?_⟩, ?_, ?_, ?_⟩
  · rintro ⟨reason, rfl⟩
    by_contra few
    exact nomatch (retries.errs few _ rfl trivial).1
  · intro inARow
    obtain ⟨reason, -, failed⟩ := retries.fails inARow
    exact ⟨reason, failed⟩
  · intro few
    obtain rfl : outcome = result := retries.result few
    obtain ⟨⟨⟨plan, rfl⟩, isTold⟩, isScript⟩ := retries.skips few
    refine ⟨(projects.of_eq skipping).trans ?_, ?_⟩
    · exact congrArg (fun script =>
        (outcome, { ended.forget Logged.memory id with plan := script })) isScript
    · rw [messages, messages, logged, skipping]
      exact isTold
  · intro inARow
    obtain ⟨reason, isLast, failed⟩ := retries.fails inARow
    obtain rfl : outcome = .error (.inapplicable reason) := failed
    obtain ⟨bindings, free, isFree, opened, attempts, last, completed, givesUp⟩ :=
      exists_givesUp_of_run (onlyAsking_logged isScripted neverGivesUp) logged
    refine ⟨reason, bindings, free, opened, attempts, last, completed, ended, isLast, rfl, isFree,
      givesUp, rfl, (onlyAsked_proposeRetrying last _).of_eq givesUp.refused, ?_⟩
    intro tidy noSlash location holds ending member
    have loggedNoSlash : .scalar '/' ∉ setup.logged.base := noSlash
    exact givesUp.nodeAt_finalName loggedNoSlash tidy holds member
  · rintro short rfl
    by_cases inARow : FailsInARow 3 used
    · obtain ⟨reason, -, impossible⟩ := retries.fails inARow
      cases impossible
    · have spent := (retries.errs inARow _ rfl trivial).2
      exact absurd spent (Nat.not_le_of_lt short)

end Run

/-! ### Sessions with scripts -/

/-- Whatever a scripted judge fails with comes from a file. -/
theorem neverGivesUp_scriptedJudge (rules : List Rule) (writesResult : Bool) :
    (scriptedJudge rules writesResult).NeverGivesUp := fun job result =>
  (fails_report_scriptedJudge rules writesResult job result).mono fun _ ofFiles =>
    Fault.OfJobs.not_ofAttempts (.inl ofFiles)

/-- The setup with a scripted plan and a scripted judge without rules. -/
def replayedSetup : SessionSetup (List Proposal) Replay.JudgeMemory where
  plan := scriptedPlan
  judge := scriptedJudge [] true
  storage := Storage.usual false
  base := "job"
  folder := "work"
  offset := 0
  limit := .unlimited
  remembers := true

/-- A script in which transformations do not apply before each candidate and before the end. -/
def retried : List Proposal :=
  [.inapplicable [], .candidate (fragmentJob "a\n"), .inapplicable [], .inapplicable [],
    .candidate (fragmentJob "b\n"), .inapplicable []]

/-- A script in which three transformations in a row do not apply. -/
def refused : List Proposal :=
  [.inapplicable [], .candidate (fragmentJob "a\n"), .inapplicable [], .inapplicable [],
    .inapplicable [], .candidate (fragmentJob "b\n")]

theorem holdsFiles_workDirectory : HoldsFiles workDirectory replayedSetup.folder ["work"] := by
  refine ⟨⟨rfl, rfl⟩, fun name _ isFolder => ?_⟩
  cases isFolder

set_option maxRecDepth 10000 in
theorem exists_applicable_alike_of_replayedSetup :
    let memory := Replay.JudgeMemory.start [.interesting, .interesting, .notInteresting]
    let ended := fun script => (run replayedSetup 7 (fragmentJob "c\n")).startingAt
      (start workDirectory script memory)
    replayedSetup.plan = scriptedPlan ∧ replayedSetup.judge.NeverGivesUp ∧
      (ended retried).1.toOption = some (some ("job_reduced_final" : Text)) ∧
      ended (applicable retried) = ((ended retried).1,
        { (ended retried).2 with plan := applicable (ended retried).2.plan }) ∧
      (ended refused).2.tally.attempts = 1 ∧
      (∃ reason, (ended refused).1 = .error (.inapplicable reason)) ∧
      ∀ ending ∈ JobFiles.endings,
        (ended refused).2.bench.directory.nodeAt
            (replayedSetup.folder.join (Trail.finalName replayedSetup.base ++ ending)) =
          workDirectory.nodeAt
            (replayedSetup.folder.join (Trail.finalName replayedSetup.base ++ ending)) := by
  intro memory ended
  have neverGivesUp : replayedSetup.judge.NeverGivesUp := neverGivesUp_scriptedJudge [] true
  obtain ⟨completes, attempted, left⟩ :
      (ended retried).1.toOption = some (some ("job_reduced_final" : Text)) ∧
        (ended refused).2.tally.attempts = 1 ∧ (ended refused).2.plan.length = 1 := by
    decide +kernel
  refine ⟨rfl, neverGivesUp, completes, ?_, attempted, ?_⟩
  · obtain ⟨used, -, gaveUp, alike, -⟩ := exists_applicable_alike_of_run rfl neverGivesUp
      (show ended retried = ((ended retried).1, (ended retried).2) from rfl)
    refine (alike fun inARow => ?_).1
    obtain ⟨reason, failed⟩ := gaveUp.2 inARow
    rw [failed] at completes
    cases completes
  · obtain ⟨used, isUsed, gaveUp, -, stops, -⟩ := exists_applicable_alike_of_run rfl neverGivesUp
      (show ended refused = ((ended refused).1, (ended refused).2) from rfl)
    have isTaken : used = refused.take 5 := by
      have length := congrArg List.length isUsed
      rw [List.length_append, left] at length
      have five : used.length = 5 := (Nat.succ.inj length).symm
      rw [isUsed, List.take_left' five]
    have inARow : FailsInARow 3 used :=
      isTaken ▸ ⟨(refused.drop 2).take 3, ⟨refused.take 2, [], rfl⟩, rfl, by decide⟩
    obtain ⟨_, _, _, _, _, _, _, _, _, _, _, _, _, _, spares⟩ := stops inARow
    exact ⟨gaveUp.2 inARow, spares (writesOnlyResult_scriptedJudge [] true) (by decide) ["work"]
      holdsFiles_workDirectory⟩

end Session

end ShaderReduction
