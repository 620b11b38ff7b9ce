/-
This file proves that a session may be watched without changing it.

A plan and a judge can be given a larger memory in which they note what happens to them. As long as
they do with the rest of it what the plan and the judge that are watched do, the session goes as it
would without them: the same result, and the same state once the notes are forgotten. Statements
about what happened during a session are statements about such notes.
-/

import ShaderReduction.Session

namespace ShaderReduction

/-! ### Actions on a larger state -/

namespace Action

variable {Watched State WatchedPart Part Result Next : Type} {forget : Watched → State}

/-- An action on a larger state goes as an action on what is left of it once the rest is
forgotten. -/
def Projects (forget : Watched → State) (watched : Action Watched Result)
    (action : Action State Result) : Prop :=
  ∀ state, action.startingAt (forget state) =
    ((watched.startingAt state).1, forget (watched.startingAt state).2)

theorem Projects.of_eq {watched : Action Watched Result} {action : Action State Result}
    (projects : Projects forget watched action) {state after : Watched}
    {result : Except Fault Result} (run : watched.startingAt state = (result, after)) :
    action.startingAt (forget state) = (result, forget after) := by
  rw [projects state, run]

theorem projects_self (action : Action State Result) : Projects id action action := fun _ => rfl

theorem projects_pure (result : Result) :
    Projects forget (pure result) (pure result) := fun _ => rfl

theorem projects_throw (fault : Fault) :
    Projects forget (throw fault : Action Watched Result) (throw fault) := fun _ => rfl

theorem projects_ofExcept (result : Except Fault Result) :
    Projects forget (ofExcept result) (ofExcept result) := fun _ => rfl

theorem projects_modify {watched : Watched → Watched} {change : State → State}
    (commutes : ∀ state, change (forget state) = forget (watched state)) :
    Projects forget (modify watched) (modify change) := by
  intro state
  rw [startingAt_modify, startingAt_modify, commutes]

theorem Projects.bind {watchedFirst : Action Watched Result} {first : Action State Result}
    {watchedSecond : Result → Action Watched Next} {second : Result → Action State Next}
    (firstProjects : Projects forget watchedFirst first)
    (secondProjects : ∀ result, Projects forget (watchedSecond result) (second result)) :
    Projects forget (watchedFirst >>= watchedSecond) (first >>= second) := by
  intro state
  cases run : watchedFirst.startingAt state with
  | mk outcome between =>
    rw [startingAt_bind, startingAt_bind, firstProjects.of_eq run, run]
    cases outcome with
    | error fault => rfl
    | ok result => exact secondProjects result between

/-- What is done with a state that was looked at may depend on it, as long as the notes are left
out. -/
theorem projects_get_bind {watchedSecond : Watched → Action Watched Next}
    {second : State → Action State Next}
    (projects : ∀ state, Projects forget (watchedSecond state) (second (forget state))) :
    Projects forget (get >>= watchedSecond) (get >>= second) := by
  intro state
  rw [startingAt_bind, startingAt_bind, startingAt_get, startingAt_get]
  exact projects state state

theorem Projects.onPart {forgetPart : WatchedPart → Part} {watchedRead : Watched → WatchedPart}
    {read : State → Part} {watchedWrite : WatchedPart → Watched → Watched}
    {write : Part → State → State} {watched : Action WatchedPart Result}
    {action : Action Part Result} (projects : Projects forgetPart watched action)
    (reads : ∀ state, read (forget state) = forgetPart (watchedRead state))
    (writes : ∀ part state, write (forgetPart part) (forget state) =
      forget (watchedWrite part state)) :
    Projects forget (onPart watchedRead watchedWrite watched) (onPart read write action) := by
  intro state
  rw [startingAt_onPart, startingAt_onPart, reads, projects (watchedRead state), writes]

end Action

open ShaderReduction.Action

/-- The bench without the notes in its memory. -/
def Bench.forget {Watched Memory : Type} (forget : Watched → Memory) (bench : Bench Watched) :
    Bench Memory :=
  ⟨bench.directory, forget bench.memory⟩

/-- A plan does what another plan does, whatever it notes. -/
structure Plan.Watches {Watched Memory : Type} (forget : Watched → Memory) (watched : Plan Watched)
    (plan : Plan Memory) : Prop where
  propose : ∀ job, Projects forget (watched.propose job) (plan.propose job)
  update : ∀ accepted, Projects forget (watched.update accepted) (plan.update accepted)

/-- A judge does what another judge does, whatever it notes. -/
structure Judge.Watches {Watched Memory : Type} (forget : Watched → Memory)
    (watched : Judge Watched) (judge : Judge Memory) : Prop where
  report : ∀ job result,
    Projects (Bench.forget forget) (watched.report job result) (judge.report job result)

theorem Plan.watches_self {Memory : Type} (plan : Plan Memory) : Plan.Watches id plan plan :=
  ⟨fun _ => projects_self _, fun _ => projects_self _⟩

theorem Judge.watches_self {Memory : Type} (judge : Judge Memory) : Judge.Watches id judge judge :=
  ⟨fun _ _ => projects_self _⟩

/-- The setup with another plan and another judge. -/
def SessionSetup.with {PlanMemory JudgeMemory WatchedPlan WatchedJudge : Type}
    (setup : SessionSetup PlanMemory JudgeMemory) (plan : Plan WatchedPlan)
    (judge : Judge WatchedJudge) : SessionSetup WatchedPlan WatchedJudge :=
  ⟨plan, judge, setup.storage, setup.base, setup.folder, setup.offset, setup.limit, setup.remembers⟩

namespace Session

variable {PlanMemory JudgeMemory WatchedPlan WatchedJudge : Type}

/-- The session without the notes in its memories. -/
def forget (forgetPlan : WatchedPlan → PlanMemory) (forgetJudge : WatchedJudge → JudgeMemory)
    (session : Session WatchedPlan WatchedJudge) : Session PlanMemory JudgeMemory :=
  ⟨session.bench.forget forgetJudge, forgetPlan session.plan, session.cache, session.tally,
    session.accepted, session.current⟩

section Watching

variable {forgetPlan : WatchedPlan → PlanMemory} {forgetJudge : WatchedJudge → JudgeMemory}
  {plan : Plan WatchedPlan} {judge : Judge WatchedJudge}
  {setup : SessionSetup PlanMemory JudgeMemory}

/-! ### Parts of a session -/

theorem projects_onBench {Result : Type} {watched : Action (Bench WatchedJudge) Result}
    {action : Action (Bench JudgeMemory) Result}
    (projects : Projects (Bench.forget forgetJudge) watched action) :
    Projects (forget forgetPlan forgetJudge) (onBench watched) (onBench action) :=
  projects.onPart (fun _ => rfl) fun _ _ => rfl

theorem projects_onDirectory {Result : Type} (action : FileAction Result) :
    Projects (forget forgetPlan forgetJudge) (onDirectory action) (onDirectory action) := by
  refine projects_onBench ?_
  exact (projects_self action).onPart (fun _ => rfl) fun _ _ => rfl

theorem projects_onPlan {Result : Type} {watched : Action WatchedPlan Result}
    {action : Action PlanMemory Result} (projects : Projects forgetPlan watched action) :
    Projects (forget forgetPlan forgetJudge) (onPlan watched) (onPlan action) :=
  projects.onPart (fun _ => rfl) fun _ _ => rfl

theorem projects_onCache {Result : Type} (action : Action VerdictCache Result) :
    Projects (forget forgetPlan forgetJudge) (onCache action) (onCache action) :=
  (projects_self action).onPart (fun _ => rfl) fun _ _ => rfl

theorem projects_count (change : Tally → Tally) :
    Projects (forget forgetPlan forgetJudge) (count change) (count change) :=
  projects_modify fun _ => rfl

/-! ### Judging -/

variable (watchesPlan : Plan.Watches forgetPlan plan setup.plan)
  (watchesJudge : Judge.Watches forgetJudge judge setup.judge)

theorem projects_writeJob (bindings : Option Members) (job : Job) (path : Path) :
    Projects (forget forgetPlan forgetJudge) (writeJob (setup.with plan judge) bindings job path)
      (writeJob setup bindings job path) :=
  (projects_ofExcept _).bind fun _ => projects_onDirectory _

theorem projects_revertFinal (bindings : Option Members) (job : Job) (path : Path) :
    Projects (forget forgetPlan forgetJudge)
      (revertFinal (setup.with plan judge) bindings job path)
      (revertFinal setup bindings job path) :=
  (projects_writeJob bindings job path).bind fun _ =>
    (projects_ofExcept _).bind fun _ => projects_onDirectory _

theorem projects_markIncomplete :
    Projects (forget forgetPlan forgetJudge) (markIncomplete (setup.with plan judge))
      (markIncomplete setup) := by
  refine projects_get_bind fun session => ?_
  show Projects _ (if session.tally.stoppedEarly then _ else _)
    (if session.tally.stoppedEarly then _ else _)
  split
  · exact projects_onDirectory _
  · exact projects_pure _

include watchesJudge

theorem projects_consultJudge (path : Path) :
    Projects (forget forgetPlan forgetJudge) (consultJudge (setup.with plan judge) path)
      (consultJudge setup path) := by
  refine (projects_count _).bind fun _ => (projects_ofExcept _).bind fun result => ?_
  refine projects_onBench ((watchesJudge.report path result).bind fun report => ?_)
  cases report.verdict
  · exact projects_pure _
  · exact projects_pure _
  · exact projects_throw _

theorem projects_judgeJob (bindings : Option Members) (job : Job) (name : Text) :
    Projects (forget forgetPlan forgetJudge) (judgeJob (setup.with plan judge) bindings job name)
      (judgeJob setup bindings job name) :=
  (projects_writeJob bindings job _).bind fun _ => projects_consultJudge watchesJudge _

theorem projects_consultCache (path : Path) :
    Projects (forget forgetPlan forgetJudge) (consultCache (setup.with plan judge) path)
      (consultCache setup path) := by
  refine (projects_onDirectory _).bind fun fingerprint => ?_
  refine (projects_onCache _).bind fun known => ?_
  split
  · exact (projects_count _).bind fun _ => projects_pure _
  · exact (projects_consultJudge watchesJudge path).bind fun _ =>
      (projects_onCache _).bind fun _ => projects_pure _

theorem projects_judgeCandidate (bindings : Option Members) (job : Job) (name : Text) :
    Projects (forget forgetPlan forgetJudge)
      (judgeCandidate (setup.with plan judge) bindings job name)
      (judgeCandidate setup bindings job name) := by
  refine (projects_writeJob bindings job _).bind fun _ => ?_
  show Projects _ (if setup.remembers then _ else _) _
  split
  · exact projects_consultCache watchesJudge _
  · exact projects_consultJudge watchesJudge _

theorem projects_tryInitial (bindings : Option Members) (job : Job) (tries : Nat) :
    Projects (forget forgetPlan forgetJudge)
      (tryInitial (setup.with plan judge) bindings job tries)
      (tryInitial setup bindings job tries) := by
  induction tries with
  | zero => exact projects_pure _
  | succ tries inductionHypothesis =>
    refine (projects_judgeJob watchesJudge bindings job _).bind fun interesting => ?_
    split
    · exact projects_pure _
    · exact inductionHypothesis

theorem projects_checkInitial (bindings : Option Members) (job : Job) :
    Projects (forget forgetPlan forgetJudge) (checkInitial (setup.with plan judge) bindings job)
      (checkInitial setup bindings job) := by
  refine (projects_tryInitial watchesJudge bindings job _).bind fun interesting => ?_
  split
  · exact projects_pure _
  · exact (projects_onDirectory _).bind fun _ => projects_pure _

theorem projects_mayProceed (bindings : Option Members) (job : Job) :
    Projects (forget forgetPlan forgetJudge) (mayProceed (setup.with plan judge) bindings job)
      (mayProceed setup bindings job) := by
  show Projects _ (if 0 < setup.offset then _ else _) (if 0 < setup.offset then _ else _)
  split
  · exact projects_pure _
  · exact projects_checkInitial watchesJudge bindings job

theorem projects_finish (bindings : Option Members) (job : Job) :
    Projects (forget forgetPlan forgetJudge) (finish (setup.with plan judge) bindings job)
      (finish setup bindings job) := by
  refine (projects_judgeJob watchesJudge bindings _ _).bind fun interesting => ?_
  have marked : Projects (forget forgetPlan forgetJudge)
      (markIncomplete (setup.with plan judge) >>= fun _ => pure (Trail.finalName setup.base))
      (markIncomplete setup >>= fun _ => pure (Trail.finalName setup.base)) :=
    projects_markIncomplete.bind fun _ => projects_pure _
  cases interesting with
  | true => exact marked
  | false => exact (projects_revertFinal bindings job _).bind fun _ => marked

omit watchesJudge

/-! ### Attempts -/

include watchesPlan

theorem projects_propose (job : Job) :
    Projects (forget forgetPlan forgetJudge) (propose (setup.with plan judge) job)
      (propose setup job) := by
  intro session
  have asked : Projects (forget forgetPlan forgetJudge) (onPlan (plan.propose job))
      (onPlan (setup.plan.propose job)) := projects_onPlan (watchesPlan.propose job)
  rw [startingAt_propose, startingAt_propose]
  cases run : (onPlan ((setup.with plan judge).plan.propose job)).startingAt session with
  | mk outcome after =>
    rw [asked.of_eq run]
    cases outcome with
    | ok candidate => rfl
    | error fault => cases fault <;> rfl

theorem projects_proposeRetrying (job : Job) (retries : Nat) :
    Projects (forget forgetPlan forgetJudge) (proposeRetrying (setup.with plan judge) job retries)
      (proposeRetrying setup job retries) := by
  induction retries with
  | zero => exact projects_propose watchesPlan job
  | succ retries inductionHypothesis =>
    intro session
    rw [startingAt_proposeRetrying_succ, startingAt_proposeRetrying_succ,
      projects_propose watchesPlan job session]
    rcases (propose (setup.with plan judge) job).startingAt session with ⟨fault | candidate, after⟩
    · cases fault <;> first | rfl | exact inductionHypothesis after
    · rfl

theorem projects_settle (candidate : Job) (interesting : Bool) :
    Projects (forget forgetPlan forgetJudge)
      (settle (setup.with plan judge) candidate interesting)
      (settle setup candidate interesting) := by
  have told : Projects (forget forgetPlan forgetJudge) (onPlan (plan.update interesting))
      (onPlan (setup.plan.update interesting)) := projects_onPlan (watchesPlan.update interesting)
  cases interesting with
  | true => exact Projects.bind (projects_modify fun _ => rfl) fun _ => told
  | false => exact Projects.bind (projects_count _) fun _ => told

include watchesJudge

theorem projects_attemptCandidate (bindings : Option Members) (candidate : Job) (made : Nat) :
    Projects (forget forgetPlan forgetJudge)
      (attemptCandidate (setup.with plan judge) bindings candidate made)
      (attemptCandidate setup bindings candidate made) := by
  refine (projects_count _).bind fun _ => ?_
  refine (projects_judgeCandidate watchesJudge bindings candidate _).bind fun interesting => ?_
  refine (projects_onDirectory _).bind fun _ => ?_
  exact (projects_settle watchesPlan candidate interesting).bind fun _ => projects_pure _

theorem projects_shrink (bindings : Option Members) (budget made : Nat) (job : Job) :
    Projects (forget forgetPlan forgetJudge)
      (shrink (setup.with plan judge) bindings budget made job)
      (shrink setup bindings budget made job) := by
  induction budget generalizing made job with
  | zero => exact projects_throw _
  | succ budget inductionHypothesis =>
    refine (projects_ofExcept _).bind fun reached => ?_
    split
    · exact (projects_count _).bind fun _ => projects_pure _
    · refine (projects_proposeRetrying watchesPlan job _).bind fun proposal => ?_
      cases proposal with
      | none => exact projects_pure _
      | some candidate =>
        exact (projects_attemptCandidate watchesPlan watchesJudge bindings candidate made).bind
          fun accepted => inductionHypothesis (made + 1) _

/-! ### The whole session -/

theorem projects_proceed (bindings : Option Members) (budget : Nat) (job : Job) :
    Projects (forget forgetPlan forgetJudge)
      (proceed (setup.with plan judge) bindings budget job)
      (proceed setup bindings budget job) := by
  refine Projects.bind (projects_modify fun _ => rfl) fun _ => ?_
  exact (projects_shrink watchesPlan watchesJudge bindings budget 0 job).bind fun last =>
    projects_finish watchesJudge bindings last

theorem projects_runFree (bindings : Option Members) (budget : Nat) (job : Job) :
    Projects (forget forgetPlan forgetJudge)
      (runFree (setup.with plan judge) bindings budget job)
      (runFree setup bindings budget job) := by
  refine (projects_mayProceed watchesJudge bindings job).bind fun interesting => ?_
  split
  · exact (projects_proceed watchesPlan watchesJudge bindings budget job).bind fun _ =>
      projects_pure _
  · exact projects_pure _

/-- A watched session goes as it does when nobody watches. -/
theorem projects_run (budget : Nat) (job : Job) :
    Projects (forget forgetPlan forgetJudge) (run (setup.with plan judge) budget job)
      (run setup budget job) := by
  refine (projects_ofExcept _).bind fun bound => ?_
  split
  · refine (projects_ofExcept _).bind fun bindings => (projects_ofExcept _).bind fun free => ?_
    exact projects_runFree watchesPlan watchesJudge _ budget free
  · exact projects_runFree watchesPlan watchesJudge _ budget job

end Watching

end Session

end ShaderReduction
