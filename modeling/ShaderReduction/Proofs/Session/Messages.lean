/-
This file defines what passes between a session and its plan.

A logged plan notes each job that it is asked about and each answer that it is told, and does
nothing else that the plan would not do. What it notes during a session are the messages of the
session. The attempts of a session with a logged plan are those of the session itself once the notes
are forgotten.
-/

import ShaderReduction.Proofs.Session.Attempts
import ShaderReduction.Proofs.Session.Watching

namespace ShaderReduction

open ShaderReduction.Action

/-- What a session says to its plan: the job that it asks about, or whether the last proposal was
accepted. -/
inductive Message where
  | asked (job : Job)
  | told (accepted : Bool)

/-- The memory of a plan with the messages that it got. -/
structure Logged (Memory : Type) where
  memory : Memory
  messages : List Message

namespace Logged

/-- Notes a message. -/
def note {Memory : Type} (message : Message) : Action (Logged Memory) Unit :=
  modify fun logged => { logged with messages := logged.messages ++ [message] }

/-- An action of the plan, which gets no message. -/
def ofPlan {Memory Result : Type} (action : Action Memory Result) : Action (Logged Memory) Result :=
  Action.onPart Logged.memory (fun memory logged => { logged with memory }) action

end Logged

namespace Plan

variable {Memory : Type}

/-- The plan that notes its messages. -/
def logged (plan : Plan Memory) : Plan (Logged Memory) where
  propose job := do
    Logged.note (.asked job)
    Logged.ofPlan (plan.propose job)
  update accepted := do
    Logged.note (.told accepted)
    Logged.ofPlan (plan.update accepted)

theorem watches_logged (plan : Plan Memory) : Plan.Watches Logged.memory plan.logged plan where
  propose _ _ := rfl
  update _ _ := rfl

end Plan

/-- The setup whose plan notes its messages. -/
def SessionSetup.logged {PlanMemory JudgeMemory : Type}
    (setup : SessionSetup PlanMemory JudgeMemory) : SessionSetup (Logged PlanMemory) JudgeMemory :=
  setup.with setup.plan.logged setup.judge

namespace Session

variable {PlanMemory JudgeMemory WatchedPlan WatchedJudge : Type}

/-- The session that begins in a directory with a plan that has got no messages. -/
def startLogged (directory : Directory) (plan : PlanMemory) (judge : JudgeMemory) :
    Session (Logged PlanMemory) JudgeMemory :=
  start directory ⟨plan, []⟩ judge

/-- The messages that pass from the session on a job to its plan. -/
def messages (setup : SessionSetup PlanMemory JudgeMemory) (budget : Nat) (job : Job)
    (directory : Directory) (planMemory : PlanMemory) (judgeMemory : JudgeMemory) : List Message :=
  ((run setup.logged budget job).startingAt
    (startLogged directory planMemory judgeMemory)).2.plan.messages

/-! ### Attempts that are watched -/

/-- The attempt without the notes in its memories. -/
def Attempt.forget (forgetPlan : WatchedPlan → PlanMemory)
    (forgetJudge : WatchedJudge → JudgeMemory) (attempt : Attempt WatchedPlan WatchedJudge) :
    Attempt PlanMemory JudgeMemory :=
  ⟨attempt.candidate, attempt.path, attempt.standing.forget forgetPlan forgetJudge, attempt.verdict,
    attempt.judged.forget forgetPlan forgetJudge⟩

section Watched

variable {forgetPlan : WatchedPlan → PlanMemory} {forgetJudge : WatchedJudge → JudgeMemory}
  {plan : Plan WatchedPlan} {judge : Judge WatchedJudge}
  {setup : SessionSetup PlanMemory JudgeMemory}
  (watchesPlan : Plan.Watches forgetPlan plan setup.plan)
  (watchesJudge : Judge.Watches forgetJudge judge setup.judge)

include watchesPlan in
theorem projects_nextCandidate (made : Nat) (job : Job) :
    Projects (forget forgetPlan forgetJudge) (nextCandidate (setup.with plan judge) made job)
      (nextCandidate setup made job) := by
  refine (projects_ofExcept _).bind fun reached => ?_
  split
  · exact (projects_count _).bind fun _ => projects_pure _
  · exact projects_proposeRetrying watchesPlan job _

theorem projects_writeCandidate (bindings : Option Members) (candidate : Job) (made : Nat) :
    Projects (forget forgetPlan forgetJudge)
      (writeCandidate (setup.with plan judge) bindings candidate made)
      (writeCandidate setup bindings candidate made) :=
  (projects_count _).bind fun _ => projects_writeJob bindings candidate _

include watchesJudge in
theorem projects_consult (path : Path) :
    Projects (forget forgetPlan forgetJudge) (consult (setup.with plan judge) path)
      (consult setup path) := by
  show Projects _ (if setup.remembers then _ else _) (if setup.remembers then _ else _)
  split
  · exact projects_consultCache watchesJudge path
  · exact projects_consultJudge watchesJudge path

include watchesJudge in
theorem attempt?_forget (bindings : Option Members) (candidate : Job) (made : Nat)
    (session : Session WatchedPlan WatchedJudge) :
    (attempt? (setup.with plan judge) bindings candidate made session).map
        (Attempt.forget forgetPlan forgetJudge) =
      attempt? setup bindings candidate made (session.forget forgetPlan forgetJudge) := by
  rw [attempt?, attempt?, projects_writeCandidate bindings candidate made session]
  rcases (writeCandidate (setup.with plan judge) bindings candidate made).startingAt session with
    ⟨fault | _, standing⟩
  · rfl
  · have projects : Projects (forget forgetPlan forgetJudge)
        (consult (setup.with plan judge) (stepPath setup made))
        (consult setup (stepPath setup made)) := projects_consult watchesJudge _
    dsimp only
    rw [projects standing]
    rfl

include watchesPlan watchesJudge in
/-- The attempts of a watched session are those that are made when nobody watches. -/
theorem attemptsFrom_forget (bindings : Option Members) (budget made : Nat) (job : Job)
    (session : Session WatchedPlan WatchedJudge) :
    (attemptsFrom (setup.with plan judge) bindings budget made job session).map
        (Attempt.forget forgetPlan forgetJudge) =
      attemptsFrom setup bindings budget made job (session.forget forgetPlan forgetJudge) := by
  induction budget generalizing made job session with
  | zero => rfl
  | succ budget inductionHypothesis =>
    rw [attemptsFrom, attemptsFrom, projects_nextCandidate watchesPlan made job session]
    rcases (nextCandidate (setup.with plan judge) made job).startingAt session with
      ⟨fault | proposal, proposed⟩
    · rfl
    cases proposal with
    | none => rfl
    | some candidate =>
      dsimp only
      rw [List.map_append, ← Option.toList_map, attempt?_forget watchesJudge,
        projects_attemptCandidate watchesPlan watchesJudge bindings candidate made proposed]
      refine congrArg _ ?_
      rcases (attemptCandidate (setup.with plan judge) bindings candidate made).startingAt proposed
        with ⟨fault | accepted, after⟩
      · rfl
      · exact inductionHypothesis (made + 1) _ after

include watchesPlan watchesJudge in
theorem attempts_forget (budget : Nat) (job : Job) (session : Session WatchedPlan WatchedJudge) :
    (attempts (setup.with plan judge) budget job session).map
        (Attempt.forget forgetPlan forgetJudge) =
      attempts setup budget job (session.forget forgetPlan forgetJudge) := by
  unfold attempts
  cases freeForm job with
  | error fault => rfl
  | ok form =>
    obtain ⟨bindings, free⟩ := form
    dsimp only
    rw [projects_mayProceed watchesJudge bindings free session]
    rcases (mayProceed (setup.with plan judge) bindings free).startingAt session with
      ⟨fault | may, opened⟩
    · rfl
    · cases may with
      | false => rfl
      | true => exact attemptsFrom_forget watchesPlan watchesJudge bindings budget 0 free _

end Watched

end Session

end ShaderReduction
