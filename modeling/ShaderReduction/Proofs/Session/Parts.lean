/-
This file takes the stages of a session apart: the check of the input, the final job and the whole
session.

What is true of actions one after the other as soon as it is true of each of them is true of a stage
if it is true of its parts, so each property of that kind is only looked at for the parts. And a
stage that gave an answer has taken the steps that lead to it, which are named here once for all
that is said of them.
-/

import ShaderReduction.Proofs.Respect
import ShaderReduction.Session

namespace ShaderReduction

open ShaderReduction.Action

namespace Session

variable {PlanMemory JudgeMemory : Type} {setup : SessionSetup PlanMemory JudgeMemory}
  {bindings : Option Members} {job : Job}

/-! ### What is true of the stages by their parts -/

section Parts

variable {holds : ∀ {Result : Type}, Step PlanMemory JudgeMemory Result → Prop}
  (composes : Composes holds)

include composes

theorem holds_tryInitial (judged : holds (judgeJob setup bindings job setup.base)) (tries : Nat) :
    holds (tryInitial setup bindings job tries) := by
  induction tries with
  | zero => exact composes.pure _
  | succ tries inductionHypothesis =>
    refine composes.bind judged fun interesting => ?_
    split
    · exact composes.pure _
    · exact inductionHypothesis

theorem holds_mayProceed (judged : holds (judgeJob setup bindings job setup.base))
    (marked : holds (onDirectory (FileAction.touch
      (setup.folder.join Trail.notInterestingMarker)))) :
    holds (mayProceed setup bindings job) := by
  unfold mayProceed
  split
  · exact composes.pure _
  · refine composes.bind (holds_tryInitial composes judged _) fun interesting => ?_
    split
    · exact composes.pure _
    · exact composes.bind marked fun _ => composes.pure _

theorem holds_markIncomplete
    (looked : holds (get : Step PlanMemory JudgeMemory (Session PlanMemory JudgeMemory)))
    (marked : holds (onDirectory (FileAction.touch
      (setup.folder.join Trail.incompleteMarker)))) :
    holds (markIncomplete setup) := by
  refine composes.bind looked fun session => ?_
  split
  · exact marked
  · exact composes.pure _

theorem holds_finish
    (judged : holds (judgeJob setup bindings job.simplify (Trail.finalName setup.base)))
    (reverted : holds (revertFinal setup bindings job
      (jobPath setup (Trail.finalName setup.base))))
    (marked : holds (markIncomplete setup)) : holds (finish setup bindings job) := by
  have ended : holds (markIncomplete setup >>= fun _ => pure (Trail.finalName setup.base)) :=
    composes.bind marked fun _ => composes.pure _
  refine composes.bind judged fun interesting => ?_
  cases interesting with
  | true => exact ended
  | false => exact composes.bind reverted fun _ => ended

end Parts

/-! ### Stages that gave an answer -/

section Answers

variable {budget : Nat} {name : Text} {session after : Session PlanMemory JudgeMemory}

/-- A job on which a session goes on was judged until it was found interesting, or there were
attempts before. -/
theorem mayProceed_eq_true
    (checked : (mayProceed setup bindings job).startingAt session = (.ok true, after)) :
    (0 < setup.offset ∧ after = session) ∨
      (¬0 < setup.offset ∧
        (tryInitial setup bindings job initialTries).startingAt session = (.ok true, after)) := by
  unfold mayProceed at checked
  split at checked
  · next continued =>
    cases checked
    exact .inl ⟨continued, rfl⟩
  · next begun =>
    obtain ⟨interesting, between, tried, rest⟩ := bind_eq_ok_iff.1 checked
    cases interesting with
    | true =>
      cases rest
      exact .inr ⟨begun, tried⟩
    | false =>
      obtain ⟨_, _, _, refused⟩ := bind_eq_ok_iff.1 rest
      cases refused

/-- A job on which a session does not go on was judged in vain, and the marker was left. -/
theorem mayProceed_eq_false
    (checked : (mayProceed setup bindings job).startingAt session = (.ok false, after)) :
    ∃ between,
      (tryInitial setup bindings job initialTries).startingAt session = (.ok false, between) ∧
      (onDirectory (FileAction.touch (setup.folder.join Trail.notInterestingMarker))).startingAt
        between = (.ok (), after) := by
  unfold mayProceed at checked
  split at checked
  · cases checked
  · obtain ⟨interesting, between, tried, rest⟩ := bind_eq_ok_iff.1 checked
    cases interesting with
    | true => cases rest
    | false =>
      obtain ⟨_, marked, touched, answer⟩ := bind_eq_ok_iff.1 rest
      cases answer
      exact ⟨between, tried, touched⟩

theorem markIncomplete_eq_ok
    (marked : (markIncomplete setup).startingAt session = (.ok (), after)) :
    (session.tally.stoppedEarly = true ∧
        (onDirectory (FileAction.touch (setup.folder.join Trail.incompleteMarker))).startingAt
          session = (.ok (), after)) ∨
      (session.tally.stoppedEarly = false ∧ after = session) := by
  rw [markIncomplete, startingAt_bind, startingAt_get] at marked
  dsimp only at marked
  split at marked
  · next stopped => exact .inl ⟨stopped, marked⟩
  · next running =>
    cases marked
    exact .inr ⟨Bool.eq_false_iff.2 running, rfl⟩

/-- A final job was judged in its simplified form, and reverted if that was not interesting. -/
theorem finish_eq_ok
    (finished : (finish setup bindings job).startingAt session = (.ok name, after)) :
    name = Trail.finalName setup.base ∧ ∃ interesting judged final,
      (judgeJob setup bindings job.simplify name).startingAt session = (.ok interesting, judged) ∧
      (interesting = true ∧ judged = final ∨ interesting = false ∧
        (revertFinal setup bindings job (jobPath setup name)).startingAt judged =
          (.ok (), final)) ∧
      (markIncomplete setup).startingAt final = (.ok (), after) := by
  obtain ⟨interesting, judged, asked, rest⟩ := bind_eq_ok_iff.1 finished
  cases interesting with
  | true =>
    obtain ⟨_, last, marked, answer⟩ := bind_eq_ok_iff.1 rest
    cases answer
    exact ⟨rfl, true, judged, judged, asked, .inl ⟨rfl, rfl⟩, marked⟩
  | false =>
    obtain ⟨_, final, reverted, rest⟩ := bind_eq_ok_iff.1 rest
    obtain ⟨_, last, marked, answer⟩ := bind_eq_ok_iff.1 rest
    cases answer
    exact ⟨rfl, false, judged, final, asked, .inr ⟨rfl, reverted⟩, marked⟩

/-- A session with a final job went on from its job, made its attempts and finished. -/
theorem runFree_eq_some
    (ran : (runFree setup bindings budget job).startingAt session = (.ok (some name), after)) :
    ∃ opened last shrunk,
      (mayProceed setup bindings job).startingAt session = (.ok true, opened) ∧
      (shrink setup bindings budget 0 job).startingAt { opened with current := some job } =
        (.ok last, shrunk) ∧
      (finish setup bindings last).startingAt shrunk = (.ok name, after) := by
  obtain ⟨may, opened, checked, rest⟩ := bind_eq_ok_iff.1 ran
  cases may with
  | false => cases rest
  | true =>
    obtain ⟨found, second, proceeded, answer⟩ := bind_eq_ok_iff.1 rest
    cases answer
    obtain ⟨_, third, begun, rest⟩ := bind_eq_ok_iff.1 proceeded
    cases begun
    obtain ⟨last, shrunk, made, finished⟩ := bind_eq_ok_iff.1 rest
    exact ⟨opened, last, shrunk, checked, made, finished⟩

/-- A session without a final job did not go on from its job. -/
theorem runFree_eq_none
    (ran : (runFree setup bindings budget job).startingAt session = (.ok none, after)) :
    (mayProceed setup bindings job).startingAt session = (.ok false, after) := by
  obtain ⟨may, opened, checked, rest⟩ := bind_eq_ok_iff.1 ran
  cases may with
  | true =>
    obtain ⟨_, _, _, answer⟩ := bind_eq_ok_iff.1 rest
    cases answer
  | false =>
    cases rest
    exact checked

end Answers

end Session

end ShaderReduction
