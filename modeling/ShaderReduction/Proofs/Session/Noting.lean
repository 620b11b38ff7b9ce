/-
This file defines which steps a plan was told about.

A noted plan remembers the candidate that it proposed last and, each time it is told about that, the
step. A session tells its plan about an attempt when the attempt was judged and tagged, so these are
the completed steps of a session. Noting them changes nothing in what the plan proposes.
-/

import ShaderReduction.Proofs.Directory.Faults
import ShaderReduction.Proofs.Session.Confinement
import ShaderReduction.Proofs.Session.Watching
import ShaderReduction.Proofs.Trail.Keeping

namespace ShaderReduction

open ShaderReduction.Action

/-- The memory of a plan with the candidate proposed last and the steps that it was told about. -/
structure Noted (Memory : Type) where
  memory : Memory
  pending : Option Job
  steps : List Trail.Step

namespace Noted

/-- An action of the plan, which notes nothing. -/
def ofPlan {Memory Result : Type} (action : Action Memory Result) : Action (Noted Memory) Result :=
  Action.onPart Noted.memory (fun memory noted => { noted with memory }) action

/-- The notes after the plan was told about its last proposal. -/
def told {Memory : Type} (accepted : Bool) (noted : Noted Memory) : Noted Memory :=
  { noted with
    steps := noted.steps ++ (noted.pending.map fun candidate => ⟨candidate, accepted⟩).toList }

end Noted

namespace Plan

variable {Memory : Type}

/-- The plan that notes its steps. -/
def noted (plan : Plan Memory) : Plan (Noted Memory) where
  propose job := do
    let candidate ← Noted.ofPlan (plan.propose job)
    modify fun noted => { noted with pending := some candidate }
    pure candidate
  update accepted := do
    Noted.ofPlan (plan.update accepted)
    modify (Noted.told accepted)

theorem watches_noted (plan : Plan Memory) : Plan.Watches Noted.memory plan.noted plan where
  propose job := by
    intro noted
    simp only [Plan.noted, Noted.ofPlan, startingAt_bind, startingAt_onPart, startingAt_modify,
      startingAt_pure]
    rcases (plan.propose job).startingAt noted.memory with ⟨fault | candidate, after⟩ <;> rfl
  update accepted := by
    intro noted
    simp only [Plan.noted, Noted.ofPlan, startingAt_bind, startingAt_onPart, startingAt_modify]
    rcases (plan.update accepted).startingAt noted.memory with ⟨fault | answer, after⟩ <;> rfl

/-- A plan makes good candidates of good jobs, and being told about them is no failure of a
judge. -/
structure Steady (good : Job → Prop) (plan : Plan Memory) : Prop where
  propose : ∀ job memory candidate after, good job →
    (plan.propose job).startingAt memory = (.ok candidate, after) → good candidate
  update : ∀ accepted, Fails Fault.NotOfJudge (plan.update accepted)

variable {plan : Plan Memory} {before after : Noted Memory}

/-- The steps stay while a plan proposes. -/
def SameSteps (before after : Noted Memory) : Prop := before.steps = after.steps

instance : IsPreorder (Noted Memory) SameSteps where
  refl _ := rfl
  trans _ _ _ := Eq.trans

theorem respects_noted_propose (job : Job) : Respects SameSteps (plan.noted.propose job) := by
  refine Respects.bind (fun _ => rfl) fun candidate => ?_
  exact Respects.bind (fun _ => rfl) fun _ => respects_pure _

theorem noted_propose_eq_ok {job candidate : Job}
    (proposed : (plan.noted.propose job).startingAt before = (.ok candidate, after)) :
    after.pending = some candidate ∧
      ∃ memory, (plan.propose job).startingAt before.memory = (.ok candidate, memory) := by
  obtain ⟨found, first, run, rest⟩ := bind_eq_ok_iff.1 proposed
  obtain ⟨_, second, set, answer⟩ := bind_eq_ok_iff.1 rest
  obtain ⟨memory, made, -⟩ := onPart_eq_iff.1 run
  cases set
  cases answer
  exact ⟨rfl, memory, made⟩

theorem noted_update_eq_ok {accepted : Bool} {candidate : Job}
    (told : (plan.noted.update accepted).startingAt before = (.ok (), after))
    (pending : before.pending = some candidate) :
    after.steps = before.steps ++ [⟨candidate, accepted⟩] := by
  obtain ⟨_, first, run, noted⟩ := bind_eq_ok_iff.1 told
  obtain ⟨memory, -, rfl⟩ := onPart_eq_iff.1 run
  obtain rfl : Noted.told accepted { before with memory } = after := congrArg Prod.snd noted
  rw [Noted.told]
  dsimp only
  rw [pending]
  rfl

theorem Steady.fails_noted_update {good : Job → Prop} (steady : Steady good plan)
    (accepted : Bool) :
    Fails Fault.NotOfJudge (plan.noted.update accepted) :=
  Fails.bind (Fails.onPart (steady.update accepted)) fun _ => fails_modify _

end Plan

namespace Session

variable {PlanMemory JudgeMemory : Type} {setup : SessionSetup (Noted PlanMemory) JudgeMemory}
  {plan : Plan PlanMemory} {good : Job → Prop} {job : Job}
  {session after : Session (Noted PlanMemory) JudgeMemory}

/-- What asking a plan for a candidate leaves: the same bench and the same steps, and the candidate,
if there is one, noted. -/
structure Asked (good : Job → Prop) (before after : Session (Noted PlanMemory) JudgeMemory)
    (outcome : Except Fault (Option Job)) : Prop where
  bench : before.bench = after.bench
  steps : before.plan.steps = after.plan.steps
  candidate : ∀ candidate, outcome = .ok (some candidate) →
    after.plan.pending = some candidate ∧ good candidate

theorem asked_of_propose (isNoted : setup.plan = plan.noted) (steady : plan.Steady good)
    (isGood : good job) {outcome : Except Fault (Option Job)}
    (proposed : (propose setup job).startingAt session = (outcome, after)) :
    Asked good session after outcome := by
  rw [startingAt_propose, isNoted] at proposed
  have kept : Respects Plan.SameSteps (plan.noted.propose job) := Plan.respects_noted_propose job
  have steps := kept session.plan
  cases run : (plan.noted.propose job).startingAt session.plan with
  | mk found memory =>
    rw [run] at steps
    rw [onPlan, startingAt_onPart, run] at proposed
    cases found with
    | ok candidate =>
      cases proposed
      obtain ⟨pending, inner, made⟩ := Plan.noted_propose_eq_ok run
      refine ⟨rfl, steps, fun other same => ?_⟩
      cases same
      exact ⟨pending, steady.propose _ _ _ _ isGood made⟩
    | error fault =>
      have none : ∀ candidate, outcome ≠ .ok (some candidate) := by
        rintro candidate rfl
        cases fault <;> cases proposed
      have same : after = { session with plan := memory } := by
        cases fault <;> exact (congrArg Prod.snd proposed).symm
      subst same
      exact ⟨rfl, steps, fun candidate found => absurd found (none candidate)⟩

theorem asked_of_proposeRetrying (isNoted : setup.plan = plan.noted) (steady : plan.Steady good)
    (isGood : good job) {retries : Nat} {outcome : Except Fault (Option Job)}
    (proposed : (proposeRetrying setup job retries).startingAt session = (outcome, after)) :
    Asked good session after outcome := by
  induction retries generalizing session with
  | zero => exact asked_of_propose isNoted steady isGood proposed
  | succ retries inductionHypothesis =>
    rw [startingAt_proposeRetrying_succ] at proposed
    cases run : (propose setup job).startingAt session with
    | mk first between =>
      have asked := asked_of_propose isNoted steady isGood run
      rw [run] at proposed
      by_cases again : ∃ reason, first = .error (.inapplicable reason)
      · obtain ⟨reason, rfl⟩ := again
        have rest := inductionHypothesis proposed
        exact ⟨asked.bench.trans rest.bench, asked.steps.trans rest.steps, rest.candidate⟩
      · have same : (first, between) = (outcome, after) := by
          rcases first with fault | candidate
          · cases fault <;> first | exact proposed | exact absurd ⟨_, rfl⟩ again
          · exact proposed
        cases same
        exact asked

end Session

end ShaderReduction
