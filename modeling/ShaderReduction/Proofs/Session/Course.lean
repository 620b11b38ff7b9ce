/-
This file proves what a session that ends with a final job is made of.

Such a session found its input interesting or went on from earlier attempts, made its attempts one
after the other until the limit was reached or the plan was exhausted, and wrote the final job from
the job accepted last. So what every attempt does to a session is done by all of them together, by
induction over their course and with no regard to budgets and faults.
-/

import ShaderReduction.Proofs.Session.Parts
import ShaderReduction.Proofs.Session.Verdicts
import ShaderReduction.Proofs.Trail.Keeping

namespace ShaderReduction

open ShaderReduction.Action

namespace Session

variable {PlanMemory JudgeMemory : Type}

/-! ### What the parts of an attempt do -/

/-- Two sessions differ in the memory of the plan only. -/
def OnlyPlan (before after : Session PlanMemory JudgeMemory) : Prop :=
  ∃ plan, after = { before with plan }

instance : IsPreorder (Session PlanMemory JudgeMemory) OnlyPlan where
  refl session := ⟨session.plan, rfl⟩
  trans _ _ _ first second := by
    obtain ⟨_, rfl⟩ := first
    obtain ⟨plan, rfl⟩ := second
    exact ⟨plan, rfl⟩

section Parts

variable {setup : SessionSetup PlanMemory JudgeMemory} {bindings : Option Members}
  {candidate : Job} {made : Nat} {session after : Session PlanMemory JudgeMemory}

theorem onlyPlan_proposeRetrying (job : Job) (retries : Nat) :
    Respects OnlyPlan (proposeRetrying setup job retries) :=
  respects_proposeRetrying_of (fun _ => ⟨_, rfl⟩) retries

/-- A verdict that is found is that on files known to fail, or one of the judge on files of which
nothing is remembered, which is noted. -/
theorem Tries.judged_eq (remembers : setup.remembers = true)
    {attempt : Attempt PlanMemory JudgeMemory}
    (tries : Tries setup bindings candidate made session attempt) {interesting : Bool}
    (verdict : attempt.verdict = .ok interesting) :
    (interesting = false ∧ attempt.judged = attempt.standing.refusing) ∨
      ∃ fingerprint bench, fingerprint ∉ attempt.standing.cache.failing ∧
        fingerprint ∉ attempt.standing.cache.passing ∧
        (setup.judge.isInteresting attempt.path
          (JobFiles.beside attempt.path JobFiles.resultEnding)).startingAt
            attempt.standing.bench = (.ok interesting, bench) ∧
        attempt.judged = { attempt.standing.asking bench with
          cache := attempt.standing.cache.noted fingerprint interesting } := by
  obtain ⟨nodes, -, taken⟩ := tries.exists_content
  have isJobPath : JobFiles.IsJobPath attempt.path := tries.path ▸ JobFiles.isJobPath_join _ _
  have consulted := tries.consulted
  rw [consult, if_pos remembers, verdict] at consulted
  by_cases failing : setup.storage.digest (JobFiles.inputOf nodes) ∈ attempt.standing.cache.failing
  · rw [startingAt_consultCache_failing taken failing] at consulted
    obtain ⟨answer, judged⟩ := Prod.mk.inj consulted
    exact .inl ⟨(Except.ok.inj answer).symm, judged.symm⟩
  · by_cases passing :
      setup.storage.digest (JobFiles.inputOf nodes) ∈ attempt.standing.cache.passing
    · rw [startingAt_consultCache_passing taken failing passing] at consulted
      cases consulted
    · rw [startingAt_consultCache_new taken isJobPath failing passing] at consulted
      rcases asked : (setup.judge.isInteresting attempt.path
          (JobFiles.beside attempt.path JobFiles.resultEnding)).startingAt attempt.standing.bench
        with ⟨fault | answer, bench⟩
      all_goals rw [asked] at consulted
      · cases consulted
      · obtain ⟨same, judged⟩ := Prod.mk.inj consulted
        obtain rfl := Except.ok.inj same
        exact .inr ⟨_, bench, failing, passing, rfl, judged.symm⟩

end Parts

/-! ### The attempts that were made -/

namespace Attempt

/-- The candidate was accepted. -/
def accepted (attempt : Attempt PlanMemory JudgeMemory) : Bool :=
  match attempt.verdict with
  | .ok interesting => interesting
  | .error _ => false

/-- The step that the attempt makes once it is concluded. -/
def step (attempt : Attempt PlanMemory JudgeMemory) : Trail.Step :=
  ⟨attempt.candidate, attempt.accepted⟩

instance (attempt : Attempt PlanMemory JudgeMemory) : Decidable attempt.Asked :=
  inferInstanceAs (Decidable (_ = _))

end Attempt

/-- An attempt that was made from its beginning to its end: a candidate was found, written, judged
and tagged, and the plan was told. -/
structure Passes (setup : SessionSetup PlanMemory JudgeMemory) (bindings : Option Members)
    (made : Nat) (job : Job) (session proposed : Session PlanMemory JudgeMemory)
    (attempt : Attempt PlanMemory JudgeMemory) (after : Session PlanMemory JudgeMemory) : Prop where
  next : (nextCandidate setup made job).startingAt session =
    (.ok (some attempt.candidate), proposed)
  tries : Tries setup bindings attempt.candidate made proposed attempt
  verdict : attempt.verdict = .ok attempt.accepted
  concluded : (conclude setup attempt.candidate made attempt.accepted).startingAt attempt.judged =
    (.ok attempt.accepted, after)

/-- The attempts on a job, after some have been made, from a session to the one in which no
candidate is left to find, and the job accepted last. -/
inductive Course (setup : SessionSetup PlanMemory JudgeMemory) (bindings : Option Members) :
    Nat → Job → Session PlanMemory JudgeMemory → List (Attempt PlanMemory JudgeMemory) → Job →
      Session PlanMemory JudgeMemory → Prop
  | finished {made : Nat} {job : Job} {session after : Session PlanMemory JudgeMemory}
      (ended : (nextCandidate setup made job).startingAt session = (.ok none, after)) :
      Course setup bindings made job session [] job after
  | attempted {made : Nat} {job last : Job}
      {session proposed between after : Session PlanMemory JudgeMemory}
      {attempt : Attempt PlanMemory JudgeMemory} {attempts : List (Attempt PlanMemory JudgeMemory)}
      (passes : Passes setup bindings made job session proposed attempt between)
      (rest : Course setup bindings (made + 1)
        (if attempt.accepted then attempt.candidate else job) between attempts last after) :
      Course setup bindings made job session (attempt :: attempts) last after

section Course

variable {setup : SessionSetup PlanMemory JudgeMemory} {bindings : Option Members} {made : Nat}
  {job last : Job} {session after : Session PlanMemory JudgeMemory}
  {attempts : List (Attempt PlanMemory JudgeMemory)}

/-- Attempts that end well run their course. -/
theorem course_of_shrink {budget : Nat}
    (shrunk : (shrink setup bindings budget made job).startingAt session = (.ok last, after)) :
    Course setup bindings made job session (attemptsFrom setup bindings budget made job session)
      last after := by
  induction budget generalizing made job session with
  | zero => cases shrunk
  | succ budget inductionHypothesis =>
    have turns := turns_of_shrink shrunk
    generalize attemptsFrom setup bindings (budget + 1) made job session = attempts at *
    cases turns with
    | finished ended => exact .finished ended
    | @concluded candidate proposed between after attempt interesting outcome next tries verdict
        settled rest =>
      obtain rfl := tries.isOf
      have accepted : attempt.accepted = interesting := by rw [Attempt.accepted, verdict]
      subst accepted
      exact .attempted ⟨next, tries, verdict, settled⟩ (inductionHypothesis rest)

theorem Course.verdict_eq (course : Course setup bindings made job session attempts last after)
    {attempt : Attempt PlanMemory JudgeMemory} (member : attempt ∈ attempts) :
    attempt.verdict = .ok attempt.accepted := by
  induction course with
  | finished => exact absurd member List.not_mem_nil
  | attempted passes rest inductionHypothesis =>
    rcases List.mem_cons.1 member with rfl | later
    · exact passes.verdict
    · exact inductionHypothesis later

/-- The attempts end when the limit is reached and no earlier, unless the plan is exhausted. -/
theorem Course.within (course : Course setup bindings made job session attempts last after)
    {count : Nat} (isLimit : setup.limit = .attempts count) (below : made ≤ count) :
    made + attempts.length ≤ count := by
  induction course with
  | finished => exact below
  | @attempted made job last session proposed between after attempt attempts passes rest
      inductionHypothesis =>
    have notReached := (nextCandidate_eq_some passes.next).1
    rw [isLimit, StepLimit.reached] at notReached
    have more := of_decide_eq_false (Except.ok.inj notReached)
    have bound := inductionHypothesis (by omega)
    rw [List.length_cons]
    omega

end Course

/-! ### The whole session -/

/-- What a session on a free job that ends with a final job is made of. -/
structure Stages (setup : SessionSetup PlanMemory JudgeMemory) (bindings : Option Members)
    (free : Job) (session opened : Session PlanMemory JudgeMemory)
    (attempts : List (Attempt PlanMemory JudgeMemory)) (last : Job)
    (shrunk : Session PlanMemory JudgeMemory) (name : Text)
    (after : Session PlanMemory JudgeMemory) : Prop where
  proceeds : (mayProceed setup bindings free).startingAt session = (.ok true, opened)
  course : Course setup bindings 0 free { opened with current := some free } attempts last shrunk
  finished : (finish setup bindings last).startingAt shrunk = (.ok name, after)

/-- A session that ends with a final job goes through all its stages. -/
theorem exists_stages_of_run {setup : SessionSetup PlanMemory JudgeMemory} {budget : Nat}
    {job : Job} {session after : Session PlanMemory JudgeMemory} {name : Text}
    (ran : (run setup budget job).startingAt session = (.ok (some name), after)) :
    ∃ bindings free, freeForm job = .ok (bindings, free) ∧ ∃ opened last shrunk,
      Stages setup bindings free session opened (attempts setup budget job session) last shrunk
        name after := by
  obtain ⟨bindings, free, isForm, rest⟩ := run_eq_ok ran
  obtain ⟨opened, last, shrunk, checked, made, finished⟩ := runFree_eq_some rest
  refine ⟨bindings, free, isForm, opened, last, shrunk, checked, ?_, finished⟩
  have attempted : Session.attempts setup budget job session =
      attemptsFrom setup bindings budget 0 free { opened with current := some free } := by
    unfold Session.attempts
    rw [isForm]
    dsimp only
    rw [checked]
  rw [attempted]
  exact course_of_shrink made

end Session

end ShaderReduction
