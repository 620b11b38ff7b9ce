/-
This file proves how a verdict on a candidate is found, and what else a session remembers.

Asking the judge is counted and changes nothing but the bench. Looking a verdict up first goes one
of three ways: files that are known to fail are rejected and files that were accepted end the
session, both without the judge; of all others the verdict of the judge is noted, and nothing stands
against it. Whatever else a session does, it leaves alone what is remembered.
-/

import ShaderReduction.Proofs.Session.Attempts

namespace ShaderReduction

open ShaderReduction.Action

namespace VerdictCache

/-- What is remembered with one more verdict. -/
def noted (fingerprint : Text) (interesting : Bool) (cache : VerdictCache) : VerdictCache :=
  if interesting then { cache with passing := add fingerprint cache.passing }
  else { cache with failing := add fingerprint cache.failing }

theorem mem_add_iff (fingerprint other : Text) (known : List Text) :
    other ∈ add fingerprint known ↔ other ∈ known ∨ other = fingerprint := by
  unfold add
  split
  · next isKnown =>
    exact ⟨.inl, fun either => either.elim id fun same => same ▸ isKnown⟩
  · rw [List.mem_append, List.mem_singleton]

/-- The fingerprints that are remembered with a verdict. -/
def known (interesting : Bool) (cache : VerdictCache) : List Text :=
  if interesting then cache.passing else cache.failing

theorem mem_known_noted_iff (fingerprint other : Text) (verdict interesting : Bool)
    (cache : VerdictCache) :
    other ∈ (cache.noted fingerprint verdict).known interesting ↔
      other ∈ cache.known interesting ∨ verdict = interesting ∧ other = fingerprint := by
  cases verdict <;> cases interesting <;> simp [noted, known, mem_add_iff]

/-- Of files of which nothing is remembered, any verdict can be noted. -/
theorem startingAt_record {fingerprint : Text} {cache : VerdictCache}
    (notFailing : fingerprint ∉ cache.failing) (notPassing : fingerprint ∉ cache.passing)
    (interesting : Bool) :
    (record fingerprint interesting).startingAt cache =
      (.ok (), cache.noted fingerprint interesting) := by
  cases interesting <;> simp [record, noted, notFailing, notPassing]

end VerdictCache

namespace Session

variable {PlanMemory JudgeMemory : Type}

/-! ### Where verdicts are not remembered -/

/-- Two sessions remember the same verdicts. -/
def SameCache (before after : Session PlanMemory JudgeMemory) : Prop := before.cache = after.cache

instance : IsPreorder (Session PlanMemory JudgeMemory) SameCache where
  refl _ := rfl
  trans _ _ _ := Eq.trans

section SameCache

variable {setup : SessionSetup PlanMemory JudgeMemory} {bindings : Option Members}

theorem sameCache_onBench {Result : Type} (action : Action (Bench JudgeMemory) Result) :
    Respects SameCache (onBench action : Step PlanMemory JudgeMemory Result) := fun _ => rfl

theorem sameCache_onPlan {Result : Type} (action : Action PlanMemory Result) :
    Respects SameCache (onPlan action : Step PlanMemory JudgeMemory Result) := fun _ => rfl

theorem sameCache_count (change : Tally → Tally) :
    Respects SameCache (count change : Step PlanMemory JudgeMemory Unit) := fun _ => rfl

theorem sameCache_nextCandidate (made : Nat) (job : Job) :
    Respects SameCache (nextCandidate setup made job) := by
  refine (respects_ofExcept _).bind fun reached => ?_
  split
  · exact (sameCache_count _).bind fun _ => respects_pure _
  · exact respects_proposeRetrying_of (sameCache_onPlan _) _

theorem sameCache_writeJob (job : Job) (path : Path) :
    Respects SameCache (writeJob setup bindings job path) :=
  (respects_ofExcept _).bind fun _ => sameCache_onBench _

theorem sameCache_writeCandidate (candidate : Job) (made : Nat) :
    Respects SameCache (writeCandidate setup bindings candidate made) :=
  (sameCache_count _).bind fun _ => sameCache_writeJob candidate _

theorem sameCache_conclude (candidate : Job) (made : Nat) (interesting : Bool) :
    Respects SameCache (conclude setup candidate made interesting) := by
  have tagged : Respects SameCache
      (tagStep setup ((made : Int) + 1 + setup.offset) (Outcome.ofVerdict interesting)) :=
    sameCache_onBench _
  refine tagged.bind fun _ => Respects.bind ?_ fun _ => respects_pure _
  have told : Respects SameCache
      (onPlan (setup.plan.update interesting) : Step PlanMemory JudgeMemory Unit) :=
    sameCache_onPlan _
  cases interesting with
  | true => exact Respects.bind (fun _ => rfl) fun _ => told
  | false => exact (sameCache_count _).bind fun _ => told

theorem sameCache_judgeJob (job : Job) (name : Text) :
    Respects SameCache (judgeJob setup bindings job name) := by
  refine (sameCache_writeJob job _).bind fun _ => (sameCache_count _).bind fun _ => ?_
  exact (respects_ofExcept _).bind fun _ => sameCache_onBench _

theorem sameCache_mayProceed (job : Job) :
    Respects SameCache (mayProceed setup bindings job) :=
  holds_mayProceed composes_respects (sameCache_judgeJob job _) (sameCache_onBench _)

theorem sameCache_finish (job : Job) : Respects SameCache (finish setup bindings job) := by
  have reverted : Respects SameCache
      (revertFinal setup bindings job (jobPath setup (Trail.finalName setup.base))) :=
    (sameCache_writeJob job _).bind fun _ => (respects_ofExcept _).bind fun _ =>
      sameCache_onBench _
  have marked : Respects SameCache (markIncomplete setup) :=
    holds_markIncomplete composes_respects respects_get (sameCache_onBench _)
  exact holds_finish composes_respects (sameCache_judgeJob _ _) reverted marked

end SameCache

/-! ### Finding a verdict -/

section Consulting

variable {setup : SessionSetup PlanMemory JudgeMemory} {path : Path} {fingerprint : Text}
  {session : Session PlanMemory JudgeMemory}

/-- The session after the judge was asked. -/
def asking (bench : Bench JudgeMemory) (session : Session PlanMemory JudgeMemory) :
    Session PlanMemory JudgeMemory :=
  { session with
    bench
    tally := { session.tally with judgeCalls := session.tally.judgeCalls + 1 } }

theorem startingAt_consultJudge (isJobPath : JobFiles.IsJobPath path)
    (session : Session PlanMemory JudgeMemory) :
    (consultJudge setup path).startingAt session =
      match (setup.judge.isInteresting path
          (JobFiles.beside path JobFiles.resultEnding)).startingAt session.bench with
      | (verdict, bench) => (verdict, session.asking bench) := by
  rw [consultJudge, JobFiles.result_eq_ok isJobPath.plain]
  rfl

/-- The session after a candidate was rejected because its files are known to fail. -/
def refusing (session : Session PlanMemory JudgeMemory) : Session PlanMemory JudgeMemory :=
  { session with
    cache := { session.cache with hits := session.cache.hits + 1 }
    tally := { session.tally with cacheHits := session.tally.cacheHits + 1 } }

variable (taken : (JobFiles.fingerprint setup.storage path).startingAt session.bench.directory =
  (.ok fingerprint, session.bench.directory))

include taken

theorem startingAt_fingerprint_eq_ok :
    (onDirectory (JobFiles.fingerprint setup.storage path) :
      Step PlanMemory JudgeMemory Text).startingAt session = (.ok fingerprint, session) :=
  onDirectory_eq_iff.2 ⟨_, taken, rfl⟩

/-- Files that are known to fail are rejected without the judge. -/
theorem startingAt_consultCache_failing (failing : fingerprint ∈ session.cache.failing) :
    (consultCache setup path).startingAt session = (.ok false, session.refusing) := by
  rw [consultCache, startingAt_bind, startingAt_fingerprint_eq_ok taken]
  simp [onCache, VerdictCache.lookup, failing, count, refusing]

/-- Files that were accepted end the session. -/
theorem startingAt_consultCache_passing (notFailing : fingerprint ∉ session.cache.failing)
    (passing : fingerprint ∈ session.cache.passing) :
    (consultCache setup path).startingAt session = (.error .loop, session) := by
  rw [consultCache, startingAt_bind, startingAt_fingerprint_eq_ok taken]
  simp [onCache, VerdictCache.lookup, notFailing, passing]

/-- Of files of which nothing is remembered, the verdict of the judge is noted. -/
theorem startingAt_consultCache_new (isJobPath : JobFiles.IsJobPath path)
    (notFailing : fingerprint ∉ session.cache.failing)
    (notPassing : fingerprint ∉ session.cache.passing) :
    (consultCache setup path).startingAt session =
      match (setup.judge.isInteresting path
          (JobFiles.beside path JobFiles.resultEnding)).startingAt session.bench with
      | (.ok interesting, bench) =>
        (.ok interesting, { session.asking bench with
          cache := session.cache.noted fingerprint interesting })
      | (.error fault, bench) => (.error fault, session.asking bench) := by
  have looked : (onCache (VerdictCache.lookup fingerprint) :
      Step PlanMemory JudgeMemory Bool).startingAt session = (.ok false, session) := by
    simp [onCache, VerdictCache.lookup, notFailing, notPassing]
  rw [consultCache, startingAt_bind, startingAt_fingerprint_eq_ok taken]
  dsimp only
  rw [startingAt_bind, looked]
  dsimp only
  rw [if_neg Bool.false_ne_true, startingAt_bind, startingAt_consultJudge isJobPath]
  rcases (setup.judge.isInteresting path _).startingAt session.bench with ⟨fault | verdict, bench⟩
  · rfl
  · dsimp only
    rw [startingAt_bind, onCache, startingAt_onPart]
    have recorded : (VerdictCache.record fingerprint verdict).startingAt
        (session.asking bench).cache = _ :=
      VerdictCache.startingAt_record notFailing notPassing verdict
    rw [recorded]
    rfl

end Consulting

/-! ### Where a session gets no further -/

/-- Two sessions got equally far: their plans have the same memory, as many candidates were accepted
and the same one last, and both were stopped early or neither. -/
structure SameProgress (first second : Session PlanMemory JudgeMemory) : Prop where
  plan : first.plan = second.plan
  accepted : first.accepted = second.accepted
  current : first.current = second.current
  stoppedEarly : first.tally.stoppedEarly = second.tally.stoppedEarly

theorem SameProgress.symm {first second : Session PlanMemory JudgeMemory}
    (same : SameProgress first second) : SameProgress second first :=
  ⟨same.plan.symm, same.accepted.symm, same.current.symm, same.stoppedEarly.symm⟩

instance : IsPreorder (Session PlanMemory JudgeMemory) SameProgress where
  refl _ := ⟨rfl, rfl, rfl, rfl⟩
  trans _ _ _ first second :=
    ⟨first.plan.trans second.plan, first.accepted.trans second.accepted,
      first.current.trans second.current, first.stoppedEarly.trans second.stoppedEarly⟩

theorem sameProgress_onBench {Result : Type} (action : Action (Bench JudgeMemory) Result) :
    Respects SameProgress (onBench action : Step PlanMemory JudgeMemory Result) :=
  fun _ => ⟨rfl, rfl, rfl, rfl⟩

/-- Finding a verdict brings a session no further. -/
theorem sameProgress_consultJudge (setup : SessionSetup PlanMemory JudgeMemory) (path : Path) :
    Respects SameProgress (consultJudge setup path) := by
  refine Respects.bind (fun _ => ⟨rfl, rfl, rfl, rfl⟩) fun _ => ?_
  exact (respects_ofExcept _).bind fun _ => sameProgress_onBench _

theorem sameProgress_consultCache (setup : SessionSetup PlanMemory JudgeMemory) (path : Path) :
    Respects SameProgress (consultCache setup path) := by
  have cached : ∀ {Result : Type} (action : Action VerdictCache Result),
      Respects SameProgress (onCache action : Step PlanMemory JudgeMemory Result) :=
    fun _ _ => ⟨rfl, rfl, rfl, rfl⟩
  refine (sameProgress_onBench _).bind fun fingerprint => (cached _).bind fun known => ?_
  split
  · exact Respects.bind (fun _ => ⟨rfl, rfl, rfl, rfl⟩) fun _ => respects_pure _
  · exact (sameProgress_consultJudge setup path).bind fun interesting =>
      (cached _).bind fun _ => respects_pure _

end Session

end ShaderReduction
