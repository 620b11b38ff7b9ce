/-
This file proves how a session ends whose plan cannot apply its transformations any more.

Nothing but the plan fails with the fault of a transformation that does not apply, if the judge does
not. So a session that fails with it went on from its input and completed some attempts, and then
failed in asking its plan for the next candidate, before the limit. Asking the plan changes nothing
but the memory of the plan, so everything else is as the last completed attempt left it. The files
of the final job have names of their own and are as they were.
-/

import ShaderReduction.Proofs.JobFiles.Renaming
import ShaderReduction.Proofs.Session.Faults
import ShaderReduction.Proofs.Session.Likeness
import ShaderReduction.Proofs.Session.Record

namespace ShaderReduction

open ShaderReduction.Action ShaderReduction.Path Directory Trail

/-- A judge does not fail as a plan does that gives no candidate. -/
def Judge.NeverGivesUp {Memory : Type} (judge : Judge Memory) : Prop :=
  ∀ job result, Fails (¬·.OfAttempts) (judge.report job result)

namespace Session

variable {PlanMemory JudgeMemory : Type} {setup : SessionSetup PlanMemory JudgeMemory}
  {bindings : Option Members} {made : Nat} {job last : Job} {reason : Text}
  {session after completed : Session PlanMemory JudgeMemory}
  {attempts : List (Attempt PlanMemory JudgeMemory)}

/-! ### Completed attempts -/

/-- The attempts on a job, after some have been made, from a session to one in which they were all
completed, and the job accepted last. -/
inductive Completes (setup : SessionSetup PlanMemory JudgeMemory) (bindings : Option Members) :
    Nat → Job → Session PlanMemory JudgeMemory → List (Attempt PlanMemory JudgeMemory) → Job →
      Session PlanMemory JudgeMemory → Prop
  | none {made : Nat} {job : Job} {session : Session PlanMemory JudgeMemory} :
      Completes setup bindings made job session [] job session
  | attempted {made : Nat} {job last : Job}
      {session proposed between after : Session PlanMemory JudgeMemory}
      {attempt : Attempt PlanMemory JudgeMemory} {attempts : List (Attempt PlanMemory JudgeMemory)}
      (passes : Passes setup bindings made job session proposed attempt between)
      (rest : Completes setup bindings (made + 1)
        (if attempt.accepted then attempt.candidate else job) between attempts last after) :
      Completes setup bindings made job session (attempt :: attempts) last after

/-- What every completed attempt does to a session is done by all of them together. -/
theorem Completes.relates
    {relation : Session PlanMemory JudgeMemory → Session PlanMemory JudgeMemory → Prop}
    [IsPreorder (Session PlanMemory JudgeMemory) relation]
    (step : ∀ made job session proposed attempt after,
      Passes setup bindings made job session proposed attempt after → relation session after)
    (completes : Completes setup bindings made job session attempts last completed) :
    relation session completed := by
  induction completes with
  | none => exact refl_of relation _
  | attempted passes rest inductionHypothesis =>
    exact trans_of relation (step _ _ _ _ _ _ passes) inductionHypothesis

/-! ### Where the fault comes from -/

/-- No step limit fails as a plan does, so a plan that gives up was asked. -/
theorem nextCandidate_eq_inapplicable
    (failed : (nextCandidate setup made job).startingAt session =
      (.error (.inapplicable reason), after)) :
    setup.limit.reached made = .ok false ∧
      (proposeRetrying setup job applicationRetries).startingAt session =
        (.error (.inapplicable reason), after) := by
  rcases bind_eq_error_iff.1 failed with unusable | ⟨reached, between, asked, rest⟩
  · exact nomatch setup.limit.errs_reached made _ (congrArg Prod.fst unusable)
  · obtain ⟨isReached, rfl⟩ := Prod.mk.inj asked
    cases reached with
    | true => cases rest
    | false => exact ⟨isReached, rest⟩

/-- Neither telling the plan about a verdict nor judging a job fails as a plan does that gives no
candidate. -/
structure OnlyAskingGivesUp (setup : SessionSetup PlanMemory JudgeMemory) : Prop where
  update : ∀ accepted, Fails (¬·.OfAttempts) (setup.plan.update accepted)
  report : setup.judge.NeverGivesUp

section Faults

variable (onlyAsking : OnlyAskingGivesUp setup)

include onlyAsking

theorem OnlyAskingGivesUp.isInteresting (path result : Path) :
    Fails (¬·.OfAttempts) (setup.judge.isInteresting path result) :=
  Judge.fails_isInteresting (onlyAsking.report path result) fun _ => not_false

theorem OnlyAskingGivesUp.mayProceed (job : Job) :
    Fails (¬·.OfAttempts) (mayProceed setup bindings job) :=
  fails_mayProceed (fun _ ofJobs => ofJobs.not_ofAttempts) onlyAsking.isInteresting job

theorem OnlyAskingGivesUp.consult (path : Path) : Fails (¬·.OfAttempts) (consult setup path) :=
  fails_consult (fun _ ofJobs => ofJobs.not_ofAttempts) onlyAsking.isInteresting
    (fun _ isLoop => isLoop.not_ofAttempts) path

theorem OnlyAskingGivesUp.conclude (candidate : Job) (made : Nat) (interesting : Bool) :
    Fails (¬·.OfAttempts) (conclude setup candidate made interesting) :=
  fails_conclude (fun _ ofJobs => ofJobs.not_ofAttempts) candidate made
    (onlyAsking.update interesting)

theorem OnlyAskingGivesUp.finish (job : Job) :
    Fails (¬·.OfAttempts) (finish setup bindings job) :=
  fails_finish (fun _ ofJobs => ofJobs.not_ofAttempts) onlyAsking.isInteresting job

/-- Attempts that fail so were completed up to one for which no candidate was found. -/
theorem exists_completes_of_shrink {budget : Nat}
    (shrunk : (shrink setup bindings budget made job).startingAt session =
      (.error (.inapplicable reason), after)) :
    ∃ attempts last completed, Completes setup bindings made job session attempts last completed ∧
      (nextCandidate setup (made + attempts.length) last).startingAt completed =
        (.error (.inapplicable reason), after) := by
  induction budget generalizing made job session with
  | zero => cases shrunk
  | succ budget inductionHypothesis =>
    have turns := turns_of_shrink shrunk
    generalize attemptsFrom setup bindings (budget + 1) made job session = attempts at turns
    generalize isOutcome : (.error (.inapplicable reason) : Except Fault Job) = outcome at turns
    cases turns with
    | unproposed failed =>
      cases isOutcome
      exact ⟨[], job, session, .none, failed⟩
    | finished => cases isOutcome
    | unwritten next failed =>
      cases isOutcome
      exact absurd trivial (fails_writeCandidate _ made _ _ _ failed).not_ofAttempts
    | @unjudged candidate proposed attempt fault next tries verdict =>
      cases isOutcome
      have consulted := tries.consulted
      rw [verdict] at consulted
      exact absurd trivial (onlyAsking.consult _ _ _ _ consulted)
    | unconcluded next tries verdict failed =>
      cases isOutcome
      exact absurd trivial (onlyAsking.conclude _ made _ _ _ _ failed)
    | @concluded candidate proposed between after attempt interesting outcome next tries verdict
        settled rest =>
      obtain rfl := tries.isOf
      have accepted : attempt.accepted = interesting := by rw [Attempt.accepted, verdict]
      subst accepted
      obtain ⟨attempts, last, completed, completes, refused⟩ :=
        inductionHypothesis (isOutcome ▸ rest)
      refine ⟨attempt :: attempts, last, completed,
        .attempted ⟨next, tries, verdict, settled⟩ completes, ?_⟩
      rwa [List.length_cons, Nat.add_comm attempts.length 1, ← Nat.add_assoc]

end Faults

/-! ### The whole session -/

/-- A session on a free job gave up: it was opened, completed some attempts, and then found no
candidate because the plan, which was asked as often as it may be, could not apply its
transformations. -/
structure GivesUp (setup : SessionSetup PlanMemory JudgeMemory) (bindings : Option Members)
    (free : Job) (session opened : Session PlanMemory JudgeMemory)
    (attempts : List (Attempt PlanMemory JudgeMemory)) (last : Job)
    (completed : Session PlanMemory JudgeMemory) (reason : Text)
    (after : Session PlanMemory JudgeMemory) : Prop where
  proceeds : (mayProceed setup bindings free).startingAt session = (.ok true, opened)
  completes : Completes setup bindings 0 free { opened with current := some free } attempts last
    completed
  reached : setup.limit.reached attempts.length = .ok false
  refused : (proposeRetrying setup last applicationRetries).startingAt completed =
    (.error (.inapplicable reason), after)

theorem exists_givesUp_of_run (onlyAsking : OnlyAskingGivesUp setup) {budget : Nat}
    (ran : (run setup budget job).startingAt session = (.error (.inapplicable reason), after)) :
    ∃ bindings free, freeForm job = .ok (bindings, free) ∧ ∃ opened attempts last completed,
      GivesUp setup bindings free session opened attempts last completed reason after := by
  rw [run_eq] at ran
  rcases bind_eq_error_iff.1 ran with failed | ⟨form, first, formed, rest⟩
  · exact absurd trivial (Fault.OfJobs.not_ofAttempts
      (.inr (errs_freeForm job _ (congrArg Prod.fst failed))))
  obtain ⟨isForm, rfl⟩ := Prod.mk.inj formed
  obtain ⟨bindings, free⟩ := form
  refine ⟨bindings, free, isForm, ?_⟩
  rcases bind_eq_error_iff.1 rest with failed | ⟨may, opened, checked, rest⟩
  · exact absurd trivial (onlyAsking.mayProceed free _ _ _ failed)
  cases may with
  | false => cases rest
  | true =>
    rcases bind_eq_error_iff.1 rest with failed | ⟨_, _, _, answer⟩
    · rcases bind_eq_error_iff.1 failed with impossible | ⟨_, begun, noted, shrinking⟩
      · cases impossible
      cases noted
      rcases bind_eq_error_iff.1 shrinking with shrunk | ⟨last, shrunk, ended, finished⟩
      · obtain ⟨attempts, last, completed, completes, stopped⟩ :=
          exists_completes_of_shrink onlyAsking shrunk
        rw [Nat.zero_add] at stopped
        obtain ⟨reached, refused⟩ := nextCandidate_eq_inapplicable stopped
        exact ⟨opened, attempts, last, completed, checked, completes, reached, refused⟩
      · exact absurd trivial (onlyAsking.finish last _ _ _ finished)
    · cases answer

/-- The session is as the last completed attempt left it, but for the plan. -/
theorem GivesUp.onlyPlan {free : Job} {opened : Session PlanMemory JudgeMemory}
    (givesUp : GivesUp setup bindings free session opened attempts last completed reason after) :
    OnlyPlan completed after :=
  (onlyPlan_proposeRetrying _ _).of_eq givesUp.refused

/-! ### The names of files of the final job -/

section Names

variable {base name : Text}

/-- The files of a job in the folder of a session are none of the final job. -/
structure NotFinal (base name : Text) : Prop where
  noSlash : .scalar '/' ∉ name
  apart : ∀ more : Text, more.head? = some (.scalar '.') → ∀ ending ∈ JobFiles.endings,
    name ++ more ≠ finalName base ++ ending

/-- What goes on from the base has no dot, so the files of a job tell it apart from the others. -/
theorem notFinal_of_ofBase (noSlash : .scalar '/' ∉ base) (ofBase : OfBase base name)
    (other : name ≠ finalName base) : NotFinal base name := by
  have inside : ∀ part : Text, .scalar '.' ∉ part →
      ∀ point ∈ part, (point != .scalar '.') = true :=
    fun part absent point among => bne_iff_ne.2 fun isDot => absent (isDot ▸ among)
  have stop : ∀ rest : Text, rest.head? = some (.scalar '.') →
      ∀ point ∈ rest.head?, (point != .scalar '.') = false := by
    intro rest first point isFirst
    rw [first] at isFirst
    cases isFirst
    rfl
  obtain ⟨tag, noDot, tagNoSlash, rfl⟩ := ofBase
  refine ⟨fun member => (List.mem_append.1 member).elim noSlash tagNoSlash, ?_⟩
  intro more dot ending member same
  rw [finalName, List.append_assoc, List.append_assoc] at same
  have tags := (eq_of_run_append_eq (inside tag noDot) (stop more dot)
    (inside ("_reduced_final" : Text) (by decide)) (stop ending (Scene.head?_of_mem_endings member))
    (List.append_cancel_left same)).1
  exact other (congrArg (base ++ ·) tags)

theorem notFinal_base (noSlash : .scalar '/' ∉ base) : NotFinal base base := by
  refine notFinal_of_ofBase noSlash (ofBase_base base) fun same => ?_
  have longer := congrArg List.length same
  have mark : ("_reduced_final" : Text).length = 14 := by decide
  rw [finalName, List.length_append, mark] at longer
  omega

/-- No number is spelled with the letters that the name of the final job ends in. -/
theorem notFinal_stepName (noSlash : .scalar '/' ∉ base) (number : Int) :
    NotFinal base (stepName base number) := by
  refine notFinal_of_ofBase noSlash (ofBase_stepName base number) fun same => ?_
  have spelled : finalName base = base ++ (("_reduced_" : Text) ++ ("final" : Text)) := rfl
  rw [stepName, spelled, List.append_assoc] at same
  have noLetter : .scalar 'f' ∉ Text.ofIntPadded 4 number :=
    notMem_ofIntPadded (by decide) (by decide) 4 number
  rw [List.append_cancel_left (List.append_cancel_left same)] at noLetter
  exact noLetter List.mem_cons_self

theorem judgedName_eq_append (base : Text) (number : Int) (outcome : Outcome) :
    judgedName base number outcome = stepName base number ++ (("_" : Text) ++ outcome.tag) := by
  have written : outcome.tag ≠ [] := by cases outcome <;> decide
  rw [judgedName, taggedName, if_neg written, List.append_assoc]

theorem notFinal_judgedName (noSlash : .scalar '/' ∉ base) (number : Int) (outcome : Outcome) :
    NotFinal base (judgedName base number outcome) := by
  refine notFinal_of_ofBase noSlash (ofBase_judgedName base number outcome) fun same => ?_
  have spelled : finalName base = base ++ (("_reduced_" : Text) ++ ("final" : Text)) := rfl
  rw [judgedName_eq_append, stepName, spelled, List.append_assoc, List.append_assoc] at same
  have mark : .scalar '_' ∈ Text.ofIntPadded 4 number ++ (("_" : Text) ++ outcome.tag) :=
    List.mem_append_right _ (List.mem_append_left _ (by decide))
  rw [List.append_cancel_left (List.append_cancel_left same)] at mark
  exact absurd mark (by decide)

theorem isStem_stepName (noSlash : .scalar '/' ∉ base) (number : Int) :
    JobFiles.IsStem (stepName base number) := by
  refine ⟨List.append_ne_nil_of_left_ne_nil ?_ _, (notFinal_stepName noSlash number).noSlash⟩
  exact List.append_ne_nil_of_right_ne_nil _ (by decide)

theorem isStem_judgedName (noSlash : .scalar '/' ∉ base) (number : Int) (outcome : Outcome) :
    JobFiles.IsStem (judgedName base number outcome) := by
  refine ⟨?_, (notFinal_judgedName noSlash number outcome).noSlash⟩
  rw [judgedName_eq_append]
  exact List.append_ne_nil_of_left_ne_nil (isStem_stepName noSlash number).nonempty _

theorem isStem_finalName (noSlash : .scalar '/' ∉ base) : JobFiles.IsStem (finalName base) :=
  ⟨List.append_ne_nil_of_right_ne_nil _ (by decide),
    fun member => (List.mem_append.1 member).elim noSlash (by decide)⟩

end Names

/-! ### The files of the final job -/

/-- If only files stand in the folder of a session, no folder is made there and the files of the
final job stay as they are. -/
def SparesFinal (setup : SessionSetup PlanMemory JudgeMemory) (location : Location)
    (before after : Directory) : Prop :=
  HoldsFiles before setup.folder location →
    HoldsFiles after setup.folder location ∧ ∀ ending ∈ JobFiles.endings,
      after.nodeAt (setup.folder.join (finalName setup.base ++ ending)) =
        before.nodeAt (setup.folder.join (finalName setup.base ++ ending))

instance (setup : SessionSetup PlanMemory JudgeMemory) (location : Location) :
    IsPreorder Directory (SparesFinal setup location) where
  refl _ holds := ⟨holds, fun _ _ => rfl⟩
  trans _ _ _ first second holds := by
    obtain ⟨between, same⟩ := first holds
    obtain ⟨after, sameAgain⟩ := second between
    exact ⟨after, fun ending member => (sameAgain ending member).trans (same ending member)⟩

section Final

variable {location : Location} (noSlash : .scalar '/' ∉ setup.base)

include noSlash

/-- What changes files of other jobs only spares the final job. -/
theorem sparesFinal_of_changesAt {before after : Directory} {paths : Path → Prop}
    (change : ChangesAt paths before after)
    (elsewhere : ∀ path, paths path → ∃ name, NotFinal setup.base name ∧ ∃ more : Text,
      more.head? = some (.scalar '.') ∧ PlainName (name ++ more) ∧
        path = setup.folder.join (name ++ more)) :
    SparesFinal setup location before after := by
  intro holds
  have changeIn : ChangesIn location
      (fun name => ∀ ending ∈ JobFiles.endings, name ≠ finalName setup.base ++ ending)
      before after := by
    refine change.changesIn holds.toReaches fun path among => ?_
    obtain ⟨name, notFinal, more, dot, plain, rfl⟩ := elsewhere path among
    exact ⟨name ++ more, notFinal.apart more dot, plain, rfl⟩
  refine ⟨holds.of_sameFolders change.folders, fun ending member => ?_⟩
  have isEnding := JobFiles.isEnding_of_mem_endings member
  exact changeIn.nodeAt_join_eq holds.toReaches
    ((isStem_finalName noSlash).plainName_append isEnding) fun other => other ending member rfl

/-- Renaming the job of an attempt spares the final job. -/
theorem sparesFinal_of_move {number : Int} {outcome : Outcome} {before after : Directory}
    {result : Except Fault Unit}
    (moved : (JobFiles.move (jobPath setup (stepName setup.base number))
      (jobPath setup (judgedName setup.base number outcome)) true).startingAt before =
        (result, after)) : SparesFinal setup location before after := by
  intro holds
  have isStem := isStem_stepName noSlash number
  have judgedIsStem := isStem_judgedName noSlash number outcome
  have apart : ∀ first ∈ JobFiles.endings, ∀ second ∈ JobFiles.endings,
      stepName setup.base number ++ first ≠ judgedName setup.base number outcome ++ second := by
    intro first member second _ same
    rw [judgedName_eq_append, List.append_assoc] at same
    have dot := Scene.head?_of_mem_endings member
    rw [List.append_cancel_left same] at dot
    cases dot
  have change := JobFiles.changesAt_move isStem judgedIsStem apart holds moved
  refine sparesFinal_of_changesAt noSlash change ?_ holds
  rintro path ⟨ending, member, rfl | rfl⟩
  · exact ⟨_, notFinal_stepName noSlash number, ending, Scene.head?_of_mem_endings member,
      isStem.plainName_append (JobFiles.isEnding_of_mem_endings member), rfl⟩
  · exact ⟨_, notFinal_judgedName noSlash number outcome, ending,
      Scene.head?_of_mem_endings member,
      judgedIsStem.plainName_append (JobFiles.isEnding_of_mem_endings member), rfl⟩

variable (tidy : setup.judge.WritesOnlyResult)

include tidy

/-- Writing and judging another job spares the final job. -/
theorem confinedTo_sparesFinal {name : Text} (notFinal : NotFinal setup.base name) :
    ConfinedTo (Bench.OnDirectory (SparesFinal setup location)) setup name := by
  refine (confinedTo_filesOf tidy name).mono fun before after change => ?_
  refine sparesFinal_of_changesAt noSlash change fun path among => ?_
  obtain ⟨more, dot, plain, rfl⟩ := exists_dot_of_file notFinal.noSlash setup.folder among
  exact ⟨name, notFinal, more, dot, plain, rfl⟩

/-- A session that goes on from its input has spared the final job. -/
theorem sparesFinal_of_mayProceed {free : Job} {opened : Session PlanMemory JudgeMemory}
    (checked : (mayProceed setup bindings free).startingAt session = (.ok true, opened)) :
    SparesFinal setup location session.bench.directory opened.bench.directory := by
  have confined : ConfinedTo (Bench.OnDirectory (SparesFinal setup location)) setup setup.base :=
    confinedTo_sparesFinal noSlash tidy (notFinal_base noSlash)
  rcases mayProceed_eq_true checked with ⟨-, rfl⟩ | ⟨-, tried⟩
  · exact refl_of (SparesFinal setup location) _
  · exact ((respects_tryInitial confined free _).of_eq tried).bench

/-- A completed attempt has spared the final job. -/
theorem sparesFinal_of_passes {proposed : Session PlanMemory JudgeMemory}
    {attempt : Attempt PlanMemory JudgeMemory}
    (passes : Passes setup bindings made job session proposed attempt after) :
    SparesFinal setup location session.bench.directory after.bench.directory := by
  obtain ⟨plan, rfl⟩ := (onlyPlan_proposeRetrying _ _).of_eq (nextCandidate_eq_some passes.next).2
  have writing : SparesFinal setup location session.bench.directory
      attempt.judged.bench.directory :=
    (passes.tries.offPlan (confinedTo_sparesFinal noSlash tidy (notFinal_stepName noSlash _))).bench
  obtain ⟨directory, memory, moved, -, rfl⟩ := conclude_eq_ok passes.concluded
  exact trans_of (SparesFinal setup location) writing (sparesFinal_of_move noSlash moved)

/-- A session that gives up leaves the files of the final job as they were. -/
theorem GivesUp.nodeAt_finalName {free : Job} {opened : Session PlanMemory JudgeMemory}
    (givesUp : GivesUp setup bindings free session opened attempts last completed reason after)
    (holds : HoldsFiles session.bench.directory setup.folder location) {ending : Text}
    (member : ending ∈ JobFiles.endings) :
    after.bench.directory.nodeAt (setup.folder.join (finalName setup.base ++ ending)) =
      session.bench.directory.nodeAt (setup.folder.join (finalName setup.base ++ ending)) := by
  obtain ⟨plan, rfl⟩ := givesUp.onlyPlan
  have opening : SparesFinal setup location session.bench.directory opened.bench.directory :=
    sparesFinal_of_mayProceed noSlash tidy givesUp.proceeds
  have completing : OnBench (Bench.OnDirectory (SparesFinal setup location))
      { opened with current := some free } completed :=
    givesUp.completes.relates fun _ _ _ _ _ _ passes => sparesFinal_of_passes noSlash tidy passes
  exact (trans_of (SparesFinal setup location) opening completing holds).2 ending member

end Final

end Session

end ShaderReduction
