/-
This file defines what a folder attests of the verdicts on the steps of a reduction, and proves what
that withstands.

Every judged step has a number up to the last one, and the result that it was given by the last
verdict on its job, or none if there was no verdict on that. An attempt that was broken off leaves
its job untagged, with a result of its own perhaps, under the number after the last one; on later
numbers there was no verdict yet. Files of other jobs and of that attempt may come, change and go.
Tagging the job of the attempt makes it the last step, which takes its result along. A step for
whose result the name is too long attests nothing: it is tagged, and its result stays behind.
-/

import ShaderReduction.CommandJudge
import ShaderReduction.Proofs.Session.Judgements
import ShaderReduction.Proofs.Trail.Gains

namespace ShaderReduction

open Directory

/-- The verdict by which a candidate that was judged has an outcome. -/
def Outcome.verdict : Outcome → Verdict
  | accepted => .interesting
  | rejected => .notInteresting

namespace Trail

open ShaderReduction.Path JobFiles ShaderReduction.Action

/-! ### Verdicts and results -/

/-- The last verdict on the job at a path, if there was one. -/
def verdictOn (path : Path) (judgements : List Judgement) : Option Verdict :=
  ((judgements.filter fun judgement => judgement.path = path).getLast?).map Judgement.verdict

/-- What stands under the name of a result is the written form of one with a verdict. -/
def HoldsResult (verdict : Verdict) (node : Option Node) : Prop :=
  ∃ report content, report.verdict = verdict ∧
    Utf8.encode? ((CommandJudge.resultDocument report).indented ++ [.scalar '\n']) = some content ∧
    node = some (.file content)

/-- What stands under the name of the result of a step attests the last verdict on its job: its
outcome is by that verdict, of which it has the result. Without a verdict it was rejected and has no
result. -/
def Attests (outcome : Outcome) (node : Option Node) : Option Verdict → Prop
  | none => outcome = .rejected ∧ node = none
  | some verdict => verdict = outcome.verdict ∧ HoldsResult verdict node

section Verdicts

variable {path : Path} {judgements more : List Judgement}

theorem verdictOn_append_of_ne (others : ∀ judgement ∈ more, judgement.path ≠ path) :
    verdictOn path (judgements ++ more) = verdictOn path judgements := by
  have nothing : (more.filter fun judgement => judgement.path = path) = [] :=
    List.filter_eq_nil_iff.2 fun judgement member same =>
      others judgement member (of_decide_eq_true same)
  rw [verdictOn, verdictOn, List.filter_append, nothing, List.append_nil]

theorem verdictOn_concat (judgements : List Judgement) (path : Path) (directory : Directory)
    (verdict : Verdict) : verdictOn path (judgements ++ [⟨path, directory, verdict⟩]) =
      some verdict := by
  have own : [⟨path, directory, verdict⟩].filter (fun judgement => judgement.path = path) =
      [(⟨path, directory, verdict⟩ : Judgement)] := List.filter_cons_of_pos (decide_eq_true rfl)
  rw [verdictOn, List.filter_append, own, List.getLast?_concat, Option.map_some]

theorem verdictOn_eq_none (others : ∀ judgement ∈ judgements, judgement.path ≠ path) :
    verdictOn path judgements = none := by
  rw [← List.nil_append judgements, verdictOn_append_of_ne others]
  rfl

end Verdicts

namespace Site

variable (site : Site)

/-- The path of the job of an attempt. -/
def attemptPath (number : Nat) : Path := site.folder.join (fileName (stepName site.base number))

/-- What stands in the folder under the name of the result of a job. -/
def resultOf (name : Text) (directory : Directory) : Option Node :=
  directory.nodeAt (site.folder.join (name ++ resultEnding))

/-- The result of an attempt attests the last verdict on its job, by which it has an outcome. -/
def AttestsAttempt (number : Nat) (outcome : Outcome) (judgements : List Judgement)
    (directory : Directory) : Prop :=
  Attests outcome (site.resultOf (stepName site.base number) directory)
    (verdictOn (site.attemptPath number) judgements)

/-- The result of a judged step attests the last verdict on the job of its attempt. -/
def AttestsStep (number : Nat) (outcome : Outcome) (judgements : List Judgement)
    (directory : Directory) : Prop :=
  Attests outcome (site.resultOf (judgedName site.base number outcome) directory)
    (verdictOn (site.attemptPath number) judgements)

/-- Of an attempt that was not made yet there is no result, and there was no verdict on its job. -/
structure Fresh (number : Nat) (judgements : List Judgement) (directory : Directory) : Prop where
  noResult : site.resultOf (stepName site.base number) directory = none
  notJudged : ∀ judgement ∈ judgements, judgement.path ≠ site.attemptPath number

/-- A name in the folder does not make a path to it too long. -/
def Fits (name : Text) : Prop := childFault? site.folder name ≠ some .nameTooLong

/-- A folder attests the verdicts on the steps up to the last one, those apart for whose results the
names are too long. -/
structure Attested (last : Nat) (judgements : List Judgement) (directory : Directory) : Prop where
  flat : site.Flat directory
  only : ∀ name, Tagged site.base name → PlainName name → site.Has directory name →
    ∃ number outcome, 1 ≤ number ∧ number ≤ last ∧ ∃ ending ∈ endings,
      name = judgedName site.base (number : Nat) outcome ++ ending
  present : 0 < last →
    ∃ outcome, site.Has directory (fileName (judgedName site.base last outcome))
  results : ∀ number outcome, number ≤ last →
    site.Has directory (fileName (judgedName site.base number outcome)) →
    site.Fits (judgedName site.base number outcome ++ resultEnding) →
      site.AttestsStep number outcome judgements directory
  fresh : ∀ number, last + 1 < number → site.Fresh number judgements directory

variable {site} {last : Nat} {judgements more : List Judgement} {before after directory : Directory}

/-- An empty folder attests that there are no steps. -/
theorem exists_attested_of_empty {folder : Path}
    (empty : (FileAction.list folder).startingAt directory = (.ok [], directory)) {base : Text}
    (noSlash : .scalar '/' ∉ base) :
    ∃ location, Attested ⟨folder, location, base, 0⟩ 0 [] directory := by
  obtain ⟨location, left⟩ := Site.exists_left_nil empty base 0
  refine ⟨location, ⟨⟨left.located, left.holds⟩, fun name tagged plain has => ?_, fun positive =>
    absurd positive (Nat.lt_irrefl 0), fun number outcome bound has _ => ?_, fun number _ =>
      ⟨left.nodeAt_untagged noSlash number (by decide), fun _ member =>
        absurd member List.not_mem_nil⟩⟩⟩
  · obtain ⟨index, step, found, -⟩ := left.only name tagged.ofStep plain has
    cases found
  · obtain ⟨index, step, found, -⟩ := left.only _ (tagged_judgedName base number outcome _).ofStep
      (Scene.isStem_judgedName noSlash number outcome).plainName_fileName has
    cases found

section Names

variable (noSlash : .scalar '/' ∉ site.base)

include noSlash

theorem number_eq_of_attemptPath_eq {first second : Nat}
    (same : site.attemptPath first = site.attemptPath second) : first = second := by
  have names := congrArg Path.name same
  rw [attemptPath, attemptPath,
    name_join_of_plainName _ (Scene.isStem_stepName noSlash first).plainName_fileName,
    name_join_of_plainName _ (Scene.isStem_stepName noSlash second).plainName_fileName] at names
  exact number_eq_of_stepName_append_eq rfl rfl names

/-- The job of an attempt is no job with a name that is not that of a file of a step. -/
theorem attemptPath_ne_of_not_ofStep {name : Text} (plain : PlainName name)
    (other : ¬OfStep site.base name) (number : Nat) :
    site.folder.join name ≠ site.attemptPath number := by
  intro same
  have names := congrArg Path.name same
  rw [attemptPath, name_join_of_plainName _ plain,
    name_join_of_plainName _ (Scene.isStem_stepName noSlash number).plainName_fileName] at names
  exact other (names ▸ ofStep_stepName site.base number _)

/-- The records in the folder are those of the steps. -/
theorem Attested.exists_of_mem_recordsOf (attested : site.Attested last judgements directory)
    {record : StepRecord}
    (member : record ∈ recordsOf site.folder site.base (directory.namesIn site.location)) :
    1 ≤ record.attempt ∧ record.attempt ≤ last ∧
      record.path =
        site.folder.join (fileName (judgedName site.base record.attempt record.outcome)) ∧
        site.Has directory (fileName (judgedName site.base record.attempt record.outcome)) := by
  obtain ⟨name, among, isStep, isAt⟩ := (Scene.mem_recordsOf_iff_exists_name noSlash).1 member
  have plain := Scene.plainName_of_readStep? noSlash isStep
  have has : site.Has directory name := (mem_namesIn_iff plain).1 among
  obtain ⟨number, outcome, positive, bound, ending, isEnding, rfl⟩ :=
    attested.only name (tagged_of_readStep? isStep) plain has
  rcases List.mem_cons.1 isEnding with rfl | others
  · have read := (readStep?_judgedName site.base number outcome).symm.trans isStep
    obtain ⟨rfl, rfl⟩ := Prod.mk.inj (Option.some.inj read)
    exact ⟨positive, bound, isAt, has⟩
  · rw [readStep?_judgedName_append others] at isStep
    cases isStep

/-- The trail in the folder ends after the last step. -/
theorem Attested.offset_resumePointOf (attested : site.Attested last judgements directory) :
    (resumePointOf (recordsOf site.folder site.base
      (directory.namesIn site.location))).offset = last := by
  refine Nat.le_antisymm (offset_resumePointOf_le fun record member =>
    (attested.exists_of_mem_recordsOf noSlash member).2.1) ?_
  rcases Nat.eq_zero_or_pos last with rfl | positive
  · exact Nat.zero_le _
  · obtain ⟨outcome, has⟩ := attested.present positive
    have plain := (Scene.isStem_judgedName noSlash last outcome).plainName_fileName
    exact attempt_le_offset_resumePointOf (Scene.pairwise_recordsOf _ _ _)
      (Scene.mem_recordsOf_of_mem noSlash ((mem_namesIn_iff plain).2 has))

end Names

/-! ### What changes nothing of it -/

/-- What changes no result of a job leaves what stands under the name of that. -/
theorem resultOf_eq {names : Text → Prop} {name : Text} (flat : site.Flat before)
    (change : ChangesIn site.location names before after) (isStem : IsStem name)
    (aside : ¬names (name ++ resultEnding)) :
    site.resultOf name after = site.resultOf name before :=
  change.nodeAt_join_eq flat.holds.toReaches (isStem.plainName_append isEnding_resultEnding) aside

/-- The names of the files of the job of an attempt. -/
def OfAttempt (base : Text) (number : Nat) (name : Text) : Prop :=
  ∃ ending ∈ endings, name = stepName base number ++ ending

theorem OfAttempt.not_tagged {base name : Text} {number : Nat} (isOf : OfAttempt base number name) :
    ¬Tagged base name := by
  obtain ⟨ending, member, rfl⟩ := isOf
  exact (Untagged.step number).not_tagged (Scene.head?_of_mem_endings member)

/-- What changes no file of a step, but perhaps those of the attempt after the last one, and asks
about no job of a step but perhaps about that, leaves everything. -/
theorem Attested.of_changesIn (attested : site.Attested last judgements before)
    (noSlash : .scalar '/' ∉ site.base) {names : Text → Prop}
    (change : ChangesIn site.location names before after)
    (aside : ∀ name, names name → ¬OfStep site.base name ∨ OfAttempt site.base (last + 1) name)
    (asked : ∀ judgement ∈ more, ∀ number, judgement.path = site.attemptPath number →
      number = last + 1) : site.Attested last (judgements ++ more) after := by
  have untagged : ∀ name, Tagged site.base name → ¬names name := fun name tagged among =>
    (aside name among).elim (fun other => other tagged.ofStep) fun isOf => isOf.not_tagged tagged
  have has : ∀ name, Tagged site.base name → (site.Has after name ↔ site.Has before name) := by
    intro name tagged
    rw [Has, change.node?_eq (untagged name tagged)]
    exact Iff.rfl
  refine ⟨attested.flat.of_sameFolders change.folders, fun name tagged plain isThere =>
    attested.only name tagged plain ((has name tagged).1 isThere), fun positive => ?_,
    fun number outcome bound isThere fits => ?_,
    fun number beyond => ⟨?_, fun judgement member => ?_⟩⟩
  · obtain ⟨outcome, isThere⟩ := attested.present positive
    exact ⟨outcome, (has _ (tagged_judgedName _ last outcome _)).2 isThere⟩
  · have isStem := Scene.isStem_judgedName noSlash number outcome
    rw [AttestsStep, resultOf_eq attested.flat change isStem
      (untagged _ (tagged_judgedName _ number outcome _)), verdictOn_append_of_ne]
    · exact attested.results number outcome bound
        ((has _ (tagged_judgedName _ number outcome _)).1 isThere) fits
    · intro judgement member same
      have isNext := asked judgement member number same
      omega
  · have isStem := Scene.isStem_stepName noSlash number
    rw [resultOf_eq attested.flat change isStem]
    · exact (attested.fresh number beyond).noResult
    · intro among
      rcases aside _ among with other | ⟨ending, member, same⟩
      · exact other (ofStep_stepName site.base number _)
      · have numbers := number_eq_of_stepName_append_eq (Scene.head?_of_mem_endings (by decide))
          (Scene.head?_of_mem_endings member) same
        omega
  · rcases List.mem_append.1 member with early | late
    · exact (attested.fresh number beyond).notJudged judgement early
    · intro same
      have isNext := asked judgement late number same
      omega

/-! ### The next step -/

theorem judgedName_append_eq {base : Text} {first second : Nat}
    {firstOutcome secondOutcome : Outcome} {ending : Text} (member : ending ∈ endings)
    (same : fileName (judgedName base first firstOutcome) =
      judgedName base second secondOutcome ++ ending) :
    first = second ∧ firstOutcome = secondOutcome := by
  have read := readStep?_judgedName base first firstOutcome
  rw [same] at read
  rcases List.mem_cons.1 member with rfl | others
  · have both := (readStep?_judgedName base second secondOutcome).symm.trans read
    exact ⟨(Prod.mk.inj (Option.some.inj both)).1.symm,
      (Prod.mk.inj (Option.some.inj both)).2.symm⟩
  · rw [readStep?_judgedName_append others] at read
    cases read

/-- The names of a judged step are spelled as those of its attempt, and with letters that never do
harm. -/
theorem spelled_judgedName (base : Text) (number : Nat) (outcome : Outcome) :
    ∀ ending ∈ endings, ∀ point ∈ judgedName base number outcome ++ ending,
      point ∈ fileName (stepName base number) ∨
        isEncodable [point] = true ∧ hasNull [point] = false := by
  have fixed : ∀ outcome ∈ [Outcome.accepted, Outcome.rejected], ∀ ending ∈ endings,
      ∀ point ∈ (("_" : Text) ++ outcome.tag) ++ ending,
        isEncodable [point] = true ∧ hasNull [point] = false := by decide +kernel
  intro ending member point among
  have split : judgedName base number outcome ++ ending =
      stepName base number ++ ((("_" : Text) ++ outcome.tag) ++ ending) := by
    rw [judgedName_eq, stepName, stepDigits]
    simp only [List.append_assoc]
  rw [split] at among
  rcases List.mem_append.1 among with lead | rest
  · exact .inl (List.mem_append_left _ lead)
  · exact .inr (fixed outcome (by cases outcome <;> decide) ending member point rest)

section Tagging

variable (attested : site.Attested last judgements before) (noSlash : .scalar '/' ∉ site.base)
  {outcome : Outcome}

include attested noSlash

/-- Nothing stands where the job of the next attempt is moved. -/
theorem Attested.nodeAt_next (outcome : Outcome) :
    ∀ ending ∈ endings, before.nodeAt (site.folder.join
      (judgedName site.base ((last + 1 : Nat) : Int) outcome ++ ending)) = none := by
  intro ending member
  have plain := (Scene.isStem_judgedName noSlash (last + 1) outcome).plainName_append
    (isEnding_of_mem_endings member)
  refine Option.not_isSome_iff_eq_none.1 fun isThere => ?_
  obtain ⟨number, other, -, bound, last, -, same⟩ := attested.only _
    (tagged_judgedName site.base _ outcome ending) plain (attested.flat.has_of_nodeAt plain isThere)
  have numbers := number_eq_of_judgedName_append_eq same
  omega

variable {result : Except Fault Unit}
  (moved : (JobFiles.move (site.attemptPath (last + 1))
    (site.folder.join (fileName (judgedName site.base ((last + 1 : Nat) : Int) outcome)))
      true).startingAt before = (result, after))

include moved

theorem Attested.has_iff_of_move {number : Nat} {other : Outcome}
    (different : ¬(number = last + 1 ∧ other = outcome)) :
    site.Has after (fileName (judgedName site.base number other)) ↔
      site.Has before (fileName (judgedName site.base number other)) := by
  have change := changesIn_of_move noSlash (last + 1) outcome attested.flat moved
  rw [Has, change.node?_eq]
  · exact Iff.rfl
  · rintro ⟨ending, member, same | same⟩
    · have tagged : Tagged site.base (fileName (judgedName site.base number other)) :=
        tagged_judgedName site.base number other _
      rw [same] at tagged
      exact (Untagged.step (last + 1)).not_tagged (Scene.head?_of_mem_endings member) tagged
    · exact different (judgedName_append_eq member same)

theorem Attested.results_of_move
    (along : TakenAlong site.folder (stepName site.base ((last + 1 : Nat) : Int))
      (judgedName site.base ((last + 1 : Nat) : Int) outcome) before after)
    (attests : site.AttestsAttempt (last + 1) outcome judgements before)
    {number : Nat} {other : Outcome} (bound : number ≤ last + 1)
    (has : site.Has after (fileName (judgedName site.base number other)))
    (fits : site.Fits (judgedName site.base number other ++ resultEnding)) :
    site.AttestsStep number other judgements after := by
  have change := changesIn_of_move noSlash (last + 1) outcome attested.flat moved
  by_cases same : number = last + 1 ∧ other = outcome
  · obtain ⟨rfl, rfl⟩ := same
    rw [AttestsStep, resultOf, along.result fits]
    exact attests
  · have isThere := (attested.has_iff_of_move noSlash moved same).1 has
    have isStem := Scene.isStem_judgedName noSlash number other
    obtain ⟨found, _, -, within, ending, member, equal⟩ := attested.only _
      (tagged_judgedName site.base number other _) isStem.plainName_fileName isThere
    obtain ⟨rfl, -⟩ := judgedName_append_eq member equal
    rw [AttestsStep, resultOf_eq attested.flat change isStem]
    · exact attested.results number other within isThere fits
    · rintro ⟨ending, member, same | same⟩
      · exact (Untagged.step (last + 1)).not_tagged (Scene.head?_of_mem_endings member)
          (same ▸ tagged_judgedName site.base number other _)
      · have numbers := number_eq_of_judgedName_append_eq same
        omega

theorem Attested.fresh_of_move {number : Nat} (beyond : last + 1 < number) :
    site.Fresh number judgements after := by
  have change := changesIn_of_move noSlash (last + 1) outcome attested.flat moved
  refine ⟨?_, (attested.fresh number beyond).notJudged⟩
  rw [resultOf_eq attested.flat change (Scene.isStem_stepName noSlash number)]
  · exact (attested.fresh number beyond).noResult
  · rintro ⟨ending, member, same | same⟩
    · have numbers := number_eq_of_stepName_append_eq (Scene.head?_of_mem_endings (by decide))
        (Scene.head?_of_mem_endings member) same
      omega
    · exact (Untagged.step number).not_tagged (Scene.head?_of_mem_endings (by decide))
        (same ▸ tagged_judgedName site.base (last + 1) outcome ending)

/-- Whatever comes of tagging the job of the next attempt, it stays as it was or is the last step,
if its result attests the last verdict on it. -/
theorem Attested.eq_or_tag
    (attests : site.AttestsAttempt (last + 1) outcome judgements before) :
    after = before ∨ site.Attested (last + 1) judgements after := by
  have isStem := Scene.isStem_judgedName noSlash (last + 1) outcome
  rcases eq_or_takenAlong_of_move (Scene.isStem_stepName noSlash (last + 1)) isStem
    (apart_stepName site.base (last + 1) outcome) attested.flat.holds
    (attested.nodeAt_next noSlash outcome) (spelled_judgedName site.base (last + 1) outcome) moved
    with same | along
  · exact .inl same
  have change := changesIn_of_move noSlash (last + 1) outcome attested.flat moved
  have flat := attested.flat.of_sameFolders change.folders
  refine .inr ⟨flat, fun name tagged plain has => ?_,
    fun _ => ⟨outcome, flat.has_of_nodeAt isStem.plainName_fileName along.present⟩,
    fun number other bound => attested.results_of_move noSlash moved along attests bound,
    fun number beyond => attested.fresh_of_move noSlash moved (by omega)⟩
  by_cases changed : OfEither (stepName site.base ((last + 1 : Nat) : Int))
    (judgedName site.base ((last + 1 : Nat) : Int) outcome) endings name
  · obtain ⟨ending, member, rfl | rfl⟩ := changed
    · exact absurd tagged
        ((Untagged.step (last + 1)).not_tagged (Scene.head?_of_mem_endings member))
    · exact ⟨last + 1, outcome, by omega, Nat.le_refl _, ending, member, rfl⟩
  · rw [Has, change.node?_eq changed] at has
    obtain ⟨number, other, positive, bound, rest⟩ := attested.only name tagged plain has
    exact ⟨number, other, positive, Nat.le_succ_of_le bound, rest⟩

/-- If the job of the next attempt was tagged, it is the last step. -/
theorem Attested.tag {done : Unit} (ended : result = .ok done)
    (attests : site.AttestsAttempt (last + 1) outcome judgements before) :
    site.Attested (last + 1) judgements after := by
  subst ended
  refine (attested.eq_or_tag noSlash moved attests).resolve_left ?_
  rintro rfl
  have isStem := Scene.isStem_judgedName noSlash (last + 1) outcome
  have present := (move_eq_ok (Scene.isStem_stepName noSlash (last + 1)) isStem
    (apart_stepName site.base (last + 1) outcome) attested.flat.holds moved).2.1.present
  rw [fileName, attested.nodeAt_next noSlash outcome _ List.mem_cons_self] at present
  cases present

end Tagging

end Site

end Trail

end ShaderReduction
