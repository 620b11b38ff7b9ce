/-
This file proves that a session which remembers its verdicts judges no files twice and finds a loop
exactly when there is one.

What is remembered are the fingerprints of the candidates that the judge was asked about, each with
its verdict (`Matches`). Files with the same contents have the same fingerprint, and within the
session files with different contents are assumed to have different ones (`Separates`), so a lookup
answers by content. That a candidate is judged means that nothing is remembered of its files, and so
noting its verdict never contradicts an earlier one. A file that is judged while its fingerprint is
taken changes nothing of this: the fingerprint is taken before. Whether the judge was asked about an
attempt is read off the counts around the search for its verdict; that these are all calls of the
judge but those about the input and the final job is what `Called` says.
-/

import ShaderReduction.Proofs.Session.Calls
import ShaderReduction.Proofs.Session.Faults
import ShaderReduction.Proofs.Session.FinalJob
import ShaderReduction.Proofs.Session.Verdicts

namespace ShaderReduction

open ShaderReduction.Action

namespace Session

variable {PlanMemory JudgeMemory : Type}

/-! ### What is remembered -/

/-- Among some attempts, different contents have different fingerprints. -/
def Separates (storage : Storage) (attempts : List (Attempt PlanMemory JudgeMemory)) : Prop :=
  ∀ first ∈ attempts, ∀ second ∈ attempts,
    first.fingerprint storage = second.fingerprint storage → first.content = second.content

/-- What is remembered are the fingerprints of the candidates that the judge was asked about, the
rejected and the accepted ones apart. -/
structure Matches (storage : Storage) (attempts : List (Attempt PlanMemory JudgeMemory))
    (cache : VerdictCache) : Prop where
  failing : ∀ fingerprint, fingerprint ∈ cache.failing ↔ ∃ attempt ∈ attempts,
    attempt.Asked ∧ attempt.verdict = .ok false ∧ attempt.fingerprint storage = .ok fingerprint
  passing : ∀ fingerprint, fingerprint ∈ cache.passing ↔ ∃ attempt ∈ attempts,
    attempt.Asked ∧ attempt.verdict = .ok true ∧ attempt.fingerprint storage = .ok fingerprint
  disjoint : ∀ fingerprint ∈ cache.failing, fingerprint ∉ cache.passing

/-- What an attempt does after some others, all of which have a verdict: the judge is asked if and
only if none of them had the same contents, and then nothing keeps its verdict from being noted; the
contents of one that was rejected are rejected without the judge; and there is a loop if and only if
one that was accepted had the same contents. -/
structure Exact (setup : SessionSetup PlanMemory JudgeMemory)
    (earlier : List (Attempt PlanMemory JudgeMemory)) (attempt : Attempt PlanMemory JudgeMemory) :
    Prop where
  before : Matches setup.storage earlier attempt.standing.cache
  after : Matches setup.storage (earlier ++ [attempt]) attempt.judged.cache
  asked_iff : attempt.Asked ↔ ∀ former ∈ earlier, former.content ≠ attempt.content
  asked : attempt.Asked → ∃ result, JobFiles.result attempt.path = .ok result ∧
    (setup.judge.isInteresting attempt.path result).startingAt attempt.standing.bench =
      (attempt.verdict, attempt.judged.bench)
  recorded : attempt.Asked → ∀ fingerprint, attempt.fingerprint setup.storage = .ok fingerprint →
    ∀ interesting, ∃ cache, (VerdictCache.record fingerprint interesting).startingAt
      attempt.standing.cache = (.ok (), cache)
  unasked : ¬attempt.Asked → attempt.judged.bench = attempt.standing.bench
  rejected : (∃ former ∈ earlier, former.content = attempt.content ∧ former.verdict = .ok false) →
    attempt.verdict = .ok false ∧ ¬attempt.Asked
  loop_iff : attempt.verdict = .error .loop ∧ ¬attempt.Asked ↔
    ∃ former ∈ earlier, former.content = attempt.content ∧ former.verdict = .ok true

section Remembering

variable {setup : SessionSetup PlanMemory JudgeMemory} {bindings : Option Members}
  {storage : Storage} {earlier : List (Attempt PlanMemory JudgeMemory)}
  {attempt : Attempt PlanMemory JudgeMemory} {cache later : VerdictCache}

/-- An attempt was made on a candidate with a fingerprint that its contents give, and its verdict
was looked up. -/
structure Made (setup : SessionSetup PlanMemory JudgeMemory)
    (attempt : Attempt PlanMemory JudgeMemory) : Prop where
  isJobPath : JobFiles.IsJobPath attempt.path
  content : ∃ nodes, attempt.content = .ok nodes ∧
    (JobFiles.fingerprint setup.storage attempt.path).startingAt
      attempt.standing.bench.directory =
      (.ok (setup.storage.digest (JobFiles.inputOf nodes)), attempt.standing.bench.directory)
  consulted : (consultCache setup attempt.path).startingAt attempt.standing =
    (attempt.verdict, attempt.judged)

theorem made_of_tries (remembers : setup.remembers = true) {candidate : Job} {made : Nat}
    {session : Session PlanMemory JudgeMemory}
    (tries : Tries setup bindings candidate made session attempt) : Made setup attempt := by
  have isJobPath : JobFiles.IsJobPath (stepPath setup made) := JobFiles.isJobPath_join _ _
  refine ⟨tries.path ▸ isJobPath, tries.exists_content, ?_⟩
  rw [← tries.consulted, consult, if_pos remembers]

theorem Made.exists_fingerprint (made : Made setup attempt) :
    ∃ fingerprint, attempt.fingerprint setup.storage = .ok fingerprint := by
  obtain ⟨nodes, -, taken⟩ := made.content
  exact ⟨_, congrArg Prod.fst taken⟩

theorem Made.startingAt_fingerprint (made : Made setup attempt) {fingerprint : Text}
    (taken : attempt.fingerprint setup.storage = .ok fingerprint) :
    (JobFiles.fingerprint setup.storage attempt.path).startingAt
      attempt.standing.bench.directory =
      (.ok fingerprint, attempt.standing.bench.directory) := by
  obtain ⟨nodes, -, run⟩ := made.content
  rw [run, ← taken, Attempt.fingerprint, run]

/-- Attempts with the same contents have the same fingerprint. -/
theorem Made.fingerprint_eq {other : Attempt PlanMemory JudgeMemory} (made : Made setup attempt)
    (otherMade : Made setup other) (same : other.content = attempt.content) :
    other.fingerprint setup.storage = attempt.fingerprint setup.storage := by
  obtain ⟨nodes, content, taken⟩ := made.content
  obtain ⟨otherNodes, otherContent, otherTaken⟩ := otherMade.content
  rw [content, otherContent] at same
  rw [Attempt.fingerprint, Attempt.fingerprint, taken, otherTaken, Except.ok.inj same]

theorem matches_empty (storage : Storage) :
    Matches storage ([] : List (Attempt PlanMemory JudgeMemory)) VerdictCache.empty := by
  constructor <;> simp [VerdictCache.empty]

theorem Matches.mem_known_iff (isMatch : Matches storage earlier cache) (interesting : Bool)
    (fingerprint : Text) :
    fingerprint ∈ cache.known interesting ↔ ∃ attempt ∈ earlier, attempt.Asked ∧
      attempt.verdict = .ok interesting ∧ attempt.fingerprint storage = .ok fingerprint := by
  cases interesting with
  | true => exact isMatch.passing fingerprint
  | false => exact isMatch.failing fingerprint

/-- One more attempt adds its own fingerprint at most. -/
theorem Matches.concat (isMatch : Matches storage earlier cache)
    (adds : ∀ interesting fingerprint, fingerprint ∈ later.known interesting ↔
      fingerprint ∈ cache.known interesting ∨ attempt.Asked ∧ attempt.verdict = .ok interesting ∧
        attempt.fingerprint storage = .ok fingerprint)
    (disjoint : ∀ fingerprint ∈ later.failing, fingerprint ∉ later.passing) :
    Matches storage (earlier ++ [attempt]) later := by
  have known : ∀ interesting fingerprint, fingerprint ∈ later.known interesting ↔
      ∃ made ∈ earlier ++ [attempt], made.Asked ∧ made.verdict = .ok interesting ∧
        made.fingerprint storage = .ok fingerprint := by
    intro interesting fingerprint
    rw [adds, isMatch.mem_known_iff]
    simp only [List.mem_append, List.mem_singleton, or_and_right, exists_or, exists_eq_left]
  exact ⟨known false, known true, disjoint⟩

/-- What is remembered accounts for all of some attempts: each of them has a verdict, and its
fingerprint is remembered with it. -/
structure Remembers (setup : SessionSetup PlanMemory JudgeMemory)
    (attempts : List (Attempt PlanMemory JudgeMemory)) (cache : VerdictCache) : Prop extends
    Matches setup.storage attempts cache where
  made : ∀ attempt ∈ attempts, Made setup attempt
  settled : ∀ attempt ∈ attempts, ∃ interesting fingerprint, attempt.verdict = .ok interesting ∧
    attempt.fingerprint setup.storage = .ok fingerprint ∧ fingerprint ∈ cache.known interesting

theorem remembers_empty (setup : SessionSetup PlanMemory JudgeMemory) :
    Remembers setup [] VerdictCache.empty :=
  ⟨matches_empty setup.storage, fun _ member => absurd member List.not_mem_nil,
    fun _ member => absurd member List.not_mem_nil⟩

/-- One more attempt that has a verdict is accounted for as well. -/
theorem Remembers.concat (remembered : Remembers setup earlier cache) (made : Made setup attempt)
    (isMatch : Matches setup.storage (earlier ++ [attempt]) later)
    (grown : ∀ interesting, cache.known interesting ⊆ later.known interesting) {interesting : Bool}
    {fingerprint : Text} (verdict : attempt.verdict = .ok interesting)
    (taken : attempt.fingerprint setup.storage = .ok fingerprint)
    (member : fingerprint ∈ later.known interesting) :
    Remembers setup (earlier ++ [attempt]) later := by
  refine ⟨isMatch, fun other among => ?_, fun other among => ?_⟩
  · rcases List.mem_append.1 among with former | last
    · exact remembered.made other former
    · exact List.mem_singleton.1 last ▸ made
  · rcases List.mem_append.1 among with former | last
    · obtain ⟨found, known, isFound, isKnown, inside⟩ := remembered.settled other former
      exact ⟨found, known, isFound, isKnown, grown found inside⟩
    · rw [List.mem_singleton.1 last]
      exact ⟨interesting, fingerprint, verdict, taken, member⟩

/-! ### One attempt -/

section Step

variable {fingerprint : Text} (remembered : Remembers setup earlier attempt.standing.cache)
  (made : Made setup attempt) (separates : Separates setup.storage (earlier ++ [attempt]))
  (taken : attempt.fingerprint setup.storage = .ok fingerprint)

include remembered made separates taken

/-- The fingerprint is remembered with a verdict if and only if an attempt with the same contents
had that verdict. -/
theorem mem_known_iff (interesting : Bool) :
    fingerprint ∈ attempt.standing.cache.known interesting ↔
      ∃ former ∈ earlier, former.content = attempt.content ∧ former.verdict = .ok interesting := by
  constructor
  · intro member
    obtain ⟨former, among, -, verdict, same⟩ :=
      (remembered.mem_known_iff interesting fingerprint).1 member
    exact ⟨former, among, separates former (List.mem_append_left _ among) attempt
      (List.mem_append_right _ (List.mem_singleton_self _)) (same.trans taken.symm), verdict⟩
  · rintro ⟨former, among, same, verdict⟩
    obtain ⟨found, other, isFound, isOther, member⟩ := remembered.settled former among
    rw [made.fingerprint_eq (remembered.made former among) same, taken] at isOther
    obtain rfl := Except.ok.inj isOther
    obtain rfl : found = interesting := Except.ok.inj (isFound.symm.trans verdict)
    exact member

/-- Nothing is remembered of the fingerprint if and only if no attempt had the same contents. -/
theorem notMem_known_iff :
    (∀ interesting, fingerprint ∉ attempt.standing.cache.known interesting) ↔
      ∀ former ∈ earlier, former.content ≠ attempt.content := by
  simp only [mem_known_iff remembered made separates taken]
  constructor
  · intro new former among same
    obtain ⟨interesting, -, verdict, -, -⟩ := remembered.settled former among
    exact new interesting ⟨former, among, same, verdict⟩
  · exact fun new _ ⟨former, among, same, _⟩ => new former among same

end Step

/-- An attempt on files that are known to fail. -/
theorem exact_of_failing {fingerprint : Text}
    (remembered : Remembers setup earlier attempt.standing.cache) (made : Made setup attempt)
    (separates : Separates setup.storage (earlier ++ [attempt]))
    (taken : attempt.fingerprint setup.storage = .ok fingerprint)
    (failing : fingerprint ∈ attempt.standing.cache.failing) :
    Exact setup earlier attempt ∧
      ∀ interesting, attempt.verdict = .ok interesting →
        Remembers setup (earlier ++ [attempt]) attempt.judged.cache := by
  have run := made.startingAt_fingerprint taken
  obtain ⟨verdict, judged⟩ :=
    Prod.mk.inj (made.consulted.symm.trans (startingAt_consultCache_failing run failing))
  have known : ∀ interesting, attempt.judged.cache.known interesting =
      attempt.standing.cache.known interesting := fun _ => judged ▸ rfl
  have bench : attempt.judged.bench = attempt.standing.bench := by rw [judged, refusing]
  have notAsked : ¬attempt.Asked := not_asked_of_eq (by rw [judged, refusing])
  have formerly := (mem_known_iff remembered made separates taken false).1 failing
  have notAccepted := mt (mem_known_iff remembered made separates taken true).2
    (remembered.disjoint _ failing)
  have isMatch : Matches setup.storage (earlier ++ [attempt]) attempt.judged.cache := by
    refine remembered.toMatches.concat (fun interesting other => ?_) ?_
    · rw [known, or_iff_left fun asked => notAsked asked.1]
    · have failingSame : attempt.judged.cache.failing = _ := known false
      have passingSame : attempt.judged.cache.passing = _ := known true
      rw [failingSame, passingSame]
      exact remembered.disjoint
  refine ⟨⟨remembered.toMatches, isMatch, ?_, fun asked => absurd asked notAsked,
    fun asked => absurd asked notAsked, fun _ => bench, fun _ => ⟨verdict, notAsked⟩, ?_⟩, ?_⟩
  · obtain ⟨former, among, sameContent, -⟩ := formerly
    exact iff_of_false notAsked fun new => new former among sameContent
  · refine iff_of_false (fun loop => ?_) notAccepted
    cases verdict.symm.trans loop.1
  · intro interesting found
    obtain rfl : false = interesting := Except.ok.inj (verdict.symm.trans found)
    exact remembered.concat made isMatch (fun interesting => known interesting ▸ List.Subset.refl _)
      verdict taken (known false ▸ failing)

/-- An attempt on files that were accepted. -/
theorem exact_of_passing {fingerprint : Text}
    (remembered : Remembers setup earlier attempt.standing.cache) (made : Made setup attempt)
    (separates : Separates setup.storage (earlier ++ [attempt]))
    (taken : attempt.fingerprint setup.storage = .ok fingerprint)
    (passing : fingerprint ∈ attempt.standing.cache.passing) :
    Exact setup earlier attempt ∧ attempt.verdict = .error .loop := by
  have run := made.startingAt_fingerprint taken
  have notFailing : fingerprint ∉ attempt.standing.cache.failing :=
    fun failing => remembered.disjoint _ failing passing
  obtain ⟨verdict, unchanged⟩ := Prod.mk.inj
    (made.consulted.symm.trans (startingAt_consultCache_passing run notFailing passing))
  have notAsked : ¬attempt.Asked := not_asked_of_eq (by rw [unchanged])
  have formerly := (mem_known_iff remembered made separates taken true).1 passing
  have notRejected := mt (mem_known_iff remembered made separates taken false).2 notFailing
  have isMatch : Matches setup.storage (earlier ++ [attempt]) attempt.judged.cache := by
    rw [unchanged]
    refine remembered.toMatches.concat (fun interesting other => ?_) remembered.disjoint
    rw [or_iff_left fun asked => notAsked asked.1]
  refine ⟨⟨remembered.toMatches, isMatch, ?_, fun asked => absurd asked notAsked,
    fun asked => absurd asked notAsked, fun _ => by rw [unchanged],
    fun rejected => absurd rejected notRejected, ?_⟩, verdict⟩
  · obtain ⟨former, among, sameContent, -⟩ := formerly
    exact iff_of_false notAsked fun new => new former among sameContent
  · exact iff_of_true ⟨verdict, notAsked⟩ formerly

/-- What asking the judge about an attempt leaves. -/
theorem Made.asked_of_new {fingerprint : Text} (made : Made setup attempt)
    (taken : attempt.fingerprint setup.storage = .ok fingerprint)
    (new : ∀ interesting, fingerprint ∉ attempt.standing.cache.known interesting) :
    attempt.Asked ∧ (setup.judge.isInteresting attempt.path
        (JobFiles.beside attempt.path JobFiles.resultEnding)).startingAt attempt.standing.bench =
        (attempt.verdict, attempt.judged.bench) ∧
      ∀ interesting other, other ∈ attempt.judged.cache.known interesting ↔
        other ∈ attempt.standing.cache.known interesting ∨
          attempt.verdict = .ok interesting ∧ other = fingerprint := by
  have consulted := made.consulted
  rw [startingAt_consultCache_new (made.startingAt_fingerprint taken) made.isJobPath (new false)
    (new true)] at consulted
  cases answer : (setup.judge.isInteresting attempt.path
      (JobFiles.beside attempt.path JobFiles.resultEnding)).startingAt attempt.standing.bench with
  | mk outcome bench =>
    rw [answer] at consulted
    cases outcome with
    | error fault =>
      obtain ⟨verdict, judged⟩ := Prod.mk.inj consulted
      rw [Attempt.Asked, ← verdict, ← judged]
      exact ⟨rfl, rfl, fun interesting other => by simp [asking]⟩
    | ok interesting =>
      obtain ⟨verdict, judged⟩ := Prod.mk.inj consulted
      rw [Attempt.Asked, ← verdict, ← judged]
      refine ⟨rfl, rfl, fun found other => ?_⟩
      rw [VerdictCache.mem_known_noted_iff, Except.ok.injEq]

/-- An attempt on files of which nothing is remembered. -/
theorem exact_of_new {fingerprint : Text}
    (remembered : Remembers setup earlier attempt.standing.cache) (made : Made setup attempt)
    (separates : Separates setup.storage (earlier ++ [attempt]))
    (taken : attempt.fingerprint setup.storage = .ok fingerprint)
    (new : ∀ interesting, fingerprint ∉ attempt.standing.cache.known interesting) :
    Exact setup earlier attempt ∧
      ∀ interesting, attempt.verdict = .ok interesting →
        Remembers setup (earlier ++ [attempt]) attempt.judged.cache := by
  obtain ⟨asked, answered, grown⟩ := made.asked_of_new taken new
  have unseen := (notMem_known_iff remembered made separates taken).1 new
  have isMatch : Matches setup.storage (earlier ++ [attempt]) attempt.judged.cache := by
    refine remembered.toMatches.concat (fun interesting other => ?_) fun other failing passing => ?_
    · rw [grown, taken, Except.ok.injEq]
      simp only [asked, true_and, eq_comm]
    · rcases (grown false other).1 failing with failed | ⟨rejected, rfl⟩
      · rcases (grown true other).1 passing with passed | ⟨-, rfl⟩
        · exact remembered.disjoint other failed passed
        · exact new false failed
      · rcases (grown true other).1 passing with passed | ⟨accepted, -⟩
        · exact new true passed
        · exact Bool.false_ne_true (Except.ok.inj (rejected.symm.trans accepted))
  refine ⟨⟨remembered.toMatches, isMatch, iff_of_true asked unseen,
    fun _ => ⟨_, JobFiles.result_eq_ok made.isJobPath.plain, answered⟩,
    fun _ other isOther interesting => ?_, fun notAsked => absurd asked notAsked,
    fun ⟨former, among, same, _⟩ => absurd same (unseen former among),
    iff_of_false (fun loop => loop.2 asked) fun ⟨former, among, same, _⟩ =>
      unseen former among same⟩, fun interesting verdict => ?_⟩
  · obtain rfl := Except.ok.inj (taken.symm.trans isOther)
    exact ⟨_, VerdictCache.startingAt_record (new false) (new true) interesting⟩
  · exact remembered.concat made isMatch
      (fun found other member => (grown found other).2 (.inl member)) verdict taken
      ((grown interesting fingerprint).2 (.inr ⟨verdict, rfl⟩))

/-- An attempt after some others does what it should, and is accounted for if it has a verdict. -/
theorem exact_of_made (remembered : Remembers setup earlier attempt.standing.cache)
    (made : Made setup attempt) (separates : Separates setup.storage (earlier ++ [attempt])) :
    Exact setup earlier attempt ∧
      ∀ interesting, attempt.verdict = .ok interesting →
        Remembers setup (earlier ++ [attempt]) attempt.judged.cache := by
  obtain ⟨fingerprint, taken⟩ := made.exists_fingerprint
  by_cases failing : fingerprint ∈ attempt.standing.cache.failing
  · exact exact_of_failing remembered made separates taken failing
  · by_cases passing : fingerprint ∈ attempt.standing.cache.passing
    · obtain ⟨isExact, loop⟩ := exact_of_passing remembered made separates taken passing
      exact ⟨isExact, fun interesting verdict => nomatch loop.symm.trans verdict⟩
    · refine exact_of_new remembered made separates taken fun interesting => ?_
      cases interesting with
      | true => exact passing
      | false => exact failing

end Remembering

/-! ### The attempts of a session -/

section Attempts

variable {setup : SessionSetup PlanMemory JudgeMemory} {bindings : Option Members}
  {budget made : Nat} {job : Job} {session after : Session PlanMemory JudgeMemory}

/-- Every attempt does what it should after those before it. If there is a loop, it is the last
attempt, the session ends with that fault, and the plan is not told about it. The session ends with
the fault of a loop for no other reason, unless its plan or its judge does. -/
structure Detected {Result : Type} (setup : SessionSetup PlanMemory JudgeMemory)
    (earlier attempts : List (Attempt PlanMemory JudgeMemory)) (outcome : Except Fault Result)
    (after : Session PlanMemory JudgeMemory) : Prop where
  isMatch : Matches setup.storage (earlier ++ attempts) after.cache
  exact : ∀ front attempt back, attempts = front ++ attempt :: back →
    Exact setup (earlier ++ front) attempt
  loop : ∀ front attempt back, attempts = front ++ attempt :: back →
    attempt.verdict = .error .loop → ¬attempt.Asked →
      back = [] ∧ outcome = .error .loop ∧ after.plan = attempt.standing.plan
  found : Quiet setup → ∀ fault, outcome = .error fault → fault.IsLoop →
    ∃ front attempt, attempts = front ++ [attempt] ∧ attempt.verdict = .error fault ∧
      ∃ former ∈ earlier ++ front, former.content = attempt.content ∧ former.verdict = .ok true

theorem Separates.mono {storage : Storage} {some all : List (Attempt PlanMemory JudgeMemory)}
    (separates : Separates storage all) (among : some ⊆ all) : Separates storage some :=
  fun first firstMember second secondMember =>
    separates first (among firstMember) second (among secondMember)

variable {earlier attempts : List (Attempt PlanMemory JudgeMemory)}
  {attempt : Attempt PlanMemory JudgeMemory} {Result : Type} {outcome : Except Fault Result}

theorem detected_nil (isMatch : Matches setup.storage earlier after.cache)
    (errs : Quiet setup → Errs (¬·.IsLoop) outcome) : Detected setup earlier [] outcome after where
  isMatch := by rwa [List.append_nil]
  exact front attempt back split :=
    absurd split.symm (List.append_ne_nil_of_right_ne_nil _ (List.cons_ne_nil _ _))
  loop front attempt back split :=
    absurd split.symm (List.append_ne_nil_of_right_ne_nil _ (List.cons_ne_nil _ _))
  found quiet fault same isLoop := absurd isLoop (errs quiet fault same)

/-- A fault that is found by looking up or noting the verdict on an attempt is that of a loop if
the contents of the attempt were accepted before. -/
theorem Exact.exists_former (isExact : Exact setup earlier attempt)
    (remembered : Remembers setup earlier attempt.standing.cache) (quiet : Quiet setup)
    {fault : Fault} (verdict : attempt.verdict = .error fault) (isLoop : fault.IsLoop) :
    ∃ former ∈ earlier, former.content = attempt.content ∧ former.verdict = .ok true := by
  by_cases asked : attempt.Asked
  · obtain ⟨result, -, run⟩ := isExact.asked asked
    exact absurd isLoop ((fails_isInteresting quiet _ result).errs run fault verdict)
  · obtain ⟨former, among, same⟩ : ∃ former ∈ earlier, former.content = attempt.content := by
      by_contra none
      exact asked (isExact.asked_iff.2 fun former among same => none ⟨former, among, same⟩)
    obtain ⟨interesting, -, known, -, -⟩ := remembered.settled former among
    cases interesting with
    | true => exact ⟨former, among, same, known⟩
    | false =>
      have rejected := (isExact.rejected ⟨former, among, same, known⟩).1
      cases verdict.symm.trans rejected

/-- An attempt that came to no verdict. -/
theorem detected_unjudged {fault : Fault} (isExact : Exact setup earlier attempt)
    (remembered : Remembers setup earlier attempt.standing.cache)
    (verdict : attempt.verdict = .error fault)
    (plan : attempt.judged.plan = attempt.standing.plan) :
    Detected setup earlier [attempt] (.error fault : Except Fault Result) attempt.judged where
  isMatch := isExact.after
  exact front other back split := by
    obtain ⟨rfl, rest⟩ | ⟨-, impossible⟩ := List.singleton_eq_append_iff.1 split
    · obtain ⟨rfl, -⟩ := List.cons.inj rest
      rwa [List.append_nil]
    · cases impossible
  loop front other back split looped _ := by
    obtain ⟨rfl, rest⟩ | ⟨-, impossible⟩ := List.singleton_eq_append_iff.1 split
    · obtain ⟨rfl, rfl⟩ := List.cons.inj rest
      exact ⟨rfl, congrArg Except.error (Except.error.inj (verdict.symm.trans looped)), plan⟩
    · cases impossible
  found quiet other same isLoop := by
    cases same
    refine ⟨[], attempt, rfl, verdict, ?_⟩
    rw [List.append_nil]
    exact isExact.exists_former remembered quiet verdict isLoop

/-- An attempt before some others. -/
theorem Detected.cons (rest : Detected setup (earlier ++ [attempt]) attempts outcome after)
    (isExact : Exact setup earlier attempt)
    (loop : attempt.verdict = .error .loop → ¬attempt.Asked →
      attempts = [] ∧ outcome = .error .loop ∧ after.plan = attempt.standing.plan) :
    Detected setup earlier (attempt :: attempts) outcome after where
  isMatch := by
    have isMatch := rest.isMatch
    rwa [List.append_assoc] at isMatch
  exact front other back split := by
    cases front with
    | nil =>
      obtain ⟨rfl, rfl⟩ := List.cons.inj split
      rwa [List.append_nil]
    | cons first front =>
      obtain ⟨rfl, tail⟩ := List.cons.inj split
      have isExact := rest.exact front other back tail
      rwa [List.append_assoc] at isExact
  loop front other back split := by
    cases front with
    | nil =>
      obtain ⟨rfl, rfl⟩ := List.cons.inj split
      exact loop
    | cons first front => exact rest.loop front other back (List.cons.inj split).2
  found quiet fault same isLoop := by
    obtain ⟨front, last, rfl, verdict, former, among, known⟩ := rest.found quiet fault same isLoop
    refine ⟨attempt :: front, last, rfl, verdict, former, ?_, known⟩
    rwa [List.append_assoc, List.singleton_append] at among

theorem detected_of_shrink (remembers : setup.remembers = true) {outcome : Except Fault Job}
    (shrunk : (shrink setup bindings budget made job).startingAt session = (outcome, after))
    (remembered : Remembers setup earlier session.cache)
    (separates : Separates setup.storage
      (earlier ++ attemptsFrom setup bindings budget made job session)) :
    Detected setup earlier (attemptsFrom setup bindings budget made job session) outcome
      after := by
  induction budget generalizing made job session earlier with
  | zero =>
    cases shrunk
    exact detected_nil remembered.toMatches fun _ => errs_error not_false
  | succ budget inductionHypothesis =>
    -- What an attempt finds remembered is what was remembered when the plan was asked.
    have standing : ∀ {candidate proposed attempt},
        (nextCandidate setup made job).startingAt session = (.ok (some candidate), proposed) →
        Tries setup bindings candidate made proposed attempt →
        Remembers setup earlier attempt.standing.cache := by
      intro candidate proposed attempt next tries
      have same := (sameCache_nextCandidate made job).of_eq next
      have writes := (sameCache_writeCandidate candidate made).of_eq tries.written
      exact (trans_of SameCache same writes) ▸ remembered
    have turns := turns_of_shrink shrunk
    generalize attemptsFrom setup bindings (budget + 1) made job session = attempts at *
    cases turns with
    | unproposed failed =>
      have same := (sameCache_nextCandidate made job).of_eq failed
      exact detected_nil (same ▸ remembered.toMatches) fun quiet =>
        ((fails_nextCandidate quiet made job).errs failed).error
    | finished ended =>
      have same := (sameCache_nextCandidate made job).of_eq ended
      exact detected_nil (same ▸ remembered.toMatches) fun _ => errs_ok _
    | @unwritten candidate proposed after fault next failed =>
      have same := (sameCache_nextCandidate made job).of_eq next
      have writes := (sameCache_writeCandidate candidate made).of_eq failed
      exact detected_nil ((trans_of SameCache same writes) ▸ remembered.toMatches) fun _ =>
        (((fails_writeCandidate candidate made).mono notLoop_of_ofJobs).errs failed).error
    | @unjudged candidate proposed attempt fault next tries verdict =>
      have isMade := made_of_tries remembers tries
      have isExact := (exact_of_made (standing next tries) isMade separates).1
      have same := (sameProgress_consultCache setup attempt.path).of_eq isMade.consulted
      exact detected_unjudged isExact (standing next tries) verdict same.plan.symm
    | @unconcluded candidate proposed after attempt interesting fault next tries verdict failed =>
      have isExact :=
        (exact_of_made (standing next tries) (made_of_tries remembers tries) separates).1
      have same := (sameCache_conclude candidate made interesting).of_eq failed
      refine (detected_nil (same ▸ isExact.after) fun quiet => ?_).cons isExact
        fun loop => nomatch verdict.symm.trans loop
      exact ((fails_conclude notLoop_of_ofJobs candidate made (quiet.update interesting)).errs
        failed).error
    | @concluded candidate proposed between after attempt interesting outcome next tries verdict
        settled rest =>
      have firstSeparates : Separates setup.storage (earlier ++ [attempt]) :=
        separates.mono (List.append_subset.2 ⟨List.subset_append_left _ _,
          List.cons_subset.2 ⟨List.mem_append_right _ List.mem_cons_self, List.nil_subset _⟩⟩)
      have step := exact_of_made (standing next tries) (made_of_tries remembers tries)
        firstSeparates
      have same := (sameCache_conclude candidate made interesting).of_eq settled
      have remembered := same ▸ step.2 interesting verdict
      rw [← List.singleton_append, ← List.append_assoc] at separates
      exact (inductionHypothesis rest remembered separates).cons step.1
        fun loop => nomatch verdict.symm.trans loop

/-- What a session does after its attempts changes nothing, unless it hides a loop or ends with one
of its own. -/
theorem Detected.mono {Other : Type} {final : Session PlanMemory JudgeMemory}
    {last : Except Fault Other} (detected : Detected setup earlier attempts outcome after)
    (same : SameCache after final)
    (kept : outcome = .error .loop → last = .error .loop ∧ final.plan = after.plan)
    (ends : Quiet setup → ∀ fault, last = .error fault → fault.IsLoop → outcome = .error fault) :
    Detected setup earlier attempts last final where
  isMatch := same ▸ detected.isMatch
  exact := detected.exact
  loop front attempt back split looped notAsked := by
    obtain ⟨isLast, ended, plan⟩ := detected.loop front attempt back split looped notAsked
    exact ⟨isLast, (kept ended).1, (kept ended).2.trans plan⟩
  found quiet fault isFault isLoop :=
    detected.found quiet fault (ends quiet fault isFault isLoop) isLoop

/-- A session that ends in its attempts ends with the same fault as they do. -/
theorem Detected.error {Other : Type} {fault : Fault}
    (detected : Detected setup earlier attempts (.error fault : Except Fault Result) after) :
    Detected setup earlier attempts (.error fault : Except Fault Other) after :=
  detected.mono rfl (fun loop => ⟨congrArg Except.error (Except.error.inj loop), rfl⟩)
    fun _ _ same _ => congrArg Except.error (Except.error.inj same)

theorem Detected.ok {Other : Type} {result : Result} {other : Other}
    (detected : Detected setup earlier attempts (.ok result) after) :
    Detected setup earlier attempts (.ok other) after := by
  refine detected.mono rfl ?_ ?_
  · rintro ⟨⟩
  · rintro _ _ ⟨⟩

theorem detected_of_proceed (remembers : setup.remembers = true) {outcome : Except Fault Text}
    (proceeded : (proceed setup bindings budget job).startingAt session = (outcome, after))
    (remembered : Remembers setup [] session.cache)
    (separates : Separates setup.storage
      (attemptsFrom setup bindings budget 0 job { session with current := some job })) :
    Detected setup []
      (attemptsFrom setup bindings budget 0 job { session with current := some job }) outcome
      after := by
  rcases bind_eq_iff.1 proceeded with ⟨_, impossible, -⟩ | ⟨_, begun, noted, rest⟩
  · cases impossible
  cases noted
  rcases bind_eq_iff.1 rest with ⟨fault, failed, rfl⟩ | ⟨last, shrunk, ended, finished⟩
  · exact (detected_of_shrink remembers failed remembered separates).error
  · have same := (sameCache_finish last).of_eq finished
    refine (detected_of_shrink remembers ended remembered separates).mono same
      (fun impossible => nomatch impossible) fun quiet fault isFault isLoop => ?_
    exact absurd isLoop ((fails_finish notLoop_of_ofJobs (fails_isInteresting quiet) last).errs
      finished fault isFault)

/-- Whatever session remembers its attempts goes on to detect what it should. -/
theorem detected_of_remembers (remembers : setup.remembers = true)
    {outcome : Except Fault (Option Text)}
    (ran : (run setup budget job).startingAt session = (outcome, after))
    (remembered : Remembers setup [] session.cache)
    (separates : Separates setup.storage (Session.attempts setup budget job session)) :
    Detected setup [] (Session.attempts setup budget job session) outcome after := by
  rw [run_eq] at ran
  unfold Session.attempts at separates ⊢
  cases form : freeForm job with
  | error fault =>
    rw [form] at ran
    cases ran
    exact detected_nil remembered.toMatches fun _ =>
      errs_error (notLoop_of_ofJobs fault (.inr (errs_freeForm job fault form)))
  | ok pair =>
    obtain ⟨bindings, free⟩ := pair
    rw [form] at ran separates
    change (runFree setup bindings budget free).startingAt session = _ at ran
    rw [runFree, startingAt_bind] at ran
    dsimp only at separates ⊢
    rcases checked : (mayProceed setup bindings free).startingAt session with
      ⟨fault | may, opened⟩
    all_goals have same := (sameCache_mayProceed free).of_eq checked
    all_goals rw [checked] at ran separates
    · cases ran
      exact detected_nil (same ▸ remembered.toMatches) fun quiet =>
        ((fails_mayProceed notLoop_of_ofJobs (fails_isInteresting quiet) free).errs checked).error
    · cases may with
      | false =>
        cases ran
        exact detected_nil (same ▸ remembered.toMatches) fun _ => errs_ok _
      | true =>
        rcases bind_eq_iff.1 ran with ⟨fault, failed, rfl⟩ | ⟨name, proceeded, ended, answer⟩
        · exact (detected_of_proceed remembers failed (same ▸ remembered) separates).error
        · cases answer
          exact (detected_of_proceed remembers ended (same ▸ remembered) separates).ok

end Attempts

/-- A session that remembers its verdicts judges no contents twice, remembers exactly the verdicts
of its judge, and finds a loop exactly when there is one, before the judge is asked or the plan is
told. It ends with the fault of a loop exactly then, unless its plan or its judge fails with one.
However it ends, its judge is called about its input, about the attempts that are said to be asked
about and about the final job, and about nothing else. -/
theorem detected_of_run (setup : SessionSetup PlanMemory JudgeMemory)
    (remembers : setup.remembers = true) (budget : Nat) (job : Job) (directory : Directory)
    (planMemory : PlanMemory) (judgeMemory : JudgeMemory)
    (separates : Separates setup.storage
      (attempts setup budget job (start directory planMemory judgeMemory))) :
    let made := attempts setup budget job (start directory planMemory judgeMemory)
    let ended := (run setup budget job).startingAt (start directory planMemory judgeMemory)
    let called := calls setup budget job directory planMemory judgeMemory
    Detected setup [] made ended.1 ended.2 ∧ ended.2.tally.judgeCalls = called.length ∧
      ∃ tries finals, Called setup tries finals made called :=
  ⟨detected_of_remembers remembers rfl (remembers_empty setup) separates, exists_called_of_run rfl⟩

/-! ### A session that comes back to what it accepted -/

/-- The plan that proposes some jobs one after the other. -/
def proposeAll : Plan (List Job) where
  propose _ := do
    match ← get with
    | [] => throw (.exhausted [])
    | candidate :: rest =>
      set rest
      pure candidate
  update _ := pure ()

/-- The judge that gives some verdicts one after the other, and then rejects everything. -/
def answerAll : Judge (List Verdict) where
  report _ _ := do
    let asked ← get
    Bench.remember List.tail
    pure ⟨asked.memory.headD .notInteresting, [], none, false, [], .finite false 0 0⟩

/-- The setup in which some jobs are proposed and some verdicts are given. -/
def repeatingSetup : SessionSetup (List Job) (List Verdict) where
  plan := proposeAll
  judge := answerAll
  storage := Storage.usual false
  base := "job"
  folder := "work"
  offset := 0
  limit := .unlimited
  remembers := true

theorem quiet_repeatingSetup : Quiet repeatingSetup where
  propose _ := by
    refine fails_get.bind fun waiting => ?_
    split
    · exact fails_throw not_false
    · exact Fails.bind (fails_set _) fun _ => fails_pure _
  update _ := fails_pure _
  report _ _ := fails_get.bind fun _ => Fails.bind (fails_modify _) fun _ => fails_pure _

/-- The candidates of a session that repeats a rejected and an accepted one. -/
def repeated : List Job :=
  [fragmentJob "a\n", fragmentJob "a\n", fragmentJob "b\n", fragmentJob "b\n"]

/-- A result that an outcome has makes the outcome. -/
theorem eq_ok_of_toOption_eq {Result : Type} {outcome : Except Fault Result} {result : Result}
    (found : outcome.toOption = some result) : outcome = .ok result := by
  cases outcome with
  | error fault => cases found
  | ok other => exact congrArg Except.ok (Option.some.inj found)

/-- Every attempt has contents, and different contents have different fingerprints. -/
def ToldApart (storage : Storage) (attempts : List (Attempt PlanMemory JudgeMemory)) : Prop :=
  (∀ attempt ∈ attempts, attempt.content.toOption.isSome = true) ∧
    ∀ first ∈ attempts, ∀ second ∈ attempts,
      (first.fingerprint storage).toOption = (second.fingerprint storage).toOption →
        first.content.toOption = second.content.toOption

instance (storage : Storage) (attempts : List (Attempt PlanMemory JudgeMemory)) :
    Decidable (ToldApart storage attempts) := inferInstanceAs (Decidable (_ ∧ _))

theorem ToldApart.separates {storage : Storage} {attempts : List (Attempt PlanMemory JudgeMemory)}
    (toldApart : ToldApart storage attempts) : Separates storage attempts := by
  intro first firstMember second secondMember same
  obtain ⟨files, content⟩ := Option.isSome_iff_exists.1 (toldApart.1 first firstMember)
  have equal :=
    toldApart.2 first firstMember second secondMember (congrArg Except.toOption same)
  rw [eq_ok_of_toOption_eq content, eq_ok_of_toOption_eq (equal.symm.trans content)]

set_option maxRecDepth 10000 in
theorem detected_of_repeatingSetup :
    let answers := [Verdict.interesting, .notInteresting, .interesting]
    let session := start workDirectory repeated answers
    let made := attempts repeatingSetup 5 (fragmentJob "c\n") session
    let ended := (run repeatingSetup 5 (fragmentJob "c\n")).startingAt session
    let called := calls repeatingSetup 5 (fragmentJob "c\n") workDirectory repeated answers
    repeatingSetup.remembers = true ∧ Separates repeatingSetup.storage made ∧
      (made.map fun attempt => attempt.verdict.toOption) =
        [some false, some false, some true, none] ∧ Quiet repeatingSetup ∧
      Detected repeatingSetup [] made ended.1 ended.2 ∧
      ended.2.tally.judgeCalls = called.length ∧
      ∃ tries finals, Called repeatingSetup tries finals made called := by
  intro answers session made ended called
  obtain ⟨toldApart, verdicts⟩ : ToldApart repeatingSetup.storage made ∧
      (made.map fun attempt => attempt.verdict.toOption) =
        [some false, some false, some true, none] := by
    decide +kernel
  exact ⟨rfl, toldApart.separates, verdicts, quiet_repeatingSetup,
    detected_of_run repeatingSetup rfl 5 (fragmentJob "c\n") workDirectory repeated answers
      toldApart.separates⟩

end Session

end ShaderReduction
