/-
This file proves that the trail in a folder is read back as it was written.

The name of the file of a judged step tells its number and outcome from the right: the ending, the
tag and the digits, of which there are as many as stand in a row. What is in front is the name of
the job that is reduced, whatever it is made of, so a step of another job is not taken for one of
this job. Files of other kinds end in another way. The records found are therefore those of the
steps that were written, in the order of their numbers, and they lead to the last accepted one.
-/

import ShaderReduction.Proofs.Trail.Resuming

namespace ShaderReduction

/-- Two runs with what stands in front of them are equal only if both parts are. -/
theorem eq_of_append_run_eq {Item : Type} {isMember : Item → Bool}
    {used front other before : List Item} (inside : ∀ item ∈ used, isMember item = true)
    (stop : ∀ item ∈ front.getLast?, isMember item = false)
    (otherInside : ∀ item ∈ other, isMember item = true)
    (otherStop : ∀ item ∈ before.getLast?, isMember item = false)
    (same : front ++ used = before ++ other) : front = before ∧ used = other := by
  have reversed : used.reverse ++ front.reverse = other.reverse ++ before.reverse := by
    rw [← List.reverse_append, ← List.reverse_append, same]
  obtain ⟨sameRun, sameFront⟩ := eq_of_run_append_eq
    (fun item member => inside item (List.mem_reverse.1 member))
    (by rwa [List.head?_reverse]) (fun item member => otherInside item (List.mem_reverse.1 member))
    (by rwa [List.head?_reverse]) reversed
  exact ⟨List.reverse_injective sameFront, List.reverse_injective sameRun⟩

namespace Trail

open ShaderReduction.Action JobFiles

/-! ### How names of judged steps end -/

/-- How a name that is read as that of a judged step may end. -/
def stepTails : List Text :=
  [Outcome.accepted, Outcome.rejected].flatMap fun outcome =>
    [[], [.scalar '\n']].map fun ending => outcome.tag ++ ((".json" : Text) ++ ending)

theorem mem_stepTails (outcome : Outcome) {ending : Text}
    (isEnding : ending = [] ∨ ending = [.scalar '\n']) :
    outcome.tag ++ ((".json" : Text) ++ ending) ∈ stepTails := by
  cases outcome <;> rcases isEnding with rfl | rfl <;> decide

/-- What a name ends in decides that it is not read as that of a judged step. -/
theorem readStep?_eq_none_of_suffix {base name ending : Text} (isEnding : ending <:+ name)
    (apart : ∀ tail ∈ stepTails, ¬ending <:+ tail ∧ ¬tail <:+ ending) :
    readStep? base name = none := by
  refine Option.eq_none_iff_forall_ne_some.2 fun (number, outcome) read => ?_
  obtain ⟨digits, last, -, -, isLast, rfl⟩ := readStep?_eq_some_iff.1 read
  have isTail : outcome.tag ++ ((".json" : Text) ++ last) <:+ base ++ (("_reduced_" : Text) ++
      (digits ++ (("_" : Text) ++ (outcome.tag ++ ((".json" : Text) ++ last))))) := by
    refine ⟨base ++ (("_reduced_" : Text) ++ (digits ++ ("_" : Text))), ?_⟩
    simp only [List.append_assoc]
  obtain ⟨notLonger, notShorter⟩ := apart _ (mem_stepTails outcome isLast)
  rcases List.suffix_or_suffix_of_suffix isEnding isTail with longer | shorter
  · exact notLonger longer
  · exact notShorter shorter

/-- A digit before the ending of a job's file is no part of a tag. -/
theorem not_suffix_of_isDigit {digit : CodePoint} (isDigit : digit.isDigit = true) :
    ∀ tail ∈ stepTails,
      ¬digit :: (".json" : Text) <:+ tail ∧ ¬tail <:+ digit :: (".json" : Text) := by
  have before : ∀ tail ∈ stepTails,
      ∀ point ∈ (tail.drop (tail.length - 6)).head?, point.isDigit = false := by decide
  have long : ∀ tail ∈ stepTails, 6 < tail.length := by decide
  refine fun tail member => ⟨fun suffix => ?_, fun suffix => ?_⟩
  · have cut := List.suffix_iff_eq_drop.1 suffix
    have notDigit := before tail member digit (by
      rw [show 6 = (digit :: (".json" : Text)).length from rfl, ← cut]
      rfl)
    exact Bool.noConfusion (isDigit.symm.trans notDigit)
  · exact absurd suffix.length_le (Nat.not_le.2 (long tail member))

/-! ### Other files -/

/-- Names of files that stand beside the records of a job: those of other jobs' judged steps, and
any job's result and stage files of judged steps, untagged steps and final output. -/
inductive Beside (base : Text) : Text → Prop where
  | judged {other ending : Text} {number : Nat} {outcome : Outcome}
    (member : ending ∈ resultEnding :: suffixes) :
    Beside base (judgedName other number outcome ++ ending)
  | untagged {other ending : Text} {number : Nat} (member : ending ∈ endings) :
    Beside base (stepName other number ++ ending)
  | final {other ending : Text} (member : ending ∈ endings) :
    Beside base (finalName other ++ ending)
  | foreign {other : Text} {number : Nat} {outcome : Outcome} (different : other ≠ base) :
    Beside base (fileName (judgedName other number outcome))

theorem not_suffix_of_mem {ending : Text} (member : ending ∈ resultEnding :: suffixes) :
    ∀ tail ∈ stepTails, ¬ending <:+ tail ∧ ¬tail <:+ ending := by
  have all : ∀ ending ∈ resultEnding :: suffixes, ∀ tail ∈ stepTails,
      ¬ending <:+ tail ∧ ¬tail <:+ ending := by decide
  exact all ending member

/-- The mark before the number is no digit. -/
theorem getLast?_mark (base : Text) :
    ∀ point ∈ (base ++ ("_reduced_" : Text)).getLast?, point.isDigit = false := by
  intro point isLast
  rw [List.getLast?_append] at isLast
  cases isLast
  decide

/-- The file of a judged step is read as one of the job for which it is named. -/
theorem base_eq_of_readStep? {base other : Text} {number : Nat} {outcome : Outcome}
    {step : Nat × Outcome}
    (read : readStep? base (fileName (judgedName other number outcome)) = some step) :
    other = base := by
  obtain ⟨digits, ending, isNumber, -, isEnding, same⟩ := readStep?_eq_some_iff.1 read
  have written : fileName (judgedName other number outcome) =
      (other ++ ("_reduced_" : Text)) ++ stepDigits number ++ ("_" : Text) ++
        (outcome.tag ++ ((".json" : Text) ++ [])) := by
    rw [fileName, judgedName_eq]
    simp only [List.append_assoc, List.append_nil]
  have taken : fileName (judgedName other number outcome) =
      (base ++ ("_reduced_" : Text)) ++ digits ++ ("_" : Text) ++
        (step.2.tag ++ ((".json" : Text) ++ ending)) := by
    rw [same]
    simp only [List.append_assoc]
  have apart : ∀ first ∈ stepTails, ∀ second ∈ stepTails, first <:+ second → first = second := by
    decide
  have isTail := mem_stepTails outcome (.inl rfl)
  have isOtherTail := mem_stepTails step.2 isEnding
  have sameTail : outcome.tag ++ ((".json" : Text) ++ []) =
      step.2.tag ++ ((".json" : Text) ++ ending) := by
    rcases List.suffix_or_suffix_of_suffix ⟨_, written.symm⟩ ⟨_, taken.symm⟩ with first | second
    · exact apart _ isTail _ isOtherTail first
    · exact (apart _ isOtherTail _ isTail second).symm
  rw [written, sameTail] at taken
  have runs := List.append_cancel_right (List.append_cancel_right taken)
  exact List.append_cancel_right (eq_of_append_run_eq (isNumber_stepDigits number).digit
    (getLast?_mark other) isNumber.digit (getLast?_mark base) runs).1

theorem exists_digit_suffix (base : Text) (number : Nat) :
    ∃ digit, digit.isDigit = true ∧ [digit] <:+ stepName base number := by
  rcases List.eq_nil_or_concat (stepDigits number) with nothing | ⟨others, digit, isLast⟩
  · exact absurd nothing (isNumber_stepDigits number).ne_nil
  · have member : digit ∈ stepDigits number := by
      rw [isLast, List.concat_eq_append]
      exact List.mem_append_right _ (List.mem_singleton_self _)
    refine ⟨digit, (isNumber_stepDigits number).digit digit member,
      base ++ ("_reduced_" : Text) ++ others, ?_⟩
    rw [List.append_assoc, ← List.concat_eq_append, ← isLast]
    rfl

theorem readStep?_of_beside {base name : Text} (beside : Beside base name) :
    readStep? base name = none := by
  cases beside with
  | judged member =>
    exact readStep?_eq_none_of_suffix (List.suffix_append _ _) (not_suffix_of_mem member)
  | untagged member =>
    rename_i other ending number
    rcases List.mem_cons.1 member with rfl | member
    · obtain ⟨digit, isDigit, front, isLast⟩ := exists_digit_suffix other number
      refine readStep?_eq_none_of_suffix ⟨front, ?_⟩ (not_suffix_of_isDigit isDigit)
      rw [← isLast, List.append_assoc, List.singleton_append]
    · exact readStep?_eq_none_of_suffix (List.suffix_append _ _) (not_suffix_of_mem member)
  | final member =>
    rename_i other ending
    rcases List.mem_cons.1 member with rfl | member
    · have apart : ∀ tail ∈ stepTails, ¬("final.json" : Text) <:+ tail ∧
          ¬tail <:+ ("final.json" : Text) := by decide
      refine readStep?_eq_none_of_suffix ⟨other ++ ("_reduced_" : Text), ?_⟩ apart
      rw [finalName, List.append_assoc, List.append_assoc]
      rfl
    · exact readStep?_eq_none_of_suffix (List.suffix_append _ _) (not_suffix_of_mem member)
  | foreign different =>
    exact Option.eq_none_iff_forall_ne_some.2 fun _ read => different (base_eq_of_readStep? read)

/-! ### The records of written steps -/

/-- The name of the file of a judged step. -/
def stepFileName (base : Text) (step : Nat × Outcome) : Text :=
  fileName (judgedName base step.1 step.2)

/-- The record of a judged step in a folder. -/
def recordIn (folder : Path) (base : Text) (step : Nat × Outcome) : StepRecord :=
  ⟨step.1, step.2, { folder with steps := folder.steps ++ [stepFileName base step] }⟩

section Written

variable (folder : Path) {base : Text} {steps : List (Nat × Outcome)} {names others : List Text}
  (written : names.Perm (steps.map (stepFileName base) ++ others))
  (beside : ∀ name ∈ others, Beside base name)

include written beside

/-- The records found are those of the steps. -/
theorem recordsOf_perm : (recordsOf folder base names).Perm (steps.map (recordIn folder base)) := by
  refine (List.mergeSort_perm _ _).trans ((written.filterMap _).trans ?_)
  have nothing : ∀ name ∈ others, (readStep? base name).map (fun read =>
      StepRecord.mk read.1 read.2 { folder with steps := folder.steps ++ [name] }) = none := by
    intro name member
    rw [readStep?_of_beside (beside name member)]
    rfl
  have each : ∀ step : Nat × Outcome, (readStep? base (stepFileName base step)).map (fun read =>
      StepRecord.mk read.1 read.2 { folder with steps := folder.steps ++ [stepFileName base step] })
        = some (recordIn folder base step) := by
    intro step
    rw [stepFileName, readStep?_judgedName]
    rfl
  rw [List.filterMap_append, List.filterMap_eq_nil_iff.2 nothing, List.append_nil,
    List.filterMap_map]
  refine List.Perm.of_eq ((List.filterMap_congr fun step _ => each step).trans ?_)
  exact congrFun List.filterMap_eq_map _

end Written

/-! ### The point at which written steps end -/

/-- The greatest number of the steps, and the path of the accepted one with the greatest number. -/
def lastPoint (folder : Path) (base : Text) (steps : List (Nat × Outcome)) : ResumePoint where
  offset := (steps.map Prod.fst).max?.getD 0
  path := ((steps.filter fun step => step.2 = .accepted).map Prod.fst).max?.map fun number =>
    (recordIn folder base (number, .accepted)).path

/-- Of sorted records the last has the greatest number. -/
theorem attempt_getLast?_eq_max? {records : List StepRecord} {numbers : List Nat}
    (sorted : records.Pairwise fun left right => left.attempt ≤ right.attempt)
    (perm : (records.map StepRecord.attempt).Perm numbers) :
    records.getLast?.map StepRecord.attempt = numbers.max? := by
  cases isLast : records.getLast? with
  | none =>
    rw [List.getLast?_eq_none_iff.1 isLast] at perm
    rw [perm.nil_eq.symm]
    rfl
  | some last =>
    refine (List.max?_eq_some_iff.2 ⟨?_, fun number member => ?_⟩).symm
    · exact perm.mem_iff.1 (List.mem_map_of_mem (List.mem_of_getLast? isLast))
    · obtain ⟨record, isRecord, rfl⟩ := List.mem_map.1 (perm.mem_iff.2 member)
      exact attempt_le_of_getLast? sorted isLast isRecord

/-- Sorted records of steps lead to the point at which the steps end. -/
theorem resumePointOf_eq_lastPoint {folder : Path} {base : Text} {steps : List (Nat × Outcome)}
    {records : List StepRecord}
    (sorted : records.Pairwise fun left right => left.attempt ≤ right.attempt)
    (perm : records.Perm (steps.map (recordIn folder base))) :
    resumePointOf records = lastPoint folder base steps := by
  have acceptedPerm : (records.filter fun record => record.outcome = .accepted).Perm
      ((steps.filter fun step => step.2 = .accepted).map (recordIn folder base)) :=
    (perm.filter _).trans (List.Perm.of_eq List.filter_map)
  have numbers : ∀ steps : List (Nat × Outcome),
      (steps.map (recordIn folder base)).map StepRecord.attempt = steps.map Prod.fst :=
    fun steps => List.map_map
  have atNumber : ∀ record ∈ records.filter fun record => record.outcome = .accepted,
      record.path = (recordIn folder base (record.attempt, .accepted)).path := by
    intro record member
    obtain ⟨⟨number, outcome⟩, isStep, rfl⟩ := List.mem_map.1 (acceptedPerm.mem_iff.1 member)
    obtain rfl : outcome = .accepted := of_decide_eq_true (List.mem_filter.1 isStep).2
    rfl
  have offset := attempt_getLast?_eq_max? sorted
    ((perm.map StepRecord.attempt).trans (List.Perm.of_eq (numbers steps)))
  have accepted := attempt_getLast?_eq_max? (sorted.filter _)
    ((acceptedPerm.map StepRecord.attempt).trans (List.Perm.of_eq (numbers _)))
  unfold resumePointOf lastPoint
  rw [offset, ← accepted]
  refine congrArg _ ?_
  rw [Option.map_map]
  cases isLast : (records.filter fun record => record.outcome = .accepted).getLast? with
  | none => rfl
  | some last => exact congrArg some (atNumber last (List.mem_of_getLast? isLast))

/-! ### The trail in a folder -/

/-- Records are those of some steps, in the order of their numbers, and lead to the point at which
the steps end. -/
structure Tells (folder : Path) (base : Text) (steps : List (Nat × Outcome))
    (records : List StepRecord) : Prop where
  exact : records.Perm (steps.map (recordIn folder base))
  ordered : records.Pairwise fun left right => left.attempt ≤ right.attempt
  ends : resumePointOf records = lastPoint folder base steps

theorem tells_recordsOf {folder : Path} {base : Text} {steps : List (Nat × Outcome)}
    {names others : List Text} (written : names.Perm (steps.map (stepFileName base) ++ others))
    (beside : ∀ name ∈ others, Beside base name) :
    Tells folder base steps (recordsOf folder base names) := by
  have sorted := Scene.pairwise_recordsOf folder base names
  have perm := recordsOf_perm folder written beside
  exact ⟨perm, sorted, resumePointOf_eq_lastPoint sorted perm⟩

/-- In a folder that holds the files of some judged steps of a job, and beside them only such names
as are said to stand beside, the records found are those of the steps. They are sorted and lead to
the point at which the steps end, in whatever order the names are listed. -/
theorem tells_records {directory : Directory} {folder : Path} {location : Location} {base : Text}
    {steps : List (Nat × Outcome)} {others : List Text}
    (located : directory.locate folder = .ok location)
    (isFolder : directory.node? location = some .folder)
    (written : (directory.namesIn location).Perm (steps.map (stepFileName base) ++ others))
    (beside : ∀ name ∈ others, Beside base name) :
    (∃ found, (records folder base).startingAt directory = (.ok found, directory) ∧
      Tells folder base steps found) ∧
    (resumePoint folder base).startingAt directory =
      (.ok (lastPoint folder base steps), directory) ∧
    ∀ names, names.Perm (directory.namesIn location) →
      Tells folder base steps (recordsOf folder base names) := by
  have told : Tells folder base steps (recordsOf folder base (directory.namesIn location)) :=
    tells_recordsOf written beside
  have found : (records folder base).startingAt directory =
      (.ok (recordsOf folder base (directory.namesIn location)), directory) := by
    rw [records, startingAt_bind, FileAction.startingAt_list located isFolder]
    rfl
  refine ⟨⟨_, found, told⟩, ?_, fun names perm => tells_recordsOf (perm.trans written) beside⟩
  rw [resumePoint, startingAt_bind, found, ← told.ends]
  rfl

/-- A folder of empty files. -/
def folderOf (names : List Text) : Directory :=
  ⟨([("work" : Text)], .folder) :: names.map fun name => ([("work" : Text), name], .file [])⟩

theorem namesIn_folderOf (names : List Text) : ((folderOf names).namesIn ["work"]).Perm names := by
  refine (List.mergeSort_perm _ _).trans (List.Perm.of_eq ?_)
  rw [folderOf, List.filterMap_cons, List.filterMap_map]
  exact (List.filterMap_congr fun name _ => rfl).trans List.filterMap_some

/-- The name of a job that is named as a judged step of another one. -/
def steppedBase : Text := "x_reduced_0001_success"

/-- Steps with numbers of four and of five digits. -/
def longSteps : List (Nat × Outcome) := [(10000, .rejected), (9999, .accepted), (12, .accepted)]

/-- Files of other kinds, and a judged step of the other job. -/
def besideLongSteps : List Text :=
  [stepFileName "x" (1, .accepted), judgedName steppedBase 12 .accepted ++ (".frag" : Text),
    judgedName steppedBase 12 .accepted ++ (".info.json" : Text),
    stepName steppedBase 10001 ++ (".json" : Text), finalName steppedBase ++ (".json" : Text)]

theorem beside_of_mem_besideLongSteps {name : Text} (member : name ∈ besideLongSteps) :
    Beside steppedBase name := by
  simp only [besideLongSteps, List.mem_cons, List.not_mem_nil, or_false] at member
  rcases member with rfl | rfl | rfl | rfl | rfl
  · exact .foreign (by decide)
  · exact .judged (by decide)
  · exact .judged (by decide)
  · exact .untagged (by decide)
  · exact .final (by decide)

/-- The folder of those files. -/
def longFolder : Directory :=
  folderOf (longSteps.map (stepFileName steppedBase) ++ besideLongSteps)

theorem tells_records_longSteps :
    longFolder.locate "work" = .ok ["work"] ∧ longFolder.node? ["work"] = some .folder ∧
      (longFolder.namesIn ["work"]).Perm
        (longSteps.map (stepFileName steppedBase) ++ besideLongSteps) ∧
      (∀ name ∈ besideLongSteps, Beside steppedBase name) ∧
      (∃ found, (records "work" steppedBase).startingAt longFolder = (.ok found, longFolder) ∧
        Tells "work" steppedBase longSteps found) ∧
      (resumePoint "work" steppedBase).startingAt longFolder =
        (.ok (lastPoint "work" steppedBase longSteps), longFolder) ∧
      ∀ names, names.Perm (longFolder.namesIn ["work"]) →
        Tells "work" steppedBase longSteps (recordsOf "work" steppedBase names) := by
  have beside : ∀ name ∈ besideLongSteps, Beside steppedBase name :=
    fun _ => beside_of_mem_besideLongSteps
  have written := namesIn_folderOf (longSteps.map (stepFileName steppedBase) ++ besideLongSteps)
  exact ⟨rfl, rfl, written, beside, tells_records rfl rfl written beside⟩

/-- The steps end after the longest number, with the greatest accepted one. -/
example : lastPoint "work" steppedBase longSteps =
    ⟨10000, some "work/x_reduced_0001_success_reduced_9999_success.json"⟩ := rfl

end Trail

end ShaderReduction
