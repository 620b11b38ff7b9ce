/-
This file proves that a reduction goes on exactly where its last sitting stopped.

In a directory that keeps some steps, the records found in the folder are those of the steps and no
others, in the order of their numbers. So the number of the last one is the number of the steps, and
the last accepted one leads to the candidate that was accepted last, which is read as it was. A
folder that is empty keeps no steps, so there the reduction begins.
-/

import ShaderReduction.Proofs.Trail.Keeping
import ShaderReduction.Reduction

namespace ShaderReduction

namespace Trail

open Directory ShaderReduction.Path JobFiles ShaderReduction.Action

/-! ### The last of sorted records -/

theorem attempt_le_of_getLast? {records : List StepRecord} {last : StepRecord}
    (sorted : records.Pairwise fun left right => left.attempt ≤ right.attempt)
    (isLast : records.getLast? = some last) {record : StepRecord} (member : record ∈ records) :
    record.attempt ≤ last.attempt := by
  obtain ⟨before, rfl⟩ := List.getLast?_eq_some_iff.1 isLast
  rcases List.mem_append.1 member with early | late
  · exact (List.pairwise_append.1 sorted).2.2 record early last (List.mem_singleton_self _)
  · exact Nat.le_of_eq (congrArg StepRecord.attempt (List.mem_singleton.1 late))

/-! ### The job to go on from -/

namespace Scene

/-- The candidate accepted last, or the input if there is none. -/
def current (scene : Scene) (steps : List Step) : Job :=
  (((steps.filter Step.accepted).getLast?).map Step.candidate).getD scene.input

/-- The last accepted step is the accepted one with the greatest index. -/
theorem getLast?_filter_accepted {steps : List Step} {index : Nat} {step : Step}
    (found : steps[index]? = some step) (accepted : step.accepted = true)
    (last : ∀ later other, steps[later]? = some other → other.accepted = true → later ≤ index) :
    (steps.filter Step.accepted).getLast? = some step := by
  obtain ⟨inside, same⟩ := List.getElem?_eq_some_iff.1 found
  have rest : (steps.drop (index + 1)).filter Step.accepted = [] := by
    refine List.filter_eq_nil_iff.2 fun other member isAccepted => ?_
    obtain ⟨later, laterFound⟩ := List.mem_iff_getElem?.1 member
    rw [List.getElem?_drop] at laterFound
    have bound := last _ other laterFound isAccepted
    omega
  have cut : steps = steps.take index ++ step :: steps.drop (index + 1) := by
    rw [← same, ← List.drop_eq_getElem_cons inside, List.take_append_drop]
  rw [cut, List.filter_append, List.filter_cons_of_pos accepted, rest, List.getLast?_append]
  rfl

variable {scene : Scene} {steps : List Step} {directory : Directory}

theorem Kept.suits_current (kept : scene.Kept steps directory) (isFit : scene.IsFit) :
    scene.Suits (scene.current steps) := by
  unfold current
  cases last : (steps.filter Step.accepted).getLast? with
  | none => exact ⟨isFit.restorable, rfl⟩
  | some step => exact kept.suits step (List.mem_filter.1 (List.mem_of_getLast? last)).1

/-! ### The records in the folder -/

/-- The record of the step at an index. -/
def record (scene : Scene) (index : Nat) (step : Step) : StepRecord :=
  ⟨index + 1, Outcome.ofVerdict step.accepted, scene.pathAt index step⟩

theorem plainName_of_readStep? {base name : Text} (noSlash : .scalar '/' ∉ base)
    {read : Nat × Outcome} (found : readStep? base name = some read) : PlainName name := by
  obtain ⟨digits, ending, isNumber, -, isEnding, rfl⟩ := readStep?_eq_some_iff.1 found
  have fixed : ∀ word ∈ [("_reduced_" : Text), ("_" : Text), ("success" : Text), ("fail" : Text),
      (".json" : Text), [], [.scalar '\n']], .scalar '/' ∉ word := by decide
  have tag : .scalar '/' ∉ read.2.tag := by cases read.2 <;> decide
  have last : .scalar '/' ∉ ending := fixed _ (by rcases isEnding with rfl | rfl <;> decide)
  refine plainName_of_length ?_ ?_
  · have long := isNumber.long
    simp only [List.length_append]
    omega
  · simp only [List.mem_append, not_or]
    exact ⟨noSlash, fixed _ (by decide), noSlash_of_isNumber isNumber, fixed _ (by decide),
      tag, fixed _ (by decide), last⟩

section RecordsOf

variable {folder : Path} {base : Text} {names : List Text} (noSlash : .scalar '/' ∉ base)

include noSlash

/-- The records are those of the names that are read as steps, each with the path from the folder to
its name. -/
theorem mem_recordsOf_iff_exists_name {found : StepRecord} :
    found ∈ recordsOf folder base names ↔
      ∃ name ∈ names, readStep? base name = some (found.attempt, found.outcome) ∧
        found.path = folder.join name := by
  rw [recordsOf, List.mem_mergeSort, List.mem_filterMap]
  refine exists_congr fun name => and_congr_right fun _ => ?_
  rw [Option.map_eq_some_iff]
  constructor
  · rintro ⟨read, isStep, rfl⟩
    exact ⟨isStep, (join_of_plainName folder (plainName_of_readStep? noSlash isStep)).symm⟩
  · rintro ⟨isStep, isAt⟩
    refine ⟨_, isStep, ?_⟩
    rw [join_of_plainName folder (plainName_of_readStep? noSlash isStep)] at isAt
    exact congrArg (StepRecord.mk _ _) isAt.symm

/-- The name of a judged step has its record. -/
theorem mem_recordsOf_of_mem {number : Nat} {outcome : Outcome}
    (among : fileName (judgedName base number outcome) ∈ names) :
    ⟨number, outcome, folder.join (fileName (judgedName base number outcome))⟩ ∈
      recordsOf folder base names :=
  (mem_recordsOf_iff_exists_name noSlash).2
    ⟨_, among, readStep?_judgedName base number outcome, rfl⟩

end RecordsOf

/-- The records in the folder are those of the steps. -/
theorem Kept.mem_recordsOf_iff (kept : scene.Kept steps directory) (isFit : scene.IsFit)
    {found : StepRecord} :
    found ∈ recordsOf scene.folder scene.base (directory.namesIn scene.location) ↔
      ∃ index step, steps[index]? = some step ∧ found = scene.record index step := by
  have noSlash := isFit.isStem.noSlash
  constructor
  · intro member
    obtain ⟨name, among, isStep, isAt⟩ := (mem_recordsOf_iff_exists_name noSlash).1 member
    obtain ⟨index, step, isIndex, rfl⟩ := kept.only name
      ((mem_namesIn_iff (plainName_of_readStep? noSlash isStep)).1 among)
      (Option.isSome_iff_exists.2 ⟨_, isStep⟩)
    rw [nameAt, readStep?_judgedName] at isStep
    obtain ⟨number, outcome, path⟩ := found
    cases isStep
    exact ⟨index, step, isIndex, congrArg (StepRecord.mk _ _) isAt⟩
  · rintro ⟨index, step, isIndex, rfl⟩
    exact mem_recordsOf_of_mem noSlash ((mem_namesIn_iff
      (isStem_judgedName noSlash _ _).plainName_fileName).2 (kept.holds.toReaches.isSome_node?
        (isStem_judgedName noSlash _ _).plainName_fileName
          (kept.stored index step isIndex).present))

theorem pairwise_recordsOf (folder : Path) (base : Text) (names : List Text) :
    (recordsOf folder base names).Pairwise fun left right => left.attempt ≤ right.attempt := by
  have transitive : ∀ first second third : StepRecord,
      decide (first.attempt ≤ second.attempt) = true →
        decide (second.attempt ≤ third.attempt) = true →
          decide (first.attempt ≤ third.attempt) = true := by
    intro first second third before after
    exact decide_eq_true (Nat.le_trans (of_decide_eq_true before) (of_decide_eq_true after))
  have total : ∀ first second : StepRecord,
      (decide (first.attempt ≤ second.attempt) || decide (second.attempt ≤ first.attempt)) =
        true := by
    intro first second
    rcases Nat.le_total first.attempt second.attempt with ordered | ordered <;> simp [ordered]
  have sorted := List.pairwise_mergeSort transitive total
    (names.filterMap fun name => (readStep? base name).map fun read =>
      StepRecord.mk read.1 read.2 { folder with steps := folder.steps ++ [name] })
  exact sorted.imp of_decide_eq_true

/-! ### The beginning -/

/-- A job that is read can be reduced in an empty folder, where no step has been made yet. -/
theorem exists_scene {folder : Path} {text : Text} {input : Job}
    (empty : (FileAction.list folder).startingAt directory = (.ok [], directory))
    (read : (JobFiles.read (Path.ofText text)).startingAt directory = (.ok input, directory))
    (unguarded : ∀ shader ∈ input.shaders, Definitions.Unguarded shader.lines)
    (document : Document.read (Text.normalizeLineEnds
      (input.uniforms.document.indented ++ [.scalar '\n'])) = .ok input.uniforms.document) :
    ∃ location, IsFit ⟨folder, location, Path.ofText text, input⟩ ∧
      Kept ⟨folder, location, Path.ofText text, input⟩ [] directory := by
  obtain ⟨location, located, isFolder, nothing⟩ := FileAction.list_eq_ok empty
  obtain ⟨place, content, placed, isFile⟩ := exists_file_of_read_eq_ok read
  have plain := plainName_of_locate placed isFile
  have vacant : ∀ name, PlainName name → directory.node? (location ++ [name]) = none :=
    fun name => node?_of_namesIn_eq_nil nothing.symm
  obtain ⟨inputFolder, reached, isInputFolder, -, rfl⟩ := exists_folder_of_locate plain placed
  have different : inputFolder ≠ location := by
    rintro rfl
    rw [vacant _ plain] at isFile
    cases isFile
  have isFit : IsFit ⟨folder, location, Path.ofText text, input⟩ :=
    ⟨plain, ⟨isRead_of_read_eq_ok read, unguarded, document⟩⟩
  refine ⟨location, isFit, ?_⟩
  exact {
    located := located
    holds := {
      followed := (locate_eq_ok_iff.1 located).2
      isFolder := isFolder
      flat := fun name isPlain isFolder => by
        rw [vacant name isPlain] at isFolder
        cases isFolder }
    stored := fun index step found => by cases found
    suits := fun step member => absurd member List.not_mem_nil
    only := fun name isThere isStep => by
      obtain ⟨read, found⟩ := Option.isSome_iff_exists.1 isStep
      rw [vacant name (plainName_of_readStep? isFit.isStem.noSlash found)] at isThere
      cases isThere
    elsewhere := ⟨inputFolder, ⟨reached, isInputFolder⟩, different⟩
    read := read }

/-! ### The point to go on from -/

section Records

variable {records : List StepRecord}
  (mem : ∀ found, found ∈ records ↔
    ∃ index step, steps[index]? = some step ∧ found = scene.record index step)

include mem

/-- The last record has the number of steps for its attempt. -/
theorem attempt_getLast?_eq
    (sorted : records.Pairwise fun left right => left.attempt ≤ right.attempt) :
    (records.getLast?.map StepRecord.attempt).getD 0 = steps.length := by
  cases isLast : records.getLast? with
  | none =>
    have noRecords := List.getLast?_eq_none_iff.1 isLast
    cases steps with
    | nil => rfl
    | cons step steps =>
      have member := (mem _).2 ⟨0, step, rfl, rfl⟩
      rw [noRecords] at member
      exact absurd member List.not_mem_nil
  | some last =>
    obtain ⟨index, step, found, rfl⟩ := (mem last).1 (List.mem_of_getLast? isLast)
    have inside := (List.getElem?_eq_some_iff.1 found).1
    obtain ⟨final, atEnd⟩ : ∃ final, steps[steps.length - 1]? = some final :=
      ⟨_, List.getElem?_eq_getElem (by omega)⟩
    have bound : steps.length - 1 + 1 ≤ index + 1 :=
      attempt_le_of_getLast? sorted isLast ((mem _).2 ⟨_, _, atEnd, rfl⟩)
    show index + 1 = steps.length
    omega

theorem mem_filter_accepted_iff (found : StepRecord) :
    found ∈ records.filter (fun record => record.outcome = .accepted) ↔
      ∃ index step, steps[index]? = some step ∧ step.accepted = true ∧
        found = scene.record index step := by
  rw [List.mem_filter, mem]
  constructor
  · rintro ⟨⟨index, step, isAt, rfl⟩, isAccepted⟩
    refine ⟨index, step, isAt, ?_, rfl⟩
    cases verdict : step.accepted with
    | true => rfl
    | false => simp [record, Outcome.ofVerdict, verdict] at isAccepted
  · rintro ⟨index, step, isAt, verdict, rfl⟩
    exact ⟨⟨index, step, isAt, rfl⟩, by simp [record, Outcome.ofVerdict, verdict]⟩

/-- The last accepted record leads to the candidate accepted last, and without one the input is the
job to go on from. -/
theorem Kept.startingAt_read_accepted (kept : scene.Kept steps directory)
    (sorted : records.Pairwise fun left right => left.attempt ≤ right.attempt) :
    (JobFiles.read ((((records.filter fun record => record.outcome = .accepted).getLast?).map
      StepRecord.path).getD scene.path)).startingAt directory =
        (.ok (scene.current steps), directory) := by
  have accepted := mem_filter_accepted_iff mem
  cases isLast : (records.filter fun record => record.outcome = .accepted).getLast? with
  | none =>
    have noneAccepted : steps.filter Step.accepted = [] := by
      refine List.filter_eq_nil_iff.2 fun step member isAccepted => ?_
      obtain ⟨index, found⟩ := List.mem_iff_getElem?.1 member
      have isRecord := (accepted _).2 ⟨index, step, found, isAccepted, rfl⟩
      rw [List.getLast?_eq_none_iff.1 isLast] at isRecord
      exact absurd isRecord List.not_mem_nil
    rw [current, noneAccepted]
    exact kept.read
  | some last =>
    obtain ⟨index, step, found, isAccepted, rfl⟩ := (accepted last).1 (List.mem_of_getLast? isLast)
    have greatest : ∀ later other, steps[later]? = some other → other.accepted = true →
        later ≤ index := by
      intro later other laterFound laterAccepted
      exact Nat.le_of_succ_le_succ (attempt_le_of_getLast? (sorted.filter _) isLast
        ((accepted _).2 ⟨later, other, laterFound, laterAccepted, rfl⟩))
    rw [current, getLast?_filter_accepted found isAccepted greatest]
    have suits := kept.suits step (List.mem_of_getElem? found)
    exact startingAt_read (isJobPath_join _ _) (kept.stored index step found) rfl suits.restorable

end Records

/-- The trail says how many steps there are and which was the last accepted one. -/
theorem Kept.resumePointOf_eq (kept : scene.Kept steps directory) (isFit : scene.IsFit) :
    ∃ path, resumePointOf
        (recordsOf scene.folder scene.base (directory.namesIn scene.location)) =
          ⟨steps.length, path⟩ ∧
      (JobFiles.read (path.getD scene.path)).startingAt directory =
        (.ok (scene.current steps), directory) := by
  have mem : ∀ found, found ∈ recordsOf scene.folder scene.base
      (directory.namesIn scene.location) ↔ ∃ index step, steps[index]? = some step ∧
        found = scene.record index step := fun _ => kept.mem_recordsOf_iff isFit
  have sorted := pairwise_recordsOf scene.folder scene.base (directory.namesIn scene.location)
  refine ⟨_, ?_, kept.startingAt_read_accepted mem sorted⟩
  rw [← attempt_getLast?_eq mem sorted]
  rfl

/-- A session that goes on from the trail starts after all steps, from the candidate accepted
last. -/
theorem Kept.startingAt_opening (kept : scene.Kept steps directory) (isFit : scene.IsFit)
    {settings : Settings} (continues : settings.continuePrevious.isGiven = true) :
    (Reduction.opening settings scene.folder scene.path).startingAt directory =
      (.ok ⟨steps.length, scene.current steps⟩, directory) := by
  obtain ⟨path, point, read⟩ := kept.resumePointOf_eq isFit
  have found : (Reduction.startingPoint settings scene.folder scene.path.stem).startingAt
      directory = (.ok ⟨steps.length, path⟩, directory) := by
    rw [Reduction.startingPoint, if_pos continues, resumePoint, records]
    simp only [startingAt_bind, FileAction.startingAt_list kept.located kept.holds.isFolder,
      startingAt_pure]
    exact congrArg (fun point => (Except.ok point, directory)) point
  rw [Reduction.opening, startingAt_bind, found]
  simp only [startingAt_bind, read, startingAt_pure]

end Scene

end Trail

end ShaderReduction
