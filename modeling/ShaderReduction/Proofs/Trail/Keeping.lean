/-
This file defines what a folder holds while a job is reduced there in several sittings, and proves
what that withstands.

Every step that was judged and tagged has its job in the folder, under its number and outcome,
stored as the candidate was. No other name in the folder is read as that of a step, and the input,
which is elsewhere, is read as it was. Files of jobs that are no judged steps, results and markers
may come, change and go: none of this touches the steps. Tagging the job of the next attempt adds
its step.
-/

import ShaderReduction.Proofs.JobFiles.Restoring
import ShaderReduction.Proofs.Trail.Names

namespace ShaderReduction

open Directory ShaderReduction.Path

/-! ### Changes that leave a job alone -/

section Unchanged

variable {before after : Directory} {folder : Path} {location : Location} {names : Text → Prop}
  (change : ChangesIn location names before after)

include change

theorem JobFiles.StoredAt.of_changesIn {storage : Storage} {job : Job} {name : Text}
    (isStored : StoredAt before storage (folder.join (Trail.fileName name)) job)
    (isStem : IsStem name) (reaches : Reaches before folder location)
    (outside : ∀ ending ∈ (".json" : Text) :: suffixes, ¬names (name ++ ending)) :
    StoredAt after storage (folder.join (Trail.fileName name)) job := by
  have plain : ∀ ending ∈ (".json" : Text) :: suffixes, PlainName (name ++ ending) :=
    fun ending member =>
      isStem.plainName_append (isEnding_of_mem_endings (mem_endings_of_mem member))
  have kept : ∀ ending ∈ (".json" : Text) :: suffixes,
      after.nodeAt (folder.join (name ++ ending)) = before.nodeAt (folder.join (name ++ ending)) :=
    fun ending member => change.nodeAt_join_eq reaches (plain ending member) (outside ending member)
  have isJobPath := isJobPath_join folder name
  refine ⟨?_, ?_, fun place member => ?_⟩
  · rw [← isStored.view, view_eq_ok isJobPath, view_eq_ok isJobPath, places_join folder isStem,
      List.map_map, List.map_map]
    exact congrArg Except.ok (List.map_congr_left kept)
  · rw [Trail.fileName, kept _ List.mem_cons_self]
    exact isStored.present
  · have short := isStored.short place member
    rw [places_join folder isStem] at member
    obtain ⟨ending, isEnding, rfl⟩ := List.mem_map.1 member
    rwa [reaches.locate_join_eq change.folders (plain ending isEnding)]

/-- Paths into another folder lead to what they led to. -/
theorem Directory.Reaches.sameAt {other : Path} {place : Location}
    (reaches : Reaches before other place) (different : place ≠ location) {name : Text}
    (plain : PlainName name) : SameAt (other.join name) before after := by
  refine ⟨reaches.locate_join_eq change.folders plain, fun found located => ?_⟩
  rw [reaches.eq_of_locate_join plain located]
  refine change.elsewhere _ ?_
  rintro ⟨changed, -, same⟩
  exact different (List.append_inj' same rfl).1

/-- A job in another folder is read as before. -/
theorem JobFiles.startingAt_read_of_changesIn {path : Path} {place : Location} {job : Job}
    (plain : PlainName path.name) (reaches : Reaches before path.parent place)
    (different : place ≠ location) (found : (read path).startingAt before = (.ok job, before)) :
    (read path).startingAt after = (.ok job, after) := by
  have same : ∀ place ∈ places path, SameAt place before after := by
    intro place member
    rw [eq_join_of_mem_places plain member]
    exact reaches.sameAt change different (plainName_of_mem_places plain member)
  obtain ⟨result, first, second⟩ := agrees_read plain same
  cases first.symm.trans found
  exact second

end Unchanged

namespace Trail

open JobFiles

/-! ### What is kept in a folder -/

/-- A step of a reduction that was judged: the candidate, and whether it was accepted. -/
structure Step where
  candidate : Job
  accepted : Bool

/-- What stays the same while a job is reduced in a folder: the path of the folder and its location,
and the path of the job and the job that is read there. -/
structure Scene where
  folder : Path
  location : Location
  path : Path
  input : Job

namespace Scene

variable (scene : Scene)

/-- The name of the job that is reduced. -/
def base : Text := scene.path.stem

/-- The name of the job of the step at an index. -/
def nameAt (index : Nat) (step : Step) : Text :=
  judgedName scene.base ((index + 1 : Nat) : Int) (Outcome.ofVerdict step.accepted)

/-- The path of the job of the step at an index. -/
def pathAt (index : Nat) (step : Step) : Path :=
  scene.folder.join (fileName (scene.nameAt index step))

/-- A job that the reduction may go on from: it can be restored, and it has the uniforms of the
input. -/
structure Suits (job : Job) : Prop where
  restorable : Restorable job
  uniforms : job.uniforms = scene.input.uniforms

/-- The input is one that can be restored, at a path that ends in a name. -/
structure IsFit : Prop where
  plain : PlainName scene.path.name
  restorable : Restorable scene.input

/-- A directory in which a reduction has made some steps. -/
structure Kept (steps : List Step) (directory : Directory) : Prop where
  located : directory.locate scene.folder = .ok scene.location
  holds : HoldsFiles directory scene.folder scene.location
  stored : ∀ index step, steps[index]? = some step →
    StoredAt directory (Storage.usual false) (scene.pathAt index step) step.candidate
  suits : ∀ step ∈ steps, scene.Suits step.candidate
  only : ∀ name, (directory.node? (scene.location ++ [name])).isSome = true →
    (readStep? scene.base name).isSome = true →
      ∃ index step, steps[index]? = some step ∧ name = fileName (scene.nameAt index step)
  elsewhere : ∃ place, Reaches directory scene.path.parent place ∧ place ≠ scene.location
  read : (JobFiles.read scene.path).startingAt directory = (.ok scene.input, directory)

variable {scene} {steps : List Step} {before after : Directory} {names : Text → Prop}

theorem IsFit.isStem (isFit : scene.IsFit) : IsStem scene.base := isStem_stem isFit.plain

theorem isStem_stepName {base : Text} (noSlash : .scalar '/' ∉ base) (number : Nat) :
    IsStem (Trail.stepName base number) := by
  refine ⟨List.append_ne_nil_of_left_ne_nil
    (List.append_ne_nil_of_right_ne_nil _ (by decide)) _, ?_⟩
  have digits := noSlash_of_isNumber (isNumber_stepDigits number)
  simp only [Trail.stepName, List.mem_append, not_or]
  exact ⟨⟨noSlash, by decide⟩, digits⟩

theorem isStem_judgedName {base : Text} (noSlash : .scalar '/' ∉ base) (number : Nat)
    (outcome : Outcome) : IsStem (judgedName base number outcome) := by
  have mark : ∀ word ∈ [("_reduced_" : Text), ("_" : Text), ("success" : Text), ("fail" : Text)],
      .scalar '/' ∉ word := by decide
  have tag : .scalar '/' ∉ outcome.tag := by cases outcome <;> decide
  rw [judgedName_eq]
  refine ⟨List.append_ne_nil_of_right_ne_nil _ (List.append_ne_nil_of_left_ne_nil (by decide) _),
    ?_⟩
  simp only [List.mem_append, not_or]
  exact ⟨noSlash, mark _ (by decide), noSlash_of_isNumber (isNumber_stepDigits number),
    mark _ (by decide), tag⟩

theorem noSlash_of_untagged {base name : Text} (noSlash : .scalar '/' ∉ base)
    (untagged : Untagged base name) : .scalar '/' ∉ name := by
  cases untagged with
  | input => exact noSlash
  | step number => exact (isStem_stepName noSlash number).noSlash
  | final =>
    simp only [finalName, List.mem_append, not_or]
    exact ⟨noSlash, by decide⟩

theorem isStem_of_untagged {base name : Text} (isStem : IsStem base)
    (untagged : Untagged base name) : IsStem name := by
  refine ⟨?_, noSlash_of_untagged isStem.noSlash untagged⟩
  cases untagged with
  | input => exact isStem.nonempty
  | step number => exact (isStem_stepName isStem.noSlash number).nonempty
  | final => exact fun empty => isStem.nonempty (List.append_eq_nil_iff.1 empty).1

theorem tagged_nameAt (index : Nat) (step : Step) (ending : Text) :
    Tagged scene.base (scene.nameAt index step ++ ending) := tagged_judgedName _ _ _ _

/-- What changes no file with the name of one of a step leaves everything that is kept. -/
theorem Kept.of_changesIn (kept : scene.Kept steps before) (isFit : scene.IsFit)
    (change : ChangesIn scene.location names before after)
    (outside : ∀ name, names name → ¬Tagged scene.base name) : scene.Kept steps after := by
  obtain ⟨place, reaches, different⟩ := kept.elsewhere
  refine ⟨change.folders.locate_eq_ok kept.located, kept.holds.of_sameFolders change.folders,
    fun index step found => ?_, kept.suits, fun name isThere isStep => ?_,
    ⟨place, reaches.of_sameFolders change.folders, different⟩, ?_⟩
  · exact (kept.stored index step found).of_changesIn change
      (isStem_judgedName isFit.isStem.noSlash _ _) kept.holds.toReaches
      fun ending _ among => outside _ among (tagged_nameAt index step ending)
  · obtain ⟨read, found⟩ := Option.isSome_iff_exists.1 isStep
    rw [change.node?_eq fun among => outside name among (tagged_of_readStep? found)] at isThere
    exact kept.only name isThere isStep
  · exact startingAt_read_of_changesIn change isFit.plain reaches different kept.read

/-! ### The next step -/

theorem stepName_append_ne_nameAt (number index : Nat) (step : Step) {first : Text} (second : Text)
    (dot : first.head? = some (.scalar '.')) :
    Trail.stepName scene.base number ++ first ≠ scene.nameAt index step ++ second :=
  fun same => (Untagged.step number).not_tagged dot (same ▸ tagged_nameAt index step second)

theorem head?_of_mem_endings {ending : Text} (member : ending ∈ endings) :
    ending.head? = some (.scalar '.') := by
  have all : ∀ ending ∈ endings, ending.head? = some (.scalar '.') := by decide
  exact all ending member

section Next

variable {number : Nat} {step : Step} (kept : scene.Kept steps before) (isFit : scene.IsFit)
  (change : ChangesIn scene.location
    (OfEither (Trail.stepName scene.base number) (scene.nameAt steps.length step) endings)
    before after)

include kept isFit change

theorem Kept.stored_append
    (isStored : StoredAt after (Storage.usual false) (scene.pathAt steps.length step)
      step.candidate) {index : Nat} {other : Step}
    (found : (steps ++ [step])[index]? = some other) :
    StoredAt after (Storage.usual false) (scene.pathAt index other) other.candidate := by
  rcases Nat.lt_or_ge index steps.length with early | late
  · rw [List.getElem?_append_left early] at found
    refine (kept.stored index other found).of_changesIn change
      (isStem_judgedName isFit.isStem.noSlash _ _) kept.holds.toReaches ?_
    rintro ending - ⟨last, member, same | same⟩
    · exact stepName_append_ne_nameAt number index other ending (head?_of_mem_endings member)
        same.symm
    · have numbers := number_eq_of_judgedName_append_eq same
      omega
  · rw [List.getElem?_append_right late, List.getElem?_singleton] at found
    split at found
    · next atEnd =>
      cases found
      obtain rfl : index = steps.length := by omega
      exact isStored
    · cases found

omit isFit in
theorem Kept.only_append {name : Text}
    (isThere : (after.node? (scene.location ++ [name])).isSome = true)
    (isStep : (readStep? scene.base name).isSome = true) :
    ∃ index other, (steps ++ [step])[index]? = some other ∧
      name = fileName (scene.nameAt index other) := by
  by_cases changed :
    OfEither (Trail.stepName scene.base number) (scene.nameAt steps.length step) endings name
  · obtain ⟨ending, member, rfl | rfl⟩ := changed
    · obtain ⟨read, found⟩ := Option.isSome_iff_exists.1 isStep
      exact absurd (tagged_of_readStep? found)
        ((Untagged.step number).not_tagged (head?_of_mem_endings member))
    · rcases List.mem_cons.1 member with rfl | others
      · exact ⟨steps.length, step, List.getElem?_concat_length, rfl⟩
      · rw [nameAt, readStep?_judgedName_append others] at isStep
        cases isStep
  · rw [change.node?_eq changed] at isThere
    obtain ⟨index, other, found, same⟩ := kept.only name isThere isStep
    refine ⟨index, other, ?_, same⟩
    rw [List.getElem?_append_left (List.getElem?_eq_some_iff.1 found).1]
    exact found

/-- The job of an attempt that is tagged is kept as the next step. -/
theorem Kept.append (suits : scene.Suits step.candidate)
    (isStored : StoredAt after (Storage.usual false) (scene.pathAt steps.length step)
      step.candidate) : scene.Kept (steps ++ [step]) after := by
  obtain ⟨place, reaches, different⟩ := kept.elsewhere
  refine ⟨change.folders.locate_eq_ok kept.located, kept.holds.of_sameFolders change.folders,
    fun _ _ => kept.stored_append isFit change isStored, fun other member => ?_,
    fun _ => kept.only_append change,
    ⟨place, reaches.of_sameFolders change.folders, different⟩,
    startingAt_read_of_changesIn change isFit.plain reaches different kept.read⟩
  rcases List.mem_append.1 member with early | late
  · exact kept.suits other early
  · rw [List.mem_singleton.1 late]
    exact suits

end Next

end Scene

end Trail

end ShaderReduction
