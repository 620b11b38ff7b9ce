/-
This file proves what the attempts of a session leave in an empty folder.

Whenever an attempt was concluded, the files in the folder that are named as those of steps are, be
they judged or not, are files of the judged steps so far and no others, and each of these steps has
its job there. What else is written there has other names, and tagging the job of an attempt leaves
nothing under its old name. So the records found in the folder are those of the steps, each once and
in order.
-/

import ShaderReduction.Proofs.Directory.Distinct
import ShaderReduction.Proofs.Trail.Resuming

namespace ShaderReduction

namespace Trail

open Directory ShaderReduction.Path JobFiles ShaderReduction.Action

/-! ### The names of files of steps -/

/-- Names that go on after the name of the reduced job as those of files of steps do, judged or
not. -/
def OfStep (base name : Text) : Prop :=
  ∃ digits more, IsNumber digits ∧ name = base ++ (("_reduced_" : Text) ++ (digits ++ more))

theorem Tagged.ofStep {base name : Text} (tagged : Tagged base name) : OfStep base name := by
  obtain ⟨digits, more, isNumber, rfl⟩ := tagged
  exact ⟨digits, _, isNumber, rfl⟩

theorem ofStep_stepName (base : Text) (number : Nat) (more : Text) :
    OfStep base (stepName base number ++ more) := by
  refine ⟨stepDigits number, more, isNumber_stepDigits number, ?_⟩
  rw [stepName, stepDigits]
  simp only [List.append_assoc]

theorem not_ofStep_of_dot {base more : Text} (dot : more.head? = some (.scalar '.')) :
    ¬OfStep base (base ++ more) := by
  rintro ⟨digits, rest, -, same⟩
  rw [List.append_cancel_left same] at dot
  cases dot

theorem not_ofStep_finalName (base more : Text) : ¬OfStep base (finalName base ++ more) := by
  rintro ⟨digits, rest, isNumber, same⟩
  have split : finalName base = base ++ (("_reduced_" : Text) ++ ("final" : Text)) := rfl
  rw [split] at same
  simp only [List.append_assoc] at same
  obtain ⟨point, first, isDigit⟩ := isNumber.head?_append rest
  rw [← List.append_cancel_left (List.append_cancel_left same)] at first
  cases first
  exact absurd isDigit (by decide)

theorem not_ofStep_of_notMem {base name : Text} (absent : .scalar 'd' ∉ name) :
    ¬OfStep base name := by
  rintro ⟨digits, more, -, rfl⟩
  exact absent (List.mem_append_right _ (List.mem_append_left _ (by decide)))

theorem not_ofStep_incompleteMarker (base : Text) : ¬OfStep base incompleteMarker :=
  not_ofStep_of_notMem (by decide)

/-- Every file of a job goes on after its name with a dot. -/
theorem exists_dot_of_file {name : Text} (noSlash : .scalar '/' ∉ name) (folder : Path)
    {place : Path} (member : place ∈ beside (folder.join (fileName name)) resultEnding ::
      places (folder.join (fileName name))) :
    ∃ more, more.head? = some (.scalar '.') ∧ PlainName (name ++ more) ∧
      place = folder.join (name ++ more) := by
  have filePlain := plainName_fileName noSlash
  have named := name_join_of_plainName folder filePlain
  have cases : place = folder.join (fileName name) ∨
      ∃ ending ∈ endings, place = beside (folder.join (fileName name)) ending := by
    rcases List.mem_cons.1 member with isResult | isPlace
    · exact .inr ⟨resultEnding, by decide, isResult⟩
    · rcases List.mem_cons.1 isPlace with isMain | others
      · exact .inl isMain
      · obtain ⟨ending, isSuffix, rfl⟩ := List.mem_map.1 others
        exact .inr ⟨ending, mem_endings_of_mem (List.mem_cons_of_mem _ isSuffix), rfl⟩
  rcases cases with rfl | ⟨ending, isAmong, rfl⟩
  · exact ⟨_, rfl, filePlain, rfl⟩
  have isEnding := isEnding_of_mem_endings isAmong
  have dot := Scene.head?_of_mem_endings isAmong
  rcases eq_or_ne name [] with rfl | nonempty
  · have stem : (folder.join (fileName [])).stem = (".json" : Text) := by
      rw [stem, named]
      rfl
    have plain : PlainName ((".json" : Text) ++ ending) :=
      IsStem.plainName_append ⟨by decide, by decide⟩ isEnding
    refine ⟨(".json" : Text) ++ ending, rfl, plain, ?_⟩
    rw [beside, stem]
    exact rename_join folder filePlain plain
  · have isStem : IsStem name := ⟨nonempty, noSlash⟩
    exact ⟨ending, dot, isStem.plainName_append isEnding, beside_join isStem folder isEnding⟩

/-! ### What is left in a folder -/

/-- Where a session leaves its trail: the path of its folder and the location of that, the name of
the job, and how many attempts were made before. -/
structure Site where
  folder : Path
  location : Location
  base : Text
  offset : Nat

namespace Site

variable (site : Site)

/-- The name of the job of the step at an index. -/
def nameAt (index : Nat) (step : Step) : Text :=
  judgedName site.base ((site.offset + index + 1 : Nat) : Int) (Outcome.ofVerdict step.accepted)

/-- The name of the job of the attempt at an index, as long as it is not judged. -/
def untaggedNameAt (index : Nat) : Text :=
  stepName site.base ((site.offset + index + 1 : Nat) : Int)

/-- The record of the step at an index. -/
def record (index : Nat) (step : Step) : StepRecord :=
  ⟨site.offset + index + 1, Outcome.ofVerdict step.accepted,
    site.folder.join (fileName (site.nameAt index step))⟩

/-- A directory in whose folder some steps have left their jobs, and a marker or none. -/
structure Left (steps : List Step) (marked : Bool) (directory : Directory) : Prop where
  located : directory.locate site.folder = .ok site.location
  holds : HoldsFiles directory site.folder site.location
  present : ∀ index step, steps[index]? = some step →
    (directory.nodeAt (site.folder.join (fileName (site.nameAt index step)))).isSome = true
  only : ∀ name, OfStep site.base name → PlainName name →
    (directory.node? (site.location ++ [name])).isSome = true →
      ∃ index step, steps[index]? = some step ∧ ∃ ending ∈ endings,
        name = site.nameAt index step ++ ending
  marker : (directory.nodeAt (site.folder.join incompleteMarker)).isSome = marked

variable {site} {steps : List Step} {marked : Bool} {before after directory : Directory}

theorem tagged_nameAt (index : Nat) (step : Step) (ending : Text) :
    Tagged site.base (site.nameAt index step ++ ending) := tagged_judgedName _ _ _ _

theorem ofStep_nameAt (index : Nat) (step : Step) (ending : Text) :
    OfStep site.base (site.nameAt index step ++ ending) := (tagged_nameAt index step ending).ofStep

/-- An empty folder has neither steps nor a marker. -/
theorem exists_left_nil {folder : Path}
    (empty : (FileAction.list folder).startingAt directory = (.ok [], directory)) (base : Text)
    (offset : Nat) : ∃ location, Left ⟨folder, location, base, offset⟩ [] false directory := by
  obtain ⟨location, located, isFolder, nothing⟩ := FileAction.list_eq_ok empty
  have vacant : ∀ name, PlainName name → directory.node? (location ++ [name]) = none :=
    fun name => node?_of_namesIn_eq_nil nothing.symm
  have reaches : Reaches directory folder location := ⟨(locate_eq_ok_iff.1 located).2, isFolder⟩
  refine ⟨location, located, ⟨reaches, fun name plain isFolder => ?_⟩,
    fun index step found => ?_, fun name _ plain isThere => ?_, ?_⟩
  · rw [vacant name plain] at isFolder
    cases isFolder
  · cases found
  · rw [vacant name plain] at isThere
    cases isThere
  · refine Bool.eq_false_iff.2 fun present => ?_
    have isThere := reaches.isSome_node? (plainName_marker (by decide)) present
    rw [vacant _ (plainName_marker (by decide))] at isThere
    cases isThere

section Changes

variable (noSlash : .scalar '/' ∉ site.base)

include noSlash

theorem isStem_nameAt (index : Nat) (step : Step) : IsStem (site.nameAt index step) :=
  Scene.isStem_judgedName noSlash _ _

theorem isStem_untaggedNameAt (index : Nat) : IsStem (site.untaggedNameAt index) :=
  Scene.isStem_stepName noSlash _

/-- What changes no file of a step and not the marker leaves everything. -/
theorem Left.of_changesAt (left : site.Left steps marked before) {paths : Path → Prop}
    (change : ChangesAt paths before after)
    (within : ∀ path, paths path → ∃ name, (¬OfStep site.base name ∧ name ≠ incompleteMarker) ∧
      PlainName name ∧ path = site.folder.join name) : site.Left steps marked after := by
  have inFolder := change.changesIn left.holds.toReaches within
  refine ⟨change.folders.locate_eq_ok left.located, left.holds.of_sameFolders change.folders,
    fun index step found => ?_, fun name ofStep plain isThere => ?_, ?_⟩
  · rw [inFolder.nodeAt_join_eq left.holds.toReaches
      (isStem_nameAt noSlash index step).plainName_fileName]
    · exact left.present index step found
    · exact fun among => among.1 (ofStep_nameAt index step _)
  · rw [inFolder.node?_eq fun among => among.1 ofStep] at isThere
    exact left.only name ofStep plain isThere
  · rw [inFolder.nodeAt_join_eq left.holds.toReaches (plainName_marker (by decide))]
    · exact left.marker
    · exact fun among => among.2 rfl

/-- Nothing has the name of an attempt that is not judged. -/
theorem Left.nodeAt_untagged (left : site.Left steps marked directory) (number : Nat)
    {ending : Text} (member : ending ∈ endings) :
    directory.nodeAt (site.folder.join (stepName site.base number ++ ending)) = none := by
  have plain := (Scene.isStem_stepName noSlash number).plainName_append
    (isEnding_of_mem_endings member)
  refine Option.not_isSome_iff_eq_none.1 fun present => ?_
  obtain ⟨index, step, -, last, -, same⟩ := left.only _ (ofStep_stepName _ _ _) plain
    (left.holds.toReaches.isSome_node? plain present)
  exact (Untagged.step number).not_tagged (Scene.head?_of_mem_endings member)
    (same ▸ tagged_nameAt index step last)

/-- The marker is there once it was touched. -/
theorem Left.of_touch (left : site.Left steps marked before)
    (touched : (FileAction.touch (site.folder.join incompleteMarker)).startingAt before =
      (.ok (), after)) : site.Left steps true after := by
  have plain : PlainName incompleteMarker := plainName_marker (by decide)
  have change := (FileAction.changesAt_touch _).of_eq touched
  have inFolder : ChangesIn site.location (· = incompleteMarker) before after :=
    change.changesIn left.holds.toReaches fun _ same => ⟨_, rfl, plain, same⟩
  refine ⟨change.folders.locate_eq_ok left.located, left.holds.of_sameFolders change.folders,
    fun index step found => ?_, fun name ofStep isPlain isThere => ?_, ?_⟩
  · rw [inFolder.nodeAt_join_eq left.holds.toReaches
      (isStem_nameAt noSlash index step).plainName_fileName]
    · exact left.present index step found
    · intro same
      exact not_ofStep_incompleteMarker site.base (same ▸ ofStep_nameAt index step (".json" : Text))
  · rw [inFolder.node?_eq fun same => not_ofStep_incompleteMarker _ (same ▸ ofStep)] at isThere
    exact left.only name ofStep isPlain isThere
  · exact FileAction.isSome_nodeAt_of_touch touched

/-! ### The next step -/

section Next

variable {step : Step} (left : site.Left steps marked before)
  (change : ChangesAt (AtEither site.folder (site.untaggedNameAt steps.length)
    (site.nameAt steps.length step) endings) before after)

include left change

theorem Left.present_append
    (present : (after.nodeAt (site.folder.join (fileName (site.nameAt steps.length step)))).isSome =
      true) {index : Nat} {other : Step} (found : (steps ++ [step])[index]? = some other) :
    (after.nodeAt (site.folder.join (fileName (site.nameAt index other)))).isSome = true := by
  have inFolder := changesIn_of_atEither (isStem_untaggedNameAt noSlash _)
    (isStem_nameAt noSlash _ _) (List.Subset.refl _) change left.holds.toReaches
  rcases Nat.lt_or_ge index steps.length with early | late
  · rw [List.getElem?_append_left early] at found
    rw [inFolder.nodeAt_join_eq left.holds.toReaches
      (isStem_nameAt noSlash index other).plainName_fileName]
    · exact left.present index other found
    · rintro ⟨ending, member, same | same⟩
      · have tagged : Tagged site.base (fileName (site.nameAt index other)) :=
          tagged_nameAt index other _
        rw [same] at tagged
        exact (Untagged.step _).not_tagged (Scene.head?_of_mem_endings member) tagged
      · have numbers := number_eq_of_judgedName_append_eq same
        omega
  · rw [List.getElem?_append_right late, List.getElem?_singleton] at found
    split at found
    · next atEnd =>
      cases found
      obtain rfl : index = steps.length := by omega
      exact present
    · cases found

theorem Left.only_append
    (gone : ∀ ending ∈ endings,
      after.nodeAt (site.folder.join (site.untaggedNameAt steps.length ++ ending)) = none)
    {name : Text} (ofStep : OfStep site.base name) (plain : PlainName name)
    (isThere : (after.node? (site.location ++ [name])).isSome = true) :
    ∃ index other, (steps ++ [step])[index]? = some other ∧ ∃ ending ∈ endings,
      name = site.nameAt index other ++ ending := by
  by_cases changed : ∃ path, AtEither site.folder (site.untaggedNameAt steps.length)
    (site.nameAt steps.length step) endings path ∧
      before.locate path = .ok (site.location ++ [name])
  · obtain ⟨path, ⟨ending, member, rfl | rfl⟩, located⟩ := changed
    · have nothing := gone ending member
      rw [nodeAt_of_locate (change.folders.locate_eq_ok located)] at nothing
      rw [nothing] at isThere
      cases isThere
    · have isName := left.holds.toReaches.eq_of_locate_join
        ((isStem_nameAt noSlash _ step).plainName_append (isEnding_of_mem_endings member)) located
      exact ⟨steps.length, step, List.getElem?_concat_length, ending, member,
        List.singleton_inj.1 (List.append_cancel_left isName)⟩
  · rw [change.elsewhere _ changed] at isThere
    obtain ⟨index, other, found, rest⟩ := left.only name ofStep plain isThere
    refine ⟨index, other, ?_, rest⟩
    rw [List.getElem?_append_left (List.getElem?_eq_some_iff.1 found).1]
    exact found

/-- An attempt that is judged and tagged leaves one more step. -/
theorem Left.append
    (present : (after.nodeAt (site.folder.join (fileName (site.nameAt steps.length step)))).isSome =
      true)
    (gone : ∀ ending ∈ endings,
      after.nodeAt (site.folder.join (site.untaggedNameAt steps.length ++ ending)) = none) :
    site.Left (steps ++ [step]) marked after := by
  have inFolder := changesIn_of_atEither (isStem_untaggedNameAt noSlash _)
    (isStem_nameAt noSlash _ _) (List.Subset.refl _) change left.holds.toReaches
  refine ⟨change.folders.locate_eq_ok left.located, left.holds.of_sameFolders change.folders,
    fun _ _ => left.present_append noSlash change present,
    fun _ => left.only_append noSlash change gone, ?_⟩
  rw [inFolder.nodeAt_join_eq left.holds.toReaches (plainName_marker (by decide))]
  · exact left.marker
  · rintro ⟨ending, -, same | same⟩
    · exact not_ofStep_incompleteMarker _ (same ▸ ofStep_stepName _ _ ending)
    · exact not_ofStep_incompleteMarker _ (same ▸ ofStep_nameAt _ step ending)

end Next

end Changes

/-! ### The records that are found -/

/-- Each record is found once. -/
theorem nodup_recordsOf (distinct : directory.Distinct) (folder : Path) (base : Text)
    (location : Location) : (recordsOf folder base (directory.namesIn location)).Nodup := by
  rw [recordsOf, (List.mergeSort_perm _ _).nodup_iff]
  refine (distinct.nodup_namesIn location).filterMap fun first second record one other => ?_
  obtain ⟨_, -, rfl⟩ := Option.map_eq_some_iff.1 one
  obtain ⟨_, -, same⟩ := Option.map_eq_some_iff.1 other
  have steps := congrArg (fun record => record.path.steps) same
  exact (List.singleton_inj.1 (List.append_cancel_left steps)).symm

/-- Records in order that are those of some steps are these, one after the other. -/
theorem eq_mapIdx_record {records : List StepRecord} (once : records.Nodup)
    (sorted : records.Pairwise fun left right => left.attempt ≤ right.attempt)
    (agree : ∀ found, found ∈ records ↔ found ∈ steps.mapIdx site.record) :
    records = steps.mapIdx site.record := by
  have later : (steps.mapIdx site.record).Pairwise fun first second =>
      first.attempt < second.attempt := by
    refine List.pairwise_iff_getElem.2 fun first second _ _ before => ?_
    rw [List.getElem_mapIdx, List.getElem_mapIdx]
    show site.offset + first + 1 < site.offset + second + 1
    omega
  have apart : (steps.mapIdx site.record).Nodup := by
    refine List.Pairwise.imp (fun before same => ?_) later
    rw [same] at before
    exact Nat.lt_irrefl _ before
  refine List.Perm.eq_of_pairwise ?_ sorted (later.imp Nat.le_of_lt)
    ((List.perm_ext_iff_of_nodup once apart).2 agree)
  intro first second member otherMember before after
  obtain ⟨index, inside, rfl⟩ := List.mem_mapIdx.1 ((agree first).1 member)
  obtain ⟨other, otherInside, rfl⟩ := List.mem_mapIdx.1 otherMember
  have same : site.offset + index + 1 = site.offset + other + 1 := Nat.le_antisymm before after
  obtain rfl : index = other := by omega
  rfl

section Records

variable (noSlash : .scalar '/' ∉ site.base) (left : site.Left steps marked directory)

include noSlash left

theorem Left.mem_recordsOf_iff {found : StepRecord} :
    found ∈ recordsOf site.folder site.base (directory.namesIn site.location) ↔
      found ∈ steps.mapIdx site.record := by
  rw [List.mem_mapIdx]
  constructor
  · intro member
    obtain ⟨name, among, isStep, isAt⟩ := (Scene.mem_recordsOf_iff_exists_name noSlash).1 member
    have plain := Scene.plainName_of_readStep? noSlash isStep
    obtain ⟨index, step, isIndex, ending, isEnding, rfl⟩ := left.only name
      (tagged_of_readStep? isStep).ofStep plain ((mem_namesIn_iff plain).1 among)
    obtain ⟨inside, rfl⟩ := List.getElem?_eq_some_iff.1 isIndex
    rcases List.mem_cons.1 isEnding with rfl | others
    · have read := readStep?_judgedName site.base (site.offset + index + 1)
        (Outcome.ofVerdict steps[index].accepted)
      obtain ⟨number, outcome, path⟩ := found
      cases read.symm.trans isStep
      exact ⟨index, inside, congrArg (StepRecord.mk _ _) isAt.symm⟩
    · rw [nameAt, readStep?_judgedName_append others] at isStep
      cases isStep
  · rintro ⟨index, inside, rfl⟩
    have plain := (isStem_nameAt noSlash index steps[index]).plainName_fileName
    exact Scene.mem_recordsOf_of_mem noSlash ((mem_namesIn_iff plain).2
      (left.holds.toReaches.isSome_node? plain
        (left.present index _ (List.getElem?_eq_getElem inside))))

/-- The records found in the folder are those of the steps, each once and in order. -/
theorem Left.recordsOf_eq (distinct : directory.Distinct) :
    recordsOf site.folder site.base (directory.namesIn site.location) =
      steps.mapIdx site.record :=
  eq_mapIdx_record (nodup_recordsOf distinct site.folder site.base site.location)
    (Scene.pairwise_recordsOf _ _ _) fun _ => left.mem_recordsOf_iff noSlash

/-- Looking for the records of the steps finds each once, in order. -/
theorem Left.startingAt_records (distinct : directory.Distinct) :
    (records site.folder site.base).startingAt directory =
      (.ok (steps.mapIdx site.record), directory) := by
  rw [records, startingAt_bind, FileAction.startingAt_list left.located left.holds.isFolder,
    ← left.recordsOf_eq noSlash distinct]
  rfl

end Records

end Site

end Trail

end ShaderReduction
