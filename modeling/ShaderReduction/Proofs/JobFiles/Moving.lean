/-
This file proves what renaming a job in a folder of files does.

The files of the job that was in the place are removed and the files of the job are moved there one
by one, each to the name with its own ending. If that ends well, the renamed job is stored as it was
under its old name, and nothing is left under that. Only files of the two jobs and their results
change.
-/

import Mathlib.Data.List.Nodup
import ShaderReduction.Proofs.Directory.Folder
import ShaderReduction.Proofs.JobFiles.Faults
import ShaderReduction.Proofs.JobFiles.Reading
import ShaderReduction.Proofs.JobFiles.Writing

namespace ShaderReduction

namespace JobFiles

open ShaderReduction.Action Directory ShaderReduction.Path FileAction

variable {directory after : Directory} {folder : Path} {location : Location} {name other : Text}

theorem places_join (folder : Path) (isStem : IsStem name) :
    places (folder.join (Trail.fileName name)) =
      ((".json" : Text) :: suffixes).map fun ending => folder.join (name ++ ending) := by
  rw [places, List.map_cons]
  refine congrArg _ (List.map_congr_left fun ending member => ?_)
  exact beside_join isStem folder (isEnding_of_mem_suffixes member)

theorem mem_endings_of_mem {ending : Text} (member : ending ∈ (".json" : Text) :: suffixes) :
    ending ∈ endings := by
  rcases List.mem_cons.1 member with rfl | later
  · exact List.mem_cons_self
  · exact List.mem_cons_of_mem _ (List.mem_cons_of_mem _ later)

/-- The files of a job are told apart by their names. -/
theorem nodup_names_places {path : Path} (isJobPath : IsJobPath path) :
    ((places path).map Path.name).Nodup := by
  rw [places, List.map_cons, List.map_map, List.nodup_cons]
  refine ⟨fun member => ?_, ?_⟩
  · obtain ⟨ending, isSuffix, same⟩ := List.mem_map.1 member
    exact name_ne_name_beside isJobPath (List.mem_cons_of_mem _ isSuffix) same.symm
  · exact List.Nodup.map (name_beside_injective path) (by decide)

/-! ### Listing -/

/-- The paths at which something stands are found, unless one of the paths is too long. -/
theorem startingAt_present {paths : List Path}
    (short : ∀ path ∈ paths, directory.locate path ≠ .error .nameTooLong) :
    (present paths).startingAt directory =
      (.ok (paths.filter fun path => (directory.nodeAt path).isSome), directory) := by
  induction paths with
  | nil => rfl
  | cons path paths inductionHypothesis =>
    obtain ⟨first, rest⟩ := List.forall_mem_cons.1 short
    rw [present, startingAt_bind, startingAt_isPresent first, List.filter_cons]
    dsimp only
    cases (directory.nodeAt path).isSome with
    | false => exact inductionHypothesis rest
    | true => simp [inductionHypothesis rest]

/-- The files that are listed are those that are there, and none of the paths is too long. -/
theorem present_eq_ok {paths found : List Path}
    (listed : (present paths).startingAt directory = (.ok found, after)) :
    found = (paths.filter fun path => (directory.nodeAt path).isSome) ∧
      ∀ path ∈ paths, directory.locate path ≠ .error .nameTooLong := by
  induction paths generalizing found after with
  | nil =>
    cases listed
    exact ⟨rfl, fun _ member => absurd member List.not_mem_nil⟩
  | cons path paths inductionHypothesis =>
    obtain ⟨isThere, between, looked, rest⟩ := bind_eq_ok_iff.1 listed
    obtain rfl := (reads_isPresent path).of_eq looked
    have short := locate_ne_of_isPresent_eq_ok looked
    rw [List.filter_cons, ← isPresent_eq_ok looked]
    cases isThere with
    | true =>
      obtain ⟨others, last, rest, answer⟩ := bind_eq_ok_iff.1 rest
      obtain ⟨same, shorts⟩ := inductionHypothesis rest
      cases answer
      exact ⟨congrArg _ same, List.forall_mem_cons.2 ⟨short, shorts⟩⟩
    | false =>
      obtain ⟨same, shorts⟩ := inductionHypothesis rest
      exact ⟨same, List.forall_mem_cons.2 ⟨short, shorts⟩⟩

theorem list_eq_ok {path : Path} {found : List Path} (isJobPath : IsJobPath path)
    (listed : (list path).startingAt directory = (.ok found, after)) :
    found = ((places path).filter fun place => (directory.nodeAt place).isSome) ∧
      ∀ place ∈ places path, directory.locate place ≠ .error .nameTooLong := by
  rw [list, candidates_eq_ok isJobPath.plain, ofExcept_ok_bind] at listed
  exact present_eq_ok listed

/-! ### Removing -/

theorem changesAt_removeAll (paths : List Path) :
    Respects (ChangesAt (· ∈ paths)) (removeAll paths) :=
  holds_removeAll composes_respects fun path member =>
    (changesAt_remove path).mono fun _ _ change => change.mono fun _ same => same ▸ member

/-- Of paths that are told apart by their names, nothing is left. -/
theorem removeAll_eq_ok {paths : List Path} (plain : ∀ path ∈ paths, PlainName path.name)
    (removed : (removeAll paths).startingAt directory = (.ok (), after)) {path : Path}
    (member : path ∈ paths) (distinct : ∀ other ∈ paths, other.name = path.name → other = path) :
    after.nodeAt path = none := by
  induction paths generalizing directory with
  | nil => exact absurd member List.not_mem_nil
  | cons first paths inductionHypothesis =>
    obtain ⟨firstPlain, restPlain⟩ := List.forall_mem_cons.1 plain
    obtain ⟨_, between, start, rest⟩ := bind_eq_ok_iff.1 removed
    have restDistinct := (List.forall_mem_cons.1 distinct).2
    by_cases later : path ∈ paths
    · exact inductionHypothesis restPlain rest later restDistinct
    · obtain rfl : path = first := (List.mem_cons.1 member).resolve_right later
      rw [((changesAt_removeAll paths).of_eq rest).nodeAt_eq firstPlain,
        remove_eq_ok start]
      exact fun other among => ⟨restPlain other among, fun same =>
        later (restDistinct other among same ▸ among)⟩

/-- Removing the files of a job that are there leaves none. -/
theorem nodeAt_of_removeAll {path : Path} (isJobPath : IsJobPath path)
    (removed : (removeAll ((places path).filter fun place =>
      (directory.nodeAt place).isSome)).startingAt directory = (.ok (), after)) {place : Path}
    (member : place ∈ places path) : after.nodeAt place = none := by
  have plain : ∀ other ∈ (places path).filter fun place => (directory.nodeAt place).isSome,
      PlainName other.name :=
    fun other among => plainName_of_mem_places isJobPath.plain (List.mem_filter.1 among).1
  have distinct : ∀ other ∈ places path, other.name = place.name → other = place :=
    fun other among same =>
      List.inj_on_of_nodup_map (nodup_names_places isJobPath) among member same
  by_cases present : (directory.nodeAt place).isSome = true
  · exact removeAll_eq_ok plain removed (List.mem_filter.2 ⟨member, present⟩)
      fun other among => distinct other (List.mem_filter.1 among).1
  · rw [((changesAt_removeAll _).of_eq removed).nodeAt_eq
      (plainName_of_mem_places isJobPath.plain member)]
    · exact Option.not_isSome_iff_eq_none.1 present
    · refine fun other among => ⟨plain other among, fun same => present ?_⟩
      rw [← distinct other (List.mem_filter.1 among).1 same]
      exact (List.mem_filter.1 among).2

/-! ### Moving the files one by one -/

/-- The names of files of two jobs with some endings. -/
def OfEither (name other : Text) (endings : List Text) (file : Text) : Prop :=
  ∃ ending ∈ endings, file = name ++ ending ∨ file = other ++ ending

/-- Paths from a folder to files of two jobs with some endings. -/
def AtEither (folder : Path) (name other : Text) (endings : List Text) (path : Path) : Prop :=
  ∃ ending ∈ endings, path = folder.join (name ++ ending) ∨ path = folder.join (other ++ ending)

theorem AtEither.mono {among more : List Text} (within : among ⊆ more) {path : Path}
    (atEither : AtEither folder name other among path) : AtEither folder name other more path := by
  obtain ⟨ending, member, same⟩ := atEither
  exact ⟨ending, within member, same⟩

/-- What changes at such paths changes in the folder. -/
theorem changesIn_of_atEither (isStem : IsStem name) (otherIsStem : IsStem other)
    {among : List Text} (within : among ⊆ endings)
    (change : ChangesAt (AtEither folder name other among) directory after)
    (reaches : Reaches directory folder location) :
    ChangesIn location (OfEither name other among) directory after := by
  refine change.changesIn reaches ?_
  rintro path ⟨ending, member, rfl | rfl⟩
  · exact ⟨_, ⟨ending, member, .inl rfl⟩,
      isStem.plainName_append (isEnding_of_mem_endings (within member)), rfl⟩
  · exact ⟨_, ⟨ending, member, .inr rfl⟩,
      otherIsStem.plainName_append (isEnding_of_mem_endings (within member)), rfl⟩

/-- Moves what is at a path to another one, if anything is there. -/
def moveIfPresent (source target : Path) : FileAction Unit := do
  if ← isPresent source then FileAction.move source target

theorem moveAll_cons (source target : Path) (moves : List (Path × Path)) :
    moveAll ((source, target) :: moves) = (do
      moveIfPresent source target
      moveAll moves) := by
  rw [moveAll, moveIfPresent, bind_assoc]
  refine bind_congr fun present => ?_
  cases present <;> rfl

theorem holds_moveAll {holds : ∀ {Result : Type}, FileAction Result → Prop}
    (composes : Composes holds) {moves : List (Path × Path)}
    (moved : ∀ pair ∈ moves, holds (moveIfPresent pair.1 pair.2)) : holds (moveAll moves) := by
  induction moves with
  | nil => exact composes.pure _
  | cons pair moves inductionHypothesis =>
    obtain ⟨first, rest⟩ := List.forall_mem_cons.1 moved
    rw [moveAll_cons]
    exact composes.bind first fun _ => inductionHypothesis rest

/-- A file that was moved, if it was there, stands at its new path and no more at its old one. -/
theorem moveIfPresent_eq_ok (isStem : IsStem name) (otherIsStem : IsStem other) {ending : Text}
    (isAmong : ending ∈ endings) (different : name ++ ending ≠ other ++ ending)
    (notFolder : directory.nodeAt (folder.join (name ++ ending)) ≠ some .folder)
    (free : directory.nodeAt (folder.join (other ++ ending)) ≠ some .folder)
    (moved : (moveIfPresent (folder.join (name ++ ending))
      (folder.join (other ++ ending))).startingAt directory = (.ok (), after)) :
    ChangesAt (AtEither folder name other [ending]) directory after ∧
      after.nodeAt (folder.join (other ++ ending)) =
        (directory.nodeAt (folder.join (name ++ ending))).or
          (directory.nodeAt (folder.join (other ++ ending))) ∧
      after.nodeAt (folder.join (name ++ ending)) = none := by
  have isEnding := isEnding_of_mem_endings isAmong
  have plain := isStem.plainName_append isEnding
  have otherPlain := otherIsStem.plainName_append isEnding
  obtain ⟨isThere, between, looked, rest⟩ := bind_eq_ok_iff.1 moved
  obtain rfl := (reads_isPresent _).of_eq looked
  have there := isPresent_eq_ok looked
  cases isThere with
  | false =>
    cases rest
    have nothing := Option.not_isSome_iff_eq_none.1 (there ▸ Bool.false_ne_true)
    exact ⟨ChangesAt.refl _, by rw [nothing, Option.none_or], nothing⟩
  | true =>
    obtain ⟨content, file⟩ := exists_file_of_isSome there.symm notFolder
    have named := name_join_of_plainName folder plain
    have otherNamed := name_join_of_plainName folder otherPlain
    obtain ⟨change, node, gone⟩ := FileAction.move_eq_ok (named.symm ▸ plain)
      (otherNamed.symm ▸ otherPlain) (by rwa [named, otherNamed]) file free rest
    exact ⟨change.mono fun _ either => ⟨ending, List.mem_singleton_self _, either⟩,
      by rw [node, file, Option.some_or], gone⟩

/-- Files of one ending are under no name of the other endings. -/
theorem not_ofEither_of_notMem {among : List Text} {ending : Text}
    (apart : ∀ first ∈ endings, ∀ second ∈ endings, name ++ first ≠ other ++ second)
    (within : among ⊆ endings) (isAmong : ending ∈ endings) (absent : ending ∉ among) :
    ¬OfEither name other among (name ++ ending) ∧
      ¬OfEither name other among (other ++ ending) := by
  constructor
  · rintro ⟨last, member, same | same⟩
    · exact absent (List.append_cancel_left same ▸ member)
    · exact apart ending isAmong last (within member) same
  · rintro ⟨last, member, same | same⟩
    · exact apart last (within member) ending isAmong same.symm
    · exact absent (List.append_cancel_left same ▸ member)

theorem moveAll_eq_ok {among : List Text} (isStem : IsStem name) (otherIsStem : IsStem other)
    (apart : ∀ first ∈ endings, ∀ second ∈ endings, name ++ first ≠ other ++ second)
    (within : among ⊆ endings) (distinct : among.Nodup)
    (holds : HoldsFiles directory folder location)
    (moved : (moveAll (among.map fun ending =>
      (folder.join (name ++ ending), folder.join (other ++ ending)))).startingAt directory =
        (.ok (), after)) :
    ChangesAt (AtEither folder name other among) directory after ∧
      ∀ ending ∈ among, after.nodeAt (folder.join (other ++ ending)) =
          (directory.nodeAt (folder.join (name ++ ending))).or
            (directory.nodeAt (folder.join (other ++ ending))) ∧
        after.nodeAt (folder.join (name ++ ending)) = none := by
  induction among generalizing directory with
  | nil =>
    cases moved
    exact ⟨ChangesAt.refl _, fun _ member => absurd member List.not_mem_nil⟩
  | cons ending among inductionHypothesis =>
    obtain ⟨absent, restDistinct⟩ := List.nodup_cons.1 distinct
    obtain ⟨isAmong, restWithin⟩ := List.cons_subset.1 within
    have otherPlain := otherIsStem.plainName_append (isEnding_of_mem_endings isAmong)
    have plain := isStem.plainName_append (isEnding_of_mem_endings isAmong)
    rw [List.map_cons, moveAll_cons] at moved
    obtain ⟨_, next, first, rest⟩ := bind_eq_ok_iff.1 moved
    obtain ⟨change, node, gone⟩ := moveIfPresent_eq_ok isStem otherIsStem isAmong
      (apart ending isAmong ending isAmong) (holds.nodeAt_join_ne plain)
      (holds.nodeAt_join_ne otherPlain) first
    obtain ⟨restChange, restNodes⟩ := inductionHypothesis restWithin restDistinct
      (holds.of_sameFolders change.folders) rest
    have changeIn := changesIn_of_atEither isStem otherIsStem
      (List.cons_subset.2 ⟨isAmong, List.nil_subset _⟩) change holds.toReaches
    have nextReaches := holds.toReaches.of_sameFolders change.folders
    have restChangeIn := changesIn_of_atEither isStem otherIsStem restWithin restChange nextReaches
    have whole : ChangesAt (AtEither folder name other (ending :: among)) directory after :=
      (change.mono fun _ => AtEither.mono (List.cons_subset.2
        ⟨List.mem_cons_self, List.nil_subset _⟩)).trans
        (restChange.mono fun _ => AtEither.mono (List.subset_cons_self _ _))
    obtain ⟨outside, otherOutside⟩ := not_ofEither_of_notMem apart restWithin isAmong absent
    refine ⟨whole, List.forall_mem_cons.2 ⟨⟨?_, ?_⟩, fun later member => ?_⟩⟩
    · rw [restChangeIn.nodeAt_join_eq nextReaches otherPlain otherOutside, node]
    · rw [restChangeIn.nodeAt_join_eq nextReaches plain outside, gone]
    · have isLater := restWithin member
      have laterIsEnding := isEnding_of_mem_endings isLater
      have different : later ∉ [ending] := fun same =>
        absent (List.mem_singleton.1 same ▸ member)
      obtain ⟨laterOutside, laterOtherOutside⟩ := not_ofEither_of_notMem apart
        (List.cons_subset.2 ⟨isAmong, List.nil_subset _⟩) isLater different
      obtain ⟨laterNode, laterGone⟩ := restNodes later member
      refine ⟨?_, laterGone⟩
      rw [laterNode,
        changeIn.nodeAt_join_eq holds.toReaches (isStem.plainName_append laterIsEnding)
          laterOutside,
        changeIn.nodeAt_join_eq holds.toReaches (otherIsStem.plainName_append laterIsEnding)
          laterOtherOutside]

/-! ### Renaming a job -/

theorem nodup_endings : endings.Nodup := by decide

/-- A job is read under its new name as it was under its old one. -/
structure Renamed (directory after : Directory) (source target : Path) : Prop where
  view : JobFiles.view target after = JobFiles.view source directory
  present : (after.nodeAt target).isSome = true
  short : ∀ place ∈ places target, after.locate place ≠ .error .nameTooLong

/-- The files of a job are under another name, where only the result of a job that was there may
still be, and nothing else has changed. -/
structure Replaced (folder : Path) (name other : Text) (directory after : Directory) : Prop where
  change : ChangesAt (AtEither folder name other endings) directory after
  stored : ∀ ending ∈ (".json" : Text) :: suffixes,
    after.nodeAt (folder.join (other ++ ending)) = directory.nodeAt (folder.join (name ++ ending))
  result : after.nodeAt (folder.join (other ++ resultEnding)) =
    (directory.nodeAt (folder.join (name ++ resultEnding))).or
      (directory.nodeAt (folder.join (other ++ resultEnding)))
  gone : ∀ ending ∈ endings, after.nodeAt (folder.join (name ++ ending)) = none

/-- What is done to rename a job once nothing forbids it. -/
def replace (source target : Path) : FileAction Unit := do
  removeAll (← list target)
  moveAll (← Action.ofExcept (moves source target))

theorem move_eq (source target : Path) (overwrite : Bool) :
    move source target overwrite = (do
      if ← isPresent source then
        if ← isPresent target then
          if overwrite then replace source target else throw (.occupiedJob target)
        else replace source target
      else throw (.missingJob source)) := by
  refine bind_congr fun present => ?_
  cases present with
  | false => rfl
  | true =>
    refine bind_congr fun occupied => ?_
    cases occupied <;> cases overwrite <;> rfl

/-- What is true of actions by their parts is true of a move if it is true of looking, of refusing
and of replacing the one job by the other. -/
theorem holds_move {holds : ∀ {Result : Type}, FileAction Result → Prop}
    (composes : Composes holds) {source target : Path} {overwrite : Bool}
    (looked : ∀ path, holds (isPresent path))
    (missing : holds (throw (.missingJob source) : FileAction Unit))
    (occupied : holds (throw (.occupiedJob target) : FileAction Unit))
    (replaced : holds (replace source target)) : holds (move source target overwrite) := by
  rw [move_eq]
  refine composes.bind (looked source) fun present => ?_
  split
  · refine composes.bind (looked target) fun isOccupied => ?_
    split
    · split
      · exact replaced
      · exact occupied
    · exact replaced
  · exact missing

theorem fails_moveIfPresent (source target : Path) :
    Fails Fault.OfFiles (moveIfPresent source target) := by
  refine (fails_isPresent source).bind fun found => ?_
  split
  · exact FileAction.fails_move source target
  · exact fails_pure _

theorem fails_move (source target : Path) (overwrite : Bool) :
    Fails Fault.OfFiles (move source target overwrite) := by
  have replaces : Fails Fault.OfFiles (replace source target) :=
    (fails_list target).bind fun found => (fails_removeAll found).bind fun _ =>
      (fails_ofExcept (errs_moves source target)).bind fun _ =>
        holds_moveAll composes_fails fun _ _ => fails_moveIfPresent _ _
  exact holds_move composes_fails fails_isPresent (fails_throw trivial) (fails_throw trivial)
    replaces

section Rename

variable (isStem : IsStem name) (otherIsStem : IsStem other)

include isStem otherIsStem

omit isStem in
/-- Removing files of a job changes none but those. -/
theorem changesAt_removeAll_files {paths : List Path}
    (within : paths ⊆ places (folder.join (Trail.fileName other))) :
    Respects (ChangesAt (AtEither folder name other endings)) (removeAll paths) := by
  refine (changesAt_removeAll paths).mono fun _ _ change => change.mono fun path among => ?_
  have member := within among
  rw [places_join folder otherIsStem] at member
  obtain ⟨ending, isEnding, rfl⟩ := List.mem_map.1 member
  exact ⟨ending, mem_endings_of_mem isEnding, .inr rfl⟩

omit isStem in
/-- Removing files of a job, its result apart, changes nothing under another name. -/
theorem nodeAt_of_removeAll_files (reaches : Reaches directory folder location)
    {paths : List Path} (within : paths ⊆ places (folder.join (Trail.fileName other)))
    (removed : (removeAll paths).startingAt directory = (.ok (), after)) {file : Text}
    (plain : PlainName file)
    (apart : ∀ ending ∈ (".json" : Text) :: suffixes, file ≠ other ++ ending) :
    after.nodeAt (folder.join file) = directory.nodeAt (folder.join file) := by
  have removal : ChangesIn location
      (fun file => ∃ ending ∈ (".json" : Text) :: suffixes, file = other ++ ending)
      directory after := by
    refine ((changesAt_removeAll paths).of_eq removed).changesIn reaches fun path among => ?_
    have member := within among
    rw [places_join folder otherIsStem] at member
    obtain ⟨ending, isAmong, rfl⟩ := List.mem_map.1 member
    exact ⟨_, ⟨ending, isAmong, rfl⟩, otherIsStem.plainName_append
      (isEnding_of_mem_endings (mem_endings_of_mem isAmong)), rfl⟩
  refine removal.nodeAt_join_eq reaches plain ?_
  rintro ⟨ending, isAmong, same⟩
  exact apart ending isAmong same

/-- A job that ends at a new name takes all files there with it. The result that was there gives way
to that of the job alone, and stays if the job has none. -/
theorem replace_eq_ok
    (apart : ∀ first ∈ endings, ∀ second ∈ endings, name ++ first ≠ other ++ second)
    (holds : HoldsFiles directory folder location)
    (replaced : (replace (folder.join (Trail.fileName name))
      (folder.join (Trail.fileName other))).startingAt directory = (.ok (), after)) :
    Replaced folder name other directory after ∧
      ∀ place ∈ places (folder.join (Trail.fileName other)),
        after.locate place ≠ .error .nameTooLong := by
  obtain ⟨found, first, listed, rest⟩ := bind_eq_ok_iff.1 replaced
  obtain rfl := (reads_list _).of_eq listed
  obtain ⟨rfl, short⟩ := list_eq_ok (isJobPath_join folder other) listed
  obtain ⟨_, emptied, removed, rest⟩ := bind_eq_ok_iff.1 rest
  rw [moves_join isStem folder otherIsStem, ofExcept_ok_bind] at rest
  have within : ((places (folder.join (Trail.fileName other))).filter fun place =>
      (directory.nodeAt place).isSome) ⊆ places (folder.join (Trail.fileName other)) :=
    List.filter_sublist.subset
  have removal : ChangesAt (AtEither folder name other endings) directory emptied :=
    (changesAt_removeAll_files otherIsStem within).of_eq removed
  obtain ⟨change, nodes⟩ := moveAll_eq_ok isStem otherIsStem apart (List.Subset.refl _)
    nodup_endings (holds.of_sameFolders removal.folders) rest
  have whole := removal.trans change
  -- What is moved was not removed before.
  have kept : ∀ ending ∈ endings, emptied.nodeAt (folder.join (name ++ ending)) =
      directory.nodeAt (folder.join (name ++ ending)) := fun ending isAmong =>
    nodeAt_of_removeAll_files otherIsStem holds.toReaches within removed
      (isStem.plainName_append (isEnding_of_mem_endings isAmong)) fun last isLast =>
        apart ending isAmong last (mem_endings_of_mem isLast)
  have resultKept : emptied.nodeAt (folder.join (other ++ resultEnding)) =
      directory.nodeAt (folder.join (other ++ resultEnding)) := by
    refine nodeAt_of_removeAll_files otherIsStem holds.toReaches within removed
      (otherIsStem.plainName_append isEnding_resultEnding) fun ending isAmong same => ?_
    rw [← List.append_cancel_left same] at isAmong
    exact absurd isAmong (by decide)
  refine ⟨⟨whole, fun ending member => ?_, ?_, fun ending member => (nodes ending member).2⟩,
    fun place member => ?_⟩
  · have isAmong := mem_endings_of_mem member
    have gone : emptied.nodeAt (folder.join (other ++ ending)) = none := by
      refine nodeAt_of_removeAll (isJobPath_join folder other) removed ?_
      rw [places_join folder otherIsStem]
      exact List.mem_map_of_mem member
    rw [(nodes ending isAmong).1, gone, Option.or_none, kept ending isAmong]
  · have isAmong : resultEnding ∈ endings := by decide
    rw [(nodes _ isAmong).1, kept _ isAmong, resultKept]
  · have located := short place member
    rw [places_join folder otherIsStem] at member
    obtain ⟨ending, isEnding, rfl⟩ := List.mem_map.1 member
    rwa [holds.toReaches.locate_join_eq whole.folders (otherIsStem.plainName_append
      (isEnding_of_mem_endings (mem_endings_of_mem isEnding)))]

/-- A job that was renamed is stored as it was, and nothing has its old name. -/
theorem move_eq_ok (apart : ∀ first ∈ endings, ∀ second ∈ endings, name ++ first ≠ other ++ second)
    (holds : HoldsFiles directory folder location)
    (moved : (move (folder.join (Trail.fileName name)) (folder.join (Trail.fileName other))
      true).startingAt directory = (.ok (), after)) :
    ChangesAt (AtEither folder name other endings) directory after ∧
      Renamed directory after (folder.join (Trail.fileName name))
        (folder.join (Trail.fileName other)) ∧
      ∀ ending ∈ endings, after.nodeAt (folder.join (name ++ ending)) = none := by
  rw [move_eq] at moved
  obtain ⟨present, first, looked, rest⟩ := bind_eq_ok_iff.1 moved
  obtain rfl := (reads_isPresent _).of_eq looked
  cases present with
  | false => cases rest
  | true =>
    obtain ⟨occupied, second, lookedThere, rest⟩ := bind_eq_ok_iff.1 rest
    obtain rfl := (reads_isPresent _).of_eq lookedThere
    have replaced : (replace (folder.join (Trail.fileName name))
        (folder.join (Trail.fileName other))).startingAt directory = (.ok (), after) := by
      cases occupied <;> exact rest
    obtain ⟨⟨change, stored, -, gone⟩, short⟩ :=
      replace_eq_ok isStem otherIsStem apart holds replaced
    have main : after.nodeAt (folder.join (Trail.fileName other)) =
        directory.nodeAt (folder.join (Trail.fileName name)) := stored _ List.mem_cons_self
    refine ⟨change, ⟨?_, main ▸ (isPresent_eq_ok looked).symm, short⟩, gone⟩
    rw [view_eq_ok (isJobPath_join folder name), view_eq_ok (isJobPath_join folder other),
      places_join folder isStem, places_join folder otherIsStem, List.map_map, List.map_map]
    exact congrArg Except.ok (List.map_congr_left stored)

end Rename

end JobFiles

end ShaderReduction
