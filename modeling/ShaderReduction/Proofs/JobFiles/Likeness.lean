/-
This file proves that jobs are written and renamed alike in directories that differ in results only.

Of the files of a job none but the result is set aside, so writing the job goes the same way in both
directories. Renaming it does too, once both results are set aside and none of the names stands for
a folder: its files are moved in both, and its result is moved wherever there is one.
-/

import ShaderReduction.Proofs.Directory.Likeness
import ShaderReduction.Proofs.JobFiles.Moving

namespace ShaderReduction

namespace JobFiles

open ShaderReduction.Action Directory ShaderReduction.Path FileAction

variable {folder : Path} {location : Location} {names : Text → Prop} {name other : Text}
  {first second : Directory}

/-- Of the files of a job, none but the result is set aside. -/
structure SetsAside (names : Text → Prop) (name : Text) : Prop where
  isStem : IsStem name
  others : ∀ ending ∈ (".json" : Text) :: suffixes, ¬names (name ++ ending)

section SetsAside

variable (setsAside : SetsAside names name)

include setsAside

theorem SetsAside.plain {ending : Text} (member : ending ∈ (".json" : Text) :: suffixes) :
    PlainName (name ++ ending) :=
  setsAside.isStem.plainName_append (isEnding_of_mem_endings (mem_endings_of_mem member))

theorem SetsAside.beside_eq {ending : Text} (member : ending ∈ suffixes) :
    beside (folder.join (Trail.fileName name)) ending = folder.join (name ++ ending) :=
  beside_join setsAside.isStem folder (isEnding_of_mem_suffixes member)

/-- The files of the job are the same in both directories. -/
theorem SetsAside.sameAt (alike : SameBut folder location names first second) {place : Path}
    (member : place ∈ places (folder.join (Trail.fileName name))) : SameAt place first second := by
  rw [places_join folder setsAside.isStem] at member
  obtain ⟨ending, isEnding, rfl⟩ := List.mem_map.1 member
  exact alike.sameAt (setsAside.plain isEnding) (setsAside.others ending isEnding)

theorem SetsAside.view_eq (alike : SameBut folder location names first second) :
    view (folder.join (Trail.fileName name)) second =
      view (folder.join (Trail.fileName name)) first := by
  rw [view_eq_ok (isJobPath_join folder name), view_eq_ok (isJobPath_join folder name)]
  refine congrArg Except.ok (List.map_congr_left fun place member => ?_)
  rw [places_join folder setsAside.isStem] at member
  obtain ⟨ending, isEnding, rfl⟩ := List.mem_map.1 member
  exact alike.nodeAt_eq (setsAside.plain isEnding) (setsAside.others ending isEnding)

/-! ### Writing -/

theorem lockstep_removeShaders (stages : List Stage) :
    Lockstep (SameBut folder location names)
      (removeShaders ((folder.join (Trail.fileName name)).rename
        (folder.join (Trail.fileName name)).stem) stages) := by
  refine holds_removeShaders composes_lockstep (fun stage => ?_) stages
  have member := List.mem_cons_of_mem (".json" : Text) (suffix_mem_suffixes stage)
  rw [sibling_eq_ok (isJobPath_join folder name).plain (isEnding_suffix stage), ofExcept_ok_bind,
    setsAside.beside_eq (suffix_mem_suffixes stage)]
  exact lockstep_removeIfPresent (setsAside.plain member) (setsAside.others _ member)

theorem lockstep_writeShaders (storage : Storage) (shaders : List Shader) :
    Lockstep (SameBut folder location names)
      (writeShaders storage ((folder.join (Trail.fileName name)).rename
        (folder.join (Trail.fileName name)).stem) shaders) := by
  refine holds_writeShaders composes_lockstep fun shader _ => ?_
  have member := List.mem_cons_of_mem (".json" : Text) (suffix_mem_suffixes shader.stage)
  rw [sibling_eq_ok (isJobPath_join folder name).plain (isEnding_suffix shader.stage),
    ofExcept_ok_bind, setsAside.beside_eq (suffix_mem_suffixes shader.stage)]
  exact lockstep_writeText (setsAside.plain member) (setsAside.others _ member) _

theorem lockstep_writeLicense (license : Text) :
    Lockstep (SameBut folder location names)
      (writeLicense license (folder.join (name ++ licenseSuffix))) := by
  have member : licenseSuffix ∈ (".json" : Text) :: suffixes := by decide
  unfold writeLicense
  split
  · exact lockstep_removeIfPresent (setsAside.plain member) (setsAside.others _ member)
  · exact lockstep_writeText (setsAside.plain member) (setsAside.others _ member) _

/-- A job is written alike in both directories. -/
theorem lockstep_write (storage : Storage) (job : Job) :
    Lockstep (SameBut folder location names)
      (write storage job (folder.join (Trail.fileName name))) := by
  rw [write_eq (isJobPath_join folder name), setsAside.beside_eq (by decide)]
  refine Lockstep.bind ?_ fun _ => (lockstep_removeShaders setsAside _).bind fun _ =>
    (lockstep_writeShaders setsAside storage _).bind fun _ => lockstep_writeLicense setsAside _
  exact lockstep_writeText (setsAside.plain List.mem_cons_self)
    (setsAside.others _ List.mem_cons_self) _

/-! ### Renaming -/

omit setsAside in
theorem mem_of_mem_endings {ending : Text} (isAmong : ending ∈ endings)
    (notResult : ending ≠ resultEnding) : ending ∈ (".json" : Text) :: suffixes := by
  simp only [endings, List.mem_cons, notResult, false_or] at isAmong ⊢
  exact isAmong

theorem agrees_list (alike : SameBut folder location names first second) :
    Agrees first second (list (folder.join (Trail.fileName name))) := by
  rw [list, candidates_eq_ok (isJobPath_join folder name).plain, ofExcept_ok_bind]
  exact holds_present composes_agrees fun path member =>
    agrees_isPresent (setsAside.sameAt alike member)

theorem lockstep_removeAll {paths : List Path}
    (within : paths ⊆ places (folder.join (Trail.fileName name))) :
    Lockstep (SameBut folder location names) (removeAll paths) := by
  refine holds_removeAll composes_lockstep fun path among => ?_
  have member := within among
  rw [places_join folder setsAside.isStem] at member
  obtain ⟨ending, isEnding, rfl⟩ := List.mem_map.1 member
  exact lockstep_remove (setsAside.plain isEnding) (setsAside.others ending isEnding)

end SetsAside

/-- No folder stands under the names of two jobs with some endings. -/
def NoFolders (folder : Path) (name other : Text) (among : List Text) (directory : Directory) :
    Prop :=
  ∀ ending ∈ among, directory.nodeAt (folder.join (name ++ ending)) ≠ some .folder ∧
    directory.nodeAt (folder.join (other ++ ending)) ≠ some .folder

section Rename

variable (setsAside : SetsAside names name) (otherSetsAside : SetsAside names other)
  (result : names (name ++ resultEnding)) (otherResult : names (other ++ resultEnding))
  (different : name ≠ other)

include result otherResult different

/-- A result is moved wherever there is one. -/
theorem inStep_moveResult (alike : SameBut folder location names first second) :
    InStep (SameBut folder location names) first second
      (moveIfPresent (folder.join (name ++ resultEnding))
        (folder.join (other ++ resultEnding))) := by
  have unlike : name ++ resultEnding ≠ other ++ resultEnding :=
    fun same => different (List.append_cancel_right same)
  have moves : ∀ directory, Room folder location names directory →
      ∃ after, (moveIfPresent (folder.join (name ++ resultEnding))
        (folder.join (other ++ resultEnding))).startingAt directory = (.ok (), after) ∧
        ChangesIn location names directory after := by
    intro directory room
    rw [moveIfPresent, startingAt_bind, startingAt_isPresent_of_room room result]
    cases present : (directory.nodeAt (folder.join (name ++ resultEnding))).isSome with
    | false => exact ⟨directory, rfl, ChangesOnly.refl directory⟩
    | true =>
      exact exists_changesIn_of_move room result otherResult unlike present
  obtain ⟨after, run, change⟩ := moves first alike.room
  obtain ⟨otherAfter, otherRun, otherChange⟩ := moves second alike.otherRoom
  exact inStep_of_eq run otherRun (alike.of_changesIn change otherChange)

include setsAside otherSetsAside

omit result otherResult in
theorem inStep_moveIfPresent {ending : Text} (member : ending ∈ (".json" : Text) :: suffixes)
    (alike : SameBut folder location names first second)
    (notFolder : first.nodeAt (folder.join (name ++ ending)) ≠ some .folder)
    (free : first.nodeAt (folder.join (other ++ ending)) ≠ some .folder) :
    InStep (SameBut folder location names) first second
      (moveIfPresent (folder.join (name ++ ending)) (folder.join (other ++ ending))) := by
  refine (lockstep_isPresent (setsAside.plain member) (setsAside.others ending member) first second
    alike).bind fun present after otherAfter looked _ related => ?_
  obtain rfl := (reads_isPresent _).of_eq looked
  cases present with
  | false => exact lockstep_pure _ _ _ related
  | true =>
    obtain ⟨content, file⟩ := exists_file_of_isSome (isPresent_eq_ok looked).symm notFolder
    exact FileAction.inStep_move (setsAside.plain member) (setsAside.others ending member)
      (otherSetsAside.plain member) (otherSetsAside.others ending member)
      (fun same => different (List.append_cancel_right same)) related file free

/-- Files that are moved one by one are moved alike. -/
theorem inStep_moveAll {among : List Text} (within : among ⊆ endings)
    (alike : SameBut folder location names first second)
    (noFolders : NoFolders folder name other among first) :
    InStep (SameBut folder location names) first second
      (moveAll (among.map fun ending =>
        (folder.join (name ++ ending), folder.join (other ++ ending)))) := by
  induction among generalizing first second with
  | nil => exact lockstep_pure _ _ _ alike
  | cons ending among inductionHypothesis =>
    obtain ⟨isAmong, restWithin⟩ := List.cons_subset.1 within
    obtain ⟨⟨notFolder, free⟩, restNoFolders⟩ := List.forall_mem_cons.1 noFolders
    rw [List.map_cons, moveAll_cons]
    have here : InStep (SameBut folder location names) first second
        (moveIfPresent (folder.join (name ++ ending)) (folder.join (other ++ ending))) := by
      by_cases isResult : ending = resultEnding
      · rw [isResult]
        exact inStep_moveResult result otherResult different alike
      · have member := mem_of_mem_endings isAmong isResult
        exact inStep_moveIfPresent setsAside otherSetsAside different member alike notFolder free
    refine here.bind fun _ after otherAfter moved _ related => ?_
    have folders := (moveIfPresent_eq_ok setsAside.isStem otherSetsAside.isStem isAmong
      (fun same => different (List.append_cancel_right same)) notFolder free moved).1.folders
    exact inductionHypothesis restWithin related fun later member =>
      ⟨folders.nodeAt_ne_folder (restNoFolders later member).1,
        folders.nodeAt_ne_folder (restNoFolders later member).2⟩

theorem inStep_replace (alike : SameBut folder location names first second)
    (files : ∀ ending ∈ (".json" : Text) :: suffixes,
      first.nodeAt (folder.join (name ++ ending)) ≠ some .folder) :
    InStep (SameBut folder location names) first second
      (replace (folder.join (Trail.fileName name)) (folder.join (Trail.fileName other))) := by
  refine ((agrees_list otherSetsAside alike).inStep alike).bind
    fun found after otherAfter listed _ related => ?_
  obtain rfl := (reads_list _).of_eq listed
  obtain ⟨rfl, -⟩ := list_eq_ok (isJobPath_join folder other) listed
  have within : (places (folder.join (Trail.fileName other))).filter
      (fun place => (first.nodeAt place).isSome) ⊆ places (folder.join (Trail.fileName other)) :=
    List.filter_sublist.subset
  refine (lockstep_removeAll otherSetsAside within first otherAfter related).bind
    fun _ emptied otherEmptied removed _ emptiedAlike => ?_
  have folders := ((changesAt_removeAll _).of_eq removed).folders
  rw [moves_join setsAside.isStem folder otherSetsAside.isStem, ofExcept_ok_bind]
  refine inStep_moveAll setsAside otherSetsAside result otherResult different
    (List.Subset.refl _) emptiedAlike fun ending isAmong => ?_
  by_cases isResult : ending = resultEnding
  · rw [isResult]
    exact ⟨emptiedAlike.room.nodeAt_ne_folder result,
      emptiedAlike.room.nodeAt_ne_folder otherResult⟩
  · have member := mem_of_mem_endings isAmong isResult
    refine ⟨folders.nodeAt_ne_folder (files ending member), ?_⟩
    rw [nodeAt_of_removeAll (isJobPath_join folder other) removed
      (places_join folder otherSetsAside.isStem ▸ List.mem_map_of_mem member)]
    exact fun isFolder => nomatch isFolder

/-- A job of files is renamed alike in both directories. -/
theorem inStep_move (alike : SameBut folder location names first second)
    (files : ∀ ending ∈ (".json" : Text) :: suffixes,
      first.nodeAt (folder.join (name ++ ending)) ≠ some .folder) :
    InStep (SameBut folder location names) first second
      (move (folder.join (Trail.fileName name)) (folder.join (Trail.fileName other)) true) := by
  have isPresentAgrees : ∀ {stem : Text}, SetsAside names stem → ∀ {before after : Directory},
      SameBut folder location names before after →
        Agrees before after (isPresent (folder.join (Trail.fileName stem))) :=
    fun aside _ _ related => agrees_isPresent (aside.sameAt related List.mem_cons_self)
  rw [move_eq]
  refine ((isPresentAgrees setsAside alike).inStep alike).bind
    fun present after otherAfter looked _ related => ?_
  obtain rfl := (reads_isPresent _).of_eq looked
  cases present with
  | false => exact lockstep_throw _ _ _ related
  | true =>
    refine ((isPresentAgrees otherSetsAside related).inStep related).bind
      fun occupied after otherAfter looked _ related => ?_
    obtain rfl := (reads_isPresent _).of_eq looked
    have replaces :=
      inStep_replace setsAside otherSetsAside result otherResult different related files
    cases occupied with
    | false => exact replaces
    | true => exact replaces

end Rename

end JobFiles

end ShaderReduction
