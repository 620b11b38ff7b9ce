/-
This file proves what stands in one folder.

A path that goes on from a folder by one plain name leads to that name in the folder or nowhere, and
which of both happens depends on the folder and the name alone. So as long as files only are written
and removed, every such path leads to where it led before. The names in a folder are those under
which something stands there, and making a folder that is there changes nothing.
-/

import ShaderReduction.Proofs.Directory.Files

namespace ShaderReduction

namespace Directory

open ShaderReduction.Path

/-! ### Paths into a folder -/

/-- A path is followed to a folder at a location. -/
structure Reaches (directory : Directory) (folder : Path) (location : Location) : Prop where
  followed : directory.follow (origin folder) folder.steps = .ok location
  isFolder : directory.node? location = some .folder

theorem locate_eq_ok_iff {directory : Directory} {path : Path} {location : Location} :
    directory.locate path = .ok location ↔
      textFault? path = none ∧ directory.follow (origin path) path.steps = .ok location := by
  rw [locate_eq]
  cases textFault? path with
  | none => exact ⟨fun followed => ⟨rfl, followed⟩, fun both => both.2⟩
  | some fault =>
    constructor
    · intro impossible
      cases impossible
    · rintro ⟨impossible, -⟩
      cases impossible

/-- What keeps a name from leading on from a path to a folder. -/
def childFault? (folder : Path) (name : Text) : Option Fault :=
  (textFault? (folder.join name)).or
    (if longestName < nameSize name then some .nameTooLong else none)

section Child

variable {before after directory : Directory} {folder : Path} {location place : Location}
  {name : Text}

theorem Reaches.of_sameFolders (reaches : Reaches before folder location)
    (same : SameFolders before after) : Reaches after folder location :=
  ⟨same.follow_eq_ok reaches.followed, (same location).1 reaches.isFolder⟩

theorem Reaches.locate_join (reaches : Reaches directory folder location)
    (plain : PlainName name) :
    directory.locate (folder.join name) =
      match childFault? folder name with
      | some fault => .error fault
      | none => .ok (location ++ [name]) := by
  have followed : directory.follow (origin (folder.join name)) (folder.join name).steps =
      if longestName < nameSize name then .error .nameTooLong else .ok (location ++ [name]) := by
    rw [join_of_plainName folder plain]
    show directory.follow (origin folder) (folder.steps ++ [name]) = _
    rw [follow_append, reaches.followed]
    dsimp only
    rw [follow_plain plain, reaches.isFolder]
  rw [locate_eq, childFault?]
  cases textFault? (folder.join name) with
  | some fault => rfl
  | none =>
    dsimp only [Option.none_or]
    rw [followed]
    split <;> rfl

theorem Reaches.eq_of_locate_join (reaches : Reaches directory folder location)
    (plain : PlainName name) (located : directory.locate (folder.join name) = .ok place) :
    place = location ++ [name] := by
  rw [reaches.locate_join plain] at located
  cases fault : childFault? folder name with
  | some other =>
    rw [fault] at located
    cases located
  | none =>
    rw [fault] at located
    exact (Except.ok.inj located).symm

/-- What a path into a folder leads to stands in the folder. -/
theorem Reaches.isSome_node? (reaches : Reaches directory folder location)
    (plain : PlainName name) (present : (directory.nodeAt (folder.join name)).isSome = true) :
    (directory.node? (location ++ [name])).isSome = true := by
  unfold nodeAt at present
  cases located : directory.locate (folder.join name) with
  | error fault =>
    rw [located] at present
    cases present
  | ok place =>
    rw [located] at present
    rw [← reaches.eq_of_locate_join plain located]
    exact present

/-- Files do not change where a path into a folder leads. -/
theorem Reaches.locate_join_eq (reaches : Reaches before folder location)
    (same : SameFolders before after) (plain : PlainName name) :
    after.locate (folder.join name) = before.locate (folder.join name) := by
  rw [reaches.locate_join plain, (reaches.of_sameFolders same).locate_join plain]

end Child

/-! ### Changes in a folder -/

/-- Two directories have the same folders, and the same files except some in one folder. -/
def ChangesIn (location : Location) (names : Text → Prop) (before after : Directory) : Prop :=
  ChangesOnly (fun other => ∃ name, names name ∧ other = location ++ [name]) before after

section ChangesIn

variable {before after : Directory} {folder : Path} {location : Location} {names : Text → Prop}

theorem ChangesAt.changesIn {paths : Path → Prop} (change : ChangesAt paths before after)
    (reaches : Reaches before folder location)
    (inside : ∀ path, paths path → ∃ name, names name ∧ PlainName name ∧ path = folder.join name) :
    ChangesIn location names before after := by
  refine ChangesOnly.mono change ?_
  rintro other ⟨path, among, located⟩
  obtain ⟨name, member, plain, rfl⟩ := inside path among
  exact ⟨name, member, reaches.eq_of_locate_join plain located⟩

theorem ChangesIn.node?_eq (change : ChangesIn location names before after) {name : Text}
    (outside : ¬names name) :
    after.node? (location ++ [name]) = before.node? (location ++ [name]) := by
  refine change.elsewhere _ ?_
  rintro ⟨other, member, same⟩
  rw [List.singleton_inj.1 (List.append_cancel_left same)] at outside
  exact outside member

/-- What stands at a path into the folder stays, under other names than those that change. -/
theorem ChangesIn.nodeAt_join_eq (change : ChangesIn location names before after)
    (reaches : Reaches before folder location) {name : Text} (plain : PlainName name)
    (outside : ¬names name) :
    after.nodeAt (folder.join name) = before.nodeAt (folder.join name) := by
  refine ChangesOnly.nodeAt_eq change ?_
  rintro other located ⟨changed, member, rfl⟩
  have same := reaches.eq_of_locate_join plain located
  rw [List.singleton_inj.1 (List.append_cancel_left same)] at member
  exact outside member

end ChangesIn

/-! ### Folders of files -/

/-- A path is followed to a folder in which only files stand. -/
structure HoldsFiles (directory : Directory) (folder : Path) (location : Location) : Prop extends
    Reaches directory folder location where
  flat : ∀ name, PlainName name → directory.node? (location ++ [name]) ≠ some .folder

section HoldsFiles

variable {before after directory : Directory} {folder : Path} {location : Location}

theorem HoldsFiles.of_sameFolders (holds : HoldsFiles before folder location)
    (same : SameFolders before after) : HoldsFiles after folder location :=
  ⟨holds.toReaches.of_sameFolders same, fun name plain isFolder =>
    holds.flat name plain ((same _).2 isFolder)⟩

theorem HoldsFiles.nodeAt_join_ne (holds : HoldsFiles directory folder location) {name : Text}
    (plain : PlainName name) : directory.nodeAt (folder.join name) ≠ some .folder := by
  cases located : directory.locate (folder.join name) with
  | error fault =>
    unfold nodeAt
    rw [located]
    exact fun isFolder => by cases isFolder
  | ok place =>
    rw [nodeAt_of_locate located, holds.eq_of_locate_join plain located]
    exact holds.flat name plain

end HoldsFiles

/-! ### The names in a folder -/

/-- A name is in a folder if something stands there under it. -/
theorem mem_namesIn_iff {directory : Directory} {location : Location} {name : Text}
    (plain : PlainName name) :
    name ∈ directory.namesIn location ↔ (directory.node? (location ++ [name])).isSome := by
  rw [node?_of_proper (proper_append plain location), ← Option.ne_none_iff_isSome, ne_eq,
    Table.find?_eq_none_iff, not_not, namesIn, Text.sort, List.mem_mergeSort, List.mem_filterMap,
    Table.keys, List.mem_map]
  refine exists_congr fun entry => and_congr_right fun _ => ?_
  constructor
  · intro found
    split at found
    · next last isLast =>
      split at found
      · next inFolder =>
        cases found
        obtain ⟨lead, same⟩ := List.getLast?_eq_some_iff.1 isLast
        rw [same, List.dropLast_concat] at inFolder
        rw [same, inFolder]
      · cases found
    · cases found
  · intro same
    rw [same, List.getLast?_concat, List.dropLast_concat]
    exact if_pos rfl

theorem node?_of_namesIn_eq_nil {directory : Directory} {location : Location} {name : Text}
    (empty : directory.namesIn location = []) (plain : PlainName name) :
    directory.node? (location ++ [name]) = none := by
  refine Option.not_isSome_iff_eq_none.1 fun isThere => ?_
  have member := (mem_namesIn_iff plain).2 isThere
  rw [empty] at member
  exact List.not_mem_nil member

end Directory

namespace FileAction

open ShaderReduction.Action Directory ShaderReduction.Path

variable {directory after : Directory} {folder : Path} {location : Location}

theorem startingAt_list (located : directory.locate folder = .ok location)
    (isFolder : directory.node? location = some .folder) :
    (list folder).startingAt directory = (.ok (directory.namesIn location), directory) := by
  unfold list
  simp [located, isFolder]

theorem list_eq_ok {names : List Text}
    (listed : (list folder).startingAt directory = (.ok names, after)) :
    ∃ location, directory.locate folder = .ok location ∧
      directory.node? location = some .folder ∧ names = directory.namesIn location := by
  unfold list at listed
  rw [startingAt_bind, startingAt_locate] at listed
  cases located : directory.locate folder with
  | error fault =>
    rw [located] at listed
    cases listed
  | ok location =>
    rw [located] at listed
    simp only [startingAt_bind, startingAt_get] at listed
    refine ⟨location, rfl, ?_⟩
    cases node : directory.node? location with
    | none =>
      rw [node] at listed
      cases listed
    | some found =>
      rw [node] at listed
      cases found with
      | file content => cases listed
      | folder =>
        cases listed
        exact ⟨rfl, rfl⟩

/-- A folder that is there is left alone. -/
theorem startingAt_ensureFolder (located : directory.locate folder = .ok location)
    (isFolder : directory.node? location = some .folder) :
    (ensureFolder folder).startingAt directory = (.ok (), directory) := by
  have made : (makeFolder folder).startingAt directory = (.error .alreadyExists, directory) := by
    unfold makeFolder
    simp [located, isFolder]
  have isThere : ∀ fault, (failUnlessFolder folder fault).startingAt directory =
      (.ok (), directory) := by
    intro fault
    unfold failUnlessFolder find
    simp [located, isFolder]
  unfold ensureFolder
  cases count : folder.steps.length with
  | zero =>
    have here : { folder with steps := [] } = folder := by
      rw [← List.length_eq_zero_iff.1 count]
    rw [ensureSteps, startingAt_tryCatch]
    simp only [here, made, isThere]
  | succ more =>
    have here : { folder with steps := folder.steps.take (more + 1) } = folder := by
      rw [List.take_of_length_le (by omega)]
    rw [ensureSteps, startingAt_tryCatch]
    simp only [here, made, isThere]

end FileAction

end ShaderReduction
