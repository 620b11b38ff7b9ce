/-
This file proves where paths lead and when that changes.

A path whose last step is a plain name leads to a node of a folder. Following a path looks at
folders only, so directories with the same folders lead every path to the same location, and
writing, replacing or removing files changes nothing of where a path leads. An action that changes
files at some locations only therefore leaves alone what stands at every path that leads elsewhere.
-/

import Mathlib.Logic.Basic
import Mathlib.Order.Defs.Unbundled
import Mathlib.Tactic.SplitIfs
import ShaderReduction.Directory
import ShaderReduction.Proofs.Path

namespace ShaderReduction

namespace Directory

open ShaderReduction.Path

/-! ### Nodes -/

/-- A location whose node is looked up: not above the working folder and not the root. -/
def Proper (location : Location) : Prop := isAbove location = false ∧ location ≠ root

theorem proper_append {name : Text} (plain : PlainName name) (location : Location) :
    Proper (location ++ [name]) := by
  constructor
  · rw [isAbove, List.all_append]
    simp [plain.notBack]
  · intro isRoot
    have whole : location ++ [name] = [] ++ [("/" : Text)] := isRoot
    rw [List.singleton_inj.1 (List.append_inj' whole rfl).2] at plain
    exact plain.noSlash (by decide)

theorem proper_of_ne_folder {location : Location} {directory : Directory}
    (notFolder : directory.node? location ≠ some .folder) : Proper location := by
  unfold node? at notFolder
  split at notFolder
  · exact absurd rfl notFolder
  · next neither =>
    simp only [Bool.or_eq_true, beq_iff_eq, not_or, Bool.not_eq_true] at neither
    exact neither

theorem node?_of_proper {location : Location} (proper : Proper location) (directory : Directory) :
    directory.node? location = Table.find? location directory.nodes := by
  simp [node?, proper.1, proper.2]

theorem node?_put_self {location : Location} (proper : Proper location) (node : Node)
    (directory : Directory) : (directory.put location node).node? location = some node := by
  rw [node?_of_proper proper, put, Table.find?_put, if_pos rfl]

theorem node?_put_other {location other : Location} (different : other ≠ location) (node : Node)
    (directory : Directory) :
    (directory.put location node).node? other = directory.node? other := by
  simp only [node?, put, Table.find?_put, if_neg (Ne.symm different)]

theorem node?_erase_self {location : Location} (proper : Proper location) (directory : Directory) :
    (directory.erase location).node? location = none := by
  rw [node?_of_proper proper, erase, Table.find?_erase, if_pos rfl]

theorem node?_erase_other {location other : Location} (different : other ≠ location)
    (directory : Directory) :
    (directory.erase location).node? other = directory.node? other := by
  simp only [node?, erase, Table.find?_erase, if_neg (Ne.symm different)]

/-! ### Following a path -/

/-- The location from which a path is followed. -/
def origin (path : Path) : Location := if path.slashes = 0 then [] else root

/-- What the text of a path forbids, whatever the directory holds. -/
def textFault? (path : Path) : Option Fault :=
  if !path.steps.all isEncodable then some .unencodable
  else if path.steps.any hasNull then some .nullInPath
  else if longestPath < nameSize path.toText then some .nameTooLong
  else none

theorem locate_eq (directory : Directory) (path : Path) :
    directory.locate path =
      match textFault? path with
      | some fault => .error fault
      | none => directory.follow (origin path) path.steps := by
  unfold locate textFault?
  split
  · rfl
  · split
    · rfl
    · split <;> rfl

theorem follow_append (directory : Directory) (location : Location) (steps more : List Text) :
    directory.follow location (steps ++ more) =
      match directory.follow location steps with
      | .ok between => directory.follow between more
      | .error fault => .error fault := by
  induction steps generalizing location with
  | nil => rfl
  | cons step steps inductionHypothesis =>
    simp only [List.cons_append, follow]
    cases directory.node? location with
    | none => rfl
    | some node =>
      cases node with
      | file => rfl
      | folder =>
        dsimp only
        split_ifs
        · exact inductionHypothesis location
        · exact inductionHypothesis (above location)
        · rfl
        · exact inductionHypothesis (location ++ [step])

theorem follow_plain {directory : Directory} {location : Location} {name : Text}
    (plain : PlainName name) :
    directory.follow location [name] =
      match directory.node? location with
      | none => .error .notFound
      | some (.file _) => .error .notFolder
      | some .folder =>
        if longestName < nameSize name then .error .nameTooLong else .ok (location ++ [name]) := by
  unfold follow
  cases directory.node? location with
  | none => rfl
  | some node =>
    cases node with
    | file content => rfl
    | folder => exact (if_neg plain.notHere).trans (if_neg plain.notBack)

theorem steps_eq_of_plainName {path : Path} (plain : PlainName path.name) :
    path.steps = path.steps.dropLast ++ [path.name] := by
  unfold name at plain ⊢
  cases last : path.steps.getLast? with
  | none =>
    rw [last] at plain
    exact absurd rfl plain.nonempty
  | some step =>
    obtain ⟨before, whole⟩ := List.getLast?_eq_some_iff.1 last
    rw [whole, List.dropLast_concat]
    rfl

/-- A path to a plain name leads into the folder above to that name. -/
theorem exists_folder_of_locate {directory : Directory} {path : Path} {location : Location}
    (plain : PlainName path.name) (located : directory.locate path = .ok location) :
    ∃ folder, directory.follow (origin path) path.steps.dropLast = .ok folder ∧
      directory.node? folder = some .folder ∧ nameSize path.name ≤ longestName ∧
      location = folder ++ [path.name] := by
  rw [locate_eq] at located
  cases fault : textFault? path with
  | some other =>
    rw [fault] at located
    cases located
  | none =>
    rw [fault] at located
    have followed : directory.follow (origin path) path.steps = .ok location := located
    rw [steps_eq_of_plainName plain, follow_append] at followed
    cases start : directory.follow (origin path) path.steps.dropLast with
    | error other =>
      rw [start] at followed
      cases followed
    | ok folder =>
      rw [start] at followed
      have last : directory.follow folder [path.name] = .ok location := followed
      rw [follow_plain plain] at last
      cases node : directory.node? folder with
      | none =>
        rw [node] at last
        cases last
      | some found =>
        rw [node] at last
        cases found with
        | file content => cases last
        | folder =>
          dsimp only at last
          split at last
          · cases last
          · next fits => exact ⟨folder, rfl, node, Nat.le_of_not_lt fits, (Except.ok.inj last).symm⟩

theorem getLast?_of_locate {directory : Directory} {path : Path} {location : Location}
    (plain : PlainName path.name) (located : directory.locate path = .ok location) :
    location.getLast? = some path.name := by
  obtain ⟨folder, -, -, -, rfl⟩ := exists_folder_of_locate plain located
  exact List.getLast?_concat

/-! ### Steps back -/

/-- Every location on the way to a location is that of a folder. -/
def Grounded (directory : Directory) (location : Location) : Prop :=
  ∀ count < location.length, directory.node? (location.take count) = some .folder

section Grounded

variable {directory : Directory} {location target : Location}
  (grounded : Grounded directory location)

include grounded

theorem Grounded.concat (isFolder : directory.node? location = some .folder) (name : Text) :
    Grounded directory (location ++ [name]) := by
  intro count below
  rw [List.length_append, List.length_singleton] at below
  rw [List.take_append_of_le_length (by omega)]
  rcases Nat.lt_or_ge count location.length with inside | atEnd
  · exact grounded count inside
  · rw [List.take_of_length_le atEnd]
    exact isFolder

theorem Grounded.above (isFolder : directory.node? location = some .folder) :
    Grounded directory (above location) ∧ directory.node? (above location) = some .folder := by
  unfold Directory.above
  split
  · next isRoot => exact ⟨isRoot ▸ grounded, isRoot ▸ isFolder⟩
  · split
    · next isBack =>
      refine ⟨grounded.concat isFolder _, ?_⟩
      have longer : isAbove (location ++ [(".." : Text)]) = true := by
        rw [isAbove, List.all_append, ← isAbove, isBack]
        rfl
      rw [node?, longer]
      rfl
    · next isBelow =>
      have nonempty : location ≠ [] := fun empty => isBelow (empty ▸ rfl)
      have positive := List.length_pos_iff.2 nonempty
      rw [List.dropLast_eq_take]
      refine ⟨fun count below => ?_, grounded _ (by omega)⟩
      rw [List.length_take] at below
      rw [List.take_take, Nat.min_eq_left (by omega)]
      exact grounded count (by omega)

theorem Grounded.of_follow {steps : List Text}
    (followed : directory.follow location steps = .ok target) : Grounded directory target := by
  induction steps generalizing location with
  | nil =>
    cases followed
    exact grounded
  | cons step steps inductionHypothesis =>
    simp only [follow] at followed
    cases node : directory.node? location with
    | none =>
      rw [node] at followed
      cases followed
    | some found =>
      rw [node] at followed
      cases found with
      | file content => cases followed
      | folder =>
        dsimp only at followed
        split_ifs at followed
        · exact inductionHypothesis grounded followed
        · exact inductionHypothesis (grounded.above node).1 followed
        · exact inductionHypothesis (grounded.concat node step) followed

/-- A step back leads to a folder. -/
theorem Grounded.isFolder_of_back {steps : List Text}
    (followed : directory.follow location (steps ++ [(".." : Text)]) = .ok target) :
    directory.node? target = some .folder := by
  rw [follow_append] at followed
  cases lead : directory.follow location steps with
  | error fault =>
    rw [lead] at followed
    cases followed
  | ok between =>
    rw [lead] at followed
    simp only [follow] at followed
    cases node : directory.node? between with
    | none =>
      rw [node] at followed
      cases followed
    | some found =>
      rw [node] at followed
      cases found with
      | file content => cases followed
      | folder =>
        obtain rfl : Directory.above between = target := Except.ok.inj followed
        exact ((grounded.of_follow lead).above node).2

end Grounded

theorem grounded_origin (directory : Directory) (path : Path) :
    Grounded directory (origin path) := by
  intro count below
  unfold origin at below ⊢
  split at below
  · exact absurd below (Nat.not_lt_zero _)
  · obtain rfl : count = 0 := Nat.lt_one_iff.1 below
    rfl

/-- A path that was read leads to files only if it ends in a plain name. -/
theorem plainName_of_locate {directory : Directory} {text : Text} {location : Location}
    {content : Bytes} (located : directory.locate (Path.ofText text) = .ok location)
    (isFile : directory.node? location = some (.file content)) :
    PlainName (Path.ofText text).name := by
  rw [locate_eq] at located
  cases fault : textFault? (Path.ofText text) with
  | some other =>
    rw [fault] at located
    cases located
  | none =>
    rw [fault] at located
    have followed : directory.follow (origin (Path.ofText text)) (Path.ofText text).steps =
      .ok location := located
    rw [Path.name]
    cases last : (Path.ofText text).steps.getLast? with
    | none =>
      rw [List.getLast?_eq_none_iff.1 last] at followed
      obtain rfl : origin (Path.ofText text) = location := Except.ok.inj followed
      have isFolder : directory.node? (origin (Path.ofText text)) = some .folder := by
        unfold origin
        split <;> rfl
      rw [isFolder] at isFile
      cases isFile
    | some step =>
      refine plainName_of_mem_steps (List.mem_of_getLast? last) fun isBack => ?_
      obtain ⟨lead, whole⟩ := List.getLast?_eq_some_iff.1 last
      obtain rfl : step = (".." : Text) := isBack
      rw [whole] at followed
      rw [(grounded_origin directory (Path.ofText text)).isFolder_of_back followed] at isFile
      cases isFile

/-! ### Directories with the same folders -/

/-- Two directories have folders at the same locations. -/
def SameFolders (before after : Directory) : Prop :=
  ∀ location, before.node? location = some .folder ↔ after.node? location = some .folder

theorem SameFolders.symm {before after : Directory} (same : SameFolders before after) :
    SameFolders after before := fun location => (same location).symm

theorem SameFolders.trans {before between after : Directory} (first : SameFolders before between)
    (second : SameFolders between after) : SameFolders before after :=
  fun location => (first location).trans (second location)

/-- Steps are followed in the same way, unless they need a folder where there is none. -/
theorem SameFolders.follow_eq {before after : Directory} (same : SameFolders before after)
    {location : Location} {steps : List Text} {outcome : Except Fault Location}
    (found : outcome ≠ .error .notFound) (folder : outcome ≠ .error .notFolder)
    (followed : before.follow location steps = outcome) :
    after.follow location steps = outcome := by
  induction steps generalizing location with
  | nil => exact followed
  | cons step steps inductionHypothesis =>
    simp only [follow] at followed ⊢
    cases node : before.node? location with
    | none =>
      rw [node] at followed
      exact absurd followed.symm found
    | some standing =>
      cases standing with
      | file content =>
        rw [node] at followed
        exact absurd followed.symm folder
      | folder =>
        rw [node] at followed
        rw [(same location).1 node]
        dsimp only at followed ⊢
        split_ifs at followed ⊢
        · exact inductionHypothesis followed
        · exact inductionHypothesis followed
        · exact followed
        · exact inductionHypothesis followed

theorem SameFolders.locate_eq {before after : Directory} (same : SameFolders before after)
    {path : Path} {outcome : Except Fault Location} (found : outcome ≠ .error .notFound)
    (folder : outcome ≠ .error .notFolder) (located : before.locate path = outcome) :
    after.locate path = outcome := by
  rw [Directory.locate_eq] at located ⊢
  cases fault : textFault? path with
  | some other =>
    rw [fault] at located
    exact located
  | none =>
    rw [fault] at located
    exact same.follow_eq found folder located

theorem SameFolders.follow_eq_ok {before after : Directory} (same : SameFolders before after)
    {location target : Location} {steps : List Text}
    (followed : before.follow location steps = .ok target) :
    after.follow location steps = .ok target :=
  same.follow_eq (fun failed => nomatch failed) (fun failed => nomatch failed) followed

theorem SameFolders.locate_eq_ok {before after : Directory} (same : SameFolders before after)
    {path : Path} {location : Location} (located : before.locate path = .ok location) :
    after.locate path = .ok location :=
  same.locate_eq (fun failed => nomatch failed) (fun failed => nomatch failed) located

/-- A path is too long whatever the files are. -/
theorem SameFolders.locate_tooLong_iff {before after : Directory} (same : SameFolders before after)
    (path : Path) :
    before.locate path = .error .nameTooLong ↔ after.locate path = .error .nameTooLong :=
  ⟨same.locate_eq (fun other => nomatch other) (fun other => nomatch other),
    same.symm.locate_eq (fun other => nomatch other) (fun other => nomatch other)⟩

theorem SameFolders.locate_eq_ok_iff {before after : Directory} (same : SameFolders before after)
    {path : Path} {location : Location} :
    before.locate path = .ok location ↔ after.locate path = .ok location :=
  ⟨same.locate_eq_ok, same.symm.locate_eq_ok⟩

/-! ### What stands at a path -/

/-- What stands at a path, nothing if the path leads nowhere. -/
def nodeAt (directory : Directory) (path : Path) : Option Node :=
  match directory.locate path with
  | .ok location => directory.node? location
  | .error _ => none

theorem nodeAt_of_locate {directory : Directory} {path : Path} {location : Location}
    (located : directory.locate path = .ok location) :
    directory.nodeAt path = directory.node? location := by
  rw [nodeAt, located]

theorem exists_node_of_nodeAt {directory : Directory} {path : Path} {node : Node}
    (found : directory.nodeAt path = some node) :
    ∃ location, directory.locate path = .ok location ∧ directory.node? location = some node := by
  unfold nodeAt at found
  cases located : directory.locate path with
  | error fault =>
    rw [located] at found
    cases found
  | ok location =>
    rw [located] at found
    exact ⟨location, rfl, found⟩

/-- What is there and no folder is a file. -/
theorem exists_file_of_isSome {node : Option Node} (present : node.isSome = true)
    (notFolder : node ≠ some .folder) : ∃ content, node = some (.file content) := by
  obtain ⟨found, rfl⟩ := Option.isSome_iff_exists.1 present
  cases found with
  | file content => exact ⟨content, rfl⟩
  | folder => exact absurd rfl notFolder

theorem ne_folder_of_eq_file {directory : Directory} {location : Location} {content : Bytes}
    (isFile : directory.node? location = some (.file content)) :
    directory.node? location ≠ some .folder := by
  rw [isFile]
  exact fun isFolder => nomatch isFolder

theorem SameFolders.nodeAt_ne_folder {before after : Directory} (same : SameFolders before after)
    {path : Path} (notFolder : before.nodeAt path ≠ some .folder) :
    after.nodeAt path ≠ some .folder := by
  intro isFolder
  obtain ⟨location, located, node⟩ := exists_node_of_nodeAt isFolder
  rw [nodeAt_of_locate (same.symm.locate_eq_ok located)] at notFolder
  exact notFolder ((same location).2 node)

/-! ### Changes of files -/

/-- Two directories have the same folders, and the same files except at some locations. -/
structure ChangesOnly (changed : Location → Prop) (before after : Directory) : Prop where
  folders : SameFolders before after
  elsewhere : ∀ location, ¬changed location → after.node? location = before.node? location

namespace ChangesOnly

variable {changed : Location → Prop} {before between after : Directory}

theorem refl (directory : Directory) : ChangesOnly changed directory directory :=
  ⟨fun _ => Iff.rfl, fun _ _ => rfl⟩

theorem trans (first : ChangesOnly changed before between)
    (second : ChangesOnly changed between after) : ChangesOnly changed before after :=
  ⟨first.folders.trans second.folders, fun location same =>
    (second.elsewhere location same).trans (first.elsewhere location same)⟩

theorem symm (change : ChangesOnly changed before after) : ChangesOnly changed after before :=
  ⟨change.folders.symm, fun location same => (change.elsewhere location same).symm⟩

theorem mono {wider : Location → Prop} (change : ChangesOnly changed before after)
    (within : ∀ location, changed location → wider location) : ChangesOnly wider before after :=
  ⟨change.folders, fun location outside =>
    change.elsewhere location fun inside => outside (within location inside)⟩

/-- What stands at a path that leads to no changed location stays. -/
theorem nodeAt_eq (change : ChangesOnly changed before after) {path : Path}
    (outside : ∀ location, before.locate path = .ok location → ¬changed location) :
    after.nodeAt path = before.nodeAt path := by
  cases located : before.locate path with
  | ok location =>
    rw [nodeAt_of_locate located, nodeAt_of_locate (change.folders.locate_eq_ok located)]
    exact change.elsewhere location (outside location located)
  | error fault =>
    have lost : ∀ location, after.locate path ≠ .ok location := by
      intro location found
      rw [change.folders.symm.locate_eq_ok found] at located
      cases located
    unfold nodeAt
    rw [located]
    cases found : after.locate path with
    | ok location => exact absurd found (lost location)
    | error other => rfl

end ChangesOnly

/-- Two directories have the same folders, and the same files except where some paths lead. -/
def ChangesAt (paths : Path → Prop) (before after : Directory) : Prop :=
  ChangesOnly (fun location => ∃ path, paths path ∧ before.locate path = .ok location) before after

namespace ChangesAt

variable {paths : Path → Prop} {before between after : Directory}

theorem refl (directory : Directory) : ChangesAt paths directory directory :=
  ChangesOnly.refl directory

theorem trans (first : ChangesAt paths before between) (second : ChangesAt paths between after) :
    ChangesAt paths before after := by
  refine ChangesOnly.trans first (ChangesOnly.mono second ?_)
  rintro location ⟨path, among, located⟩
  exact ⟨path, among, first.folders.locate_eq_ok_iff.2 located⟩

theorem mono {more : Path → Prop} (change : ChangesAt paths before after)
    (within : ∀ path, paths path → more path) : ChangesAt more before after :=
  ChangesOnly.mono change fun _ ⟨path, among, located⟩ => ⟨path, within path among, located⟩

/-- What stands at a path of another name stays. -/
theorem nodeAt_eq (change : ChangesAt paths before after) {path : Path}
    (plain : PlainName path.name)
    (apart : ∀ other, paths other → PlainName other.name ∧ other.name ≠ path.name) :
    after.nodeAt path = before.nodeAt path := by
  refine ChangesOnly.nodeAt_eq change ?_
  rintro location located ⟨other, among, otherLocated⟩
  obtain ⟨otherPlain, different⟩ := apart other among
  have last := getLast?_of_locate plain located
  rw [getLast?_of_locate otherPlain otherLocated] at last
  exact different (Option.some.inj last)

end ChangesAt

instance (paths : Path → Prop) : IsPreorder Directory (ChangesAt paths) where
  refl := ChangesAt.refl
  trans _ _ _ first second := first.trans second

theorem changesOnly_put {location : Location} {directory : Directory}
    (notFolder : directory.node? location ≠ some .folder) (content : Bytes) :
    ChangesOnly (· = location) directory (directory.put location (.file content)) := by
  have proper := proper_of_ne_folder notFolder
  have elsewhere : ∀ other, ¬other = location →
      (directory.put location (.file content)).node? other = directory.node? other :=
    fun other different => node?_put_other different _ directory
  refine ⟨fun other => ?_, elsewhere⟩
  by_cases same : other = location
  · subst same
    rw [node?_put_self proper]
    exact ⟨fun folder => absurd folder notFolder, fun folder => by cases folder⟩
  · rw [elsewhere other same]

theorem changesOnly_erase {location : Location} {directory : Directory}
    (notFolder : directory.node? location ≠ some .folder) :
    ChangesOnly (· = location) directory (directory.erase location) := by
  have proper := proper_of_ne_folder notFolder
  have elsewhere : ∀ other, ¬other = location →
      (directory.erase location).node? other = directory.node? other :=
    fun other different => node?_erase_other different directory
  refine ⟨fun other => ?_, elsewhere⟩
  by_cases same : other = location
  · subst same
    rw [node?_erase_self proper]
    exact ⟨fun folder => absurd folder notFolder, fun folder => by cases folder⟩
  · rw [elsewhere other same]

end Directory

end ShaderReduction
