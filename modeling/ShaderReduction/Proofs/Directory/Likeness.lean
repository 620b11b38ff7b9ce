/-
This file proves that directories that differ in some files of one folder only stay so.

The names of these files are set aside: under each of them a file can be written in the folder
(`Room`). An action on files with other names sees no difference, so it comes to the same result in
both directories and changes both in the same way. An action on files that are set aside may see a
difference, but it ends well in each of the directories and changes nothing else.
-/

import ShaderReduction.Proofs.Directory.Folder

namespace ShaderReduction

namespace Directory

open ShaderReduction.Path

variable {folder : Path} {location : Location} {names : Text → Prop}

/-- A path leads to the same in two directories. -/
structure SameAt (path : Path) (first second : Directory) : Prop where
  located : second.locate path = first.locate path
  node : ∀ location, first.locate path = .ok location →
    second.node? location = first.node? location

/-- Paths into a folder lead to what they led to, under other names than those of what changes. -/
theorem ChangesAt.sameAt {paths : Path → Prop} {before after : Directory}
    (change : ChangesAt paths before after) (reaches : Reaches before folder location)
    {name : Text} (plain : PlainName name)
    (apart : ∀ other, paths other → PlainName other.name ∧ other.name ≠ name) :
    SameAt (folder.join name) before after := by
  refine ⟨reaches.locate_join_eq change.folders plain, fun place located => ?_⟩
  refine change.elsewhere place ?_
  rintro ⟨other, among, otherLocated⟩
  obtain ⟨otherPlain, different⟩ := apart other among
  have last := getLast?_of_locate otherPlain otherLocated
  rw [reaches.eq_of_locate_join plain located, List.getLast?_concat] at last
  exact different (Option.some.inj last).symm

/-! ### The same change in two directories -/

section Parallel

variable {changed : Location → Prop} {first second : Directory} {place : Location}
  (change : ChangesOnly changed first second) (notFolder : first.node? place ≠ some .folder)

include change notFolder

theorem ChangesOnly.put (content : Bytes) :
    ChangesOnly changed (first.put place (.file content)) (second.put place (.file content)) := by
  have otherNotFolder : second.node? place ≠ some .folder :=
    fun isFolder => notFolder ((change.folders place).2 isFolder)
  have proper := proper_of_ne_folder notFolder
  refine ⟨?_, fun other outside => ?_⟩
  · exact (changesOnly_put notFolder content).folders.symm.trans
      (change.folders.trans (changesOnly_put otherNotFolder content).folders)
  · by_cases same : other = place
    · rw [same, node?_put_self proper, node?_put_self proper]
    · rw [node?_put_other same, node?_put_other same, change.elsewhere other outside]

theorem ChangesOnly.erase : ChangesOnly changed (first.erase place) (second.erase place) := by
  have otherNotFolder : second.node? place ≠ some .folder :=
    fun isFolder => notFolder ((change.folders place).2 isFolder)
  have proper := proper_of_ne_folder notFolder
  refine ⟨?_, fun other outside => ?_⟩
  · exact (changesOnly_erase notFolder).folders.symm.trans
      (change.folders.trans (changesOnly_erase otherNotFolder).folders)
  · by_cases same : other = place
    · rw [same, node?_erase_self proper, node?_erase_self proper]
    · rw [node?_erase_other same, node?_erase_other same, change.elsewhere other outside]

end Parallel

/-! ### Names that are set aside -/

/-- Files can be written in a folder under each of some names: none is too long or stands for a
folder. -/
structure Room (folder : Path) (location : Location) (names : Text → Prop)
    (directory : Directory) : Prop extends Reaches directory folder location where
  plain : ∀ name, names name → PlainName name
  fits : ∀ name, names name → childFault? folder name = none
  free : ∀ name, names name → directory.node? (location ++ [name]) ≠ some .folder

section Room

variable {directory after : Directory} {name : Text} (room : Room folder location names directory)

include room

theorem Room.of_sameFolders (same : SameFolders directory after) :
    Room folder location names after :=
  ⟨room.toReaches.of_sameFolders same, room.plain, room.fits,
    fun name among isFolder => room.free name among ((same _).2 isFolder)⟩

theorem Room.locate_eq_ok (among : names name) :
    directory.locate (folder.join name) = .ok (location ++ [name]) := by
  rw [room.toReaches.locate_join (room.plain name among), room.fits name among]

theorem Room.nodeAt_ne_folder (among : names name) :
    directory.nodeAt (folder.join name) ≠ some .folder := by
  rw [nodeAt_of_locate (room.locate_eq_ok among)]
  exact room.free name among

/-- A change of files that are set aside. -/
theorem Room.changesIn {paths : Path → Prop} (change : ChangesAt paths directory after)
    (aside : ∀ path, paths path → ∃ name, names name ∧ path = folder.join name) :
    ChangesIn location names directory after :=
  change.changesIn room.toReaches fun path among =>
    let ⟨name, isName, same⟩ := aside path among
    ⟨name, isName, room.plain name isName, same⟩

/-- A change of files in the folder that are set aside is one of files at their paths. -/
theorem Room.changesAt (change : ChangesIn location names directory after) :
    ChangesAt (fun path => ∃ name, names name ∧ path = folder.join name) directory after := by
  refine ChangesOnly.mono change ?_
  rintro place ⟨name, isName, rfl⟩
  exact ⟨folder.join name, ⟨name, isName, rfl⟩, room.locate_eq_ok isName⟩

end Room

/-- If a file can be made in a folder, the folder is there. -/
theorem exists_reaches_of_writable {directory : Directory} {name : Text} (plain : PlainName name)
    (writable : FileAction.Writable directory (folder.join name)) :
    ∃ location, Reaches directory folder location := by
  obtain ⟨place, located, -⟩ := writable
  obtain ⟨-, followed⟩ := locate_eq_ok_iff.1 located
  rw [join_of_plainName folder plain] at followed
  change directory.follow (origin folder) (folder.steps ++ [name]) = _ at followed
  rw [follow_append] at followed
  cases lead : directory.follow (origin folder) folder.steps with
  | error fault =>
    rw [lead] at followed
    cases followed
  | ok location =>
    rw [lead] at followed
    dsimp only at followed
    rw [follow_plain plain] at followed
    cases node : directory.node? location with
    | none =>
      rw [node] at followed
      cases followed
    | some found =>
      cases found with
      | folder => exact ⟨location, lead, node⟩
      | file content =>
        rw [node] at followed
        cases followed

/-- There is room for files in a folder under the names under which they can be made. -/
theorem exists_room_of_writable {directory : Directory} {name : Text} (among : names name)
    (plain : ∀ name, names name → PlainName name)
    (writable : FileAction.AllWritable (fun path => ∃ name, names name ∧ path = folder.join name)
      directory) :
    ∃ location, Room folder location names directory := by
  obtain ⟨location, reaches⟩ :=
    exists_reaches_of_writable (plain name among) (writable _ ⟨name, among, rfl⟩)
  refine ⟨location, reaches, plain, fun name isName => ?_, fun name isName => ?_⟩
  all_goals obtain ⟨place, located, notFolder⟩ := writable _ ⟨name, isName, rfl⟩
  · rw [reaches.locate_join (plain name isName)] at located
    cases fault : childFault? folder name with
    | none => rfl
    | some other =>
      rw [fault] at located
      cases located
  · exact reaches.eq_of_locate_join (plain name isName) located ▸ notFolder

/-- Two directories are the same but for files in a folder under names that are set aside. -/
structure SameBut (folder : Path) (location : Location) (names : Text → Prop)
    (first second : Directory) : Prop where
  room : Room folder location names first
  change : ChangesIn location names first second

section SameBut

variable {first second : Directory} {name : Text}
  (alike : SameBut folder location names first second)

theorem Room.sameBut_self {directory : Directory} (room : Room folder location names directory) :
    SameBut folder location names directory directory := ⟨room, ChangesOnly.refl directory⟩

include alike

theorem SameBut.otherRoom : Room folder location names second :=
  alike.room.of_sameFolders alike.change.folders

theorem SameBut.locate_eq (plain : PlainName name) :
    second.locate (folder.join name) = first.locate (folder.join name) :=
  alike.room.toReaches.locate_join_eq alike.change.folders plain

theorem SameBut.nodeAt_eq (plain : PlainName name) (outside : ¬names name) :
    second.nodeAt (folder.join name) = first.nodeAt (folder.join name) :=
  alike.change.nodeAt_join_eq alike.room.toReaches plain outside

theorem SameBut.sameAt (plain : PlainName name) (outside : ¬names name) :
    SameAt (folder.join name) first second := by
  refine ⟨alike.locate_eq plain, fun place located => ?_⟩
  obtain rfl := alike.room.toReaches.eq_of_locate_join plain located
  exact alike.change.node?_eq outside

/-- The same file may be put in both directories. -/
theorem SameBut.put {place : Location} (notFolder : first.node? place ≠ some .folder)
    (content : Bytes) :
    SameBut folder location names (first.put place (.file content))
      (second.put place (.file content)) :=
  ⟨alike.room.of_sameFolders (changesOnly_put notFolder content).folders,
    ChangesOnly.put alike.change notFolder content⟩

theorem SameBut.erase {place : Location} (notFolder : first.node? place ≠ some .folder) :
    SameBut folder location names (first.erase place) (second.erase place) :=
  ⟨alike.room.of_sameFolders (changesOnly_erase notFolder).folders,
    ChangesOnly.erase alike.change notFolder⟩

/-- Files that are set aside may change in each of the directories on its own. -/
theorem SameBut.of_changesIn {after other : Directory}
    (change : ChangesIn location names first after)
    (otherChange : ChangesIn location names second other) :
    SameBut folder location names after other :=
  ⟨alike.room.of_sameFolders change.folders,
    ChangesOnly.trans change.symm (ChangesOnly.trans alike.change otherChange)⟩

end SameBut

end Directory

namespace FileAction

open ShaderReduction.Action Directory ShaderReduction.Path

/-! ### Looking at what is the same -/

section Agreement

variable {path : Path} {first second : Directory}

theorem agrees_find (same : SameAt path first second) : Agrees first second (find path) := by
  unfold Agrees find
  simp only [startingAt_bind, startingAt_get, same.located]
  cases located : first.locate path with
  | ok location =>
    refine ⟨.ok (first.node? location), rfl, ?_⟩
    rw [← same.node location located]
    rfl
  | error fault =>
    cases fault with
    | nameTooLong => exact ⟨.error .nameTooLong, rfl, rfl⟩
    | _ => exact ⟨.ok none, rfl, rfl⟩

theorem agrees_isPresent (same : SameAt path first second) :
    Agrees first second (isPresent path) := (agrees_find same).bind fun _ => agrees_pure _

theorem agrees_readBytes (same : SameAt path first second) :
    Agrees first second (readBytes path) := by
  unfold Agrees readBytes
  simp only [startingAt_bind, startingAt_locate, same.located]
  cases located : first.locate path with
  | error fault => exact ⟨.error fault, rfl, rfl⟩
  | ok location =>
    simp only [startingAt_get, same.node location located]
    cases first.node? location with
    | none => exact ⟨.error .notFound, rfl, rfl⟩
    | some node =>
      cases node with
      | folder => exact ⟨.error .isFolder, rfl, rfl⟩
      | file content => exact ⟨.ok content, rfl, rfl⟩

theorem agrees_readText (same : SameAt path first second) :
    Agrees first second (readText path) := by
  refine (agrees_readBytes same).bind fun content => ?_
  cases Utf8.decode? content with
  | none => exact agrees_throw _
  | some text => exact agrees_pure _

end Agreement

/-! ### Files with other names -/

section Outside

variable {folder : Path} {location : Location} {names : Text → Prop} {name : Text}
  (plain : PlainName name) (outside : ¬names name)

include plain outside

theorem lockstep_isPresent :
    Lockstep (SameBut folder location names) (isPresent (folder.join name)) :=
  fun _ _ alike => (agrees_isPresent (alike.sameAt plain outside)).inStep alike

/-- An action that finds its place and goes by what stands there keeps two directories in step if it
does so wherever both have the same. -/
theorem lockstep_of_located {Result : Type} {action : FileAction Result}
    {acts : Location → Directory → Except Fault Result × Directory}
    (runs : ∀ directory, action.startingAt directory =
      match directory.locate (folder.join name) with
      | .error fault => (.error fault, directory)
      | .ok place => acts place directory)
    (keeps : ∀ place first second, SameBut folder location names first second →
      second.node? place = first.node? place →
        (acts place first).1 = (acts place second).1 ∧
          SameBut folder location names (acts place first).2 (acts place second).2) :
    Lockstep (SameBut folder location names) action := by
  intro first second alike
  have same := alike.sameAt plain outside
  have run := runs first
  have otherRun := runs second
  rw [same.located] at otherRun
  cases located : first.locate (folder.join name) with
  | error fault =>
    rw [located] at run otherRun
    exact inStep_of_eq run otherRun alike
  | ok place =>
    rw [located] at run otherRun
    obtain ⟨result, related⟩ := keeps place first second alike (same.node place located)
    constructor
    · rw [run, otherRun]
      exact result
    · rw [run, otherRun]
      exact related

theorem lockstep_writeBytes (content : Bytes) :
    Lockstep (SameBut folder location names) (writeBytes (folder.join name) content) := by
  refine lockstep_of_located plain outside (startingAt_writeBytes _ content) ?_
  intro place first second alike same
  rw [same]
  by_cases isFolder : first.node? place = some .folder
  · rw [if_pos isFolder, if_pos isFolder]
    exact ⟨rfl, alike⟩
  · rw [if_neg isFolder, if_neg isFolder]
    exact ⟨rfl, alike.put isFolder content⟩

theorem lockstep_writeText (text : Text) :
    Lockstep (SameBut folder location names) (writeText (folder.join name) text) := by
  refine (lockstep_writeBytes plain outside []).bind fun _ => ?_
  cases Utf8.encode? text with
  | none => exact lockstep_throw _
  | some content => exact lockstep_writeBytes plain outside content

theorem lockstep_remove :
    Lockstep (SameBut folder location names) (remove (folder.join name)) := by
  refine lockstep_of_located plain outside (startingAt_remove _) ?_
  intro place first second alike same
  rw [same]
  rcases node : first.node? place with _ | _ | _
  · exact ⟨rfl, alike⟩
  · exact ⟨rfl, alike⟩
  · exact ⟨rfl, alike.erase (ne_folder_of_eq_file node)⟩

theorem lockstep_removeIfPresent :
    Lockstep (SameBut folder location names) (removeIfPresent (folder.join name)) := by
  refine (lockstep_isPresent plain outside).bind fun present => ?_
  cases present with
  | false => exact lockstep_pure _
  | true => exact lockstep_remove plain outside

theorem lockstep_touch : Lockstep (SameBut folder location names) (touch (folder.join name)) := by
  refine lockstep_of_located plain outside (startingAt_touch _) ?_
  intro place first second alike same
  rw [same]
  cases node : first.node? place with
  | some found => exact ⟨rfl, alike⟩
  | none => exact ⟨rfl, alike.put (node ▸ fun isFolder => nomatch isFolder) []⟩

/-- A file is moved to another name in both directories. -/
theorem inStep_move {other : Text} {first second : Directory} {content : Bytes}
    (otherPlain : PlainName other) (otherOutside : ¬names other) (different : name ≠ other)
    (alike : SameBut folder location names first second)
    (file : first.nodeAt (folder.join name) = some (.file content))
    (free : first.nodeAt (folder.join other) ≠ some .folder) :
    InStep (SameBut folder location names) first second
      (move (folder.join name) (folder.join other)) := by
  obtain ⟨start, located, node⟩ := exists_node_of_nodeAt file
  have same := alike.sameAt plain outside
  have otherSame := alike.sameAt otherPlain otherOutside
  have apart : ∀ place, first.locate (folder.join other) = .ok place → place ≠ start := by
    rintro place there rfl
    have start := alike.room.toReaches.eq_of_locate_join plain located
    rw [alike.room.toReaches.eq_of_locate_join otherPlain there] at start
    exact different (List.singleton_inj.1 (List.append_cancel_left start)).symm
  have run := startingAt_move located node free fun there => apart start there rfl
  have otherRun := startingAt_move (same.located.trans located)
    ((same.node start located).trans node)
    (alike.nodeAt_eq otherPlain otherOutside ▸ free)
    fun there => apart start (otherSame.located ▸ there) rfl
  rw [otherSame.located] at otherRun
  cases there : first.locate (folder.join other) with
  | error fault =>
    rw [there] at run otherRun
    exact inStep_of_eq run otherRun alike
  | ok place =>
    rw [there] at run otherRun
    refine inStep_of_eq run otherRun ((alike.erase (ne_folder_of_eq_file node)).put ?_ content)
    rw [node?_erase_other (apart place there), ← nodeAt_of_locate there]
    exact free

end Outside

/-! ### Files that are set aside -/

section Aside

variable {folder : Path} {location : Location} {names : Text → Prop} {name : Text}
  {directory : Directory} (room : Room folder location names directory) (among : names name)

include room among

theorem startingAt_isPresent_of_room :
    (isPresent (folder.join name)).startingAt directory =
      (.ok (directory.nodeAt (folder.join name)).isSome, directory) := by
  refine startingAt_isPresent ?_
  rw [room.locate_eq_ok among]
  exact fun impossible => nomatch impossible

theorem exists_changesIn_of_removeIfPresent :
    ∃ after, (removeIfPresent (folder.join name)).startingAt directory = (.ok (), after) ∧
      ChangesIn location names directory after := by
  have run : ∃ after,
      (removeIfPresent (folder.join name)).startingAt directory = (.ok (), after) := by
    unfold removeIfPresent
    rw [startingAt_bind, startingAt_isPresent_of_room room among]
    cases present : (directory.nodeAt (folder.join name)).isSome with
    | false => exact ⟨directory, rfl⟩
    | true =>
      obtain ⟨content, file⟩ := exists_file_of_isSome present (room.nodeAt_ne_folder among)
      rw [nodeAt_of_locate (room.locate_eq_ok among)] at file
      refine ⟨directory.erase (location ++ [name]), ?_⟩
      show (remove (folder.join name)).startingAt directory = _
      rw [startingAt_remove, room.locate_eq_ok among]
      dsimp only
      rw [file]
  obtain ⟨after, run⟩ := run
  exact ⟨after, run, room.changesIn ((changesAt_removeIfPresent _).of_eq run)
    fun path same => ⟨name, among, same⟩⟩

/-- A file that is there is moved to another name that is set aside. -/
theorem exists_changesIn_of_move {other : Text} (otherAmong : names other)
    (different : name ≠ other) (present : (directory.nodeAt (folder.join name)).isSome = true) :
    ∃ after, (move (folder.join name) (folder.join other)).startingAt directory = (.ok (), after) ∧
      ChangesIn location names directory after := by
  obtain ⟨content, file⟩ := exists_file_of_isSome present (room.nodeAt_ne_folder among)
  have located := room.locate_eq_ok among
  have otherLocated := room.locate_eq_ok otherAmong
  have apart : directory.locate (folder.join other) ≠ .ok (location ++ [name]) := by
    rw [otherLocated]
    exact fun same => different
      (List.singleton_inj.1 (List.append_cancel_left (Except.ok.inj same))).symm
  have run := startingAt_move located (nodeAt_of_locate located ▸ file)
    (room.nodeAt_ne_folder otherAmong) apart
  rw [otherLocated] at run
  have named := name_join_of_plainName folder (room.plain name among)
  have otherNamed := name_join_of_plainName folder (room.plain other otherAmong)
  have change := (move_eq_ok (named.symm ▸ room.plain name among)
    (otherNamed.symm ▸ room.plain other otherAmong) (by rwa [named, otherNamed]) file
    (room.nodeAt_ne_folder otherAmong) run).1
  refine ⟨_, run, room.changesIn change ?_⟩
  rintro path (rfl | rfl)
  · exact ⟨name, among, rfl⟩
  · exact ⟨other, otherAmong, rfl⟩

end Aside

end FileAction

end ShaderReduction
