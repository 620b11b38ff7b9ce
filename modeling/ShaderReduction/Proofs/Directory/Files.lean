/-
This file proves what file actions do to single files.

Whatever comes of an action, only files at the paths that it is given change and no folder comes or
goes. What is read is what stands at the path, and after an action that ends well the file at the
path is as it was to be made.
-/

import ShaderReduction.Proofs.Directory.Location
import ShaderReduction.Proofs.Respect

namespace ShaderReduction

namespace FileAction

open ShaderReduction.Action Directory ShaderReduction.Path

variable {directory after : Directory} {path : Path}

@[simp]
theorem startingAt_locate (path : Path) (directory : Directory) :
    (locate path).startingAt directory = (directory.locate path, directory) := rfl

/-! ### Looking -/

theorem reads_locate (path : Path) : Reads (locate path) := fun _ => rfl

theorem reads_find (path : Path) : Reads (find path) := by
  refine respects_get.bind fun directory => ?_
  split
  · exact respects_pure _
  · exact respects_throw _
  · exact respects_pure _

theorem find_eq_ok {node : Option Node}
    (found : (find path).startingAt directory = (.ok node, after)) :
    node = directory.nodeAt path := by
  unfold find at found
  rw [startingAt_bind, startingAt_get] at found
  unfold nodeAt
  cases located : directory.locate path with
  | ok location =>
    simp only [located, startingAt_pure, Prod.mk.injEq, Except.ok.injEq] at found
    exact found.1.symm
  | error fault =>
    cases fault <;> simp_all

theorem startingAt_findAtAll (path : Path) (directory : Directory) :
    (findAtAll path).startingAt directory = (.ok (directory.nodeAt path), directory) := by
  unfold findAtAll nodeAt
  rw [startingAt_bind, startingAt_get]
  dsimp only
  cases directory.locate path <;> rfl

theorem reads_isPresent (path : Path) : Reads (isPresent path) :=
  (reads_find path).bind fun _ => respects_pure _

theorem isPresent_eq_ok {present : Bool}
    (found : (isPresent path).startingAt directory = (.ok present, after)) :
    present = (directory.nodeAt path).isSome := by
  obtain ⟨node, between, looked, rest⟩ := bind_eq_ok_iff.1 found
  rw [← find_eq_ok looked]
  simp only [startingAt_pure, Prod.mk.injEq, Except.ok.injEq] at rest
  exact rest.1.symm

/-- Whether anything stands at a path can be found out unless the path is too long. -/
theorem startingAt_isPresent (short : directory.locate path ≠ .error .nameTooLong) :
    (isPresent path).startingAt directory = (.ok (directory.nodeAt path).isSome, directory) := by
  unfold isPresent find nodeAt
  cases located : directory.locate path with
  | ok location => simp [located]
  | error fault =>
    cases fault <;> simp_all

theorem locate_ne_of_isPresent_eq_ok {present : Bool}
    (found : (isPresent path).startingAt directory = (.ok present, after)) :
    directory.locate path ≠ .error .nameTooLong := by
  intro long
  unfold isPresent find at found
  simp [long] at found

theorem reads_readBytes (path : Path) : Reads (readBytes path) := by
  refine (reads_locate path).bind fun location => respects_get.bind fun directory => ?_
  split
  · exact respects_throw _
  · exact respects_throw _
  · exact respects_pure _

theorem startingAt_readBytes (content : Bytes)
    (file : directory.nodeAt path = some (.file content)) :
    (readBytes path).startingAt directory = (.ok content, directory) := by
  unfold nodeAt at file
  unfold readBytes
  cases located : directory.locate path with
  | error fault =>
    rw [located] at file
    cases file
  | ok location =>
    rw [located] at file
    have node : directory.node? location = some (.file content) := file
    simp [located, node]

/-- What is read is in a file. -/
theorem readBytes_eq_ok {content : Bytes}
    (found : (readBytes path).startingAt directory = (.ok content, after)) :
    ∃ location, directory.locate path = .ok location ∧
      directory.node? location = some (.file content) := by
  obtain ⟨location, between, located, rest⟩ := bind_eq_ok_iff.1 found
  rw [startingAt_locate] at located
  obtain ⟨isLocated, rfl⟩ := Prod.mk.inj located
  refine ⟨location, isLocated, ?_⟩
  obtain ⟨_, _, got, rest⟩ := bind_eq_ok_iff.1 rest
  cases got
  split at rest
  · cases rest
  · cases rest
  · next isFile =>
    cases rest
    exact isFile

/-! ### Writing -/

theorem changesAt_put {location : Location} (located : directory.locate path = .ok location)
    (notFolder : directory.node? location ≠ some .folder) (content : Bytes) :
    ChangesAt (· = path) directory (directory.put location (.file content)) :=
  (changesOnly_put notFolder content).mono fun _ same => ⟨path, rfl, same ▸ located⟩

theorem startingAt_writeBytes (path : Path) (content : Bytes) (directory : Directory) :
    (writeBytes path content).startingAt directory =
      match directory.locate path with
      | .error fault => (.error fault, directory)
      | .ok location =>
        if directory.node? location = some .folder then (.error .isFolder, directory)
        else (.ok (), directory.put location (.file content)) := by
  unfold writeBytes
  rw [startingAt_bind, startingAt_locate]
  cases directory.locate path with
  | error fault => rfl
  | ok location =>
    simp only [startingAt_bind, startingAt_get]
    cases directory.node? location with
    | none => rfl
    | some node => cases node <;> rfl

theorem changesAt_writeBytes (path : Path) (content : Bytes) :
    Respects (ChangesAt (· = path)) (writeBytes path content) := by
  intro directory
  rw [startingAt_writeBytes]
  cases located : directory.locate path with
  | error fault => exact ChangesAt.refl _
  | ok location =>
    dsimp only
    split
    · exact ChangesAt.refl _
    · next notFolder => exact changesAt_put located notFolder content

theorem writeBytes_eq_ok {content : Bytes}
    (written : (writeBytes path content).startingAt directory = (.ok (), after)) :
    after.nodeAt path = some (.file content) := by
  have changes := (changesAt_writeBytes path content).of_eq written
  rw [startingAt_writeBytes] at written
  cases located : directory.locate path with
  | error fault =>
    rw [located] at written
    cases written
  | ok location =>
    rw [located] at written
    rw [nodeAt_of_locate (changes.folders.locate_eq_ok located)]
    dsimp only at written
    split at written
    · cases written
    · next notFolder =>
      cases written
      exact node?_put_self (proper_of_ne_folder notFolder) _ _

theorem changesAt_writeText (path : Path) (text : Text) :
    Respects (ChangesAt (· = path)) (writeText path text) := by
  refine (changesAt_writeBytes path []).bind fun _ => ?_
  cases Utf8.encode? text with
  | none => exact respects_throw _
  | some content => exact changesAt_writeBytes path content

theorem writeText_eq_ok {text : Text}
    (written : (writeText path text).startingAt directory = (.ok (), after)) :
    ∃ content, Utf8.encode? text = some content ∧ after.nodeAt path = some (.file content) := by
  obtain ⟨_, between, emptied, rest⟩ := bind_eq_ok_iff.1 written
  cases encoded : Utf8.encode? text with
  | none =>
    rw [encoded] at rest
    cases rest
  | some content =>
    rw [encoded] at rest
    exact ⟨content, rfl, writeBytes_eq_ok rest⟩

/-! ### Removing -/

theorem startingAt_remove (path : Path) (directory : Directory) :
    (remove path).startingAt directory =
      match directory.locate path with
      | .error fault => (.error fault, directory)
      | .ok location =>
        match directory.node? location with
        | none => (.error .notFound, directory)
        | some .folder => (.error .isFolder, directory)
        | some (.file _) => (.ok (), directory.erase location) := by
  unfold remove
  rw [startingAt_bind, startingAt_locate]
  cases directory.locate path with
  | error fault => rfl
  | ok location =>
    simp only [startingAt_bind, startingAt_get]
    cases directory.node? location with
    | none => rfl
    | some node => cases node <;> rfl

theorem changesAt_remove (path : Path) : Respects (ChangesAt (· = path)) (remove path) := by
  intro directory
  rw [startingAt_remove]
  cases located : directory.locate path with
  | error fault => exact ChangesAt.refl _
  | ok location =>
    dsimp only
    split
    · exact ChangesAt.refl _
    · exact ChangesAt.refl _
    · next content file =>
      exact (changesOnly_erase (ne_folder_of_eq_file file)).mono
        fun _ same => ⟨path, rfl, same ▸ located⟩

theorem remove_eq_ok (removed : (remove path).startingAt directory = (.ok (), after)) :
    after.nodeAt path = none := by
  have changes := (changesAt_remove path).of_eq removed
  rw [startingAt_remove] at removed
  cases located : directory.locate path with
  | error fault =>
    rw [located] at removed
    cases removed
  | ok location =>
    rw [located] at removed
    rw [nodeAt_of_locate (changes.folders.locate_eq_ok located)]
    dsimp only at removed
    split at removed
    · cases removed
    · cases removed
    · next content file =>
      cases removed
      exact node?_erase_self (proper_of_ne_folder (ne_folder_of_eq_file file)) _

theorem changesAt_removeIfPresent (path : Path) :
    Respects (ChangesAt (· = path)) (removeIfPresent path) := by
  refine (reads_isPresent path).respects.bind fun present => ?_
  cases present with
  | false => exact respects_pure _
  | true => exact changesAt_remove path

theorem removeIfPresent_eq_ok
    (removed : (removeIfPresent path).startingAt directory = (.ok (), after)) :
    after.nodeAt path = none := by
  obtain ⟨present, between, looked, rest⟩ := bind_eq_ok_iff.1 removed
  obtain rfl := (reads_isPresent path).of_eq looked
  cases present with
  | true => exact remove_eq_ok rest
  | false =>
    obtain rfl : directory = after := congrArg Prod.snd rest
    refine Option.not_isSome_iff_eq_none.1 ?_
    rw [← isPresent_eq_ok looked]
    exact Bool.false_ne_true

/-! ### Moving -/

section Move

variable {source target : Path} {content : Bytes}

/-- A file is moved to where the path leads, unless a folder is there. -/
theorem startingAt_move {start : Location} (located : directory.locate source = .ok start)
    (file : directory.node? start = some (.file content))
    (free : directory.nodeAt target ≠ some .folder)
    (apart : directory.locate target ≠ .ok start) :
    (move source target).startingAt directory =
      match directory.locate target with
      | .error fault => (.error fault, directory)
      | .ok place => (.ok (), (directory.erase start).put place (.file content)) := by
  have ends : (destination source target).startingAt directory = (.ok target, directory) := by
    unfold destination
    rw [startingAt_bind, startingAt_findAtAll]
    dsimp only
    cases node : directory.nodeAt target with
    | none => rfl
    | some found =>
      cases found with
      | file other => rfl
      | folder => exact absurd node free
  unfold move
  rw [startingAt_bind, ends]
  simp only [startingAt_bind, startingAt_locate, located, startingAt_get, file]
  cases there : directory.locate target with
  | error fault => rfl
  | ok place =>
    have different : ¬start = place := fun same => apart (same ▸ there)
    dsimp only
    rw [moveFile, if_neg different]
    rfl

variable (sourcePlain : PlainName source.name) (targetPlain : PlainName target.name)
  (different : source.name ≠ target.name)
  (file : directory.nodeAt source = some (.file content))
  (free : directory.nodeAt target ≠ some .folder)

include sourcePlain targetPlain different file free

/-- A file that was moved stands at its new path and no more at its old one, and all other files are
as they were. -/
theorem move_eq_ok (moved : (move source target).startingAt directory = (.ok (), after)) :
    ChangesAt (fun path => path = source ∨ path = target) directory after ∧
      after.nodeAt target = some (.file content) ∧ after.nodeAt source = none := by
  obtain ⟨start, located, node⟩ := exists_node_of_nodeAt file
  have apart : ∀ place, directory.locate target = .ok place → place ≠ start := by
    rintro place there rfl
    have last := getLast?_of_locate sourcePlain located
    rw [getLast?_of_locate targetPlain there] at last
    exact different (Option.some.inj last).symm
  rw [startingAt_move located node free fun there => apart start there rfl] at moved
  cases there : directory.locate target with
  | error fault =>
    rw [there] at moved
    cases moved
  | ok place =>
    rw [there] at moved
    cases moved
    have erased := changesOnly_erase (ne_folder_of_eq_file node)
    have notFolder : (directory.erase start).node? place ≠ some .folder := by
      rw [node?_erase_other (apart place there)]
      rwa [nodeAt_of_locate there] at free
    have put := changesOnly_put notFolder content
    have whole : ChangesAt (fun path => path = source ∨ path = target) directory
        ((directory.erase start).put place (.file content)) :=
      (erased.mono fun _ same => ⟨source, .inl rfl, same ▸ located⟩).trans
        (put.mono fun _ same => ⟨target, .inr rfl, same ▸ there⟩)
    refine ⟨whole, ?_, ?_⟩
    · rw [nodeAt_of_locate (whole.folders.locate_eq_ok there)]
      exact node?_put_self (proper_of_ne_folder notFolder) _ _
    · rw [nodeAt_of_locate (whole.folders.locate_eq_ok located),
        node?_put_other (apart place there).symm]
      exact node?_erase_self (proper_of_ne_folder (ne_folder_of_eq_file node)) _

end Move

/-! ### Touching -/

theorem startingAt_touch (path : Path) (directory : Directory) :
    (touch path).startingAt directory =
      match directory.locate path with
      | .error fault => (.error fault, directory)
      | .ok location =>
        match directory.node? location with
        | none => (.ok (), directory.put location (.file []))
        | some _ => (.ok (), directory) := by
  unfold touch
  rw [startingAt_bind, startingAt_locate]
  cases directory.locate path with
  | error fault => rfl
  | ok location =>
    simp only [startingAt_bind, startingAt_get]
    cases directory.node? location <;> rfl

theorem changesAt_touch (path : Path) : Respects (ChangesAt (· = path)) (touch path) := by
  intro directory
  rw [startingAt_touch]
  cases located : directory.locate path with
  | error fault => exact ChangesAt.refl _
  | ok location =>
    dsimp only
    cases node : directory.node? location with
    | some found => exact ChangesAt.refl _
    | none =>
      have notFolder : directory.node? location ≠ some .folder := by
        rw [node]
        exact fun same => by cases same
      exact changesAt_put located notFolder []

/-- Something is there once it was touched. -/
theorem isSome_nodeAt_of_touch {path : Path} {directory after : Directory}
    (touched : (touch path).startingAt directory = (.ok (), after)) :
    (after.nodeAt path).isSome = true := by
  rw [startingAt_touch] at touched
  cases located : directory.locate path with
  | error fault =>
    rw [located] at touched
    cases touched
  | ok location =>
    rw [located] at touched
    dsimp only at touched
    cases node : directory.node? location with
    | some found =>
      rw [node] at touched
      cases touched
      rw [nodeAt_of_locate located, node]
      rfl
    | none =>
      rw [node] at touched
      cases touched
      have notFolder : directory.node? location ≠ some .folder := by
        rw [node]
        exact fun same => by cases same
      have change := changesAt_put located notFolder []
      rw [nodeAt_of_locate (change.folders.locate_eq_ok located),
        node?_put_self (proper_of_ne_folder notFolder)]
      rfl

/-! ### Where files can be made -/

/-- A file can be made at a path: the path leads somewhere, and no folder stands there. -/
def Writable (directory : Directory) (path : Path) : Prop :=
  ∃ location, directory.locate path = .ok location ∧ directory.node? location ≠ some .folder

/-- Files can be made at all of some paths. -/
def AllWritable (paths : Path → Prop) (directory : Directory) : Prop :=
  ∀ path, paths path → Writable directory path

theorem Writable.of_sameFolders (writable : Writable directory path)
    (same : SameFolders directory after) : Writable after path := by
  obtain ⟨location, located, notFolder⟩ := writable
  exact ⟨location, same.locate_eq_ok located,
      fun isFolder => notFolder ((same location).2 isFolder)⟩

section Writable

variable {paths changed : Path → Prop}

theorem AllWritable.of_changesAt (writable : AllWritable paths directory)
    (change : ChangesAt changed directory after) : AllWritable paths after :=
  fun path among => (writable path among).of_sameFolders change.folders

variable (among : paths path)

include among

theorem completes_writeBytes (content : Bytes) :
    Completes (AllWritable paths) (writeBytes path content) := by
  intro directory writable
  obtain ⟨location, located, notFolder⟩ := writable path among
  have written : (writeBytes path content).startingAt directory =
      (.ok (), directory.put location (.file content)) := by
    rw [startingAt_writeBytes, located]
    exact if_neg notFolder
  exact ⟨(), _, written, writable.of_changesAt ((changesAt_writeBytes _ _).of_eq written)⟩

theorem completes_writeText {text : Text} {content : Bytes}
    (encoded : Utf8.encode? text = some content) :
    Completes (AllWritable paths) (writeText path text) := by
  unfold writeText
  rw [encoded]
  exact (completes_writeBytes among []).bind fun _ => completes_writeBytes among content

theorem completes_removeIfPresent : Completes (AllWritable paths) (removeIfPresent path) := by
  intro directory writable
  obtain ⟨location, located, notFolder⟩ := writable path among
  have short : directory.locate path ≠ .error .nameTooLong := fun long => by
    rw [located] at long
    cases long
  have removed : ∃ after, (removeIfPresent path).startingAt directory = (.ok (), after) := by
    unfold removeIfPresent
    rw [startingAt_bind, startingAt_isPresent short, nodeAt_of_locate located]
    dsimp only
    cases node : directory.node? location with
    | none => exact ⟨directory, rfl⟩
    | some found =>
      obtain ⟨content, isFile⟩ := exists_file_of_isSome (node ▸ rfl) notFolder
      rw [Option.isSome_some, if_pos rfl, startingAt_remove, located]
      simp only [isFile]
      exact ⟨_, rfl⟩
  obtain ⟨after, removed⟩ := removed
  exact ⟨(), after, removed, writable.of_changesAt ((changesAt_removeIfPresent _).of_eq removed)⟩

end Writable

end FileAction

end ShaderReduction
