/-
This file proves that the fingerprint of a job is taken from the contents of its files alone.

What each file contributes is its suffix and its content, so two jobs whose files are the same have
the same fingerprint, wherever they are stored, if their own files end in the same suffix. They do
so for all steps of a reduction, because the name of a step always leaves something to stand before
its last dot. A job that was just written has a fingerprint: none of its places is a folder, and
none of the paths to them is too long, as each of them was followed to write the job.
-/

import ShaderReduction.Proofs.JobFiles.Moving

namespace ShaderReduction

namespace JobFiles

open ShaderReduction.Action Directory ShaderReduction.Path FileAction

/-! ### What is fed to the digest -/

/-- What a file contributes to a fingerprint. -/
def partOf (suffix : Text) : Option Node → Bytes
  | some (.file content) => (Utf8.encode? suffix).getD [] ++ [0] ++ content ++ [0]
  | _ => []

/-- The bytes from which the fingerprint of a job with some files is taken. -/
def inputOf (nodes : List (Option Node)) : Bytes :=
  (List.zipWith partOf ((".json" : Text) :: suffixes) nodes).flatten

/-- A path whose name is that of the file of a job and has something before its ending. -/
def IsNamed (path : Path) : Prop := ∃ stem : Text, IsStem stem ∧ path.name = Trail.fileName stem

theorem IsNamed.isJobPath {path : Path} (isNamed : IsNamed path) : IsJobPath path := by
  obtain ⟨stem, isStem, named⟩ := isNamed
  exact ⟨stem, isStem.noSlash, named⟩

theorem suffix_beside {path : Path} (isJobPath : IsJobPath path) {ending : Text}
    (member : ending ∈ suffixes) : (beside path ending).suffix = ending := by
  have dotted : ∀ ending ∈ suffixes, ∃ rest : Text, rest ≠ [] ∧ .scalar '.' ∉ rest ∧
      ending = .scalar '.' :: rest := by
    simp only [suffixes, Stage.all, List.map_cons, List.map_nil, List.forall_mem_cons]
    exact ⟨⟨"license", by decide⟩, ⟨"vert", by decide⟩, ⟨"frag", by decide⟩, ⟨"comp", by decide⟩,
      List.forall_mem_nil _⟩
  obtain ⟨rest, nonempty, noDot, rfl⟩ := dotted ending member
  rw [suffix, name_beside, cutName_append (isStem_stem isJobPath.plain).nonempty nonempty noDot]

theorem IsNamed.suffix_eq {path : Path} (isNamed : IsNamed path) :
    path.suffix = (".json" : Text) := by
  obtain ⟨stem, isStem, named⟩ := isNamed
  rw [suffix, named, cutName_fileName, if_neg isStem.nonempty]

theorem map_suffix_places {path : Path} (isNamed : IsNamed path) :
    (places path).map Path.suffix = (".json" : Text) :: suffixes := by
  rw [places, List.map_cons, isNamed.suffix_eq, List.map_map]
  refine congrArg _ ((List.map_congr_left fun ending member => ?_).trans (List.map_id _))
  exact suffix_beside isNamed.isJobPath member

/-! ### Taking a fingerprint -/

section Taking

variable {directory after : Directory} {path : Path}

/-- Files contribute what their suffixes and contents say. -/
theorem startingAt_fingerprintParts {paths : List Path}
    (files : ∀ path ∈ paths, ∃ content, directory.nodeAt path = some (.file content))
    (encoded : ∀ path ∈ paths, (Utf8.encode? path.suffix).isSome) :
    (fingerprintParts paths).startingAt directory =
      (.ok (paths.flatMap fun path => partOf path.suffix (directory.nodeAt path)), directory) := by
  induction paths with
  | nil => rfl
  | cons path paths inductionHypothesis =>
    obtain ⟨⟨content, file⟩, otherFiles⟩ := List.forall_mem_cons.1 files
    obtain ⟨isEncoded, othersEncoded⟩ := List.forall_mem_cons.1 encoded
    obtain ⟨suffix, encoding⟩ := Option.isSome_iff_exists.1 isEncoded
    have rest := inductionHypothesis otherFiles othersEncoded
    unfold fingerprintParts
    rw [encoding]
    simp only [startingAt_bind, startingAt_pure, startingAt_readBytes content file, rest]
    rw [List.flatMap_cons, file, partOf, encoding, Option.getD_some]

/-- Places without folders, to which no path is too long. -/
structure Readable (path : Path) (directory : Directory) : Prop where
  short : ∀ place ∈ places path, directory.locate place ≠ .error .nameTooLong
  noFolder : ∀ place ∈ places path, directory.nodeAt place ≠ some .folder

/-- What is not there contributes nothing. -/
theorem flatMap_partOf_filter (paths : List Path) (directory : Directory) :
    ((paths.filter fun path => (directory.nodeAt path).isSome).flatMap fun path =>
      partOf path.suffix (directory.nodeAt path)) =
      paths.flatMap fun path => partOf path.suffix (directory.nodeAt path) := by
  induction paths with
  | nil => rfl
  | cons path paths inductionHypothesis =>
    rw [List.filter_cons, List.flatMap_cons]
    cases standing : directory.nodeAt path with
    | none => exact inductionHypothesis
    | some node =>
      rw [Option.isSome_some, if_pos rfl, List.flatMap_cons, standing, inductionHypothesis]

theorem inputOf_places (isNamed : IsNamed path) (directory : Directory) :
    inputOf ((places path).map directory.nodeAt) =
      (places path).flatMap fun place => partOf place.suffix (directory.nodeAt place) := by
  rw [inputOf, ← map_suffix_places isNamed, List.zipWith_map, List.zipWith_self, List.flatMap_def]

/-- What is fed to the digest is read off the contents of the files of a job. -/
theorem startingAt_fingerprintInput (isNamed : IsNamed path) (readable : Readable path directory) :
    (fingerprintInput path).startingAt directory =
      (.ok (inputOf ((places path).map directory.nodeAt)), directory) := by
  have isJobPath := isNamed.isJobPath
  have listed : (list path).startingAt directory =
      (.ok ((places path).filter fun place => (directory.nodeAt place).isSome), directory) := by
    rw [list, candidates_eq_ok isJobPath.plain, ofExcept_ok_bind]
    exact startingAt_present readable.short
  have encodable : ∀ place ∈ places path, (Utf8.encode? place.suffix).isSome := by
    have all : ∀ suffix ∈ (".json" : Text) :: suffixes, (Utf8.encode? suffix).isSome := by decide
    exact fun place member => all _ (map_suffix_places isNamed ▸ List.mem_map_of_mem member)
  have files : ∀ place ∈ (places path).filter fun place => (directory.nodeAt place).isSome,
      ∃ content, directory.nodeAt place = some (.file content) := by
    intro place member
    obtain ⟨among, isThere⟩ := List.mem_filter.1 member
    obtain ⟨node, standing⟩ := Option.isSome_iff_exists.1 isThere
    cases node with
    | folder => exact absurd standing (readable.noFolder place among)
    | file content => exact ⟨content, standing⟩
  have parts := startingAt_fingerprintParts files fun place member =>
    encodable place (List.mem_filter.1 member).1
  rw [flatMap_partOf_filter, ← inputOf_places isNamed] at parts
  unfold fingerprintInput
  simp only [startingAt_bind, listed, parts]

/-- The fingerprint of a job is taken from the contents of its files. -/
theorem startingAt_fingerprint (storage : Storage) (isNamed : IsNamed path)
    (readable : Readable path directory) :
    (fingerprint storage path).startingAt directory =
      (.ok (storage.digest (inputOf ((places path).map directory.nodeAt))), directory) := by
  unfold fingerprint
  simp only [startingAt_bind, startingAt_fingerprintInput isNamed readable, startingAt_pure]

end Taking

/-! ### What was just written -/

section Written

variable {directory after : Directory} {path place : Path} {storage : Storage} {job : Job}

/-- A path that was followed is not too long. -/
theorem short_of_writeText {text : Text}
    (written : (writeText path text).startingAt directory = (.ok (), after)) :
    directory.locate path ≠ .error .nameTooLong := by
  intro long
  obtain ⟨_, between, emptied, -⟩ := bind_eq_ok_iff.1 written
  rw [startingAt_writeBytes, long] at emptied
  cases emptied

theorem short_of_removeIfPresent
    (removed : (removeIfPresent path).startingAt directory = (.ok (), after)) :
    directory.locate path ≠ .error .nameTooLong := by
  obtain ⟨present, between, looked, -⟩ := bind_eq_ok_iff.1 removed
  exact locate_ne_of_isPresent_eq_ok looked

theorem short_of_removeShaders {stages : List Stage} (isJobPath : IsJobPath path)
    (removed : (removeShaders (path.rename path.stem) stages).startingAt directory =
      (.ok (), after)) {stage : Stage} (member : stage ∈ stages) :
    directory.locate (beside path stage.suffix) ≠ .error .nameTooLong := by
  induction stages generalizing directory with
  | nil => cases member
  | cons first stages inductionHypothesis =>
    rw [removeShaders, sibling_eq_ok isJobPath.plain (isEnding_suffix first),
      ofExcept_ok_bind] at removed
    obtain ⟨_, between, start, rest⟩ := bind_eq_ok_iff.1 removed
    rcases List.mem_cons.1 member with rfl | later
    · exact short_of_removeIfPresent start
    · have change := (changesAt_removeIfPresent _).of_eq start
      rw [Ne, change.folders.locate_tooLong_iff]
      exact inductionHypothesis rest later

theorem short_of_writeLicense {license : Text}
    (written : (writeLicense license path).startingAt directory = (.ok (), after)) :
    directory.locate path ≠ .error .nameTooLong := by
  unfold writeLicense at written
  split at written
  · exact short_of_removeIfPresent written
  · exact short_of_writeText written

/-- A job that was written can be read file by file. -/
theorem readable_of_write (isJobPath : IsJobPath path)
    (written : (write storage job path).startingAt directory = (.ok (), after)) :
    Readable path after := by
  have view := view_of_write isJobPath written
  obtain ⟨first, second, third, uniformsWritten, stagesRemoved, stagesWritten, licenseWritten⟩ :=
    write_eq_ok isJobPath written
  have licensePlain := plainName_beside isJobPath.plain isEnding_licenseSuffix
  have uniforms := ((changesAt_writeText path _).of_eq uniformsWritten).folders
  have removed := ((changesAt_removeShaders isJobPath Stage.all).of_eq stagesRemoved).folders
  have shaders :=
    ((changesAt_writeShaders isJobPath storage job.shaders).of_eq stagesWritten).folders
  have license := ((changesAt_writeLicense _ _).of_eq licenseWritten).folders
  constructor
  · intro place member
    rcases List.mem_cons.1 member with rfl | inBeside
    · rw [Ne, ← (uniforms.trans (removed.trans (shaders.trans license))).locate_tooLong_iff]
      exact short_of_writeText uniformsWritten
    · obtain ⟨ending, isSuffix, rfl⟩ := List.mem_map.1 inBeside
      rcases List.mem_cons.1 isSuffix with rfl | isStage
      · rw [Ne, ← license.locate_tooLong_iff]
        exact short_of_writeLicense licenseWritten
      · obtain ⟨stage, among, rfl⟩ := List.mem_map.1 isStage
        rw [Ne, ← (removed.trans (shaders.trans license)).locate_tooLong_iff]
        exact short_of_removeShaders isJobPath stagesRemoved among
  · have noFolder : ∀ node ∈ stored storage job, node ≠ some .folder := by
      have text : ∀ text, textFile text ≠ some .folder := by
        intro text same
        rw [textFile, Option.map_eq_some_iff] at same
        obtain ⟨content, -, impossible⟩ := same
        cases impossible
      intro node member
      rcases List.mem_cons.1 member with rfl | rest
      · exact text _
      · rcases List.mem_cons.1 rest with rfl | isStage
        · split
          · rintro ⟨⟩
          · exact text _
        · obtain ⟨stage, -, rfl⟩ := List.mem_map.1 isStage
          intro same
          obtain ⟨shader, -, isText⟩ := Option.bind_eq_some_iff.1 same
          exact text _ isText
    intro place member
    rw [view_eq_ok isJobPath] at view
    exact noFolder _ (Except.ok.inj view ▸ List.mem_map_of_mem member)

end Written

end JobFiles

end ShaderReduction
