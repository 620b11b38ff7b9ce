/-
This file proves what is on disk once a job is written.

Writing a job changes the files of that job only. If it ends well, each of these files is as the job
alone says: the uniforms, the license if there is one, and for each stage the last shader of it. A
file that the job does not have is gone, whatever stood there before.
-/

import ShaderReduction.Proofs.Directory.Files
import ShaderReduction.Proofs.JobFiles.Names
import ShaderReduction.Proofs.JobFiles.Parts

namespace ShaderReduction

namespace JobFiles

open ShaderReduction.Action Directory ShaderReduction.Path FileAction

/-! ### What a job is stored as -/

/-- What stands at the places of the files of a job, the result apart, in order. -/
def view (path : Path) (directory : Directory) : Except Fault (List (Option Node)) :=
  (candidates path).map fun paths => paths.map directory.nodeAt

/-- The file that holds a text. -/
def textFile (text : Text) : Option Node := (Utf8.encode? text).map .file

/-- The last shader of a stage. -/
def lastShader (stage : Stage) : List Shader → Option Shader
  | [] => none
  | shader :: shaders =>
    (lastShader stage shaders).or (if shader.stage = stage then some shader else none)

/-- The file of a stage, if there is one. -/
def storedStage (storage : Storage) (shaders : List Shader) (stage : Stage) : Option Node :=
  (lastShader stage shaders).bind fun shader => textFile (storedText storage shader)

/-- The files that a job is stored in, in order. -/
def stored (storage : Storage) (job : Job) : List (Option Node) :=
  textFile (job.uniforms.document.indented ++ [.scalar '\n']) ::
    (if job.license = [] then none else textFile job.license) ::
      Stage.all.map (storedStage storage job.shaders)

theorem textFile_eq {text : Text} {content : Bytes} (encoded : Utf8.encode? text = some content) :
    textFile text = some (.file content) := by
  rw [textFile, encoded, Option.map_some]

theorem nodeAt_of_writeText {path : Path} {text : Text} {directory after : Directory}
    (written : (writeText path text).startingAt directory = (.ok (), after)) :
    after.nodeAt path = textFile text := by
  obtain ⟨content, encoded, file⟩ := writeText_eq_ok written
  rw [file, textFile_eq encoded]

/-! ### Shaders -/

section Shaders

variable {path : Path} {directory after : Directory}

/-- The places of the stages of a job. -/
def IsStagePlace (path place : Path) : Prop := ∃ stage : Stage, place = beside path stage.suffix

theorem suffix_injective : Function.Injective Stage.suffix := by
  intro first second
  cases first <;> cases second <;> decide

theorem name_beside_suffix_ne (path : Path) {first second : Stage} (different : first ≠ second) :
    (beside path first.suffix).name ≠ (beside path second.suffix).name :=
  fun same => different (suffix_injective (name_beside_injective path same))

variable (isJobPath : IsJobPath path)

include isJobPath

theorem plainName_stage (stage : Stage) : PlainName (beside path stage.suffix).name :=
  plainName_beside isJobPath.plain (isEnding_suffix stage)

theorem nodeAt_other_stage {first second : Stage} (different : second ≠ first)
    (change : ChangesAt (· = beside path first.suffix) directory after) :
    after.nodeAt (beside path second.suffix) = directory.nodeAt (beside path second.suffix) := by
  refine change.nodeAt_eq (plainName_stage isJobPath second) ?_
  rintro other rfl
  exact ⟨plainName_stage isJobPath first, name_beside_suffix_ne path (Ne.symm different)⟩

theorem changesAt_removeShaders (stages : List Stage) :
    Respects (ChangesAt (IsStagePlace path)) (removeShaders (path.rename path.stem) stages) := by
  refine holds_removeShaders composes_respects (fun stage => ?_) stages
  rw [sibling_eq_ok isJobPath.plain (isEnding_suffix stage), ofExcept_ok_bind]
  exact (changesAt_removeIfPresent _).mono fun _ _ change =>
    change.mono fun _ same => ⟨stage, same⟩

/-- Removing stages leaves nothing in the place of each of them. -/
theorem removeShaders_eq_ok {stages : List Stage}
    (removed : (removeShaders (path.rename path.stem) stages).startingAt directory =
      (.ok (), after)) {stage : Stage} (member : stage ∈ stages) :
    after.nodeAt (beside path stage.suffix) = none := by
  suffices whole : after.nodeAt (beside path stage.suffix) =
      if stage ∈ stages then none else directory.nodeAt (beside path stage.suffix) by
    rw [whole, if_pos member]
  clear member
  induction stages generalizing directory with
  | nil =>
    obtain rfl : directory = after := congrArg Prod.snd removed
    rfl
  | cons first stages inductionHypothesis =>
    rw [removeShaders, sibling_eq_ok isJobPath.plain (isEnding_suffix first),
      ofExcept_ok_bind] at removed
    obtain ⟨_, between, start, rest⟩ := bind_eq_ok_iff.1 removed
    have plain := plainName_stage isJobPath first
    have changes := (changesAt_removeIfPresent _).of_eq start
    rw [inductionHypothesis rest]
    by_cases same : stage = first
    · rw [same, removeIfPresent_eq_ok start, if_pos List.mem_cons_self, ite_self]
    · rw [nodeAt_other_stage isJobPath same changes]
      simp only [List.mem_cons, same, false_or]

theorem changesAt_writeShaders (storage : Storage) (shaders : List Shader) :
    Respects (ChangesAt (IsStagePlace path))
      (writeShaders storage (path.rename path.stem) shaders) := by
  refine holds_writeShaders composes_respects fun shader _ => ?_
  rw [sibling_eq_ok isJobPath.plain (isEnding_suffix shader.stage), ofExcept_ok_bind]
  exact (changesAt_writeText _ _).mono fun _ _ change =>
    change.mono fun _ same => ⟨shader.stage, same⟩

/-- Writing shaders leaves in the place of each stage the last one of it, or what was there. -/
theorem writeShaders_eq_ok {storage : Storage} {shaders : List Shader}
    (written : (writeShaders storage (path.rename path.stem) shaders).startingAt directory =
      (.ok (), after)) (stage : Stage) :
    after.nodeAt (beside path stage.suffix) =
      if (lastShader stage shaders).isSome then storedStage storage shaders stage
      else directory.nodeAt (beside path stage.suffix) := by
  induction shaders generalizing directory with
  | nil =>
    obtain rfl : directory = after := congrArg Prod.snd written
    rfl
  | cons shader shaders inductionHypothesis =>
    rw [writeShaders, sibling_eq_ok isJobPath.plain (isEnding_suffix shader.stage),
      ofExcept_ok_bind] at written
    obtain ⟨_, between, start, rest⟩ := bind_eq_ok_iff.1 written
    have plain := plainName_stage isJobPath shader.stage
    have changes := (changesAt_writeText _ _).of_eq start
    rw [inductionHypothesis rest]
    unfold storedStage
    rw [lastShader]
    cases later : lastShader stage shaders with
    | some last => rfl
    | none =>
      by_cases same : shader.stage = stage
      · subst same
        rw [nodeAt_of_writeText start, if_pos rfl]
        rfl
      · rw [if_neg same, nodeAt_other_stage isJobPath (Ne.symm same) changes]
        rfl

end Shaders

/-! ### The whole job -/

/-- The places of the files of a job, the result apart, in order. -/
def places (path : Path) : List Path := path :: suffixes.map (beside path)

theorem beside_mem_places (path : Path) {ending : Text} (member : ending ∈ suffixes) :
    beside path ending ∈ places path :=
  List.mem_cons_of_mem _ (List.mem_map_of_mem member)

theorem suffix_mem_suffixes (stage : Stage) : stage.suffix ∈ suffixes := by
  cases stage <;> decide

theorem plainName_of_mem_places {path place : Path} (plain : PlainName path.name)
    (member : place ∈ places path) : PlainName place.name := by
  rcases List.mem_cons.1 member with rfl | inBeside
  · exact plain
  · obtain ⟨ending, isSuffix, rfl⟩ := List.mem_map.1 inBeside
    exact plainName_beside plain (isEnding_of_mem_suffixes isSuffix)

/-- The files of a job stand in one folder. -/
theorem eq_join_of_mem_places {path place : Path} (plain : PlainName path.name)
    (member : place ∈ places path) : place = path.parent.join place.name := by
  rw [join_of_plainName _ (plainName_of_mem_places plain member)]
  rcases List.mem_cons.1 member with rfl | inBeside
  · exact congrArg (Path.mk place.slashes) (steps_eq_of_plainName plain)
  · obtain ⟨ending, -, rfl⟩ := List.mem_map.1 inBeside
    rw [name_beside]
    rfl

section Job

variable {path : Path} {directory after : Directory} {storage : Storage} {job : Job}

/-- The action that leaves the license of a job at a path. -/
def writeLicense (license : Text) (path : Path) : FileAction Unit :=
  if license = [] then removeIfPresent path else writeText path license

theorem changesAt_writeLicense (license : Text) (path : Path) :
    Respects (ChangesAt (· = path)) (writeLicense license path) := by
  unfold writeLicense
  split
  · exact changesAt_removeIfPresent path
  · exact changesAt_writeText path license

theorem writeLicense_eq_ok {license : Text}
    (written : (writeLicense license path).startingAt directory = (.ok (), after)) :
    after.nodeAt path = if license = [] then none else textFile license := by
  unfold writeLicense at written
  split at written
  · next empty => rw [if_pos empty, removeIfPresent_eq_ok written]
  · next nonempty => rw [if_neg nonempty, nodeAt_of_writeText written]

variable (isJobPath : IsJobPath path)

include isJobPath

theorem view_eq_ok : view path directory = .ok ((places path).map directory.nodeAt) := by
  rw [view, candidates_eq_ok isJobPath.plain]
  rfl

theorem write_eq :
    write storage job path = (do
      writeDocument path job.uniforms.document
      removeShaders (path.rename path.stem) Stage.all
      writeShaders storage (path.rename path.stem) job.shaders
      writeLicense job.license (beside path licenseSuffix)) := by
  rw [write, base_eq_ok isJobPath.plain, ofExcept_ok_bind]
  simp only [sibling_eq_ok isJobPath.plain isEnding_licenseSuffix, ofExcept_ok_bind]
  rfl

/-- A job that was written had its uniforms written first, then the files of all stages removed, its
shaders written, and its license written or removed. -/
theorem write_eq_ok (written : (write storage job path).startingAt directory = (.ok (), after)) :
    ∃ first second third,
      (writeDocument path job.uniforms.document).startingAt directory = (.ok (), first) ∧
      (removeShaders (path.rename path.stem) Stage.all).startingAt first = (.ok (), second) ∧
      (writeShaders storage (path.rename path.stem) job.shaders).startingAt second =
        (.ok (), third) ∧
      (writeLicense job.license (beside path licenseSuffix)).startingAt third =
        (.ok (), after) := by
  rw [write_eq isJobPath] at written
  obtain ⟨_, first, uniformsWritten, rest⟩ := bind_eq_ok_iff.1 written
  obtain ⟨_, second, stagesRemoved, rest⟩ := bind_eq_ok_iff.1 rest
  obtain ⟨_, third, stagesWritten, licenseWritten⟩ := bind_eq_ok_iff.1 rest
  exact ⟨first, second, third, uniformsWritten, stagesRemoved, stagesWritten, licenseWritten⟩

/-- Writing a job changes files of the job only. -/
theorem changesAt_write : Respects (ChangesAt (· ∈ places path)) (write storage job path) := by
  have single : ∀ {action : FileAction Unit} {place : Path}, place ∈ places path →
      Respects (ChangesAt (· = place)) action → Respects (ChangesAt (· ∈ places path)) action :=
    fun member respects => respects.mono fun _ _ change => change.mono fun _ same => same ▸ member
  have stages : ∀ {action : FileAction Unit}, Respects (ChangesAt (IsStagePlace path)) action →
      Respects (ChangesAt (· ∈ places path)) action := by
    refine fun respects => respects.mono fun _ _ change => change.mono ?_
    rintro place ⟨stage, rfl⟩
    exact beside_mem_places path (suffix_mem_suffixes stage)
  have licensePlain := plainName_beside isJobPath.plain isEnding_licenseSuffix
  rw [write_eq isJobPath]
  refine (single List.mem_cons_self (changesAt_writeText path _)).bind fun _ => ?_
  refine (stages (changesAt_removeShaders isJobPath _)).bind fun _ => ?_
  refine (stages (changesAt_writeShaders isJobPath _ _)).bind fun _ => ?_
  exact single (beside_mem_places path (by decide)) (changesAt_writeLicense _ _)

/-- A job that is written is stored as it is, whatever was there. -/
theorem view_of_write (written : (write storage job path).startingAt directory = (.ok (), after)) :
    view path after = .ok (stored storage job) := by
  obtain ⟨first, second, third, uniformsWritten, stagesRemoved, stagesWritten, licenseWritten⟩ :=
    write_eq_ok isJobPath written
  have licensePlain := plainName_beside isJobPath.plain isEnding_licenseSuffix
  have license := writeLicense_eq_ok licenseWritten
  have licenseChanges := (changesAt_writeLicense _ _).of_eq licenseWritten
  have stage : ∀ stage, after.nodeAt (beside path stage.suffix) =
      storedStage storage job.shaders stage := by
    intro stage
    have other : (beside path licenseSuffix).name ≠ (beside path stage.suffix).name := by
      intro equal
      have same := name_beside_injective path equal
      cases stage <;> exact absurd same (by decide)
    have kept := licenseChanges.nodeAt_eq (plainName_stage isJobPath stage)
      fun place same => same ▸ ⟨licensePlain, other⟩
    rw [kept, writeShaders_eq_ok isJobPath stagesWritten stage,
      removeShaders_eq_ok isJobPath stagesRemoved (by cases stage <;> decide)]
    unfold storedStage
    cases lastShader stage job.shaders <;> rfl
  have uniforms : after.nodeAt path =
      textFile (job.uniforms.document.indented ++ [.scalar '\n']) := by
    have apartStage : ∀ place, IsStagePlace path place →
        PlainName place.name ∧ place.name ≠ path.name := by
      rintro place ⟨stage, rfl⟩
      exact ⟨plainName_stage isJobPath stage, (name_ne_name_beside isJobPath
        (List.mem_cons_of_mem _ (suffix_mem_suffixes stage))).symm⟩
    have apartLicense : ∀ place, place = beside path licenseSuffix →
        PlainName place.name ∧ place.name ≠ path.name := by
      rintro place rfl
      exact ⟨licensePlain, (name_ne_name_beside isJobPath (by decide)).symm⟩
    have removal := (changesAt_removeShaders isJobPath Stage.all).of_eq stagesRemoved
    have writing := (changesAt_writeShaders isJobPath storage job.shaders).of_eq stagesWritten
    rw [licenseChanges.nodeAt_eq isJobPath.plain apartLicense,
      writing.nodeAt_eq isJobPath.plain apartStage, removal.nodeAt_eq isJobPath.plain apartStage,
      nodeAt_of_writeText uniformsWritten]
  rw [view_eq_ok isJobPath]
  show Except.ok (after.nodeAt path :: after.nodeAt (beside path licenseSuffix) ::
    Stage.all.map fun stage => after.nodeAt (beside path stage.suffix)) = _
  simp only [uniforms, license, stage]
  rfl

end Job

/-! ### Changes of other files -/

/-- Paths that lead to no file of a job, because of their names. -/
def Apart (path other : Path) : Prop :=
  PlainName other.name ∧ ∀ place ∈ places path, other.name ≠ place.name

/-- Changes of other files leave the files of a job alone. -/
theorem view_of_changesAt {path : Path} (isJobPath : IsJobPath path) {others : Path → Prop}
    {before after : Directory} (change : ChangesAt others before after)
    (apart : ∀ other, others other → Apart path other) : view path after = view path before := by
  rw [view_eq_ok isJobPath, view_eq_ok isJobPath]
  refine congrArg Except.ok (List.map_congr_left fun place member => ?_)
  exact change.nodeAt_eq (plainName_of_mem_places isJobPath.plain member) fun other among =>
    ⟨(apart other among).1, (apart other among).2 place member⟩

/-- The result of a job is none of its files. -/
theorem apart_result {path : Path} (isJobPath : IsJobPath path) :
    Apart path (beside path resultEnding) := by
  refine ⟨plainName_beside isJobPath.plain isEnding_resultEnding, fun place member same => ?_⟩
  rcases List.mem_cons.1 member with rfl | inBeside
  · exact name_ne_name_beside isJobPath List.mem_cons_self same.symm
  · obtain ⟨ending, isSuffix, rfl⟩ := List.mem_map.1 inBeside
    rw [← name_beside_injective path same] at isSuffix
    exact absurd isSuffix (by decide)

/-- The files of a job are told from others by how their names end. -/
theorem exists_ending_of_mem_places {path place : Path} (isJobPath : IsJobPath path)
    (member : place ∈ places path) :
    ∃ ending ∈ (".json" : Text) :: suffixes, ending <:+ place.name := by
  rcases List.mem_cons.1 member with rfl | inBeside
  · obtain ⟨lead, -, named⟩ := isJobPath
    exact ⟨_, List.mem_cons_self, lead, named.symm⟩
  · obtain ⟨ending, isSuffix, rfl⟩ := List.mem_map.1 inBeside
    exact ⟨ending, List.mem_cons_of_mem _ isSuffix, path.stem, (name_beside path ending).symm⟩

/-- What stands in a folder under a name that ends otherwise is no file of a job. -/
theorem apart_join {path : Path} (isJobPath : IsJobPath path) (folder : Path) {name : Text}
    (plain : PlainName name)
    (other : ∀ ending ∈ (".json" : Text) :: suffixes, ¬ending <:+ name) :
    Apart path (folder.join name) := by
  have named := name_join_of_plainName folder plain
  refine ⟨named.symm ▸ plain, fun place member same => ?_⟩
  obtain ⟨ending, isEnding, suffix⟩ := exists_ending_of_mem_places isJobPath member
  rw [← same, named] at suffix
  exact other ending isEnding suffix

theorem plainName_marker {marker : Text}
    (isMarker : marker ∈ [Trail.notInterestingMarker, Trail.incompleteMarker]) :
    PlainName marker := by
  have all : ∀ marker ∈ [Trail.notInterestingMarker, Trail.incompleteMarker],
      2 < marker.length ∧ .scalar '/' ∉ marker := by decide
  exact plainName_of_length (all marker isMarker).1 (all marker isMarker).2

theorem apart_marker {path : Path} (isJobPath : IsJobPath path) (folder : Path) {marker : Text}
    (isMarker : marker ∈ [Trail.notInterestingMarker, Trail.incompleteMarker]) :
    Apart path (folder.join marker) := by
  have all : ∀ marker ∈ [Trail.notInterestingMarker, Trail.incompleteMarker],
      ∀ ending ∈ (".json" : Text) :: suffixes, ¬ending <:+ marker := by decide
  exact apart_join isJobPath folder (plainName_marker isMarker) (all marker isMarker)

end JobFiles

end ShaderReduction
