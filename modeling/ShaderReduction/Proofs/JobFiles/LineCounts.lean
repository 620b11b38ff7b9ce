/-
This file proves that the files of a job tell how many lines the job has.

Every text that is written has an encoding, and an encoding is read in one way only, so jobs that
are stored alike have the same texts as these are stored. Storing a text may put the block of macro
definitions into it, which adds the same number of lines to every text whose line breaks are line
feeds.
-/

import ShaderReduction.Proofs.JobFiles.Restoring
import ShaderReduction.Proofs.LineFeeds

namespace ShaderReduction

open ShaderReduction.Action

namespace JobFiles

open Text FileAction

variable {storage : Storage} {path : Path} {directory after : Directory} {job first second : Job}

/-! ### Stored texts -/

/-- All texts of a job have an encoding as they are stored. -/
def Encodes (storage : Storage) (job : Job) : Prop :=
  ∀ shader ∈ job.shaders, ∃ content, Utf8.encode? (storedText storage shader) = some content

theorem encodes_of_writeShaders {base : Path} {shaders : List Shader}
    (written : (writeShaders storage base shaders).startingAt directory = (.ok (), after)) :
    ∀ shader ∈ shaders, ∃ content, Utf8.encode? (storedText storage shader) = some content := by
  induction shaders generalizing directory with
  | nil => exact fun _ member => absurd member List.not_mem_nil
  | cons shader shaders inductionHypothesis =>
    obtain ⟨place, _, -, rest⟩ := bind_eq_ok_iff.1 written
    obtain ⟨_, between, start, rest⟩ := bind_eq_ok_iff.1 rest
    obtain ⟨content, encoded, -⟩ := writeText_eq_ok start
    exact List.forall_mem_cons.2 ⟨⟨content, encoded⟩, inductionHypothesis rest⟩

/-- A job that was written has an encoding. -/
theorem encodes_of_write (isJobPath : IsJobPath path)
    (written : (write storage job path).startingAt directory = (.ok (), after)) :
    Encodes storage job := by
  obtain ⟨_, _, _, -, -, shadersWritten, -⟩ := write_eq_ok isJobPath written
  exact encodes_of_writeShaders shadersWritten

/-- A file tells which text with an encoding it holds. -/
theorem textFile_injective {text other : Text} {content : Bytes}
    (encoded : Utf8.encode? text = some content) (same : textFile text = textFile other) :
    text = other := by
  rw [textFile_eq encoded] at same
  obtain ⟨otherContent, otherEncoded, isFile⟩ := Option.map_eq_some_iff.1 same.symm
  obtain rfl := Node.file.inj isFile
  exact Option.some.inj
    ((Utf8.decode?_encode? encoded).symm.trans (Utf8.decode?_encode? otherEncoded))

/-- Jobs that are stored alike have the same texts, as these are stored. -/
theorem map_storedText_eq (firstOrdered : (first.shaders.map Shader.stage).Sublist Stage.all)
    (secondOrdered : (second.shaders.map Shader.stage).Sublist Stage.all)
    (firstEncodes : Encodes storage first) (secondEncodes : Encodes storage second)
    (same : stored storage first = stored storage second) :
    first.shaders.map (storedText storage) = second.shaders.map (storedText storage) := by
  have stages : ∀ stage ∈ Stage.all,
      storedStage storage first.shaders stage = storedStage storage second.shaders stage :=
    List.map_inj_left.1 (List.cons.inj (List.cons.inj same).2).2
  have texts : ∀ stage ∈ Stage.all, (lastShader stage first.shaders).map (storedText storage) =
      (lastShader stage second.shaders).map (storedText storage) := by
    intro stage member
    have files := stages stage member
    unfold storedStage at files
    cases found : lastShader stage first.shaders with
    | none =>
      cases otherFound : lastShader stage second.shaders with
      | none => rfl
      | some other =>
        obtain ⟨content, encoded⟩ := secondEncodes other (lastShader_eq_some otherFound).1
        rw [found, otherFound, Option.bind_some, textFile_eq encoded] at files
        cases files
    | some shader =>
      obtain ⟨content, encoded⟩ := firstEncodes shader (lastShader_eq_some found).1
      cases otherFound : lastShader stage second.shaders with
      | none =>
        rw [found, otherFound, Option.bind_some, textFile_eq encoded] at files
        cases files
      | some other =>
        rw [found, otherFound] at files
        exact congrArg some (textFile_injective encoded files)
  rw [← filterMap_lastShader (by decide) firstOrdered, ← filterMap_lastShader (by decide)
    secondOrdered, List.map_filterMap, List.map_filterMap]
  exact List.filterMap_congr texts

/-! ### Lines of stored texts -/

/-- How many lines are put into each text that is stored. -/
def addedLines (storage : Storage) : Nat :=
  if storage.emitDefinitions then (lines Definitions.block).length else 0

theorem length_lines_storedText {shader : Shader} (feedsOnly : FeedsOnly shader.text) :
    (lines (storedText storage shader)).length = shader.lines.length + addedLines storage := by
  unfold storedText addedLines
  split
  · exact Definitions.length_lines_insert feedsOnly
  · rfl

/-- The line breaks of all texts of a job are line feeds. -/
def FeedsLines (job : Job) : Prop := ∀ shader ∈ job.shaders, FeedsOnly shader.text

end JobFiles

end ShaderReduction
