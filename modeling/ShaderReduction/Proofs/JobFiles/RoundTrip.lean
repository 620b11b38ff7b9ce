/-
This file proves which jobs are read again as they were written.

Writing and reading are no exact inverses: a shader is written with or without the block of macro
definitions and read without its first occurrence, and reading makes every line end a line feed.
Where files can be made, a job is always written and read again; what is read equals the job exactly
if none of its texts has a carriage return and taking the block out of each stored text gives the
text. Nothing of what was there before is left in the files of the job, and no other file changes.
-/

import ShaderReduction.Proofs.Document
import ShaderReduction.Proofs.JobFiles.Restoring

namespace ShaderReduction

namespace JobFiles

open ShaderReduction.Action Directory ShaderReduction.Path FileAction

variable {directory after : Directory} {path : Path} {job : Job} {storage : Storage}

/-! ### Writing ends well -/

section Writing

variable (isJobPath : IsJobPath path)

include isJobPath

theorem completes_removeShaders (stages : List Stage) :
    Completes (AllWritable (· ∈ places path)) (removeShaders (path.rename path.stem) stages) := by
  refine holds_removeShaders composes_completes (fun stage => ?_) stages
  rw [sibling_eq_ok isJobPath.plain (isEnding_suffix stage), ofExcept_ok_bind]
  exact completes_removeIfPresent (beside_mem_places path (suffix_mem_suffixes stage))

theorem completes_writeShaders {shaders : List Shader}
    (encodable : ∀ shader ∈ shaders, Text.IsEncodable shader.text) :
    Completes (AllWritable (· ∈ places path))
      (writeShaders storage (path.rename path.stem) shaders) := by
  refine holds_writeShaders composes_completes fun shader member => ?_
  obtain ⟨content, encoded⟩ := isEncodable_storedText storage (encodable shader member)
  rw [sibling_eq_ok isJobPath.plain (isEnding_suffix shader.stage), ofExcept_ok_bind]
  exact completes_writeText (beside_mem_places path (suffix_mem_suffixes shader.stage)) encoded

theorem completes_write (storable : Storable job) :
    Completes (AllWritable (· ∈ places path)) (write storage job path) := by
  obtain ⟨content, encoded⟩ := (Document.isRead_indented job.uniforms.document).isEncodable
  have among := beside_mem_places path (show licenseSuffix ∈ suffixes by decide)
  rw [write_eq isJobPath]
  refine (completes_writeText List.mem_cons_self encoded).bind fun _ => ?_
  refine (completes_removeShaders isJobPath Stage.all).bind fun _ => ?_
  refine (completes_writeShaders isJobPath storable.texts).bind fun _ => ?_
  unfold writeLicense
  split
  · exact completes_removeIfPresent among
  · obtain ⟨content, encoded⟩ := storable.license
    exact completes_writeText among encoded

/-- A job that was written where all its files can be is stored there. -/
theorem storedAt_of_write (writable : AllWritable (· ∈ places path) after)
    (written : (write storage job path).startingAt directory = (.ok (), after)) :
    StoredAt after storage path job := by
  have view := view_of_write isJobPath written
  refine ⟨view, ?_, fun place member long => ?_⟩
  · have whole := view
    rw [view_eq_ok isJobPath] at whole
    have node : after.nodeAt path = textFile (job.uniforms.document.indented ++ [.scalar '\n']) :=
      (List.cons.inj (Except.ok.inj whole)).1
    rw [node]
    exact isSome_textFile (Document.isRead_indented job.uniforms.document).isEncodable
  · obtain ⟨location, located, -⟩ := writable place member
    rw [located] at long
    cases long

end Writing

/-! ### What is read equals what was written -/

/-- The document of the uniforms is read as an equal one. -/
def ReadsBack (uniforms : Uniforms) : Prop :=
  ∃ document, Document.read (uniforms.document.indented ++ [.scalar '\n']) = .ok document ∧
    document.equals uniforms.document = true

/-- Uniforms that are made of an object and read back as an equal document are read as equal
uniforms. -/
theorem ReadsBack.exists_uniforms {uniforms : Uniforms} (readsBack : ReadsBack uniforms)
    {original : Members} (isObject : Uniforms.ofDocument (.object original) = .ok uniforms) :
    ∃ members found,
      Document.read (Text.normalizeLineEnds (uniforms.document.indented ++ [.scalar '\n'])) =
        .ok (.object members) ∧
      Uniforms.ofDocument (.object members) = .ok found ∧ found.equals uniforms = true := by
  obtain ⟨document, isRead, same⟩ := readsBack
  obtain ⟨others, whole, again⟩ := Uniforms.exists_members_of_ofDocument_eq_ok isObject
  obtain ⟨members, rfl⟩ := Document.exists_members_of_equals (whole ▸ same)
  have shallow : ¬Uniforms.deepest < Document.depth (.object members) := by
    have notDeeper := Document.depth_le_of_equals same
    have original : ¬Uniforms.deepest < Document.depth (.object others) := by
      intro deep
      rw [Uniforms.ofDocument, if_pos deep] at again
      cases again
    rw [whole] at notDeeper
    omega
  have distinct := (Document.wellFormed_of_read isRead).1
  refine ⟨members, ⟨.object members, distinct⟩, ?_, ?_, same⟩
  · rw [Text.normalizeLineEnds_of_isRead (Document.isRead_indented uniforms.document)]
    exact isRead
  · rw [Uniforms.ofDocument, if_neg shallow]
    split
    · exact congrArg Except.ok (Uniforms.ofMembers_of_nodup distinct)
    · next notGiven =>
      obtain rfl : members = [] := by simpa [Document.isGiven] using notGiven
      rfl

/-- A shader is read as it is exactly if it has no carriage return and its text is what is left of
the stored text. -/
theorem returned_eq_iff {shader : Shader} :
    returned storage shader = shader ↔
      .scalar '\r' ∉ shader.text ∧ Definitions.strip (storedText storage shader) = shader.text := by
  rw [← Definitions.strip_normalizeLineEnds_eq_iff return_mem_of_mem_storedText]
  exact ⟨fun same => congrArg Shader.text same, fun same => by rw [returned, same]⟩

theorem map_returned_eq_iff {shaders : List Shader} :
    shaders.map (returned storage) = shaders ↔ ∀ shader ∈ shaders, .scalar '\r' ∉ shader.text ∧
      Definitions.strip (storedText storage shader) = shader.text := by
  have pointwise : shaders.map (returned storage) = shaders ↔
      ∀ shader ∈ shaders, returned storage shader = shader := by
    constructor
    · exact fun same => List.map_inj_left.1 (same.trans (List.map_id shaders).symm)
    · exact fun each => (List.map_congr_left each).trans (List.map_id shaders)
  rw [pointwise]
  exact forall₂_congr fun shader _ => returned_eq_iff

/-- A job is written wherever its files can be, and read again. The files of the job then are as the
job and the storage say, and no other file changes. What is read equals the job exactly if neither
its license nor a shader has a carriage return and each shader is what is left of its stored text
when the first block of macro definitions is taken out. -/
theorem read_of_write_equals_iff (isJobPath : IsJobPath path) (storable : Storable job)
    {original : Members} (isObject : Uniforms.ofDocument (.object original) = .ok job.uniforms)
    (readsBack : ReadsBack job.uniforms) (writable : AllWritable (· ∈ places path) directory) :
    ∃ after found, (write storage job path).startingAt directory = (.ok (), after) ∧
      view path after = .ok (stored storage job) ∧
      ChangesAt (· ∈ places path) directory after ∧
      (read path).startingAt after = (.ok found, after) ∧
      (found.equals job = true ↔
        .scalar '\r' ∉ job.license ∧
          ∀ shader ∈ job.shaders, .scalar '\r' ∉ shader.text ∧
            Definitions.strip (storedText storage shader) = shader.text) := by
  obtain ⟨⟨⟩, after, written, stillWritable⟩ :=
    completes_write isJobPath storable directory writable
  obtain ⟨members, uniforms, document, isUniforms, same⟩ := readsBack.exists_uniforms isObject
  have isStored := storedAt_of_write isJobPath stillWritable written
  have reads := startingAt_read_of_storable isJobPath isStored storable document isUniforms
  refine ⟨after, _, written, isStored.view, (changesAt_write isJobPath).of_eq written, reads, ?_⟩
  rw [Job.equals, same, Bool.and_true, Bool.and_eq_true_iff, beq_iff_eq, beq_iff_eq,
    Text.normalizeLineEnds_eq_iff, map_returned_eq_iff]

/-! ### A job in the place of another one -/

/-- A job of one stage with a uniform and no license. -/
def versionedJob : Job where
  license := []
  uniforms := ⟨.object [("x", .object [("args", .array [.integer 1])])], by decide⟩
  shaders := [⟨.fragment, "#version 310 es\nvoid main() {}\n"⟩]

/-- A folder with a job that has a license and another stage. -/
def occupied : Directory :=
  ⟨[([("work" : Text)], .folder), (["work", "job.json"], .file [0x7b, 0x7d]),
    (["work", "job.license"], .file [0x0d]), (["work", "job.vert"], .file [0x0a]),
    (["work", "notes"], .file [0x0a])]⟩

theorem storable_versionedJob : Storable versionedJob where
  license := ⟨_, rfl⟩
  texts := by
    intro shader member
    rw [List.mem_singleton.1 member]
    exact (Text.isRead_ofString (by decide)).isEncodable
  stages := by decide
  nonempty := by decide

theorem readsBack_versionedJob : ReadsBack versionedJob.uniforms :=
  ⟨versionedJob.uniforms.document, rfl, by decide +kernel⟩

theorem allWritable_occupied : AllWritable (· ∈ places "work/job.json") occupied := by
  refine List.forall_mem_cons.2 ⟨⟨_, rfl, by decide +kernel⟩, ?_⟩
  refine List.forall_mem_cons.2 ⟨⟨_, rfl, by decide +kernel⟩, ?_⟩
  refine List.forall_mem_cons.2 ⟨⟨_, rfl, by decide +kernel⟩, ?_⟩
  refine List.forall_mem_cons.2 ⟨⟨_, rfl, by decide +kernel⟩, ?_⟩
  exact List.forall_mem_singleton.2 ⟨_, rfl, by decide +kernel⟩

theorem read_of_write_versionedJob :
    IsJobPath "work/job.json" ∧ Storable versionedJob ∧
      Uniforms.ofDocument versionedJob.uniforms.document = .ok versionedJob.uniforms ∧
      ReadsBack versionedJob.uniforms ∧ AllWritable (· ∈ places "work/job.json") occupied ∧
      ∃ after found,
        (write (Storage.usual true) versionedJob "work/job.json").startingAt occupied =
          (.ok (), after) ∧
        view "work/job.json" after = .ok (stored (Storage.usual true) versionedJob) ∧
        ChangesAt (· ∈ places "work/job.json") occupied after ∧
        (read "work/job.json").startingAt after = (.ok found, after) ∧
        found.equals versionedJob = true := by
  have isJobPath : IsJobPath "work/job.json" := ⟨"job", by decide, rfl⟩
  have isObject : Uniforms.ofDocument versionedJob.uniforms.document =
    .ok versionedJob.uniforms := rfl
  obtain ⟨after, found, written, isStored, change, reads, same⟩ :=
    read_of_write_equals_iff isJobPath storable_versionedJob isObject readsBack_versionedJob
      allWritable_occupied
  refine ⟨isJobPath, storable_versionedJob, isObject, readsBack_versionedJob, allWritable_occupied,
    after, found, written, isStored, change, reads, same.2 ⟨by decide, ?_⟩⟩
  decide +kernel

end JobFiles

end ShaderReduction
