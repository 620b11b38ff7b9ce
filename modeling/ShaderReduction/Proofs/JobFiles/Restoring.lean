/-
This file proves that a job that was read and then written is read again as it was.

What was read has no line ends but line feeds, the shaders stand in the order of their stages, and
the uniforms are an object. If moreover no line holds the beginning of a block of macro definitions
and the document of the uniforms is read as it was written, then the job is read from the files that
it is stored in.

Reading looks at the files of the job only, so it gives the same wherever these are the same.
-/

import ShaderReduction.Proofs.Directory.Likeness
import ShaderReduction.Proofs.FileText
import ShaderReduction.Proofs.JobFiles.Moving
import ShaderReduction.Proofs.Uniforms

namespace ShaderReduction

namespace JobFiles

open ShaderReduction.Action Directory ShaderReduction.Path FileAction

variable {directory after : Directory} {path : Path} {job : Job}

/-! ### How a job is read -/

/-- The license at a path, empty if there is none. -/
def readLicense (path : Path) : FileAction Text := do
  if ← isPresent path then readText path else pure []

theorem reads_readLicense (path : Path) : Reads (readLicense path) := by
  refine (reads_isPresent path).bind fun present => ?_
  split
  · exact reads_readText path
  · exact respects_pure _

/-- The job at a path of which the members of the uniforms are known. -/
def readRest (path : Path) (members : Members) : FileAction Job := do
  let shaders ← readShaders (path.rename path.stem) Stage.all
  if shaders.isEmpty then throw (.noShaderFiles path)
  else
    let license ← readLicense (beside path licenseSuffix)
    let uniforms ← Action.ofExcept (Uniforms.ofDocument (.object members))
    pure ⟨license, uniforms, shaders⟩

theorem read_eq (plain : PlainName path.name) :
    read path = (do
      match ← readDocument path with
      | .object members => readRest path members
      | _ => throw (.uniformsNotObject path)) := by
  refine bind_congr fun document => ?_
  cases document with
  | object members =>
    show (do let base ← Action.ofExcept (base path); _ : FileAction Job) = _
    rw [base_eq_ok plain, ofExcept_ok_bind]
    refine bind_congr fun shaders => ?_
    rw [sibling_eq_ok plain isEnding_licenseSuffix]
    simp only [ofExcept_ok_bind]
    cases shaders with
    | nil => rfl
    | cons shader shaders =>
      show (do let present ← isPresent _; _ : FileAction Job) = _
      rw [readLicense]
      simp only [List.isEmpty_cons, Bool.false_eq_true, if_false, bind_assoc]
      refine bind_congr fun present => ?_
      cases present <;> rfl
  | _ => rfl

/-! ### What is read elsewhere -/

section Agreement

variable {first second : Directory}

theorem agrees_readShaders (plain : PlainName path.name) {stages : List Stage}
    (same : ∀ stage ∈ stages, SameAt (beside path stage.suffix) first second) :
    Agrees first second (readShaders (path.rename path.stem) stages) := by
  induction stages with
  | nil => exact agrees_pure _
  | cons stage stages inductionHypothesis =>
    obtain ⟨here, rest⟩ := List.forall_mem_cons.1 same
    have others := inductionHypothesis rest
    rw [readShaders, sibling_eq_ok plain (isEnding_suffix stage), ofExcept_ok_bind]
    refine (agrees_isPresent here).bind fun present => ?_
    split
    · exact (agrees_readText here).bind fun text => others.bind fun shaders => agrees_pure _
    · exact others

/-- A job of which all files are the same is read the same. -/
theorem agrees_read (plain : PlainName path.name)
    (same : ∀ place ∈ places path, SameAt place first second) :
    Agrees first second (read path) := by
  have license := same _ (beside_mem_places path (show licenseSuffix ∈ suffixes by decide))
  have readsLicense : Agrees first second (readLicense (beside path licenseSuffix)) := by
    refine (agrees_isPresent license).bind fun present => ?_
    split
    · exact agrees_readText license
    · exact agrees_pure _
  rw [read_eq plain]
  refine Agrees.bind ?_ fun document => ?_
  · exact (agrees_readText (same path List.mem_cons_self)).bind fun text => agrees_ofExcept _
  · split
    · refine (agrees_readShaders plain fun stage _ =>
        same _ (beside_mem_places path (suffix_mem_suffixes stage))).bind fun shaders => ?_
      split
      · exact agrees_throw _
      · exact readsLicense.bind fun license => (agrees_ofExcept _).bind fun uniforms =>
          agrees_pure _
    · exact agrees_throw _

end Agreement

/-! ### Jobs that were read -/

/-- A job is as one that was read from files. -/
structure IsRead (job : Job) : Prop where
  license : Text.IsRead job.license
  texts : ∀ shader ∈ job.shaders, Text.IsRead shader.text
  stages : (job.shaders.map Shader.stage).Sublist Stage.all
  nonempty : job.shaders ≠ []
  uniforms : ∃ members, job.uniforms.document = .object members ∧
    Uniforms.ofDocument (.object members) = .ok job.uniforms

theorem exists_file_of_read_eq_ok (found : (read path).startingAt directory = (.ok job, after)) :
    ∃ location content, directory.locate path = .ok location ∧
      directory.node? location = some (.file content) := by
  obtain ⟨_, _, document, -⟩ := bind_eq_ok_iff.1 found
  obtain ⟨_, _, text, -⟩ := bind_eq_ok_iff.1 document
  obtain ⟨content, _, bytes, -⟩ := bind_eq_ok_iff.1 text
  obtain ⟨location, isFile⟩ := readBytes_eq_ok bytes
  exact ⟨location, content, isFile⟩

/-- A job is read the same after changes of other files. -/
theorem startingAt_read_of_changesAt (isJobPath : IsJobPath path) {others : Path → Prop}
    (change : ChangesAt others directory after) (apart : ∀ other, others other → Apart path other)
    (found : (read path).startingAt directory = (.ok job, directory)) :
    (read path).startingAt after = (.ok job, after) := by
  obtain ⟨location, content, located, -⟩ := exists_file_of_read_eq_ok found
  obtain ⟨folder, followed, isFolder, -⟩ := exists_folder_of_locate isJobPath.plain located
  have reaches : Reaches directory path.parent folder := ⟨followed, isFolder⟩
  have same : ∀ place ∈ places path, SameAt place directory after := by
    intro place member
    rw [eq_join_of_mem_places isJobPath.plain member]
    exact change.sameAt reaches (plainName_of_mem_places isJobPath.plain member)
      fun other among => ⟨(apart other among).1, (apart other among).2 place member⟩
  obtain ⟨result, first, second⟩ := agrees_read isJobPath.plain same
  cases first.symm.trans found
  exact second

theorem readText_eq_ok {text : Text}
    (found : (readText path).startingAt directory = (.ok text, after)) : Text.IsRead text := by
  obtain ⟨content, between, -, rest⟩ := bind_eq_ok_iff.1 found
  cases decoded : Utf8.decode? content with
  | none =>
    rw [decoded] at rest
    cases rest
  | some written =>
    rw [decoded] at rest
    cases rest
    exact Text.isRead_normalizeLineEnds (Text.scalar_of_decode? decoded)

theorem readShaders_eq_ok {base : Path} {stages : List Stage} {shaders : List Shader}
    (found : (readShaders base stages).startingAt directory = (.ok shaders, after)) :
    (shaders.map Shader.stage).Sublist stages ∧ ∀ shader ∈ shaders, Text.IsRead shader.text := by
  induction stages generalizing directory shaders with
  | nil =>
    cases found
    exact ⟨List.Sublist.slnil, fun _ member => absurd member List.not_mem_nil⟩
  | cons stage stages inductionHypothesis =>
    obtain ⟨place, _, -, rest⟩ := bind_eq_ok_iff.1 found
    obtain ⟨present, _, -, rest⟩ := bind_eq_ok_iff.1 rest
    split at rest
    · obtain ⟨text, _, textFound, rest⟩ := bind_eq_ok_iff.1 rest
      obtain ⟨others, _, othersFound, rest⟩ := bind_eq_ok_iff.1 rest
      cases rest
      obtain ⟨sublist, areRead⟩ := inductionHypothesis othersFound
      have isRead : Text.IsRead (Definitions.strip text) :=
        (readText_eq_ok textFound).mono (Text.removeFirst_sublist _ _).subset
      exact ⟨sublist.cons_cons stage, List.forall_mem_cons.2 ⟨isRead, areRead⟩⟩
    · obtain ⟨sublist, areRead⟩ := inductionHypothesis rest
      exact ⟨sublist.cons stage, areRead⟩

/-- What a job that is read is made of. -/
theorem read_eq_ok (found : (read path).startingAt directory = (.ok job, after)) :
    ∃ base place members, JobFiles.base path = .ok base ∧
      (readShaders base Stage.all).startingAt directory = (.ok job.shaders, directory) ∧
      job.shaders ≠ [] ∧ sibling base licenseSuffix = .ok place ∧
      (readLicense place).startingAt directory = (.ok job.license, directory) ∧
      Uniforms.ofDocument (.object members) = .ok job.uniforms := by
  obtain ⟨document, first, readsDocument, rest⟩ := bind_eq_ok_iff.1 found
  obtain rfl := ((reads_readText path).bind fun _ => respects_ofExcept _).of_eq readsDocument
  cases document with
  | object members =>
    obtain ⟨base, second, isBase, rest⟩ := bind_eq_ok_iff.1 rest
    obtain ⟨hasBase, rfl⟩ := Prod.mk.inj isBase
    obtain ⟨shaders, third, readsShaders, rest⟩ := bind_eq_ok_iff.1 rest
    obtain rfl := (reads_readShaders _ _).of_eq readsShaders
    split at rest
    · cases rest
    · next nonempty =>
      obtain ⟨place, fourth, isPlace, rest⟩ := bind_eq_ok_iff.1 rest
      obtain ⟨hasPlace, rfl⟩ := Prod.mk.inj isPlace
      obtain ⟨present, fifth, looked, rest⟩ := bind_eq_ok_iff.1 rest
      obtain rfl := (reads_isPresent _).of_eq looked
      have joined : ((if present = true then readText place else pure [] : FileAction Text) >>=
          fun license => Action.ofExcept (Uniforms.ofDocument (.object members)) >>=
            fun uniforms => pure ⟨license, uniforms, shaders⟩).startingAt directory =
              (.ok job, after) := by
        cases present <;> exact rest
      obtain ⟨license, sixth, readsText, rest⟩ := bind_eq_ok_iff.1 joined
      obtain ⟨uniforms, _, isUniforms, answer⟩ := bind_eq_ok_iff.1 rest
      cases answer
      have readsLicense : (readLicense place).startingAt directory = (.ok license, sixth) :=
        bind_eq_ok_iff.2 ⟨present, directory, looked, readsText⟩
      obtain rfl := (reads_readLicense place).of_eq readsLicense
      exact ⟨base, place, members, hasBase, readsShaders,
        List.isEmpty_eq_false_iff.1 (Bool.eq_false_iff.2 nonempty), hasPlace, readsLicense,
        congrArg Prod.fst isUniforms⟩
  | _ => cases rest

theorem isRead_of_read_eq_ok (found : (read path).startingAt directory = (.ok job, after)) :
    IsRead job := by
  obtain ⟨base, place, members, -, shaders, nonempty, -, license, uniforms⟩ := read_eq_ok found
  obtain ⟨sublist, areRead⟩ := readShaders_eq_ok shaders
  refine ⟨?_, areRead, sublist, nonempty, Uniforms.exists_members_of_ofDocument_eq_ok uniforms⟩
  obtain ⟨present, _, -, rest⟩ := bind_eq_ok_iff.1 license
  split at rest
  · exact readText_eq_ok rest
  · rw [← Except.ok.inj (congrArg Prod.fst rest)]
    exact Text.isRead_nil

/-! ### Jobs that are stored -/

/-- A job that is read again, perhaps with other texts, once it is written. -/
structure Storable (job : Job) : Prop where
  license : Text.IsEncodable job.license
  texts : ∀ shader ∈ job.shaders, Text.IsEncodable shader.text
  stages : (job.shaders.map Shader.stage).Sublist Stage.all
  nonempty : job.shaders ≠ []

theorem IsRead.storable (isRead : IsRead job) : Storable job where
  license := isRead.license.isEncodable
  texts := fun shader member => (isRead.texts shader member).isEncodable
  stages := isRead.stages
  nonempty := isRead.nonempty

/-- A shader as it is read of the file that it is stored in. -/
def returned (storage : Storage) (shader : Shader) : Shader :=
  { shader with text := Definitions.strip (storedText storage shader).normalizeLineEnds }

theorem mem_of_mem_storedText {storage : Storage} {shader : Shader} {point : CodePoint}
    (member : point ∈ storedText storage shader) :
    point ∈ shader.text ∨ point ∈ Definitions.block ∨ point = .scalar '\n' := by
  unfold storedText at member
  split at member
  · exact Definitions.mem_of_mem_insert member
  · exact .inl member

theorem isEncodable_storedText (storage : Storage) {shader : Shader}
    (encodable : Text.IsEncodable shader.text) : Text.IsEncodable (storedText storage shader) := by
  rw [Text.isEncodable_iff] at encodable ⊢
  intro point member
  rcases mem_of_mem_storedText member with own | inBlock | rfl
  · exact encodable point own
  · exact (Definitions.isRead_block point inBlock).1
  · exact ⟨_, rfl⟩

theorem return_mem_of_mem_storedText {storage : Storage} {shader : Shader}
    (member : .scalar '\r' ∈ storedText storage shader) : .scalar '\r' ∈ shader.text := by
  rcases mem_of_mem_storedText member with own | inBlock | same
  · exact own
  · exact absurd rfl (Definitions.isRead_block _ inBlock).2
  · exact absurd same (by decide)

/-- A job that is read again as it is once it is written. -/
structure Restorable (job : Job) : Prop extends IsRead job where
  unguarded : ∀ shader ∈ job.shaders, Definitions.Unguarded shader.lines
  document : Document.read (Text.normalizeLineEnds
    (job.uniforms.document.indented ++ [.scalar '\n'])) = .ok job.uniforms.document

/-- Without the block of macro definitions a shader of such a job is read as it is. -/
theorem Restorable.returned_eq {storage : Storage} (plainText : storage.emitDefinitions = false)
    (restorable : Restorable job) {shader : Shader} (member : shader ∈ job.shaders) :
    returned storage shader = shader := by
  unfold returned storedText
  rw [plainText, if_neg (by decide),
    Text.normalizeLineEnds_of_isRead (restorable.texts shader member),
    Definitions.strip_of_unguarded (restorable.unguarded shader member)]

theorem startingAt_readText {text : Text} {content : Bytes}
    (encoded : Utf8.encode? text = some content)
    (file : directory.nodeAt path = some (.file content)) :
    (readText path).startingAt directory = (.ok text.normalizeLineEnds, directory) := by
  unfold readText
  rw [startingAt_bind, startingAt_readBytes content file]
  simp only [Utf8.decode?_encode? encoded, startingAt_pure]

theorem startingAt_readText_of_textFile {text : Text} (encodable : Text.IsEncodable text)
    (file : directory.nodeAt path = textFile text) :
    (readText path).startingAt directory = (.ok text.normalizeLineEnds, directory) := by
  obtain ⟨content, encoded⟩ := encodable
  exact startingAt_readText encoded (file.trans (textFile_eq encoded))

theorem isSome_textFile {text : Text} (encodable : Text.IsEncodable text) :
    (textFile text).isSome = true := by
  obtain ⟨content, encoded⟩ := encodable
  rw [textFile_eq encoded]
  rfl

theorem lastShader_eq_some {stage : Stage} {shaders : List Shader} {shader : Shader}
    (found : lastShader stage shaders = some shader) : shader ∈ shaders ∧ shader.stage = stage := by
  induction shaders with
  | nil => cases found
  | cons first shaders inductionHypothesis =>
    rw [lastShader] at found
    rcases Option.or_eq_some_iff.1 found with later | ⟨-, here⟩
    · obtain ⟨member, same⟩ := inductionHypothesis later
      exact ⟨List.mem_cons_of_mem _ member, same⟩
    · split at here
      · next same =>
        cases here
        exact ⟨List.mem_cons_self, same⟩
      · cases here

theorem lastShader_eq_none {stage : Stage} {shaders : List Shader}
    (absent : stage ∉ shaders.map Shader.stage) : lastShader stage shaders = none := by
  cases found : lastShader stage shaders with
  | none => rfl
  | some shader =>
    obtain ⟨member, same⟩ := lastShader_eq_some found
    exact absurd (List.mem_map.2 ⟨shader, member, same⟩) absent

/-- Shaders in the order of their stages are found one by one under these. -/
theorem filterMap_lastShader {shaders : List Shader} {stages : List Stage} (distinct : stages.Nodup)
    (ordered : (shaders.map Shader.stage).Sublist stages) :
    (stages.filterMap fun stage => lastShader stage shaders) = shaders := by
  induction stages generalizing shaders with
  | nil =>
    rw [List.map_eq_nil_iff.1 (List.sublist_nil.1 ordered)]
    rfl
  | cons stage stages inductionHypothesis =>
    obtain ⟨absent, restDistinct⟩ := List.nodup_cons.1 distinct
    cases shaders with
    | nil => exact List.filterMap_eq_nil_iff.2 fun _ _ => rfl
    | cons shader shaders =>
      by_cases same : shader.stage = stage
      · have rest : (shaders.map Shader.stage).Sublist stages := by
          rw [List.map_cons, same] at ordered
          exact List.cons_sublist_cons.1 ordered
        have later : lastShader stage shaders = none :=
          lastShader_eq_none fun member => absent (rest.mem member)
        have here : lastShader stage (shader :: shaders) = some shader := by
          rw [lastShader, later, Option.none_or, if_pos same]
        simp only [List.filterMap_cons, here]
        refine congrArg _ (Eq.trans (List.filterMap_congr fun other member => ?_)
          (inductionHypothesis restDistinct rest))
        have different : shader.stage ≠ other := fun equal => absent (same ▸ equal ▸ member)
        rw [lastShader, if_neg different, Option.or_none]
      · have rest : ((shader :: shaders).map Shader.stage).Sublist stages := by
          rw [List.map_cons] at ordered
          rcases List.sublist_cons_iff.1 ordered with skipped | ⟨others, head, -⟩
          · exact skipped
          · exact absurd (List.cons.inj head).1 same
        have nothing : lastShader stage (shader :: shaders) = none :=
          lastShader_eq_none fun member => absent (rest.mem member)
        simp only [List.filterMap_cons, nothing]
        exact inductionHypothesis restDistinct rest

section Stored

variable {storage : Storage}

/-- A job is stored at a path, and its files can be looked for. -/
structure StoredAt (directory : Directory) (storage : Storage) (path : Path) (job : Job) :
    Prop where
  view : JobFiles.view path directory = .ok (stored storage job)
  present : (directory.nodeAt path).isSome = true
  short : ∀ place ∈ places path, directory.locate place ≠ .error .nameTooLong

theorem StoredAt.nodes (isStored : StoredAt directory storage path job)
    (isJobPath : IsJobPath path) :
    directory.nodeAt path = textFile (job.uniforms.document.indented ++ [.scalar '\n']) ∧
      directory.nodeAt (beside path licenseSuffix) =
        (if job.license = [] then none else textFile job.license) ∧
      ∀ stage, directory.nodeAt (beside path stage.suffix) =
        storedStage storage job.shaders stage := by
  have view := isStored.view
  rw [view_eq_ok isJobPath] at view
  have nodes := Except.ok.inj view
  simp only [places, suffixes, Stage.all, stored, List.map_cons, List.map_nil,
    List.cons.injEq] at nodes
  obtain ⟨uniforms, license, vertex, fragment, compute, -⟩ := nodes
  refine ⟨uniforms, license, fun stage => ?_⟩
  cases stage
  · exact vertex
  · exact fragment
  · exact compute

variable (isJobPath : IsJobPath path) (isStored : StoredAt directory storage path job)

include isJobPath isStored

theorem startingAt_readShaders
    (encodable : ∀ shader ∈ job.shaders, Text.IsEncodable shader.text) (stages : List Stage) :
    (readShaders (path.rename path.stem) stages).startingAt directory =
      (.ok (stages.filterMap fun stage =>
        (lastShader stage job.shaders).map (returned storage)), directory) := by
  induction stages with
  | nil => rfl
  | cons stage stages inductionHypothesis =>
    have node := (isStored.nodes isJobPath).2.2 stage
    have short := isStored.short _ (beside_mem_places path (suffix_mem_suffixes stage))
    rw [readShaders, sibling_eq_ok isJobPath.plain (isEnding_suffix stage), ofExcept_ok_bind,
      startingAt_bind, startingAt_isPresent short, node, storedStage]
    cases found : lastShader stage job.shaders with
    | none =>
      simp only [List.filterMap_cons, found]
      exact inductionHypothesis
    | some shader =>
      obtain ⟨member, same⟩ := lastShader_eq_some found
      have storedEncodable := isEncodable_storedText storage (encodable shader member)
      rw [storedStage, found, Option.bind_some] at node
      have text := startingAt_readText_of_textFile storedEncodable node
      have isThere := isSome_textFile storedEncodable
      have whole : Shader.mk stage (Definitions.strip (storedText storage shader).normalizeLineEnds)
          = returned storage shader := by
        rw [returned, ← same]
      simp only [List.filterMap_cons, found, Option.bind_some, Option.map_some, isThere, if_true,
        startingAt_bind, text, inductionHypothesis, startingAt_pure, whole]

/-- A stored job is read with the line ends of its texts made line feeds, and without the first
block of macro definitions in each. -/
theorem startingAt_read_of_storable (storable : Storable job) {members : Members}
    {found : Uniforms}
    (document : Document.read (Text.normalizeLineEnds
      (job.uniforms.document.indented ++ [.scalar '\n'])) = .ok (.object members))
    (uniforms : Uniforms.ofDocument (.object members) = .ok found) :
    (read path).startingAt directory =
      (.ok ⟨job.license.normalizeLineEnds, found, job.shaders.map (returned storage)⟩,
        directory) := by
  obtain ⟨uniformsNode, licenseNode, -⟩ := isStored.nodes isJobPath
  have readsDocument : (readDocument path).startingAt directory =
      (.ok (.object members), directory) := by
    have present := isStored.present
    rw [uniformsNode, textFile, Option.isSome_map] at present
    unfold readDocument
    rw [startingAt_bind,
      startingAt_readText_of_textFile (Option.isSome_iff_exists.1 present) uniformsNode]
    exact congrArg (·, directory) document
  have shaders := startingAt_readShaders isJobPath isStored storable.texts Stage.all
  rw [← List.map_filterMap, filterMap_lastShader (by decide) storable.stages] at shaders
  have nonempty : (job.shaders.map (returned storage)).isEmpty = false :=
    List.isEmpty_eq_false_iff.2 fun empty => storable.nonempty (List.map_eq_nil_iff.1 empty)
  have license : (readLicense (beside path licenseSuffix)).startingAt directory =
      (.ok job.license.normalizeLineEnds, directory) := by
    have short := isStored.short _
      (beside_mem_places path (show licenseSuffix ∈ suffixes by decide))
    unfold readLicense
    rw [startingAt_bind, startingAt_isPresent short, licenseNode]
    by_cases empty : job.license = []
    · rw [if_pos empty, empty]
      rfl
    · rw [if_neg empty] at licenseNode ⊢
      simp only [isSome_textFile storable.license, if_true]
      exact startingAt_readText_of_textFile storable.license licenseNode
  rw [read_eq isJobPath.plain, startingAt_bind, readsDocument]
  simp only [readRest, startingAt_bind, shaders, nonempty, Bool.false_eq_true, if_false, license,
    uniforms, startingAt_ofExcept, startingAt_pure]

/-- A job that was read and is stored without the block of macro definitions is read as it is. -/
theorem startingAt_read (plainText : storage.emitDefinitions = false)
    (restorable : Restorable job) :
    (read path).startingAt directory = (.ok job, directory) := by
  obtain ⟨members, isObject, again⟩ := restorable.uniforms
  rw [startingAt_read_of_storable isJobPath isStored restorable.storable
    (isObject ▸ restorable.document) again,
    Text.normalizeLineEnds_of_isRead restorable.license,
    List.map_congr_left fun shader member => restorable.returned_eq plainText member, List.map_id']

end Stored

/-! ### What is read of a stored job -/

section Found

variable {storage : Storage} {found : Job}

theorem locate_ne_of_readShaders_eq_ok (plain : PlainName path.name) {stages : List Stage}
    {shaders : List Shader}
    (read : (readShaders (path.rename path.stem) stages).startingAt directory =
      (.ok shaders, after)) :
    ∀ stage ∈ stages, directory.locate (beside path stage.suffix) ≠ .error .nameTooLong := by
  induction stages generalizing shaders with
  | nil => exact fun _ member => absurd member List.not_mem_nil
  | cons stage stages inductionHypothesis =>
    rw [readShaders, sibling_eq_ok plain (isEnding_suffix stage), ofExcept_ok_bind] at read
    obtain ⟨present, between, looked, rest⟩ := bind_eq_ok_iff.1 read
    obtain rfl := (reads_isPresent _).of_eq looked
    refine List.forall_mem_cons.2 ⟨locate_ne_of_isPresent_eq_ok looked, ?_⟩
    split at rest
    · obtain ⟨text, second, readsText, rest⟩ := bind_eq_ok_iff.1 rest
      obtain rfl := (reads_readText _).of_eq readsText
      obtain ⟨others, third, readsOthers, answer⟩ := bind_eq_ok_iff.1 rest
      cases answer
      exact inductionHypothesis readsOthers
    · exact inductionHypothesis rest

variable (isJobPath : IsJobPath path)
  (isView : view path directory = .ok (stored storage job))
  (isFound : (read path).startingAt directory = (.ok found, after))

include isJobPath isView isFound

/-- Where a job can be read, all its files can be looked for. -/
theorem storedAt_of_read_eq_ok : StoredAt directory storage path job := by
  obtain ⟨location, content, located, isFile⟩ := exists_file_of_read_eq_ok isFound
  obtain ⟨base, license, members, isBase, shaders, -, isLicense, looked, -⟩ := read_eq_ok isFound
  obtain rfl := Except.ok.inj ((base_eq_ok isJobPath.plain).symm.trans isBase)
  obtain rfl :=
    Except.ok.inj ((sibling_eq_ok isJobPath.plain isEnding_licenseSuffix).symm.trans isLicense)
  obtain ⟨present, _, looked, -⟩ := bind_eq_ok_iff.1 looked
  refine ⟨isView, ?_, fun place member => ?_⟩
  · rw [nodeAt_of_locate located, isFile]
    rfl
  · rcases List.mem_cons.1 member with rfl | inBeside
    · rw [located]
      exact fun failed => nomatch failed
    · obtain ⟨ending, isSuffix, rfl⟩ := List.mem_map.1 inBeside
      rcases List.mem_cons.1 isSuffix with rfl | ofStage
      · exact locate_ne_of_isPresent_eq_ok looked
      · obtain ⟨stage, isStage, rfl⟩ := List.mem_map.1 ofStage
        exact locate_ne_of_readShaders_eq_ok isJobPath.plain shaders stage isStage

/-- The shaders of a job that is read are those that are stored, as they are read. -/
theorem shaders_of_read_eq_ok
    (encodable : ∀ shader ∈ job.shaders, Text.IsEncodable shader.text)
    (ordered : (job.shaders.map Shader.stage).Sublist Stage.all) :
    found.shaders = job.shaders.map (returned storage) := by
  have isStored := storedAt_of_read_eq_ok isJobPath isView isFound
  have stored := startingAt_readShaders isJobPath isStored encodable Stage.all
  rw [← List.map_filterMap, filterMap_lastShader (by decide) ordered] at stored
  obtain ⟨base, -, -, isBase, shaders, -⟩ := read_eq_ok isFound
  obtain rfl := Except.ok.inj ((base_eq_ok isJobPath.plain).symm.trans isBase)
  exact Except.ok.inj (congrArg Prod.fst (shaders.symm.trans stored))

end Found

end JobFiles

end ShaderReduction
