/-
This file proves how far the fingerprint of a job tells its files apart.

Each file is fed to the digest as its suffix and its content, each closed by a zero byte. No length
is fed, so a content that holds the suffix of a later file between two zero bytes can be read as two
contents, and two jobs with different files then have the same fingerprint. Where no content does,
what is fed has one reading: of two contents that could stand in one place the shorter one would be
followed by the suffix of a later file, which the longer one would have to hold.
-/

import ShaderReduction.Proofs.JobFiles.Fingerprints

namespace ShaderReduction

namespace JobFiles

open ShaderReduction.Action Directory ShaderReduction.Path FileAction

/-! ### Marks -/

/-- The bytes of a suffix. -/
def bytesOf (suffix : Text) : Bytes := (Utf8.encode? suffix).getD []

/-- What closes a content when the file with a suffix comes next. -/
def markOf (suffix : Text) : Bytes := 0 :: (bytesOf suffix ++ [0])

/-- The content of what may be a file. -/
def contentOf : Option Node → Bytes
  | some (.file content) => content
  | _ => []

/-- No content, with the zero byte that closes it, holds the mark of a later file. -/
def Unmarked : List Text → List (Option Node) → Prop
  | _ :: suffixes, node :: nodes =>
    (∀ later ∈ suffixes, ¬ markOf later <:+: contentOf node ++ [0]) ∧ Unmarked suffixes nodes
  | _, _ => True

/-- The suffixes of the files of a job, in order. -/
def allSuffixes : List Text := (".json" : Text) :: suffixes

/-- A job without a mark in the content of any of its files. -/
def IsUnmarked (path : Path) (directory : Directory) : Prop :=
  Unmarked allSuffixes ((places path).map directory.nodeAt)

theorem count_zero_mark (suffix : Text) : 2 ≤ (markOf suffix).count 0 := by
  rw [markOf, List.count_cons_self, List.count_append, List.count_singleton_self]
  omega

/-- Contents without zero bytes hold no marks. -/
theorem unmarked_of_zeroFree (suffixes : List Text) {nodes : List (Option Node)}
    (zeroFree : ∀ node ∈ nodes, 0 ∉ contentOf node) : Unmarked suffixes nodes := by
  induction nodes generalizing suffixes with
  | nil => cases suffixes <;> trivial
  | cons node nodes inductionHypothesis =>
    cases suffixes with
    | nil => trivial
    | cons suffix suffixes =>
      obtain ⟨first, others⟩ := List.forall_mem_cons.1 zeroFree
      refine ⟨fun later _ held => ?_, inductionHypothesis suffixes others⟩
      have zeros := held.sublist.count_le 0
      rw [List.count_append, List.count_eq_zero.2 first, List.count_singleton_self] at zeros
      have marked := count_zero_mark later
      omega

/-! ### One reading -/

/-- Suffixes that can be told apart: none has a zero byte and no two are the same. -/
structure AreDistinct (suffixes : List Text) : Prop where
  zeroFree : ∀ suffix ∈ suffixes, 0 ∉ bytesOf suffix
  distinct : (suffixes.map bytesOf).Nodup

theorem AreDistinct.tail {suffix : Text} {suffixes : List Text}
    (areDistinct : AreDistinct (suffix :: suffixes)) : AreDistinct suffixes :=
  ⟨fun other member => areDistinct.zeroFree other (List.mem_cons_of_mem _ member),
    (List.nodup_cons.1 areDistinct.distinct).2⟩

theorem areDistinct_allSuffixes : AreDistinct allSuffixes := ⟨by decide, by decide⟩

/-- What is fed of some files. -/
def streamOf (suffixes : List Text) (nodes : List (Option Node)) : Bytes :=
  (List.zipWith partOf suffixes nodes).flatten

theorem partOf_file (suffix : Text) (content : Bytes) :
    partOf suffix (some (.file content)) = bytesOf suffix ++ 0 :: (content ++ [0]) := by
  simp [partOf, bytesOf]

theorem streamOf_file (suffix : Text) (suffixes : List Text) (content : Bytes)
    (nodes : List (Option Node)) :
    streamOf (suffix :: suffixes) (some (.file content) :: nodes) =
      bytesOf suffix ++ 0 :: (content ++ 0 :: streamOf suffixes nodes) := by
  rw [streamOf, List.zipWith_cons_cons, List.flatten_cons, partOf_file]
  simp [streamOf]

theorem streamOf_none (suffix : Text) (suffixes : List Text) (nodes : List (Option Node)) :
    streamOf (suffix :: suffixes) (none :: nodes) = streamOf suffixes nodes := rfl

/-- What is fed begins with the suffix of one of the files. -/
theorem streamOf_eq_nil_or (suffixes : List Text) (nodes : List (Option Node)) :
    streamOf suffixes nodes = [] ∨
      ∃ suffix ∈ suffixes, ∃ rest, streamOf suffixes nodes = bytesOf suffix ++ 0 :: rest := by
  induction suffixes generalizing nodes with
  | nil => exact .inl rfl
  | cons suffix suffixes inductionHypothesis =>
    match nodes with
    | [] => exact .inl rfl
    | some (.file content) :: nodes =>
      exact .inr ⟨suffix, List.mem_cons_self, _, streamOf_file suffix suffixes content nodes⟩
    | none :: nodes | some .folder :: nodes =>
      refine (inductionHypothesis nodes).imp id ?_
      rintro ⟨other, member, rest, isStream⟩
      exact ⟨other, List.mem_cons_of_mem _ member, rest, isStream⟩

/-- A word without zero bytes ends at the first of them. -/
theorem eq_of_append_zero {word other rest more : Bytes} (zeroFree : 0 ∉ word)
    (otherZeroFree : 0 ∉ other) (same : word ++ 0 :: rest = other ++ 0 :: more) :
    word = other ∧ rest = more := by
  rcases List.append_eq_append_iff.1 same with ⟨between, rfl, cut⟩ | ⟨between, rfl, cut⟩
  · cases between with
    | nil => exact ⟨(List.append_nil _).symm, List.tail_eq_of_cons_eq cut⟩
    | cons byte between =>
      obtain rfl := List.head_eq_of_cons_eq cut
      exact absurd (List.mem_append_right _ List.mem_cons_self) otherZeroFree
  · cases between with
    | nil => exact ⟨List.append_nil _, (List.tail_eq_of_cons_eq cut).symm⟩
    | cons byte between =>
      obtain rfl := List.head_eq_of_cons_eq cut
      exact absurd (List.mem_append_right _ List.mem_cons_self) zeroFree

/-- Where a content ends at an earlier zero byte than a longer one, the longer one holds the mark of
the file that comes next. -/
theorem mark_of_longer {suffixes : List Text} {nodes : List (Option Node)}
    (zeroFree : ∀ suffix ∈ suffixes, 0 ∉ bytesOf suffix) {content more rest : Bytes}
    (longer : streamOf suffixes nodes = more ++ 0 :: rest) :
    ∃ later ∈ suffixes, markOf later <:+: (content ++ 0 :: more) ++ [0] := by
  rcases streamOf_eq_nil_or suffixes nodes with nothing | ⟨later, member, tail, isStream⟩
  · simp [nothing] at longer
  rw [isStream] at longer
  refine ⟨later, member, ?_⟩
  rcases List.append_eq_append_iff.1 longer with
    ⟨between, rfl, cut⟩ | ⟨between, isSuffix, cut⟩
  · cases between with
    | nil => exact ⟨content, [], by simp [markOf]⟩
    | cons byte between =>
      obtain rfl := List.head_eq_of_cons_eq cut
      exact ⟨content, between ++ [0], by simp [markOf]⟩
  · cases between with
    | nil => exact ⟨content, [], by simp [markOf, isSuffix]⟩
    | cons byte between =>
      obtain rfl := List.head_eq_of_cons_eq cut
      refine absurd ?_ (zeroFree later member)
      exact isSuffix ▸ List.mem_append_right _ List.mem_cons_self

/-- Without marks the contents are told apart, one after the other. -/
theorem content_eq_of_unmarked {suffixes : List Text} {nodes others : List (Option Node)}
    (zeroFree : ∀ suffix ∈ suffixes, 0 ∉ bytesOf suffix) {content other : Bytes}
    (unmarked : ∀ later ∈ suffixes, ¬ markOf later <:+: content ++ [0])
    (otherUnmarked : ∀ later ∈ suffixes, ¬ markOf later <:+: other ++ [0])
    (same : content ++ 0 :: streamOf suffixes nodes = other ++ 0 :: streamOf suffixes others) :
    content = other ∧ streamOf suffixes nodes = streamOf suffixes others := by
  rcases List.append_eq_append_iff.1 same with ⟨between, rfl, cut⟩ | ⟨between, rfl, cut⟩
  · cases between with
    | nil => exact ⟨(List.append_nil _).symm, List.tail_eq_of_cons_eq cut⟩
    | cons byte more =>
      obtain ⟨rfl, longer⟩ := List.cons.inj cut
      obtain ⟨later, member, held⟩ := mark_of_longer zeroFree longer
      exact absurd held (otherUnmarked later member)
  · cases between with
    | nil => exact ⟨List.append_nil _, (List.tail_eq_of_cons_eq cut).symm⟩
    | cons byte more =>
      obtain ⟨rfl, longer⟩ := List.cons.inj cut
      obtain ⟨later, member, held⟩ := mark_of_longer zeroFree longer
      exact absurd held (unmarked later member)

/-- A file that is there is not read as the absence of that file. -/
theorem streamOf_ne_file {suffix : Text} {suffixes : List Text}
    (areDistinct : AreDistinct (suffix :: suffixes)) (nodes : List (Option Node)) (rest : Bytes) :
    streamOf suffixes nodes ≠ bytesOf suffix ++ 0 :: rest := by
  intro same
  rcases streamOf_eq_nil_or suffixes nodes with nothing | ⟨later, member, tail, isStream⟩
  · simp [nothing] at same
  have ends := eq_of_append_zero (areDistinct.tail.zeroFree later member)
    (areDistinct.zeroFree suffix List.mem_cons_self) (isStream ▸ same)
  exact (List.nodup_cons.1 areDistinct.distinct).1 (ends.1 ▸ List.mem_map_of_mem member)

/-- What is fed has one reading without marks. -/
theorem nodes_eq_of_streamOf_eq {suffixes : List Text} (areDistinct : AreDistinct suffixes)
    {nodes others : List (Option Node)} (length : nodes.length = suffixes.length)
    (otherLength : others.length = suffixes.length) (noFolder : some .folder ∉ nodes)
    (otherNoFolder : some .folder ∉ others) (unmarked : Unmarked suffixes nodes)
    (otherUnmarked : Unmarked suffixes others)
    (same : streamOf suffixes nodes = streamOf suffixes others) : nodes = others := by
  induction suffixes generalizing nodes others with
  | nil =>
    rw [List.eq_nil_of_length_eq_zero length, List.eq_nil_of_length_eq_zero otherLength]
  | cons suffix suffixes inductionHypothesis =>
    obtain ⟨node, nodes, rfl⟩ := List.exists_cons_of_length_eq_add_one length
    obtain ⟨other, others, rfl⟩ := List.exists_cons_of_length_eq_add_one otherLength
    have step (rest : streamOf suffixes nodes = streamOf suffixes others) : nodes = others :=
      inductionHypothesis areDistinct.tail (Nat.succ.inj length) (Nat.succ.inj otherLength)
        (fun member => noFolder (List.mem_cons_of_mem _ member))
        (fun member => otherNoFolder (List.mem_cons_of_mem _ member)) unmarked.2 otherUnmarked.2
        rest
    match node, other with
    | some .folder, _ => exact absurd List.mem_cons_self noFolder
    | _, some .folder => exact absurd List.mem_cons_self otherNoFolder
    | none, none => rw [step same]
    | none, some (.file content) =>
      rw [streamOf_none, streamOf_file] at same
      exact absurd same (streamOf_ne_file areDistinct nodes _)
    | some (.file content), none =>
      rw [streamOf_none, streamOf_file] at same
      exact absurd same.symm (streamOf_ne_file areDistinct others _)
    | some (.file content), some (.file otherContent) =>
      rw [streamOf_file, streamOf_file, List.append_cancel_left_eq, List.cons.injEq] at same
      have sameContent : content = otherContent ∧ _ :=
        content_eq_of_unmarked areDistinct.tail.zeroFree unmarked.1 otherUnmarked.1 same.2
      rw [sameContent.1, step sameContent.2]

/-! ### Jobs told apart -/

section Jobs

variable {first second : Directory} {path other : Path}

theorem readable_of_located
    (located : ∀ place ∈ places path, (first.locate place).toBool = true)
    (noFolder : ∀ place ∈ places path, first.nodeAt place ≠ some .folder) :
    Readable path first := by
  refine ⟨fun place member long => ?_, noFolder⟩
  have found := located place member
  rw [long] at found
  cases found

/-- Two jobs without marks, wherever they are and whatever their names, feed the same bytes to the
digest exactly if the same ones of their files exist and have the same contents. -/
theorem fingerprintInput_eq_iff_view_eq (isNamed : IsNamed path) (otherIsNamed : IsNamed other)
    (readable : Readable path first) (otherReadable : Readable other second)
    (unmarked : IsUnmarked path first) (otherUnmarked : IsUnmarked other second) :
    ∃ input otherInput,
      (fingerprintInput path).startingAt first = (.ok input, first) ∧
      (fingerprintInput other).startingAt second = (.ok otherInput, second) ∧
      (input = otherInput ↔ view path first = view other second) := by
  refine ⟨_, _, startingAt_fingerprintInput isNamed readable,
    startingAt_fingerprintInput otherIsNamed otherReadable, ?_⟩
  rw [view_eq_ok isNamed.isJobPath, view_eq_ok otherIsNamed.isJobPath, Except.ok.injEq]
  refine ⟨fun same => ?_, congrArg inputOf⟩
  refine nodes_eq_of_streamOf_eq areDistinct_allSuffixes ?_ ?_ ?_ ?_ unmarked otherUnmarked same
  · simp [places, allSuffixes]
  · simp [places, allSuffixes]
  · rintro member
    obtain ⟨place, among, isFolder⟩ := List.mem_map.1 member
    exact readable.noFolder place among isFolder
  · rintro member
    obtain ⟨place, among, isFolder⟩ := List.mem_map.1 member
    exact otherReadable.noFolder place among isFolder

/-- A job whose license holds the mark of a vertex shader. -/
def markedFiles : Directory :=
  ⟨[(["job.json"], .file (bytesOf "{}")), (["job.frag"], .file (bytesOf "F")),
    (["job.license"], .file (bytesOf "L" ++ markOf ".vert" ++ bytesOf "V"))]⟩

/-- A job with a vertex shader and a result, in a folder. -/
def splitFiles : Directory :=
  ⟨[(["work"], .folder), (["work", "step.json"], .file (bytesOf "{}")),
    (["work", "step.frag"], .file (bytesOf "F")), (["work", "step.vert"], .file (bytesOf "V")),
    (["work", "step.license"], .file (bytesOf "L")),
    (["work", "step.info.json"], .file (bytesOf "{}"))]⟩

theorem readable_splitFiles : Readable "work/step.json" splitFiles :=
  readable_of_located (by decide) (by decide)

theorem fingerprintInput_eq_iff_view_eq_splitFiles :
    ∃ input otherInput,
      (fingerprintInput "work/step.json").startingAt splitFiles = (.ok input, splitFiles) ∧
      (fingerprintInput "job.json").startingAt (markedFiles.erase ["job.license"]) =
        (.ok otherInput, markedFiles.erase ["job.license"]) ∧
      (input = otherInput ↔
        view "work/step.json" splitFiles =
          view "job.json" (markedFiles.erase ["job.license"])) :=
  fingerprintInput_eq_iff_view_eq ⟨"step", ⟨by decide, by decide⟩, rfl⟩
    ⟨"job", ⟨by decide, by decide⟩, rfl⟩ readable_splitFiles
    (readable_of_located (by decide) (by decide)) (unmarked_of_zeroFree _ (by decide))
    (unmarked_of_zeroFree _ (by decide))

/-- With a mark, two jobs with different files feed the same bytes to the digest. -/
theorem exists_fingerprintInput_markedFiles :
    ∃ input,
      (fingerprintInput "job.json").startingAt markedFiles = (.ok input, markedFiles) ∧
      (fingerprintInput "work/step.json").startingAt splitFiles = (.ok input, splitFiles) ∧
      view "job.json" markedFiles ≠ view "work/step.json" splitFiles := by
  have isNamed : IsNamed "job.json" := ⟨"job", ⟨by decide, by decide⟩, rfl⟩
  have otherIsNamed : IsNamed "work/step.json" := ⟨"step", ⟨by decide, by decide⟩, rfl⟩
  have readable : Readable "job.json" markedFiles := readable_of_located (by decide) (by decide)
  have same : inputOf ((places "job.json").map markedFiles.nodeAt) =
      inputOf ((places "work/step.json").map splitFiles.nodeAt) := by decide
  refine ⟨_, startingAt_fingerprintInput isNamed readable, ?_, ?_⟩
  · rw [startingAt_fingerprintInput otherIsNamed readable_splitFiles, same]
  · rw [view_eq_ok isNamed.isJobPath, view_eq_ok otherIsNamed.isJobPath, Ne, Except.ok.injEq]
    decide

end Jobs

end JobFiles

end ShaderReduction
