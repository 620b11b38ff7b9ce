/-
This file proves what comes into a folder of files that is used again.

The names that tell how reductions went there are those that are read as steps, and those of the two
markers. Files of jobs that are no judged steps tell nothing. Tagging a job brings one name that
does, unless it is there already, touching a marker brings another one, and nothing takes any away.
So what is told in the folder afterwards is what was told there before and what came since, and
whatever becomes of an action, a marker that is there stays. Records found in the folder mix in the
same way, and a mixed trail ends after the greatest number in it.
-/

import ShaderReduction.Proofs.JobFiles.Renaming
import ShaderReduction.Proofs.Trail.Leaving

namespace ShaderReduction

namespace Trail

open Directory ShaderReduction.Path JobFiles ShaderReduction.Action

/-- The names of the markers. -/
def markers : List Text := [notInterestingMarker, incompleteMarker]

theorem plainName_of_mem_markers {marker : Text} (member : marker ∈ markers) :
    PlainName marker := by
  have all : ∀ marker ∈ markers, 2 < marker.length ∧ .scalar '/' ∉ marker := by decide
  exact plainName_of_length (all marker member).1 (all marker member).2

theorem not_ofStep_of_mem_markers (base : Text) {marker : Text} (member : marker ∈ markers) :
    ¬OfStep base marker := by
  have all : ∀ marker ∈ markers, .scalar 'd' ∉ marker := by decide
  exact not_ofStep_of_notMem (all marker member)

theorem readStep?_of_mem_markers (base : Text) {marker : Text} (member : marker ∈ markers) :
    readStep? base marker = none := by
  refine Option.eq_none_iff_forall_ne_some.2 fun step read => ?_
  exact not_ofStep_of_mem_markers base member (tagged_of_readStep? read).ofStep

/-- The names in a folder that tell how reductions of a job went there: those that are read as
steps, and those of the markers. -/
def Telling (base name : Text) : Prop := (readStep? base name).isSome = true ∨ name ∈ markers

/-- A file of a job that is no judged step tells nothing. -/
theorem Untagged.not_telling {base name more : Text} (untagged : Untagged base name)
    (dot : more.head? = some (.scalar '.')) : ¬Telling base (name ++ more) := by
  rintro (isStep | isMarker)
  · obtain ⟨step, read⟩ := Option.isSome_iff_exists.1 isStep
    exact untagged.not_tagged dot (tagged_of_readStep? read)
  · have all : ∀ marker ∈ markers, .scalar '.' ∉ marker := by decide
    exact all _ isMarker (List.mem_append_right _ (List.mem_of_mem_head? (Option.mem_def.2 dot)))

/-- Of the files of a judged step, its uniforms alone tell it. -/
theorem eq_of_telling_judgedName {base : Text} {number : Nat} {outcome : Outcome} {ending : Text}
    (member : ending ∈ endings)
    (telling : Telling base (judgedName base number outcome ++ ending)) :
    ending = (".json" : Text) := by
  rcases telling with isStep | isMarker
  · refine (List.mem_cons.1 member).resolve_right fun others => ?_
    rw [readStep?_judgedName_append others] at isStep
    cases isStep
  · exact absurd (tagged_judgedName base number outcome ending).ofStep
      (not_ofStep_of_mem_markers base isMarker)

theorem not_telling_of_notMem {base name : Text} (absent : .scalar 'd' ∉ name)
    (noMarker : name ∉ markers) : ¬Telling base name := by
  rintro (isStep | isMarker)
  · obtain ⟨step, read⟩ := Option.isSome_iff_exists.1 isStep
    exact not_tagged_of_notMem absent (tagged_of_readStep? read)
  · exact noMarker isMarker

/-! ### Folders of files -/

/-- A folder stands at a location and holds only files. -/
structure FlatAt (folder : Path) (location : Location) (directory : Directory) : Prop where
  located : directory.locate folder = .ok location
  holds : HoldsFiles directory folder location

/-- Looking for records in a folder gives those of the names in it. -/
theorem FlatAt.startingAt_records {folder : Path} {location : Location} {directory : Directory}
    (flat : FlatAt folder location directory) (base : Text) :
    (records folder base).startingAt directory =
      (.ok (recordsOf folder base (directory.namesIn location)), directory) := by
  rw [records, startingAt_bind, FileAction.startingAt_list flat.located flat.holds.isFolder]
  rfl

namespace Site

/-- The folder of a site holds only files. -/
abbrev Flat (site : Site) (directory : Directory) : Prop :=
  FlatAt site.folder site.location directory

variable {site : Site} {before between after directory : Directory}

theorem Flat.of_sameFolders (flat : site.Flat before) (same : SameFolders before after) :
    site.Flat after := ⟨same.locate_eq_ok flat.located, flat.holds.of_sameFolders same⟩

/-- Something stands in the folder under a name. -/
def Has (site : Site) (directory : Directory) (name : Text) : Prop :=
  (directory.node? (site.location ++ [name])).isSome = true

theorem Flat.has_of_nodeAt (flat : site.Flat directory) {name : Text} (plain : PlainName name)
    (present : (directory.nodeAt (site.folder.join name)).isSome = true) :
    site.Has directory name := flat.holds.toReaches.isSome_node? plain present

/-! ### What is told in a folder -/

/-- From one directory to another, the folder stays one of files, and what is told there is what was
told before and more. -/
def Gains (site : Site) (more : Text → Prop) (before after : Directory) : Prop :=
  site.Flat before → site.Flat after ∧ ∀ name, Telling site.base name → PlainName name →
    (site.Has after name ↔ site.Has before name ∨ more name)

/-- Nothing new is told. -/
def Quiet (site : Site) : Directory → Directory → Prop := site.Gains fun _ => False

theorem Gains.trans {first second : Text → Prop} (start : site.Gains first before between)
    (rest : site.Gains second between after) :
    site.Gains (fun name => first name ∨ second name) before after := by
  intro flat
  obtain ⟨flatBetween, told⟩ := start flat
  obtain ⟨flatAfter, toldNext⟩ := rest flatBetween
  refine ⟨flatAfter, fun name telling plain => ?_⟩
  rw [toldNext name telling plain, told name telling plain, or_assoc]

theorem Gains.congr {more other : Text → Prop} (gains : site.Gains more before after)
    (same : ∀ name, more name ↔ other name) : site.Gains other before after := by
  rwa [show other = more from funext fun name => propext (same name).symm]

theorem Quiet.refl (directory : Directory) : site.Quiet directory directory :=
  fun flat => ⟨flat, fun _ _ _ => (or_iff_left not_false).symm⟩

theorem Quiet.gains {more : Text → Prop} (quiet : site.Quiet before between)
    (gains : site.Gains more between after) : site.Gains more before after :=
  (Gains.trans quiet gains).congr fun _ => or_iff_right not_false

theorem Gains.quiet {more : Text → Prop} (gains : site.Gains more before between)
    (quiet : site.Quiet between after) : site.Gains more before after :=
  (Gains.trans gains quiet).congr fun _ => or_iff_left not_false

instance : IsPreorder Directory site.Quiet where
  refl := Quiet.refl
  trans _ _ _ first second := first.gains second

/-- What changes no telling name is quiet. -/
theorem quiet_of_changesAt {paths : Path → Prop} (change : ChangesAt paths before after)
    (within : ∀ path, paths path → ∃ name, ¬Telling site.base name ∧ PlainName name ∧
      path = site.folder.join name) : site.Quiet before after := by
  intro flat
  have inFolder := change.changesIn flat.holds.toReaches within
  refine ⟨flat.of_sameFolders change.folders, fun name telling plain => ?_⟩
  rw [Has, inFolder.node?_eq fun silent => silent telling, or_iff_left not_false]
  exact Iff.rfl

/-- Touching a marker brings that. -/
theorem gains_of_touch {marker : Text} (isMarker : marker ∈ markers)
    (touched : (FileAction.touch (site.folder.join marker)).startingAt before = (.ok (), after)) :
    site.Gains (· = marker) before after := by
  intro flat
  have isPlain := plainName_of_mem_markers isMarker
  have change := (FileAction.changesAt_touch _).of_eq touched
  have inFolder : ChangesIn site.location (· = marker) before after :=
    change.changesIn flat.holds.toReaches fun _ same => ⟨_, rfl, isPlain, same⟩
  have flatAfter := flat.of_sameFolders change.folders
  refine ⟨flatAfter, fun name telling plain => ?_⟩
  by_cases same : name = marker
  · subst same
    exact iff_of_true (flatAfter.has_of_nodeAt isPlain (FileAction.isSome_nodeAt_of_touch touched))
      (.inr rfl)
  · rw [Has, inFolder.node?_eq same, or_iff_left same]
    exact Iff.rfl

/-- The names of the files of an attempt and of its step have nothing in common. -/
theorem apart_stepName (base : Text) (number : Nat) (outcome : Outcome) :
    ∀ first ∈ endings, ∀ second ∈ endings,
      stepName base number ++ first ≠ judgedName base number outcome ++ second :=
  fun _ member second _ same => (Untagged.step number).not_tagged
    (Scene.head?_of_mem_endings member) (same ▸ tagged_judgedName _ _ _ second)

section Tagging

variable (noSlash : .scalar '/' ∉ site.base) (number : Nat) (outcome : Outcome)

include noSlash

/-- What tagging a job changes if it ends well or not. -/
theorem changesIn_of_move (flat : site.Flat before) {result : Except Fault Unit}
    (moved : (JobFiles.move (site.folder.join (fileName (stepName site.base number)))
      (site.folder.join (fileName (judgedName site.base number outcome))) true).startingAt before =
        (result, after)) :
    ChangesIn site.location (OfEither (stepName site.base number)
      (judgedName site.base number outcome) endings) before after := by
  have isStem := Scene.isStem_stepName noSlash number
  have judgedIsStem := Scene.isStem_judgedName noSlash number outcome
  exact changesIn_of_atEither isStem judgedIsStem (List.Subset.refl _)
    (changesAt_move isStem judgedIsStem (apart_stepName site.base number outcome) flat.holds moved)
    flat.holds.toReaches

/-- Tagging the job of an attempt brings the name of its step. -/
theorem gains_of_move
    (moved : (JobFiles.move (site.folder.join (fileName (stepName site.base number)))
      (site.folder.join (fileName (judgedName site.base number outcome))) true).startingAt before =
        (.ok (), after)) :
    site.Gains (· = fileName (judgedName site.base number outcome)) before after := by
  intro flat
  have isStem := Scene.isStem_stepName noSlash number
  have judgedIsStem := Scene.isStem_judgedName noSlash number outcome
  have change := changesIn_of_move noSlash number outcome flat moved
  have renamed := (move_eq_ok isStem judgedIsStem (apart_stepName site.base number outcome)
    flat.holds moved).2.1
  have flatAfter := flat.of_sameFolders change.folders
  refine ⟨flatAfter, fun name telling plain => ?_⟩
  by_cases same : name = fileName (judgedName site.base number outcome)
  · subst same
    exact iff_of_true (flatAfter.has_of_nodeAt plain renamed.present) (.inr rfl)
  · rw [Has, change.node?_eq, or_iff_left same]
    · exact Iff.rfl
    · rintro ⟨ending, member, rfl | rfl⟩
      · exact (Untagged.step number).not_telling (Scene.head?_of_mem_endings member) telling
      · exact same (eq_of_telling_judgedName member telling ▸ rfl)

end Tagging

/-! ### The records that come -/

/-- The records found are those that were found before, and those of the names that came. -/
theorem Gains.mem_recordsOf_iff {more : Text → Prop} (gains : site.Gains more before after)
    (noSlash : .scalar '/' ∉ site.base) (flat : site.Flat before) {found : StepRecord} :
    found ∈ recordsOf site.folder site.base (after.namesIn site.location) ↔
      found ∈ recordsOf site.folder site.base (before.namesIn site.location) ∨
        ∃ name, more name ∧ readStep? site.base name = some (found.attempt, found.outcome) ∧
          found.path = site.folder.join name := by
  have told := (gains flat).2
  have named : ∀ directory name, readStep? site.base name = some (found.attempt, found.outcome) →
      (name ∈ directory.namesIn site.location ↔ site.Has directory name) :=
    fun directory name read =>
    mem_namesIn_iff (Scene.plainName_of_readStep? noSlash read)
  rw [Scene.mem_recordsOf_iff_exists_name noSlash, Scene.mem_recordsOf_iff_exists_name noSlash,
    ← exists_or]
  refine exists_congr fun name => ?_
  rw [← or_and_right]
  refine and_congr_left fun isStep => ?_
  rw [named _ _ isStep.1, named _ _ isStep.1]
  exact told name (.inl (Option.isSome_iff_exists.2 ⟨_, isStep.1⟩))
    (Scene.plainName_of_readStep? noSlash isStep.1)

/-! ### Markers that stay -/

/-- The folder stays one of files, and a marker that is there stays. -/
def Lasts (site : Site) (before after : Directory) : Prop :=
  site.Flat before → site.Flat after ∧ ∀ marker ∈ markers,
    site.Has before marker → site.Has after marker

instance : IsPreorder Directory site.Lasts where
  refl _ flat := ⟨flat, fun _ _ => id⟩
  trans _ _ _ first second flat :=
    let ⟨flatBetween, stays⟩ := first flat
    let ⟨flatAfter, remains⟩ := second flatBetween
    ⟨flatAfter, fun marker member => remains marker member ∘ stays marker member⟩

theorem Gains.lasts {more : Text → Prop} (gains : site.Gains more before after) :
    site.Lasts before after := by
  intro flat
  obtain ⟨flatAfter, told⟩ := gains flat
  exact ⟨flatAfter, fun marker member has =>
    (told marker (.inr member) (plainName_of_mem_markers member)).2 (.inl has)⟩

theorem lasts_touch {marker : Text} (isMarker : marker ∈ markers) :
    Respects site.Lasts (FileAction.touch (site.folder.join marker)) := by
  intro directory flat
  have isPlain := plainName_of_mem_markers isMarker
  have change := FileAction.changesAt_touch (site.folder.join marker) directory
  refine ⟨flat.of_sameFolders change.folders, fun other member has => ?_⟩
  by_cases same : other = marker
  · subst same
    rw [FileAction.startingAt_touch]
    cases located : directory.locate (site.folder.join other) with
    | error fault => exact has
    | ok place =>
      obtain ⟨node, found⟩ := Option.isSome_iff_exists.1 has
      have here := flat.holds.toReaches.eq_of_locate_join isPlain located
      dsimp only
      rw [here, found]
      exact has
  · have inFolder : ChangesIn site.location (· = marker) directory _ :=
      change.changesIn flat.holds.toReaches fun _ same => ⟨_, rfl, isPlain, same⟩
    rw [Has, inFolder.node?_eq same]
    exact has

/-- Tagging a job leaves markers alone, whatever comes of it. -/
theorem lasts_move (noSlash : .scalar '/' ∉ site.base) (number : Nat) (outcome : Outcome) :
    Respects site.Lasts (JobFiles.move (site.folder.join (fileName (stepName site.base number)))
      (site.folder.join (fileName (judgedName site.base number outcome))) true) := by
  intro directory flat
  have change := changesIn_of_move noSlash number outcome flat
    (Prod.eta ((JobFiles.move _ _ true).startingAt directory)).symm
  refine ⟨flat.of_sameFolders change.folders, fun marker member has => ?_⟩
  rw [Has, change.node?_eq]
  · exact has
  · rintro ⟨ending, -, rfl | rfl⟩
    · exact not_ofStep_of_mem_markers site.base member (ofStep_stepName _ _ ending)
    · exact not_ofStep_of_mem_markers site.base member (tagged_judgedName _ _ _ ending).ofStep

end Site

/-! ### The point at which a mixed trail ends -/

section Mixed

variable {earlier made records : List StepRecord}

theorem attempt_le_offset_resumePointOf
    (sorted : records.Pairwise fun left right => left.attempt ≤ right.attempt) {record : StepRecord}
    (member : record ∈ records) : record.attempt ≤ (resumePointOf records).offset := by
  cases isLast : records.getLast? with
  | none =>
    rw [List.getLast?_eq_none_iff.1 isLast] at member
    exact absurd member List.not_mem_nil
  | some last =>
    rw [resumePointOf, isLast]
    exact attempt_le_of_getLast? sorted isLast member

theorem offset_resumePointOf_le {bound : Nat}
    (within : ∀ record ∈ records, record.attempt ≤ bound) :
    (resumePointOf records).offset ≤ bound := by
  cases isLast : records.getLast? with
  | none =>
    rw [resumePointOf, isLast]
    exact Nat.zero_le _
  | some last =>
    rw [resumePointOf, isLast]
    exact within last (List.mem_of_getLast? isLast)

variable (mem : ∀ found, found ∈ records ↔ found ∈ earlier ∨ found ∈ made)
  (sorted : records.Pairwise fun left right => left.attempt ≤ right.attempt)

include mem sorted

/-- A mixed trail ends after the greatest number that is found in either part. -/
theorem offset_resumePointOf_mixed
    (earlierSorted : earlier.Pairwise fun left right => left.attempt ≤ right.attempt)
    (madeSorted : made.Pairwise fun left right => left.attempt ≤ right.attempt) :
    (resumePointOf records).offset =
      max (resumePointOf earlier).offset (resumePointOf made).offset := by
  refine Nat.le_antisymm (offset_resumePointOf_le fun record member => ?_) (Nat.max_le.2 ⟨?_, ?_⟩)
  · rcases (mem record).1 member with old | new
    · exact Nat.le_trans (attempt_le_offset_resumePointOf earlierSorted old) (Nat.le_max_left _ _)
    · exact Nat.le_trans (attempt_le_offset_resumePointOf madeSorted new) (Nat.le_max_right _ _)
  · exact offset_resumePointOf_le fun record old =>
      attempt_le_offset_resumePointOf sorted ((mem record).2 (.inl old))
  · exact offset_resumePointOf_le fun record new =>
      attempt_le_offset_resumePointOf sorted ((mem record).2 (.inr new))

/-- A mixed trail leads to the last accepted step of its second part if no accepted step of the
first is ahead of that. -/
theorem path_resumePointOf_mixed
    (madeSorted : made.Pairwise fun left right => left.attempt < right.attempt)
    (behind : ∀ found ∈ earlier, found.outcome = .accepted → found ∈ made ∨
      ∃ record ∈ made, record.outcome = .accepted ∧ found.attempt < record.attempt) :
    (resumePointOf records).path = (resumePointOf made).path := by
  have accepted : ∀ {records : List StepRecord} {record : StepRecord},
      record ∈ records.filter (fun record => record.outcome = .accepted) ↔
        record ∈ records ∧ record.outcome = .accepted := by
    intro records record
    rw [List.mem_filter, decide_eq_true_iff]
  rw [resumePointOf, resumePointOf]
  refine congrArg (Option.map StepRecord.path) ?_
  cases isLast : (records.filter fun record => record.outcome = .accepted).getLast? with
  | none =>
    refine (List.getLast?_eq_none_iff.2
      (List.eq_nil_iff_forall_not_mem.2 fun record member => ?_)).symm
    obtain ⟨new, isAccepted⟩ := accepted.1 member
    have among := accepted.2 ⟨(mem record).2 (.inr new), isAccepted⟩
    rw [List.getLast?_eq_none_iff.1 isLast] at among
    exact List.not_mem_nil among
  | some last =>
    obtain ⟨isRecord, isAccepted⟩ := accepted.1 (List.mem_of_getLast? isLast)
    have greatest : ∀ record ∈ made, record.outcome = .accepted → record.attempt ≤ last.attempt :=
      fun record new isAccepted => attempt_le_of_getLast? (sorted.filter _) isLast
        (accepted.2 ⟨(mem record).2 (.inr new), isAccepted⟩)
    have isMade : last ∈ made := by
      refine ((mem last).1 isRecord).elim (fun old => ?_) id
      refine (behind last old isAccepted).resolve_right ?_
      rintro ⟨record, new, ahead, less⟩
      exact Nat.lt_irrefl _ (Nat.lt_of_lt_of_le less (greatest record new ahead))
    cases isFinal : (made.filter fun record => record.outcome = .accepted).getLast? with
    | none =>
      have among := accepted.2 ⟨isMade, isAccepted⟩
      rw [List.getLast?_eq_none_iff.1 isFinal] at among
      exact absurd among List.not_mem_nil
    | some final =>
      obtain ⟨isNew, finalAccepted⟩ := accepted.1 (List.mem_of_getLast? isFinal)
      have same : last.attempt = final.attempt := Nat.le_antisymm
        (attempt_le_of_getLast? ((madeSorted.imp Nat.le_of_lt).filter _) isFinal
          (accepted.2 ⟨isMade, isAccepted⟩)) (greatest final isNew finalAccepted)
      have numbers : (made.map StepRecord.attempt).Nodup :=
        List.pairwise_map.2 (madeSorted.imp Nat.ne_of_lt)
      rw [List.inj_on_of_nodup_map numbers isMade isNew same]

end Mixed

end Trail

end ShaderReduction
