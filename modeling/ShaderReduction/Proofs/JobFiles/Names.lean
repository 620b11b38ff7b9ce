/-
This file proves how the files of a job are named.

A session names its jobs by paths whose last step ends in `.json`. From such a path the names of the
license, of the stages and of the result are made by putting other endings after the stem. They are
plain names and differ from each other, so the files of one job never stand in each other's place.
-/

import ShaderReduction.JobFiles
import ShaderReduction.Proofs.Path
import ShaderReduction.Trail

namespace ShaderReduction

namespace JobFiles

open ShaderReduction.Path

/-! ### Paths of jobs -/

/-- A path whose name is that of the file of a job. -/
def IsJobPath (path : Path) : Prop :=
  ∃ lead : Text, .scalar '/' ∉ lead ∧ path.name = Trail.fileName lead

theorem notMem_fileName {lead : Text} (noSlash : .scalar '/' ∉ lead) :
    .scalar '/' ∉ Trail.fileName lead :=
  fun member => (List.mem_append.1 member).elim noSlash (by decide)

theorem plainName_fileName {lead : Text} (noSlash : .scalar '/' ∉ lead) :
    PlainName (Trail.fileName lead) := by
  refine plainName_of_length ?_ (notMem_fileName noSlash)
  have ending : (".json" : Text).length = 5 := rfl
  rw [Trail.fileName, List.length_append, ending]
  omega

theorem IsJobPath.plain {path : Path} (isJobPath : IsJobPath path) : PlainName path.name := by
  obtain ⟨lead, noSlash, named⟩ := isJobPath
  exact named ▸ plainName_fileName noSlash

/-- An ending that makes a plain name out of every stem. -/
structure IsEnding (ending : Text) : Prop where
  long : 2 < ending.length
  noSlash : .scalar '/' ∉ ending

/-- What a name leads through in a folder ends with the ending of the name. -/
theorem exists_name_join_append (folder : Path) (name : Text) {ending : Text}
    (isEnding : IsEnding ending) :
    ∃ lead, .scalar '/' ∉ lead ∧ (folder.join (name ++ ending)).name = lead ++ ending := by
  obtain ⟨pieces, lead, noSlash, cut⟩ := Text.splitAt_append_of_notMem isEnding.noSlash name
  have plain : PlainName (lead ++ ending) := by
    refine plainName_of_length ?_ fun member =>
      (List.mem_append.1 member).elim noSlash isEnding.noSlash
    rw [List.length_append]
    exact Nat.lt_of_lt_of_le isEnding.long (Nat.le_add_left _ _)
  obtain ⟨before, steps⟩ : ∃ before, stepsOf (name ++ ending) = before ++ [lead ++ ending] := by
    refine ⟨pieces.filter fun step => step ≠ [] && step ≠ ("." : Text), ?_⟩
    rw [stepsOf, cut, List.filter_append, List.filter_cons_of_pos, List.filter_nil]
    simp only [plain.nonempty, plain.notHere, ne_eq, not_false_eq_true, decide_true, Bool.and_self]
  refine ⟨lead, noSlash, ?_⟩
  unfold join ofText
  rw [steps]
  dsimp only
  split
  · rw [Path.name, ← List.append_assoc, List.getLast?_concat, Option.getD_some]
  · rw [Path.name, List.getLast?_concat, Option.getD_some]

/-- The path of a job in a folder is the path of a job, whatever its name leads through. -/
theorem isJobPath_join (folder : Path) (name : Text) :
    IsJobPath (folder.join (Trail.fileName name)) :=
  exists_name_join_append folder name ⟨by decide, by decide⟩

/-! ### Stems -/

/-- A name is cut before its last dot. -/
theorem cutName_append {start ending : Text} (nonempty : start ≠ []) (endingNonempty : ending ≠ [])
    (noDot : .scalar '.' ∉ ending) :
    cutName (start ++ .scalar '.' :: ending) = (start, .scalar '.' :: ending) := by
  have last : ((start ++ .scalar '.' :: ending).reverse.takeWhile
      (· ≠ (.scalar '.' : CodePoint))).reverse = ending := by
    have within : ∀ point ∈ ending.reverse, decide (point ≠ .scalar '.') = true :=
      fun point member => decide_eq_true fun same => noDot (same ▸ List.mem_reverse.1 member)
    rw [List.reverse_append, List.reverse_cons, List.append_assoc,
      List.takeWhile_append_of_pos within, List.singleton_append,
      List.takeWhile_cons_of_neg (by decide), List.append_nil, List.reverse_reverse]
  have length : (start ++ .scalar '.' :: ending).length = start.length + (ending.length + 1) :=
    List.length_append
  have front : (start ++ .scalar '.' :: ending).take
      ((start ++ .scalar '.' :: ending).length - ending.length - 1) = start := by
    rw [length, show start.length + (ending.length + 1) - ending.length - 1 = start.length by omega]
    exact List.take_left
  unfold cutName
  rw [last]
  dsimp only
  rw [front, if_pos ⟨endingNonempty, nonempty, by omega⟩]

theorem cutName_fileName (lead : Text) :
    cutName (Trail.fileName lead) =
      if lead = [] then ((".json" : Text), []) else (lead, (".json" : Text)) := by
  by_cases empty : lead = []
  · rw [if_pos empty, empty]
    rfl
  · rw [if_neg empty]
    exact cutName_append empty (by decide) (by decide)

/-- The name of the file of a job is its stem with the usual ending, or that ending alone. -/
theorem IsJobPath.exists_ending {path : Path} (isJobPath : IsJobPath path) :
    ∃ ending ∈ [[], (".json" : Text)], path.name = path.stem ++ ending := by
  obtain ⟨lead, noSlash, named⟩ := isJobPath
  rw [stem, named, cutName_fileName]
  by_cases empty : lead = []
  · rw [if_pos empty, empty]
    exact ⟨[], by decide, rfl⟩
  · rw [if_neg empty]
    exact ⟨(".json" : Text), by decide, rfl⟩

/-- A text from which the names of the files of a job are made. -/
structure IsStem (name : Text) : Prop where
  nonempty : name ≠ []
  noSlash : .scalar '/' ∉ name

theorem isStem_stem {path : Path} (plain : PlainName path.name) : IsStem path.stem := by
  unfold stem cutName
  dsimp only
  split
  · next both => exact ⟨both.2.1, fun member => plain.noSlash (List.mem_of_mem_take member)⟩
  · exact ⟨plain.nonempty, plain.noSlash⟩

/-! ### The files of a job -/

theorem isEnding_of_mem_suffixes {ending : Text} (member : ending ∈ suffixes) :
    IsEnding ending := by
  have all : ∀ suffix ∈ suffixes, 2 < suffix.length ∧ .scalar '/' ∉ suffix := by decide
  exact ⟨(all ending member).1, (all ending member).2⟩

theorem isEnding_suffix (stage : Stage) : IsEnding stage.suffix := by
  cases stage <;> exact ⟨by decide, by decide⟩

theorem isEnding_licenseSuffix : IsEnding licenseSuffix := ⟨by decide, by decide⟩

theorem isEnding_resultEnding : IsEnding resultEnding := ⟨by decide, by decide⟩

theorem mapM_eq_ok {Item Result : Type} {items : List Item} {give : Item → Except Fault Result}
    {change : Item → Result} (gives : ∀ item ∈ items, give item = .ok (change item)) :
    items.mapM give = .ok (items.map change) := by
  induction items with
  | nil => rfl
  | cons item items inductionHypothesis =>
    rw [List.mapM_cons, gives item List.mem_cons_self,
      inductionHypothesis fun other member => gives other (List.mem_cons_of_mem _ member)]
    rfl

/-- The path beside that of a job with another ending. -/
def beside (path : Path) (ending : Text) : Path := path.rename (path.stem ++ ending)

theorem name_beside (path : Path) (ending : Text) :
    (beside path ending).name = path.stem ++ ending := name_rename _ _

theorem name_beside_injective (path : Path) :
    Function.Injective fun ending => (beside path ending).name := by
  intro first second same
  simp only [name_beside] at same
  exact List.append_cancel_left same

theorem IsStem.plainName_append {name ending : Text} (isStem : IsStem name)
    (isEnding : IsEnding ending) : PlainName (name ++ ending) := by
  refine plainName_of_length ?_ ?_
  · rw [List.length_append]
    exact Nat.lt_of_lt_of_le isEnding.long (Nat.le_add_left _ _)
  · exact fun member => (List.mem_append.1 member).elim isStem.noSlash isEnding.noSlash

section PlainPath

variable {path : Path} (plain : PlainName path.name)

include plain

theorem plainName_beside {ending : Text} (isEnding : IsEnding ending) :
    PlainName (beside path ending).name := by
  rw [name_beside]
  exact (isStem_stem plain).plainName_append isEnding

theorem base_eq_ok : base path = .ok (path.rename path.stem) := by
  rw [base, if_neg plain.nonempty]

theorem sibling_eq_ok {ending : Text} (isEnding : IsEnding ending) :
    sibling (path.rename path.stem) ending = .ok (beside path ending) := by
  have isStem := isStem_stem plain
  rw [sibling, name_rename, if_neg isStem.nonempty,
    if_pos (isName_of_plainName (isStem.plainName_append isEnding)), rename_rename]
  rfl

theorem result_eq_ok : result path = .ok (beside path resultEnding) := by
  rw [result, if_neg plain.nonempty]
  rfl

theorem candidates_eq_ok : candidates path = .ok (path :: suffixes.map (beside path)) := by
  have others : suffixes.mapM (sibling (path.rename path.stem)) =
      .ok (suffixes.map (beside path)) :=
    mapM_eq_ok fun ending member => sibling_eq_ok plain (isEnding_of_mem_suffixes member)
  rw [candidates, base_eq_ok plain]
  show (do let others ← suffixes.mapM (sibling (path.rename path.stem)); return path :: others :
    Except Fault (List Path)) = _
  rw [others]
  rfl

end PlainPath

/-- The name of the file of a job is that of no other file of it, nor of its result. -/
theorem name_ne_name_beside {path : Path} (isJobPath : IsJobPath path) {ending : Text}
    (member : ending ∈ resultEnding :: suffixes) : path.name ≠ (beside path ending).name := by
  obtain ⟨own, ownMember, named⟩ := isJobPath.exists_ending
  have all : ∀ own ∈ [[], (".json" : Text)], own ∉ resultEnding :: suffixes := by decide
  rw [named, name_beside]
  exact fun same => all own ownMember (List.append_cancel_left same ▸ member)

/-! ### Jobs in a folder -/

/-- The endings of the names of all files of a job, its result among them. -/
def endings : List Text := (".json" : Text) :: resultEnding :: suffixes

theorem isEnding_of_mem_endings {ending : Text} (member : ending ∈ endings) : IsEnding ending := by
  have all : ∀ ending ∈ endings, 2 < ending.length ∧ .scalar '/' ∉ ending := by decide
  exact ⟨(all ending member).1, (all ending member).2⟩

section InFolder

variable {name ending : Text} (isStem : IsStem name)

include isStem

theorem IsStem.plainName_fileName : PlainName (Trail.fileName name) :=
  isStem.plainName_append ⟨by decide, by decide⟩

theorem beside_join (folder : Path) (isEnding : IsEnding ending) :
    beside (folder.join (Trail.fileName name)) ending = folder.join (name ++ ending) := by
  have named := name_join_of_plainName folder isStem.plainName_fileName
  rw [beside, stem, named, cutName_fileName, if_neg isStem.nonempty]
  exact rename_join folder isStem.plainName_fileName (isStem.plainName_append isEnding)

theorem result_join (folder : Path) :
    result (folder.join (Trail.fileName name)) = .ok (folder.join (name ++ resultEnding)) := by
  rw [result_eq_ok (isJobPath_join folder name).plain,
    beside_join isStem folder isEnding_resultEnding]

/-- The files of a job are moved in pairs with the same endings. -/
theorem moves_join (folder : Path) {other : Text} (otherIsStem : IsStem other) :
    moves (folder.join (Trail.fileName name)) (folder.join (Trail.fileName other)) =
      .ok (endings.map fun ending => (folder.join (name ++ ending), folder.join (other ++ ending)))
      := by
  have source := (isJobPath_join folder name).plain
  have target := (isJobPath_join folder other).plain
  have others : (suffixes.mapM fun suffix => do
      return (← sibling ((folder.join (Trail.fileName name)).rename
          (folder.join (Trail.fileName name)).stem) suffix,
        ← sibling ((folder.join (Trail.fileName other)).rename
          (folder.join (Trail.fileName other)).stem) suffix) : Except Fault (List (Path × Path))) =
      .ok (suffixes.map fun ending =>
        (folder.join (name ++ ending), folder.join (other ++ ending))) := by
    refine mapM_eq_ok fun suffix member => ?_
    have isEnding := isEnding_of_mem_suffixes member
    rw [sibling_eq_ok source isEnding, sibling_eq_ok target isEnding,
      beside_join isStem folder isEnding, beside_join otherIsStem folder isEnding]
    rfl
  rw [moves, base_eq_ok source, base_eq_ok target, result_join isStem folder,
    result_join otherIsStem folder]
  show (do let others ← suffixes.mapM _; return _ : Except Fault (List (Path × Path))) = _
  rw [others]
  rfl

end InFolder

end JobFiles

end ShaderReduction
