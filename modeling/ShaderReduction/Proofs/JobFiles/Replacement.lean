/-
This file proves when a job in a folder of files is renamed and what is under its new name then.

Where all files of two jobs can be, renaming one to the other is refused for two reasons: the job is
not there, or another one is in the place and must stay. Then nothing has changed. Otherwise it ends
well. The files at the new name are removed if they are there and nothing keeps one of them, and
each file that is there is moved to a place where no folder is, so no step can fail. Every file of
the job but the result is then as it was under the old name, and missing if it was missing there.

The result is an exception. It is moved with the job and is not among the files that are removed, so
that of a job in the place stays when the renamed job has none.
-/

import ShaderReduction.Proofs.Document
import ShaderReduction.Proofs.JobFiles.Moving

namespace ShaderReduction

open ShaderReduction.Action Directory ShaderReduction.Path

namespace FileAction

variable {directory : Directory} {source target path : Path} {content : Bytes}

/-! ### Where files can be made -/

theorem Writable.locate_ne (writable : Writable directory path) :
    directory.locate path ≠ .error .nameTooLong := by
  obtain ⟨location, located, -⟩ := writable
  intro long
  rw [located] at long
  cases long

theorem Writable.nodeAt_ne (writable : Writable directory path) :
    directory.nodeAt path ≠ some .folder := by
  obtain ⟨location, located, notFolder⟩ := writable
  rwa [nodeAt_of_locate located]

/-- In a folder of files a file can be made under every name that leads on from it. -/
theorem writable_join {folder : Path} {location : Location} {name : Text}
    (holds : HoldsFiles directory folder location) (plain : PlainName name)
    (fits : childFault? folder name = none) : Writable directory (folder.join name) := by
  refine ⟨location ++ [name], ?_, holds.flat name plain⟩
  rw [holds.toReaches.locate_join plain, fits]

/-! ### Files that are there -/

/-- A file that is there can be removed. -/
theorem exists_remove (file : directory.nodeAt path = some (.file content)) :
    ∃ after, (remove path).startingAt directory = (.ok (), after) := by
  obtain ⟨location, located, node⟩ := exists_node_of_nodeAt file
  rw [startingAt_remove, located]
  simp only [node]
  exact ⟨_, rfl⟩

/-- A file that is there can be moved to where a file can be made. -/
theorem exists_move (sourcePlain : PlainName source.name) (targetPlain : PlainName target.name)
    (different : source.name ≠ target.name)
    (file : directory.nodeAt source = some (.file content)) (writable : Writable directory target) :
    ∃ after, (move source target).startingAt directory = (.ok (), after) := by
  obtain ⟨start, located, node⟩ := exists_node_of_nodeAt file
  have apart : directory.locate target ≠ .ok start := by
    intro there
    have last := getLast?_of_locate sourcePlain located
    rw [getLast?_of_locate targetPlain there] at last
    exact different (Option.some.inj last).symm
  rw [startingAt_move located node writable.nodeAt_ne apart]
  obtain ⟨place, there, -⟩ := writable
  rw [there]
  exact ⟨_, rfl⟩

end FileAction

namespace JobFiles

open FileAction

variable {directory : Directory} {folder : Path} {location : Location} {name other : Text}

/-! ### Removing ends well -/

/-- Files that are there under different names can be removed one by one. -/
theorem exists_removeAll {paths : List Path} (plain : ∀ path ∈ paths, PlainName path.name)
    (distinct : (paths.map Path.name).Nodup)
    (files : ∀ path ∈ paths, ∃ content, directory.nodeAt path = some (.file content)) :
    ∃ after, (removeAll paths).startingAt directory = (.ok (), after) := by
  induction paths generalizing directory with
  | nil => exact ⟨directory, rfl⟩
  | cons path paths inductionHypothesis =>
    obtain ⟨firstPlain, restPlain⟩ := List.forall_mem_cons.1 plain
    obtain ⟨⟨content, file⟩, restFiles⟩ := List.forall_mem_cons.1 files
    obtain ⟨absent, restDistinct⟩ := List.nodup_cons.1 distinct
    obtain ⟨between, removed⟩ := exists_remove file
    have filesLeft : ∀ later ∈ paths, ∃ content,
        between.nodeAt later = some (.file content) := by
      intro later member
      rw [((changesAt_remove path).of_eq removed).nodeAt_eq (restPlain later member)]
      · exact restFiles later member
      · rintro first rfl
        exact ⟨firstPlain, fun same => absent (same ▸ List.mem_map_of_mem member)⟩
    obtain ⟨after, rest⟩ := inductionHypothesis restPlain restDistinct filesLeft
    exact ⟨after, bind_eq_ok_iff.2 ⟨(), between, removed, rest⟩⟩

/-! ### Renaming is refused -/

/-- Nothing is done for a job that is not there. -/
theorem startingAt_move_of_missing {source : Path} (writable : Writable directory source)
    (missing : directory.nodeAt source = none) (target : Path) (overwrite : Bool) :
    (move source target overwrite).startingAt directory =
      (.error (.missingJob source), directory) := by
  rw [move_eq, startingAt_bind, startingAt_isPresent writable.locate_ne, missing]
  rfl

/-- Nothing is done against a job that must stay. -/
theorem startingAt_move_of_occupied {source target : Path} (writable : Writable directory source)
    (targetWritable : Writable directory target) (present : (directory.nodeAt source).isSome)
    (occupied : (directory.nodeAt target).isSome) :
    (move source target false).startingAt directory =
      (.error (.occupiedJob target), directory) := by
  rw [move_eq, startingAt_bind, startingAt_isPresent writable.locate_ne, present]
  show (FileAction.isPresent target >>= _).startingAt directory = _
  rw [startingAt_bind, startingAt_isPresent targetWritable.locate_ne, occupied]
  rfl

/-! ### Renaming ends well -/

section Rename

variable (isStem : IsStem name) (otherIsStem : IsStem other)
  (apart : ∀ first ∈ endings, ∀ second ∈ endings, name ++ first ≠ other ++ second)

include isStem otherIsStem apart

theorem completes_moveIfPresent {ending : Text} (isAmong : ending ∈ endings) :
    Completes (AllWritable (AtEither folder name other endings))
      (moveIfPresent (folder.join (name ++ ending)) (folder.join (other ++ ending))) := by
  intro directory writable
  have isEnding := isEnding_of_mem_endings isAmong
  have plain := isStem.plainName_append isEnding
  have otherPlain := otherIsStem.plainName_append isEnding
  have different := apart ending isAmong ending isAmong
  have source := writable _ ⟨ending, isAmong, .inl rfl⟩
  have target := writable _ ⟨ending, isAmong, .inr rfl⟩
  have moved : ∃ after, (moveIfPresent (folder.join (name ++ ending))
      (folder.join (other ++ ending))).startingAt directory = (.ok (), after) := by
    rw [moveIfPresent, startingAt_bind, startingAt_isPresent source.locate_ne]
    dsimp only
    cases node : directory.nodeAt (folder.join (name ++ ending)) with
    | none => exact ⟨directory, rfl⟩
    | some found =>
      obtain ⟨content, file⟩ := exists_file_of_isSome (node ▸ rfl) source.nodeAt_ne
      have named := name_join_of_plainName folder plain
      have otherNamed := name_join_of_plainName folder otherPlain
      exact exists_move (named.symm ▸ plain) (otherNamed.symm ▸ otherPlain)
        (by rwa [named, otherNamed]) file target
  obtain ⟨after, moved⟩ := moved
  obtain ⟨change, -, -⟩ := moveIfPresent_eq_ok isStem otherIsStem isAmong different
    source.nodeAt_ne target.nodeAt_ne moved
  exact ⟨(), after, moved, writable.of_changesAt change⟩

theorem completes_moveAll {among : List Text} (within : among ⊆ endings) :
    Completes (AllWritable (AtEither folder name other endings))
      (moveAll (among.map fun ending =>
        (folder.join (name ++ ending), folder.join (other ++ ending)))) := by
  refine holds_moveAll composes_completes fun pair member => ?_
  obtain ⟨ending, isAmong, rfl⟩ := List.mem_map.1 member
  exact completes_moveIfPresent isStem otherIsStem apart (within isAmong)

/-- Where all files of both jobs can be, nothing keeps one from the place of the other. -/
theorem completes_replace :
    Completes (AllWritable (AtEither folder name other endings))
      (replace (folder.join (Trail.fileName name)) (folder.join (Trail.fileName other))) := by
  intro directory writable
  have isPlace : ∀ place ∈ places (folder.join (Trail.fileName other)),
      Writable directory place ∧ PlainName place.name := by
    intro place member
    refine ⟨?_, plainName_of_mem_places (isJobPath_join folder other).plain member⟩
    rw [places_join folder otherIsStem] at member
    obtain ⟨ending, isAmong, rfl⟩ := List.mem_map.1 member
    exact writable _ ⟨ending, mem_endings_of_mem isAmong, .inr rfl⟩
  have listed : (list (folder.join (Trail.fileName other))).startingAt directory =
      (.ok ((places (folder.join (Trail.fileName other))).filter fun place =>
        (directory.nodeAt place).isSome), directory) := by
    rw [list, candidates_eq_ok (isJobPath_join folder other).plain, ofExcept_ok_bind]
    exact startingAt_present fun place member => (isPlace place member).1.locate_ne
  have files : ∀ place ∈ (places (folder.join (Trail.fileName other))).filter fun place =>
      (directory.nodeAt place).isSome, ∃ content, directory.nodeAt place = some (.file content) :=
    fun place member => exists_file_of_isSome (List.mem_filter.1 member).2
      (isPlace place (List.mem_filter.1 member).1).1.nodeAt_ne
  obtain ⟨emptied, removed⟩ := exists_removeAll
    (fun place member => (isPlace place (List.mem_filter.1 member).1).2)
    ((nodup_names_places (isJobPath_join folder other)).sublist (List.filter_sublist.map _)) files
  have change : ChangesAt (AtEither folder name other endings) directory emptied :=
    (changesAt_removeAll_files otherIsStem List.filter_sublist.subset).of_eq removed
  obtain ⟨_, after, moved, stillWritable⟩ := completes_moveAll isStem otherIsStem apart
    (List.Subset.refl _) emptied (writable.of_changesAt change)
  refine ⟨(), after, bind_eq_ok_iff.2 ⟨_, _, listed, bind_eq_ok_iff.2 ⟨(), emptied, removed, ?_⟩⟩,
    stillWritable⟩
  rw [moves_join isStem folder otherIsStem, ofExcept_ok_bind]
  exact moved

section InFolder

variable (holds : HoldsFiles directory folder location)
  (writable : AllWritable (AtEither folder name other endings) directory)

include holds writable

/-- A job that is there is renamed if its new name is free or may be taken. -/
theorem exists_replaced_of_move (overwrite : Bool)
    (present : (directory.nodeAt (folder.join (Trail.fileName name))).isSome)
    (allowed : (directory.nodeAt (folder.join (Trail.fileName other))).isSome →
      overwrite = true) :
    ∃ after, (move (folder.join (Trail.fileName name)) (folder.join (Trail.fileName other))
        overwrite).startingAt directory = (.ok (), after) ∧
      Replaced folder name other directory after := by
  have source : Writable directory (folder.join (Trail.fileName name)) :=
    writable _ ⟨_, List.mem_cons_self, .inl rfl⟩
  have target : Writable directory (folder.join (Trail.fileName other)) :=
    writable _ ⟨_, List.mem_cons_self, .inr rfl⟩
  obtain ⟨_, after, replaced, -⟩ := completes_replace isStem otherIsStem apart directory writable
  refine ⟨after, ?_, (replace_eq_ok isStem otherIsStem apart holds replaced).1⟩
  rw [move_eq, startingAt_bind, startingAt_isPresent source.locate_ne, present]
  show (FileAction.isPresent (folder.join (Trail.fileName other)) >>= _).startingAt directory = _
  rw [startingAt_bind, startingAt_isPresent target.locate_ne]
  cases occupied : (directory.nodeAt (folder.join (Trail.fileName other))).isSome with
  | false => exact replaced
  | true =>
    rw [allowed occupied]
    exact replaced

/-- A job that is not there is not renamed, nor one whose new name another job must keep. Every
other job is, and all of its files but the result replace those that were there. -/
theorem refused_or_replaced_of_move (overwrite : Bool) :
    (directory.nodeAt (folder.join (Trail.fileName name)) = none →
        (move (folder.join (Trail.fileName name)) (folder.join (Trail.fileName other))
            overwrite).startingAt directory =
          (.error (.missingJob (folder.join (Trail.fileName name))), directory)) ∧
      ((directory.nodeAt (folder.join (Trail.fileName name))).isSome →
        (directory.nodeAt (folder.join (Trail.fileName other))).isSome → overwrite = false →
        (move (folder.join (Trail.fileName name)) (folder.join (Trail.fileName other))
            overwrite).startingAt directory =
          (.error (.occupiedJob (folder.join (Trail.fileName other))), directory)) ∧
      ((directory.nodeAt (folder.join (Trail.fileName name))).isSome →
        ((directory.nodeAt (folder.join (Trail.fileName other))).isSome → overwrite = true) →
        ∃ after, (move (folder.join (Trail.fileName name)) (folder.join (Trail.fileName other))
            overwrite).startingAt directory = (.ok (), after) ∧
          Replaced folder name other directory after) := by
  have source : Writable directory (folder.join (Trail.fileName name)) :=
    writable _ ⟨_, List.mem_cons_self, .inl rfl⟩
  have target : Writable directory (folder.join (Trail.fileName other)) :=
    writable _ ⟨_, List.mem_cons_self, .inr rfl⟩
  refine ⟨fun missing => startingAt_move_of_missing source missing _ overwrite, ?_,
    exists_replaced_of_move isStem otherIsStem apart holds writable overwrite⟩
  rintro present occupied rfl
  exact startingAt_move_of_occupied source target present occupied

end InFolder

end Rename

/-! ### A result that stays -/

/-- A folder with a new job and with an old one that has a license, another stage and a result. -/
def judged : Directory :=
  ⟨[(["new.json"], .file [0x7b, 0x7d]), (["new.frag"], .file [0x0a]),
    (["old.json"], .file [0x7b, 0x7d]), (["old.license"], .file [0x0d]),
    (["old.vert"], .file [0x0a]), (["old.info.json"], .file [0x7b, 0x7d]),
    (["notes"], .file [0x0a])]⟩

theorem isStem_new : IsStem "new" := ⟨by decide, by decide⟩

theorem isStem_old : IsStem "old" := ⟨by decide, by decide⟩

theorem holdsFiles_judged : HoldsFiles judged "." [] where
  followed := rfl
  isFolder := rfl
  flat := by
    intro name plain isFolder
    rw [node?_of_proper (proper_append plain [])] at isFolder
    have all : ∀ entry ∈ judged.nodes, entry.2 ≠ .folder := by decide
    exact all _ (Table.mem_of_find? isFolder) rfl

theorem apart_newAndOld : ∀ first ∈ endings, ∀ second ∈ endings,
    ("new" : Text) ++ first ≠ "old" ++ second := by decide

theorem allWritable_judged : AllWritable (AtEither "." "new" "old" endings) judged := by
  have fits : ∀ ending ∈ endings, childFault? "." ("new" ++ ending) = none ∧
    childFault? "." ("old" ++ ending) = none := by decide +kernel
  rintro path ⟨ending, isAmong, rfl | rfl⟩
  · exact writable_join holdsFiles_judged
      (isStem_new.plainName_append (isEnding_of_mem_endings isAmong)) (fits ending isAmong).1
  · exact writable_join holdsFiles_judged
      (isStem_old.plainName_append (isEnding_of_mem_endings isAmong)) (fits ending isAmong).2

theorem refused_or_replaced_of_move_judged :
    IsStem "new" ∧ IsStem "old" ∧
      (∀ first ∈ endings, ∀ second ∈ endings, ("new" : Text) ++ first ≠ "old" ++ second) ∧
      HoldsFiles judged "." [] ∧ AllWritable (AtEither "." "new" "old" endings) judged ∧
      (move "new.json" "old.json" false).startingAt judged =
        (.error (.occupiedJob "old.json"), judged) ∧
      ∃ after, (move "new.json" "old.json" true).startingAt judged = (.ok (), after) ∧
        Replaced "." "new" "old" judged after := by
  have present : (judged.nodeAt "new.json").isSome := by decide +kernel
  have occupied : (judged.nodeAt "old.json").isSome := by decide +kernel
  have outcome := refused_or_replaced_of_move isStem_new isStem_old apart_newAndOld
    holdsFiles_judged allWritable_judged
  exact ⟨isStem_new, isStem_old, apart_newAndOld, holdsFiles_judged, allWritable_judged,
    (outcome false).2.1 present occupied rfl, (outcome true).2.2 present fun _ => rfl⟩

/-- The result of the old job stays beside the new one, which has none. -/
theorem exists_result_after_move :
    judged.nodeAt "new.info.json" = none ∧
      ∃ after, (move "new.json" "old.json" true).startingAt judged = (.ok (), after) ∧
        after.nodeAt "old.info.json" = some (.file [0x7b, 0x7d]) := by
  have missing : judged.nodeAt "new.info.json" = none := by decide +kernel
  obtain ⟨after, moved, replaced⟩ := exists_replaced_of_move isStem_new isStem_old apart_newAndOld
    holdsFiles_judged allWritable_judged true (by decide +kernel) fun _ => rfl
  refine ⟨missing, after, moved, replaced.result.trans ?_⟩
  decide +kernel

end JobFiles

end ShaderReduction
