/-
This file proves what renaming a job in a folder of files does whether it ends well or not.

A file is moved or stays where it is, so only files of the two jobs and their results change. The
uniforms are moved first and the result next. If the uniforms are moved at all, the result goes
along, unless the name for it is too long: everything else that a file system could say against the
new names it would have said against the old ones.
-/

import ShaderReduction.Proofs.JobFiles.Moving

namespace ShaderReduction

open ShaderReduction.Action Directory ShaderReduction.Path

namespace FileAction

variable {directory after : Directory} {path : Path} {fault : Fault}

/-- Whether something is at a path cannot be told if the path is too long, and only then. -/
theorem isPresent_eq_error
    (failed : (isPresent path).startingAt directory = (.error fault, after)) :
    directory.locate path = .error .nameTooLong := by
  unfold isPresent find at failed
  rw [startingAt_bind, startingAt_bind, startingAt_get] at failed
  dsimp only at failed
  cases located : directory.locate path with
  | ok location =>
    rw [located] at failed
    cases failed
  | error other =>
    rw [located] at failed
    cases other <;> cases failed
    rfl

section Move

variable {source target : Path} {content : Bytes}

/-- A file that is not moved stays, because its new path leads nowhere. -/
theorem move_eq_error (sourcePlain : PlainName source.name) (targetPlain : PlainName target.name)
    (different : source.name ≠ target.name)
    (file : directory.nodeAt source = some (.file content))
    (free : directory.nodeAt target ≠ some .folder)
    (failed : (move source target).startingAt directory = (.error fault, after)) :
    after = directory ∧ directory.locate target = .error fault := by
  obtain ⟨start, located, node⟩ := exists_node_of_nodeAt file
  have apart : directory.locate target ≠ .ok start := fun there => by
    have last := getLast?_of_locate sourcePlain located
    rw [getLast?_of_locate targetPlain there] at last
    exact different (Option.some.inj last).symm
  rw [startingAt_move located node free apart] at failed
  cases there : directory.locate target with
  | ok place =>
    rw [there] at failed
    cases failed
  | error other =>
    rw [there] at failed
    cases failed
    exact ⟨rfl, rfl⟩

end Move

end FileAction

namespace JobFiles

open FileAction

variable {directory after : Directory} {folder : Path} {location : Location} {name other : Text}

/-! ### What changes whatever comes of it -/

section Rename

variable (isStem : IsStem name) (otherIsStem : IsStem other)
  (apart : ∀ first ∈ endings, ∀ second ∈ endings, name ++ first ≠ other ++ second)

include isStem otherIsStem apart

/-- A file that is not moved stays, because nothing is known of it or its new path leads nowhere. -/
theorem moveIfPresent_eq_error {ending : Text} (isAmong : ending ∈ endings)
    (holds : HoldsFiles directory folder location) {fault : Fault}
    (failed : (moveIfPresent (folder.join (name ++ ending))
      (folder.join (other ++ ending))).startingAt directory = (.error fault, after)) :
    after = directory ∧ (directory.nodeAt (folder.join (name ++ ending)) = none ∨
      directory.locate (folder.join (other ++ ending)) = .error fault) := by
  have isEnding := isEnding_of_mem_endings isAmong
  have plain := isStem.plainName_append isEnding
  have otherPlain := otherIsStem.plainName_append isEnding
  rcases bind_eq_error_iff.1 failed with unknown | ⟨isThere, between, looked, rest⟩
  · refine ⟨((reads_isPresent _).of_eq unknown).symm, .inl ?_⟩
    rw [nodeAt, isPresent_eq_error unknown]
  · obtain rfl := (reads_isPresent _).of_eq looked
    cases isThere with
    | false => cases rest
    | true =>
      obtain ⟨content, file⟩ :=
        exists_file_of_isSome (isPresent_eq_ok looked).symm (holds.nodeAt_join_ne plain)
      have named := name_join_of_plainName folder plain
      have otherNamed := name_join_of_plainName folder otherPlain
      obtain ⟨same, nowhere⟩ := FileAction.move_eq_error (named.symm ▸ plain)
        (otherNamed.symm ▸ otherPlain) (by rw [named, otherNamed]; exact apart _ isAmong _ isAmong)
        file (holds.nodeAt_join_ne otherPlain) rest
      exact ⟨same, .inr nowhere⟩

/-- Whatever comes of moving files one by one, they are moved up to one of which nothing is known or
whose new path leads nowhere. -/
theorem exists_moved_of_moveAll {among : List Text} (within : among ⊆ endings)
    (holds : HoldsFiles directory folder location) {outcome : Except Fault Unit}
    (moved : (moveAll (among.map fun ending =>
      (folder.join (name ++ ending), folder.join (other ++ ending)))).startingAt directory =
        (outcome, after)) :
    ∃ done rest, among = done ++ rest ∧
      (moveAll (done.map fun ending =>
        (folder.join (name ++ ending), folder.join (other ++ ending)))).startingAt directory =
          (.ok (), after) ∧
      ∀ ending others, rest = ending :: others →
        after.nodeAt (folder.join (name ++ ending)) = none ∨
          ∃ fault, after.locate (folder.join (other ++ ending)) = .error fault := by
  induction among generalizing directory with
  | nil =>
    cases moved
    exact ⟨[], [], rfl, rfl, fun _ _ impossible => nomatch impossible⟩
  | cons ending among inductionHypothesis =>
    obtain ⟨isAmong, restWithin⟩ := List.cons_subset.1 within
    have isEnding := isEnding_of_mem_endings isAmong
    rw [List.map_cons, moveAll_cons] at moved
    rcases bind_eq_iff.1 moved with ⟨fault, failed, -⟩ | ⟨_, next, first, others⟩
    · obtain ⟨rfl, reason⟩ :=
        moveIfPresent_eq_error isStem otherIsStem apart isAmong holds failed
      refine ⟨[], _, rfl, rfl, fun ending others same => ?_⟩
      cases same
      exact reason.imp_right fun nowhere => ⟨fault, nowhere⟩
    · have change := (moveIfPresent_eq_ok isStem otherIsStem isAmong
        (apart ending isAmong ending isAmong)
        (holds.nodeAt_join_ne (isStem.plainName_append isEnding))
        (holds.nodeAt_join_ne (otherIsStem.plainName_append isEnding)) first).1
      obtain ⟨done, rest, rfl, ran, reason⟩ :=
        inductionHypothesis restWithin (holds.of_sameFolders change.folders) others
      refine ⟨ending :: done, rest, rfl, ?_, reason⟩
      rw [List.map_cons, moveAll_cons]
      exact bind_eq_ok_iff.2 ⟨_, next, first, ran⟩

/-- Moving files one by one changes only these. -/
theorem changesAt_moveAll {among : List Text} (within : among ⊆ endings) (distinct : among.Nodup)
    (holds : HoldsFiles directory folder location) {outcome : Except Fault Unit}
    (moved : (moveAll (among.map fun ending =>
      (folder.join (name ++ ending), folder.join (other ++ ending)))).startingAt directory =
        (outcome, after)) :
    ChangesAt (AtEither folder name other among) directory after := by
  obtain ⟨done, rest, rfl, ran, -⟩ :=
    exists_moved_of_moveAll isStem otherIsStem apart within holds moved
  exact (moveAll_eq_ok isStem otherIsStem apart (List.append_subset.1 within).1
    (List.nodup_append.1 distinct).1 holds ran).1.mono fun _ =>
      AtEither.mono (List.subset_append_left done rest)

theorem changesAt_replace (holds : HoldsFiles directory folder location)
    {outcome : Except Fault Unit}
    (replaced : (replace (folder.join (Trail.fileName name))
      (folder.join (Trail.fileName other))).startingAt directory = (outcome, after)) :
    ChangesAt (AtEither folder name other endings) directory after := by
  rcases bind_eq_iff.1 replaced with ⟨fault, failed, -⟩ | ⟨found, first, listed, rest⟩
  · rw [(reads_list _).of_eq failed]
    exact ChangesAt.refl _
  obtain rfl := (reads_list _).of_eq listed
  obtain ⟨rfl, -⟩ := list_eq_ok (isJobPath_join folder other) listed
  have removal : Respects (ChangesAt (AtEither folder name other endings))
      (removeAll ((places (folder.join (Trail.fileName other))).filter fun place =>
        (directory.nodeAt place).isSome)) :=
    changesAt_removeAll_files otherIsStem List.filter_sublist.subset
  rcases bind_eq_iff.1 rest with ⟨fault, failed, -⟩ | ⟨_, emptied, removed, rest⟩
  · exact removal.of_eq failed
  have change := removal.of_eq removed
  rw [moves_join isStem folder otherIsStem, ofExcept_ok_bind] at rest
  exact change.trans (changesAt_moveAll isStem otherIsStem apart (List.Subset.refl _) nodup_endings
    (holds.of_sameFolders change.folders) rest)

/-- Renaming a job changes only files of the job and of the one in its place. -/
theorem changesAt_move (holds : HoldsFiles directory folder location)
    {outcome : Except Fault Unit}
    (moved : (move (folder.join (Trail.fileName name)) (folder.join (Trail.fileName other))
      true).startingAt directory = (outcome, after)) :
    ChangesAt (AtEither folder name other endings) directory after := by
  rw [move_eq] at moved
  rcases bind_eq_iff.1 moved with ⟨fault, failed, -⟩ | ⟨present, first, looked, rest⟩
  · rw [(reads_isPresent _).of_eq failed]
    exact ChangesAt.refl _
  obtain rfl := (reads_isPresent _).of_eq looked
  cases present with
  | false =>
    cases rest
    exact ChangesAt.refl _
  | true =>
    rcases bind_eq_iff.1 rest with ⟨fault, failed, -⟩ | ⟨occupied, second, lookedThere, rest⟩
    · rw [(reads_isPresent _).of_eq failed]
      exact ChangesAt.refl _
    obtain rfl := (reads_isPresent _).of_eq lookedThere
    cases occupied <;> exact changesAt_replace isStem otherIsStem apart holds rest

end Rename

/-! ### What goes along -/

/-- What a path into a folder leads to is reached by a name that nothing is wrong with. -/
theorem textFault?_eq_none_of_isSome
    (present : (directory.nodeAt (folder.join name)).isSome = true) :
    textFault? (folder.join name) = none := by
  obtain ⟨node, found⟩ := Option.isSome_iff_exists.1 present
  unfold nodeAt at found
  cases located : directory.locate (folder.join name) with
  | error fault =>
    rw [located] at found
    cases found
  | ok place => exact (locate_eq_ok_iff.1 located).1

theorem harmless_of_textFault? {path : Path} (fine : textFault? path = none) :
    path.steps.all isEncodable = true ∧ path.steps.any hasNull = false := by
  unfold textFault? at fine
  split at fine
  · cases fine
  · next encodable =>
    split at fine
    · cases fine
    · next noNull => exact ⟨by simpa using encodable, by simpa using noNull⟩

/-- Whatever keeps a name from leading on from a folder in which another one does is its length, if
it is spelled with the code points of that one and with some that never do harm. -/
theorem eq_nameTooLong_of_childFault? (plain : PlainName name) (otherPlain : PlainName other)
    (present : (directory.nodeAt (folder.join name)).isSome = true)
    (spelled : ∀ point ∈ other, point ∈ name ∨
      isEncodable [point] = true ∧ hasNull [point] = false) {fault : Fault}
    (kept : childFault? folder other = some fault) : fault = .nameTooLong := by
  obtain ⟨encodable, noNull⟩ := harmless_of_textFault? (textFault?_eq_none_of_isSome present)
  rw [join_of_plainName folder plain] at encodable noNull
  rw [List.all_append, Bool.and_eq_true, List.all_cons, Bool.and_eq_true] at encodable
  rw [List.any_append, Bool.or_eq_false_iff, List.any_cons, Bool.or_eq_false_iff] at noNull
  have otherEncodable : isEncodable other = true := by
    refine List.all_eq_true.2 fun point member => ?_
    rcases spelled point member with inName | harmless
    · exact List.all_eq_true.1 encodable.2.1 point inName
    · exact List.all_eq_true.1 harmless.1 point (List.mem_singleton_self point)
  have otherNoNull : hasNull other = false := by
    refine Bool.eq_false_iff.2 fun holdsNull => ?_
    have member := List.contains_iff_mem.1 holdsNull
    rcases spelled _ member with inName | harmless
    · rw [hasNull, List.contains_iff_mem.2 inName] at noNull
      cases noNull.2.1
    · exact absurd harmless.2 (by decide)
  have allEncodable : (folder.steps ++ [other]).all isEncodable = true := by
    rw [List.all_append, encodable.1, List.all_cons, otherEncodable]
    rfl
  have noneNull : (folder.steps ++ [other]).any hasNull = false := by
    rw [List.any_append, noNull.1, List.any_cons, otherNoNull]
    rfl
  rw [childFault?, textFault?, join_of_plainName folder otherPlain] at kept
  simp only [allEncodable, noneNull, Bool.not_true, Bool.false_eq_true, if_false] at kept
  split at kept
  · exact (Option.some.inj kept).symm
  · split at kept
    · exact (Option.some.inj kept).symm
    · cases kept

section Vacant

variable (isStem : IsStem name) (otherIsStem : IsStem other)
  (apart : ∀ first ∈ endings, ∀ second ∈ endings, name ++ first ≠ other ++ second)
  (holds : HoldsFiles directory folder location)
  (vacant : ∀ ending ∈ endings, directory.nodeAt (folder.join (other ++ ending)) = none)

include otherIsStem vacant in
theorem filter_places_of_vacant : ((places (folder.join (Trail.fileName other))).filter fun place =>
    (directory.nodeAt place).isSome) = [] := by
  refine List.filter_eq_nil_iff.2 fun place member => ?_
  rw [places_join folder otherIsStem] at member
  obtain ⟨ending, among, rfl⟩ := List.mem_map.1 member
  rw [vacant ending (mem_endings_of_mem among)]
  exact Bool.false_ne_true

/-- A job has its new name, and its result went along, unless the name for that is too long. -/
structure TakenAlong (folder : Path) (name other : Text) (directory after : Directory) : Prop where
  present : (after.nodeAt (folder.join (Trail.fileName other))).isSome = true
  result : childFault? folder (other ++ resultEnding) ≠ some .nameTooLong →
    after.nodeAt (folder.join (other ++ resultEnding)) =
      directory.nodeAt (folder.join (name ++ resultEnding))

include isStem otherIsStem apart holds vacant

theorem takenAlong_of_moveAll
    (isThere : (directory.nodeAt (folder.join (Trail.fileName name))).isSome = true)
    (brief : ∀ ending ∈ endings, ∀ fault, childFault? folder (other ++ ending) = some fault →
      fault = .nameTooLong) {outcome : Except Fault Unit}
    (moved : (moveAll (endings.map fun ending =>
      (folder.join (name ++ ending), folder.join (other ++ ending)))).startingAt directory =
        (outcome, after)) :
    after = directory ∨ TakenAlong folder name other directory after := by
  obtain ⟨done, rest, split, ran, reason⟩ :=
    exists_moved_of_moveAll isStem otherIsStem apart (List.Subset.refl _) holds moved
  have within : done ⊆ endings := split ▸ List.subset_append_left done rest
  have distinct : done.Nodup := (List.nodup_append.1 (split ▸ nodup_endings)).1
  obtain ⟨change, nodes⟩ := moveAll_eq_ok isStem otherIsStem apart within distinct holds ran
  have present : (".json" : Text) ∈ done →
      (after.nodeAt (folder.join (Trail.fileName other))).isSome = true := fun member => by
    rw [Trail.fileName, (nodes _ member).1, vacant _ (within member), Option.or_none]
    exact isThere
  rcases done with _ | ⟨first, _ | ⟨second, others⟩⟩
  · cases ran
    exact .inl rfl
  · -- The uniforms were moved, and the result was not.
    cases split
    have isResult : resultEnding ∈ endings := by decide
    have plain := isStem.plainName_append isEnding_resultEnding
    have otherPlain := otherIsStem.plainName_append isEnding_resultEnding
    have changeIn := changesIn_of_atEither isStem otherIsStem within change holds.toReaches
    obtain ⟨outside, otherOutside⟩ := not_ofEither_of_notMem apart within isResult (by decide)
    have before : after.nodeAt (folder.join (name ++ resultEnding)) =
        directory.nodeAt (folder.join (name ++ resultEnding)) :=
      changeIn.nodeAt_join_eq holds.toReaches plain outside
    have nothing : after.nodeAt (folder.join (other ++ resultEnding)) = none := by
      rw [changeIn.nodeAt_join_eq holds.toReaches otherPlain otherOutside, vacant _ isResult]
    refine .inr ⟨present List.mem_cons_self, fun short => ?_⟩
    rcases reason _ _ rfl with unknown | ⟨fault, nowhere⟩
    · rw [nothing, ← before, unknown]
    · rw [(holds.of_sameFolders change.folders).toReaches.locate_join otherPlain] at nowhere
      cases kept : childFault? folder (other ++ resultEnding) with
      | none =>
        rw [kept] at nowhere
        cases nowhere
      | some reason => exact absurd (kept.trans (congrArg some (brief _ isResult _ kept))) short
  · rw [endings, List.cons_append, List.cons_append, List.cons.injEq, List.cons.injEq] at split
    obtain ⟨rfl, rfl, -⟩ := split
    have isResult : resultEnding ∈ endings := by decide
    refine .inr ⟨present List.mem_cons_self, fun _ => ?_⟩
    rw [(nodes _ (List.mem_cons_of_mem _ List.mem_cons_self)).1, vacant _ isResult, Option.or_none]

/-- Whatever comes of renaming a job where no other one is, it stays, or its result went along. -/
theorem eq_or_takenAlong_of_move
    (spelled : ∀ ending ∈ endings, ∀ point ∈ other ++ ending, point ∈ Trail.fileName name ∨
      isEncodable [point] = true ∧ hasNull [point] = false) {outcome : Except Fault Unit}
    (moved : (move (folder.join (Trail.fileName name)) (folder.join (Trail.fileName other))
      true).startingAt directory = (outcome, after)) :
    after = directory ∨ TakenAlong folder name other directory after := by
  rw [move_eq] at moved
  rcases bind_eq_iff.1 moved with ⟨fault, failed, -⟩ | ⟨isThere, first, looked, rest⟩
  · exact .inl ((reads_isPresent _).of_eq failed).symm
  obtain rfl := (reads_isPresent _).of_eq looked
  cases isThere with
  | false =>
    cases rest
    exact .inl rfl
  | true =>
    have present := (isPresent_eq_ok looked).symm
    have brief : ∀ ending ∈ endings, ∀ fault,
        childFault? folder (other ++ ending) = some fault → fault = .nameTooLong :=
      fun ending member fault => eq_nameTooLong_of_childFault? isStem.plainName_fileName
        (otherIsStem.plainName_append (isEnding_of_mem_endings member)) present
        (spelled ending member)
    rcases bind_eq_iff.1 rest with ⟨fault, failed, -⟩ | ⟨occupied, second, lookedThere, rest⟩
    · exact .inl ((reads_isPresent _).of_eq failed).symm
    obtain rfl := (reads_isPresent _).of_eq lookedThere
    have replaced : (replace (folder.join (Trail.fileName name))
        (folder.join (Trail.fileName other))).startingAt directory = (outcome, after) := by
      cases occupied <;> exact rest
    rcases bind_eq_iff.1 replaced with ⟨fault, failed, -⟩ | ⟨found, third, listed, rest⟩
    · exact .inl ((reads_list _).of_eq failed).symm
    obtain rfl := (reads_list _).of_eq listed
    obtain ⟨rfl, -⟩ := list_eq_ok (isJobPath_join folder other) listed
    rw [filter_places_of_vacant otherIsStem vacant, removeAll, moves_join isStem folder otherIsStem,
      ofExcept_ok_bind] at rest
    exact takenAlong_of_moveAll isStem otherIsStem apart holds vacant present brief rest

end Vacant

end JobFiles

end ShaderReduction
