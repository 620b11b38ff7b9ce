/-
This file proves that file actions keep the entries of a directory apart.

As a list of entries a directory could have two for one location. If every location stands in it
once, then whatever is done to its files and folders, and whatever comes of that, every location
still stands in it once. So each name in a folder is listed once.
-/

import Mathlib.Data.List.Nodup
import ShaderReduction.Proofs.JobFiles.Moving

namespace ShaderReduction

open ShaderReduction.Action

namespace Directory

/-! ### Locations that stand once -/

/-- Every location stands once in a directory. -/
def Distinct (directory : Directory) : Prop := (Table.keys directory.nodes).Nodup

/-- If every location stands once before, it does so after. -/
def KeepsDistinct (before after : Directory) : Prop := before.Distinct → after.Distinct

instance : IsPreorder Directory KeepsDistinct where
  refl _ distinct := distinct
  trans _ _ _ first second distinct := second (first distinct)

theorem keepsDistinct_put (location : Location) (node : Node) (directory : Directory) :
    KeepsDistinct directory (directory.put location node) :=
  fun distinct => Table.nodup_keys_put location node distinct

theorem keepsDistinct_erase (location : Location) (directory : Directory) :
    KeepsDistinct directory (directory.erase location) :=
  fun distinct => distinct.sublist (List.filter_sublist.map Prod.fst)

theorem below?_eq_some_iff {upper location rest : Location} :
    below? upper location = some rest ↔ location = upper ++ rest := by
  unfold below?
  constructor
  · intro found
    split at found
    · next isPrefix =>
      obtain ⟨more, rfl⟩ := List.isPrefixOf_iff_prefix.1 isPrefix
      rw [List.drop_left] at found
      rw [Option.some.inj found]
    · cases found
  · rintro rfl
    rw [if_pos (List.isPrefixOf_iff_prefix.2 ⟨rest, rfl⟩), List.drop_left]

/-- What is moved stays apart, and apart from what is kept: of that nothing is below the target. -/
theorem keepsDistinct_transfer (source target : Location) (directory : Directory) :
    KeepsDistinct directory (directory.transfer source target) := by
  intro distinct
  unfold transfer
  split
  · exact distinct
  · have moved : Table.keys (directory.nodes.filterMap fun entry =>
        (below? source entry.1).map fun rest => (target ++ rest, entry.2)) =
        (Table.keys directory.nodes).filterMap fun location =>
          (below? source location).map fun rest => target ++ rest := by
      rw [Table.keys, Table.keys, List.map_filterMap, List.filterMap_map]
      refine congrArg (fun change => directory.nodes.filterMap change) (funext fun entry => ?_)
      rw [Option.map_map]
      rfl
    show (Table.keys (_ ++ _)).Nodup
    rw [Table.keys, List.map_append]
    refine List.Nodup.append (distinct.sublist (List.filter_sublist.map Prod.fst)) ?_ ?_
    · show (Table.keys _).Nodup
      rw [moved]
      refine distinct.filterMap fun first second place firstMember secondMember => ?_
      obtain ⟨rest, isBelow, rfl⟩ := Option.map_eq_some_iff.1 firstMember
      obtain ⟨more, isBelowToo, same⟩ := Option.map_eq_some_iff.1 secondMember
      rw [below?_eq_some_iff.1 isBelow, below?_eq_some_iff.1 isBelowToo,
        List.append_cancel_left same]
    · intro place inKept inMoved
      obtain ⟨entry, isKept, rfl⟩ := List.mem_map.1 inKept
      have inKeys : entry.1 ∈ Table.keys _ := inMoved
      rw [moved] at inKeys
      obtain ⟨location, -, found⟩ := List.mem_filterMap.1 inKeys
      obtain ⟨rest, -, same⟩ := Option.map_eq_some_iff.1 found
      have outside := (Bool.and_eq_true_iff.1 (List.mem_filter.1 isKept).2).2
      rw [below?_eq_some_iff.2 same.symm] at outside
      cases outside

/-- Each name in a folder is listed once. -/
theorem Distinct.nodup_namesIn {directory : Directory} (distinct : directory.Distinct)
    (location : Location) : (directory.namesIn location).Nodup := by
  have names : directory.namesIn location =
      Text.sort ((Table.keys directory.nodes).filterMap fun place =>
        place.getLast?.bind fun name => if place.dropLast = location then some name else none) := by
    rw [namesIn, Table.keys, List.filterMap_map]
    refine congrArg (fun change => Text.sort (directory.nodes.filterMap change)) ?_
    funext entry
    rw [Function.comp_apply]
    cases entry.1.getLast? <;> rfl
  have located : ∀ {place : Location} {name : Text},
      (place.getLast?.bind fun name => if place.dropLast = location then some name else none) =
        some name → place = location ++ [name] := by
    intro place name found
    obtain ⟨last, isLast, within⟩ := Option.bind_eq_some_iff.1 found
    obtain ⟨front, rfl⟩ := List.getLast?_eq_some_iff.1 isLast
    split at within
    · next above =>
      rw [List.dropLast_concat] at above
      rw [above, Option.some.inj within]
    · cases within
  rw [names, Text.sort, (List.mergeSort_perm _ _).nodup_iff]
  refine distinct.filterMap fun first second name firstMember secondMember => ?_
  rw [located firstMember, located secondMember]

end Directory

/-! ### File actions -/

namespace FileAction

open Directory

theorem keepsDistinct_writeBytes (path : Path) (content : Bytes) :
    Respects KeepsDistinct (writeBytes path content) := by
  intro directory
  rw [startingAt_writeBytes]
  split
  · exact id
  · split
    · exact id
    · exact keepsDistinct_put _ _ _

theorem keepsDistinct_writeText (path : Path) (text : Text) :
    Respects KeepsDistinct (writeText path text) := by
  refine (keepsDistinct_writeBytes path []).bind fun _ => ?_
  split
  · exact keepsDistinct_writeBytes path _
  · exact respects_throw _

theorem keepsDistinct_remove (path : Path) : Respects KeepsDistinct (remove path) := by
  intro directory
  rw [startingAt_remove]
  split
  · exact id
  · split
    · exact id
    · exact id
    · exact keepsDistinct_erase _ _

theorem keepsDistinct_removeIfPresent (path : Path) :
    Respects KeepsDistinct (removeIfPresent path) := by
  refine (reads_isPresent path).respects.bind fun present => ?_
  cases present with
  | false => exact respects_pure _
  | true => exact keepsDistinct_remove path

theorem keepsDistinct_touch (path : Path) : Respects KeepsDistinct (touch path) := by
  intro directory
  rw [startingAt_touch]
  split
  · exact id
  · split
    · exact keepsDistinct_put _ _ _
    · exact id

/-! ### Folders and moving -/

theorem keepsDistinct_makeFolder (path : Path) : Respects KeepsDistinct (makeFolder path) := by
  refine (reads_locate path).respects.bind fun location => respects_get.bind fun directory => ?_
  split
  · exact respects_throw _
  · exact fun current => keepsDistinct_put _ _ current

theorem keepsDistinct_failUnlessFolder (path : Path) (fault : Fault) :
    Respects KeepsDistinct (failUnlessFolder path fault) := by
  refine (reads_find path).respects.bind fun node => ?_
  split
  · exact respects_pure _
  · exact respects_throw _

theorem keepsDistinct_ensureSteps (path : Path) (count : Nat) :
    Respects KeepsDistinct (ensureSteps path count) := by
  have makes : ∀ here, Respects KeepsDistinct
      (tryCatch (makeFolder here) (failUnlessFolder here)) := fun here =>
    (keepsDistinct_makeFolder here).tryCatch fun fault => keepsDistinct_failUnlessFolder here fault
  induction count with
  | zero => exact makes _
  | succ count inductionHypothesis =>
    refine (keepsDistinct_makeFolder _).tryCatch fun fault => ?_
    split
    · exact inductionHypothesis.bind fun _ => makes _
    · exact keepsDistinct_failUnlessFolder _ _

theorem reads_findAtAll (path : Path) : Reads (findAtAll path) := by
  intro directory
  rw [startingAt_findAtAll]

theorem reads_destination (source target : Path) : Reads (destination source target) := by
  refine (reads_findAtAll target).bind fun node => ?_
  split
  · refine (reads_locate source).bind fun start => (reads_locate target).bind fun place => ?_
    split
    · exact respects_pure _
    · refine (reads_findAtAll _).bind fun inside => ?_
      split
      · exact (respects_throw _).bind fun _ => respects_pure _
      · exact respects_pure _
  · exact respects_pure _

theorem keepsDistinct_moveFile (source target : Location) (content : Bytes) :
    Respects KeepsDistinct (moveFile source target content) := by
  unfold moveFile
  split
  · exact respects_pure _
  · exact fun directory => trans_of KeepsDistinct (keepsDistinct_erase source directory)
      (keepsDistinct_put target _ _)

theorem keepsDistinct_moveFolderTo (source target : Location) :
    Respects KeepsDistinct (moveFolderTo source target) := by
  refine respects_get_bind fun directory => ?_
  split
  · exact id
  · split
    · exact id
    · split
      · exact id
      · exact keepsDistinct_transfer source target directory

theorem keepsDistinct_moveFolderFar (source : Location) (target : Path) :
    Respects KeepsDistinct (moveFolderFar source target) := by
  refine (keepsDistinct_ensureSteps target.parent _).bind fun _ => ?_
  refine (keepsDistinct_makeFolder target).bind fun _ => ?_
  exact (reads_locate target).respects.bind fun _ directory => keepsDistinct_transfer _ _ directory

theorem keepsDistinct_moveFolder (source target final : Path) :
    Respects KeepsDistinct (moveFolder source target final) := by
  refine (reads_locate source).respects.bind fun location => respects_get.bind fun directory => ?_
  split
  · exact keepsDistinct_moveFolderTo _ _
  · exact respects_throw _
  · exact respects_throw _
  · by_cases within : target.straighten.isWithin source.straighten = true
    · simp only [if_pos within]
      refine (respects_throw _).bind fun _ => ?_
      split
      · exact keepsDistinct_moveFolderFar location final
      · exact respects_throw _
    · simp only [if_neg within]
      split
      · exact keepsDistinct_moveFolderFar location final
      · exact respects_throw _

theorem keepsDistinct_move (source target : Path) :
    Respects KeepsDistinct (move source target) := by
  refine (reads_destination source target).respects.bind fun final => ?_
  refine (reads_locate source).respects.bind fun location => respects_get.bind fun directory => ?_
  split
  · exact respects_throw _
  · exact keepsDistinct_moveFolder source target final
  · exact (reads_locate final).respects.bind fun place => keepsDistinct_moveFile location place _

end FileAction

/-! ### The files of jobs -/

namespace JobFiles

open Directory FileAction

theorem keepsDistinct_removeShaders (base : Path) (stages : List Stage) :
    Respects KeepsDistinct (removeShaders base stages) :=
  holds_removeShaders composes_respects (fun _ => (respects_ofExcept _).bind fun path =>
    keepsDistinct_removeIfPresent path) stages

theorem keepsDistinct_writeShaders (storage : Storage) (base : Path) (shaders : List Shader) :
    Respects KeepsDistinct (writeShaders storage base shaders) :=
  holds_writeShaders composes_respects fun _ _ => (respects_ofExcept _).bind fun path =>
    keepsDistinct_writeText path _

theorem keepsDistinct_write (storage : Storage) (job : Job) (path : Path) :
    Respects KeepsDistinct (write storage job path) := by
  refine (respects_ofExcept _).bind fun base => (keepsDistinct_writeText path _).bind fun _ => ?_
  refine (keepsDistinct_removeShaders base _).bind fun _ => ?_
  refine (keepsDistinct_writeShaders storage base _).bind fun _ => ?_
  refine (respects_ofExcept _).bind fun licensePath => ?_
  split
  · exact keepsDistinct_removeIfPresent licensePath
  · exact keepsDistinct_writeText licensePath _

theorem keepsDistinct_moveIfPresent (source target : Path) :
    Respects KeepsDistinct (moveIfPresent source target) := by
  refine (reads_isPresent source).respects.bind fun present => ?_
  split
  · exact FileAction.keepsDistinct_move source target
  · exact respects_pure _

theorem keepsDistinct_move (source target : Path) (overwrite : Bool) :
    Respects KeepsDistinct (move source target overwrite) := by
  have removes : ∀ paths, Respects KeepsDistinct (removeAll paths) := fun _ =>
    holds_removeAll composes_respects fun path _ => keepsDistinct_remove path
  have moves : ∀ pairs, Respects KeepsDistinct (moveAll pairs) := fun _ =>
    holds_moveAll composes_respects fun pair _ => keepsDistinct_moveIfPresent pair.1 pair.2
  have replaces : Respects KeepsDistinct (replace source target) :=
    (reads_list target).respects.bind fun found => (removes found).bind fun _ =>
      (respects_ofExcept _).bind fun _ => moves _
  exact holds_move composes_respects (fun path => (reads_isPresent path).respects)
    (respects_throw _) (respects_throw _) replaces

end JobFiles

end ShaderReduction
