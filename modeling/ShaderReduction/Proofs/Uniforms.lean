/-
This file proves that uniforms that were read stay as they are when they are read again.

Reading puts the members of an object into a table one after the other. Of members with distinct
names, as uniforms have them, that makes the same members, and it never makes a document deeper.
-/

import Mathlib.Logic.Basic
import ShaderReduction.Uniforms

namespace ShaderReduction

namespace Table

variable {Key Value : Type} [DecidableEq Key]

theorem put_of_notMem {key : Key} {table : Table Key Value} (value : Value)
    (absent : key ∉ keys table) : put key value table = table ++ [(key, value)] := by
  induction table with
  | nil => rfl
  | cons entry table inductionHypothesis =>
    have different : entry.1 ≠ key := fun same => absent (same ▸ List.mem_cons_self)
    have rest := inductionHypothesis fun member => absent (List.mem_cons_of_mem _ member)
    obtain ⟨other, old⟩ := entry
    rw [put, if_neg different, rest, List.cons_append]

theorem foldl_put_of_nodup {entries table : Table Key Value}
    (distinct : (keys (table ++ entries)).Nodup) :
    entries.foldl (fun table entry => put entry.1 entry.2 table) table = table ++ entries := by
  induction entries generalizing table with
  | nil => exact (List.append_nil table).symm
  | cons entry entries inductionHypothesis =>
    have absent : entry.1 ∉ keys table := by
      rw [keys, List.map_append] at distinct
      exact fun member => (List.nodup_append.1 distinct).2.2 _ member _ List.mem_cons_self rfl
    have whole : table ++ [entry] ++ entries = table ++ entry :: entries := List.append_assoc _ _ _
    rw [List.foldl_cons, put_of_notMem entry.2 absent]
    exact (inductionHypothesis (whole ▸ distinct)).trans whole

/-- Entries with distinct keys make a table in which they stand as they are. -/
theorem ofList_of_nodup {entries : Table Key Value} (distinct : (keys entries).Nodup) :
    ofList entries = entries := foldl_put_of_nodup distinct

end Table

namespace Document

theorem depthOfMembers_put_le (name : Text) (value : Document) (members : Members) :
    depthOfMembers (Table.put name value members) ≤ max (depth value) (depthOfMembers members) := by
  induction members with
  | nil => exact Nat.le_refl _
  | cons member members inductionHypothesis =>
    obtain ⟨other, old⟩ := member
    rw [Table.put]
    split
    · simp only [depthOfMembers]
      omega
    · simp only [depthOfMembers]
      omega

theorem depthOfMembers_ofList_le (members : Members) :
    depthOfMembers (Table.ofList members) ≤ depthOfMembers members := by
  have folded : ∀ table : Members,
      depthOfMembers (members.foldl (fun table entry => Table.put entry.1 entry.2 table) table) ≤
        max (depthOfMembers table) (depthOfMembers members) := by
    induction members with
    | nil => exact fun table => Nat.le_max_left _ _
    | cons member members inductionHypothesis =>
      intro table
      have first := depthOfMembers_put_le member.1 member.2 table
      have rest := inductionHypothesis (Table.put member.1 member.2 table)
      rw [List.foldl_cons]
      simp only [depthOfMembers]
      omega
  exact Nat.le_trans (folded []) (Nat.max_le.2 ⟨Nat.zero_le _, Nat.le_refl _⟩)

end Document

namespace Uniforms

theorem ofMembers_of_nodup {members : Members} (distinct : (Table.keys members).Nodup) :
    ofMembers members = ⟨.object members, distinct⟩ := by
  unfold ofMembers
  congr 1
  rw [Table.ofList_of_nodup distinct]

/-- The uniforms that are read of an object are an object, and are read again of that. -/
theorem exists_members_of_ofDocument_eq_ok {members : Members} {uniforms : Uniforms}
    (read : ofDocument (.object members) = .ok uniforms) :
    ∃ others, uniforms.document = .object others ∧
      ofDocument (.object others) = .ok uniforms := by
  unfold ofDocument at read
  split at read
  · cases read
  · next shallow =>
    split at read
    · next given =>
      cases read
      refine ⟨Table.ofList members, rfl, ?_⟩
      have shallower : ¬deepest < Document.depth (.object (Table.ofList members)) := by
        have deep := Document.depthOfMembers_ofList_le members
        simp only [Document.depth] at shallow ⊢
        omega
      rw [ofDocument, if_neg shallower]
      split
      · exact congrArg Except.ok (ofMembers_of_nodup (Table.nodup_keys_ofList members))
      · next notGiven =>
        have nothing : Table.ofList members = [] := by
          simpa [Document.isGiven] using notGiven
        unfold ofMembers empty
        simp only [nothing]
    · cases read
      exact ⟨[], rfl, rfl⟩

end Uniforms

end ShaderReduction
