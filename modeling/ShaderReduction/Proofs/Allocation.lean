/-
This file proves which bindings free uniforms take.

A uniform takes the binding that is given to its name. The others take numbers, in the order of
their names: the first of them the least number that no given binding equals, the next one the next
such number, and so on. It is of no account whether a given binding is for a uniform at all. So a
number that is taken is the binding of no other uniform. Nothing else changes: not the order of the
uniforms, not the other fields of their descriptors and not the data kept with them.
-/

import ShaderReduction.Proofs.Bindings
import ShaderReduction.Proofs.Document.Canonical

namespace ShaderReduction

namespace Uniforms

open Descriptor

/-- The descriptors of the uniforms are objects without bindings. -/
structure Unbound (uniforms : Uniforms) (members : Members) : Prop where
  isObject : uniforms.document = .object members
  free : ∀ name ∈ ofUniforms (Table.keys members), ∃ fields,
    Table.find? name members = some (.object fields) ∧ bindingName ∉ Table.keys fields

/-- What the members of free uniforms become when bindings are given to them: the same names in the
same order, the same data, and for each uniform its descriptor with one field more. That is the
given binding or, for the uniforms to which none is given, in the order of their names, a number in
the row of those that no given binding equals; such a number is no other uniform's binding. -/
structure Allocates (given : Bindings) (members others : Members) : Prop where
  keys : Table.keys others = Table.keys members
  data : ∀ name, isMetadata name = true → Table.find? name others = Table.find? name members
  kept : ∀ name ∈ ofUniforms (Table.keys members), ∀ value,
    Table.find? name given.named = some value →
      ∃ fields, Table.find? name members = some (.object fields) ∧
        Table.find? name others = some (.object (fields ++ [(bindingName, value)]))
  ordered : (unlisted given.named (ofUniforms (Table.keys members))).Pairwise
    fun first second => Text.le first second = true
  numbered : ∀ place name,
    (unlisted given.named (ofUniforms (Table.keys members)))[place]? = some name →
    ∃ fields, Table.find? name members = some (.object fields) ∧
      Table.find? name others = some (.object
        (fields ++ [(bindingName, .integer (Nat.nth (IsFree given.values) place))]))
  apart : ∀ name ∈ unlisted given.named (ofUniforms (Table.keys members)),
    ∀ other ∈ ofUniforms (Table.keys members), other ≠ name → ∀ number value,
      bindingIn others name = some number → bindingIn others other = some value →
        value.equals number = false

theorem sorted_ofUniforms (names : List Text) :
    (ofUniforms names).Pairwise fun first second => Text.le first second = true :=
  List.pairwise_mergeSort Text.le_trans Text.le_total _

section Unbound

variable {uniforms : Uniforms} {members others : Members} {given : Bindings}
  (unbound : Unbound uniforms members)

include unbound

theorem Unbound.describes : Describes members (ofUniforms (Table.keys members)) := by
  intro name member
  obtain ⟨fields, found, -⟩ := unbound.free name member
  exact ⟨fields, found⟩

theorem Unbound.distinct : (ofUniforms (Table.keys members)).Nodup := by
  have distinct := uniforms.distinct
  rw [unbound.isObject] at distinct
  exact nodup_ofUniforms distinct

theorem Unbound.hasBindings_eq : uniforms.hasBindings = .ok false := by
  rw [hasBindings, names_eq unbound.isObject]
  refine (anyBound_eq unbound.isObject unbound.describes).trans (congrArg Except.ok ?_)
  rw [List.any_eq_false]
  intro name member
  obtain ⟨fields, found, absent⟩ := unbound.free name member
  rw [bindingIn_eq found, (Table.find?_eq_none_iff _ _).2 absent]
  exact Bool.false_ne_true

section Redescribed

variable {numbers : Text → Nat}
  (binds : Redescribed (fun name => bound (taken given.named numbers name))
    (ofUniforms (Table.keys members)) members others)

include binds

/-- The descriptor of a uniform gets one field more. -/
theorem Unbound.exists_fields {name : Text} (member : name ∈ ofUniforms (Table.keys members)) :
    ∃ fields, Table.find? name members = some (.object fields) ∧
      Table.find? name others =
        some (.object (fields ++ [(bindingName, taken given.named numbers name)])) := by
  obtain ⟨fields, found, absent⟩ := unbound.free name member
  refine ⟨fields, found, ?_⟩
  rw [binds.find, if_pos member, found, ← Table.put_of_notMem _ absent]
  rfl

theorem Unbound.bindingIn_eq {name : Text} (member : name ∈ ofUniforms (Table.keys members)) :
    bindingIn others name = some (taken given.named numbers name) := by
  obtain ⟨fields, found, absent⟩ := unbound.free name member
  have bound : Table.find? name others =
      some (.object (Table.put bindingName (taken given.named numbers name) fields)) := by
    rw [binds.find, if_pos member, found]
    rfl
  rw [Uniforms.bindingIn_eq bound, Table.find?_put, if_pos rfl]

end Redescribed

theorem Unbound.allocates
    (binds : Redescribed (fun name => bound (taken given.named
      (numberOf given.values 0 (unlisted given.named (ofUniforms (Table.keys members)))) name))
      (ofUniforms (Table.keys members)) members others) : Allocates given members others where
  keys := binds.keys
  data name isData := by
    have outside : name ∉ ofUniforms (Table.keys members) := by
      rw [mem_ofUniforms_iff, isData]
      exact fun both => Bool.noConfusion both.2
    rw [binds.find, if_neg outside]
  kept name member value isGiven := by
    obtain ⟨fields, found, foundThen⟩ := unbound.exists_fields binds member
    rw [taken, isGiven, Option.getD_some] at foundThen
    exact ⟨fields, found, foundThen⟩
  ordered := (sorted_ofUniforms _).filter _
  numbered place name isThere := by
    obtain ⟨inside, isName⟩ := List.getElem?_eq_some_iff.1 isThere
    have distinct : (unlisted given.named (ofUniforms (Table.keys members))).Nodup :=
      unbound.distinct.sublist List.filter_sublist
    obtain ⟨member, nothing⟩ := mem_unlisted_iff.1 (isName ▸ List.getElem_mem inside)
    obtain ⟨fields, found, foundThen⟩ := unbound.exists_fields binds member
    rw [taken, nothing, Option.getD_none, numberOf, Nat.zero_add, ← isName,
      distinct.idxOf_getElem place inside, isName] at foundThen
    exact ⟨fields, found, foundThen⟩
  apart name isUnlisted other member different number value isNumber isValue := by
    obtain ⟨isUniform, nothing⟩ := mem_unlisted_iff.1 isUnlisted
    rw [unbound.bindingIn_eq binds isUniform, taken, nothing, Option.getD_none] at isNumber
    rw [unbound.bindingIn_eq binds member, taken] at isValue
    obtain rfl := Option.some.inj isNumber
    cases isGiven : Table.find? other given.named with
    | none =>
      rw [isGiven, Option.getD_none] at isValue
      obtain rfl := Option.some.inj isValue
      refine Bool.eq_false_iff.2 fun same => different ?_
      exact eq_of_numberOf_eq (mem_unlisted_iff.2 ⟨member, isGiven⟩)
        (Int.ofNat_inj.1 (Document.equals_integer_iff.1 same))
    | some binding =>
      rw [isGiven, Option.getD_some] at isValue
      obtain rfl := Option.some.inj isValue
      have free := isFree_numberOf given.values 0
        (unlisted given.named (ofUniforms (Table.keys members))) name
      rw [IsFree, isUsed, List.any_eq_false] at free
      have isAmong : binding ∈ given.values :=
        List.mem_append_left _ (List.mem_map.2 ⟨_, Table.mem_of_find? isGiven, rfl⟩)
      exact Bool.eq_false_iff.2 (free binding isAmong)

/-- Bindings that can be members of a set are given to any free uniforms. -/
theorem exists_allocates_of_withBindings
    (hashable : ∀ value ∈ given.values, value.isHashable = true) :
    ∃ whole others, uniforms.withBindings given = .ok whole ∧ whole.document = .object others ∧
      Allocates given members others := by
  obtain ⟨whole, others, ended, isWhole, binds⟩ := exists_bindEach given.named unbound.isObject
    unbound.describes unbound.distinct (hasTaken_zero given.values)
  refine ⟨whole, others, ?_, isWhole, unbound.allocates binds⟩
  rw [withBindings, unbound.hasBindings_eq, List.all_eq_true.2 hashable, names_eq unbound.isObject]
  exact ended

end Unbound

/-! ### Numbers that are blocked -/

/-- Three free uniforms and data kept with them. -/
def freeUniforms : Uniforms :=
  ⟨.object [("$compute", .null), ("size", .object [("args", .array [.integer 4])]),
    ("gain", .object []), ("time", .object [])], by decide⟩

/-- A binding for one of the uniforms, one for a name that no uniform has and one for no name. -/
def mixedBindings : Bindings :=
  ⟨[("size", .integer 3), ("none", .number (.finite false (2 ^ 52) (-52)))], [.boolean false]⟩

theorem unbound_freeUniforms : Unbound freeUniforms freeUniforms.members := by
  refine ⟨rfl, fun name member => ?_⟩
  obtain ⟨present, notData⟩ := mem_ofUniforms_iff.1 member
  have cases : name = "$compute" ∨ name = "size" ∨ name = "gain" ∨ name = "time" := by
    simpa [freeUniforms, members, Document.members, Table.keys] using present
  rcases cases with rfl | rfl | rfl | rfl
  · cases notData
  · exact ⟨_, rfl, by decide⟩
  · exact ⟨_, rfl, by decide⟩
  · exact ⟨_, rfl, by decide⟩

theorem exists_allocates_of_withBindings_mixedBindings :
    Unbound freeUniforms freeUniforms.members ∧
      (∀ value ∈ mixedBindings.values, value.isHashable = true) ∧
      ∃ whole others, freeUniforms.withBindings mixedBindings = .ok whole ∧
        whole.document = .object others ∧ Allocates mixedBindings freeUniforms.members others := by
  have hashable : ∀ value ∈ mixedBindings.values, value.isHashable = true := by decide
  exact ⟨unbound_freeUniforms, hashable,
    exists_allocates_of_withBindings unbound_freeUniforms hashable⟩

/-- Zero is blocked by a truth value and one by a number with a fraction. -/
example : nextUnused mixedBindings.values 0 = 2 := by decide

end Uniforms

end ShaderReduction
