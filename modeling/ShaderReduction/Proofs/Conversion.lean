/-
This file proves that the free and the bound form of uniforms convert into each other without loss.

Free uniforms that are given bindings are what they were when the bindings are taken away again, to
the order of every name and field. Bindings that are taken away and given back leave the same
mapping, in which each descriptor has its binding last. If not all uniforms had one, the others have
bindings afterwards and those that had one keep theirs; the second time nothing changes any more.
All of this is about bindings that can be members of a set. With another one among them the bindings
of uniforms cannot be given back.
-/

import ShaderReduction.Proofs.Allocation

namespace ShaderReduction

namespace Table

variable {Key Value : Type} [DecidableEq Key]

/-- Tables with the same keys in the same order are equal if they hold the same under each key. -/
theorem eq_of_find?_eq {left right : Table Key Value} (sameKeys : keys right = keys left)
    (distinct : (keys left).Nodup) (same : ∀ key ∈ keys left, find? key right = find? key left) :
    right = left := by
  induction left generalizing right with
  | nil => exact List.map_eq_nil_iff.1 sameKeys
  | cons entry left inductionHypothesis =>
    obtain ⟨key, value⟩ := entry
    obtain ⟨⟨first, other⟩, right, rfl, isKey, restKeys⟩ := List.map_eq_cons_iff.1 sameKeys
    obtain rfl : first = key := isKey
    obtain ⟨absent, restDistinct⟩ := List.nodup_cons.1 distinct
    obtain ⟨sameValue, sameRest⟩ := List.forall_mem_cons.1 same
    rw [find?, find?, if_pos rfl, if_pos rfl] at sameValue
    have rest : right = left := by
      refine inductionHypothesis restKeys restDistinct fun name member => ?_
      have found := sameRest name member
      have different : first ≠ name := fun equal => absent (equal ▸ member)
      rwa [find?, find?, if_neg different, if_neg different] at found
    rw [Option.some.inj sameValue, rest]

theorem notMem_keys_erase (key : Key) (table : Table Key Value) : key ∉ keys (erase key table) := by
  rw [← find?_eq_none_iff, find?_erase, if_pos rfl]

/-- A new key that is erased again leaves no trace. -/
theorem erase_append_of_notMem {key : Key} {table : Table Key Value} (value : Value)
    (absent : key ∉ keys table) : erase key (table ++ [(key, value)]) = table := by
  have none : erase key [(key, value)] = [] := List.filter_cons_of_neg (by simp)
  have same : erase key (table ++ [(key, value)]) = erase key table ++ erase key [(key, value)] :=
    List.filter_append ..
  rw [same, none, List.append_nil, erase_of_notMem absent]

end Table

namespace Uniforms

open Descriptor

theorem eq_of_document_eq {left right : Uniforms} (same : left.document = right.document) :
    left = right := by
  cases left
  cases right
  cases same
  rfl

/-- The uniforms with their bindings taken away and given back. -/
def rebind (uniforms : Uniforms) : Except Fault Uniforms := do
  let free ← uniforms.withoutBindings
  free.withBindings (.ofMembers (← uniforms.bindings))

/-- Every uniform has a binding afterwards, the one that it had if it had one. -/
structure Completed (members others : Members) : Prop where
  keys : Table.keys others = Table.keys members
  all : ∀ name ∈ ofUniforms (Table.keys members), (bindingIn others name).isSome = true
  kept : ∀ name ∈ ofUniforms (Table.keys members), ∀ value,
    bindingIn members name = some value → bindingIn others name = some value

/-! ### The form of described uniforms -/

section Forms

variable {uniforms : Uniforms} {members : Members} (isObject : uniforms.document = .object members)
  (describes : Describes members (ofUniforms (Table.keys members)))

include isObject

theorem distinct_of_isObject : (Table.keys members).Nodup := by
  have distinct := uniforms.distinct
  rwa [isObject] at distinct

include describes

theorem hasBindings_eq_any : uniforms.hasBindings =
    .ok ((ofUniforms (Table.keys members)).any fun name => (bindingIn members name).isSome) := by
  rw [hasBindings, names_eq isObject]
  exact anyBound_eq isObject describes

theorem someBound_of_hasBindings (bound : uniforms.hasBindings = .ok true) :
    SomeBound uniforms members := by
  rw [hasBindings_eq_any isObject describes] at bound
  exact ⟨isObject, describes, List.any_eq_true.1 (Except.ok.inj bound)⟩

theorem unbound_of_hasBindings (free : uniforms.hasBindings = .ok false) :
    Unbound uniforms members := by
  rw [hasBindings_eq_any isObject describes] at free
  refine ⟨isObject, fun name member => ?_⟩
  obtain ⟨fields, found⟩ := describes name member
  have nothing := List.any_eq_false.1 (Except.ok.inj free) name member
  rw [Uniforms.bindingIn_eq found, Bool.not_eq_true, Option.isSome_eq_false_iff,
    Option.isNone_iff_eq_none, Table.find?_eq_none_iff] at nothing
  exact ⟨fields, found, nothing⟩

end Forms

/-! ### From the free form and back -/

section Unbound

variable {uniforms whole : Uniforms} {members others : Members} {given : Bindings}
  (unbound : Unbound uniforms members)

include unbound

theorem Unbound.exists_withBindings
    (hashable : ∀ value ∈ given.values, value.isHashable = true) :
    ∃ whole others numbers, uniforms.withBindings given = .ok whole ∧
      whole.document = .object others ∧
      Redescribed (fun name => bound (taken given.named numbers name))
        (ofUniforms (Table.keys members)) members others := by
  obtain ⟨whole, others, ended, isWhole, binds⟩ := exists_bindEach given.named unbound.isObject
    unbound.describes unbound.distinct (hasTaken_zero given.values)
  refine ⟨whole, others, _, ?_, isWhole, binds⟩
  rw [withBindings, unbound.hasBindings_eq, List.all_eq_true.2 hashable, names_eq unbound.isObject]
  exact ended

section Redescribed

variable {numbers : Text → Nat} (someUniform : ofUniforms (Table.keys members) ≠ [])
  (isWhole : whole.document = .object others)
  (binds : Redescribed (fun name => bound (taken given.named numbers name))
    (ofUniforms (Table.keys members)) members others)

include someUniform isWhole binds

theorem Unbound.someBound : SomeBound whole others := by
  obtain ⟨name, member⟩ := List.exists_mem_of_ne_nil _ someUniform
  refine ⟨isWhole, ?_, name, binds.keys ▸ member, ?_⟩
  · rw [binds.keys]
    intro other otherMember
    obtain ⟨fields, -, found⟩ := unbound.exists_fields binds otherMember
    exact ⟨_, found⟩
  · rw [unbound.bindingIn_eq binds member]
    rfl

/-- What was bound in any way is as it was when the bindings are taken away. -/
theorem Unbound.withoutBindings_eq : whole.withoutBindings = .ok uniforms := by
  obtain ⟨free, between, freed, isFree, unbinds, -⟩ :=
    (unbound.someBound someUniform isWhole binds).exists_free
  rw [binds.keys] at unbinds
  have same : between = members := by
    refine Table.eq_of_find?_eq (unbinds.keys.trans binds.keys)
      (distinct_of_isObject unbound.isObject) fun name _ => ?_
    rw [unbinds.find]
    split
    · next member =>
      obtain ⟨fields, found, foundThen⟩ := unbound.exists_fields binds member
      obtain ⟨_, sameFound, absent⟩ := unbound.free name member
      obtain rfl := Document.object.inj (Option.some.inj (found.symm.trans sameFound))
      rw [foundThen, found, Option.map_some, Descriptor.unbound,
        Table.erase_append_of_notMem _ absent]
    · next outside => rw [binds.find, if_neg outside]
  rw [freed, eq_of_document_eq (isFree.trans (same ▸ unbound.isObject.symm))]

end Redescribed

end Unbound

/-! ### From the bound form and back -/

section Rebound

variable {uniforms whole : Uniforms} {members others : Members}

theorem SomeBound.exists_rebind (someBound : SomeBound uniforms members)
    (hashable : Hashable members) :
    ∃ whole others, uniforms.rebind = .ok whole ∧ whole.document = .object others ∧
      Rebound members others := by
  obtain ⟨given, free, whole, others, isGiven, freed, toggles, isWhole, rebound⟩ :=
    someBound.exists_rebound hashable
  refine ⟨whole, others, ?_, isWhole, rebound⟩
  rw [rebind, freed, isGiven]
  exact toggles.isWhole

/-- A binding that cannot be a member of a set is not given back. -/
theorem SomeBound.rebind_eq_error (someBound : SomeBound uniforms members)
    (notHashable : ¬Hashable members) : uniforms.rebind = .error .unusableBinding := by
  obtain ⟨free, others, freed, -, -, isFree⟩ := someBound.exists_free
  have refused : ((Bindings.ofMembers (listed members
      (ofUniforms (Table.keys members)))).values.all Document.isHashable) = false := by
    refine Bool.eq_false_iff.2 fun all => notHashable fun name member value isGiven => ?_
    refine List.all_eq_true.1 all value (List.mem_append_left _ ?_)
    exact List.mem_map.2 ⟨_, mem_listed_iff.2 ⟨member, isGiven⟩, rfl⟩
  rw [rebind, freed, someBound.bindings_eq]
  show free.withBindings _ = _
  rw [withBindings, isFree, refused]
  rfl

variable (rebound : Rebound members others)

include rebound

/-- Each descriptor has its binding last. -/
theorem Rebound.exists_last {name : Text} (member : name ∈ ofUniforms (Table.keys members)) :
    ∃ fields value, Table.find? name others = some (.object (fields ++ [(bindingName, value)])) ∧
      bindingName ∉ Table.keys fields ∧ bindingIn others name = some value := by
  have last : ∀ {fields : Members} {value : Document}, bindingName ∉ Table.keys fields →
      Table.find? name others = some (.object (fields ++ [(bindingName, value)])) →
      bindingIn others name = some value := by
    intro fields value absent found
    rw [Uniforms.bindingIn_eq found, ← Table.put_of_notMem _ absent, Table.find?_put, if_pos rfl]
  cases isGiven : bindingIn members name with
  | some value =>
    obtain ⟨fields, -, found⟩ := rebound.kept name member value isGiven
    have absent := Table.notMem_keys_erase bindingName fields
    rw [Table.put_of_notMem _ absent] at found
    exact ⟨_, value, found, absent, last absent found⟩
  | none =>
    obtain ⟨fields, number, foundBefore, found, -⟩ := rebound.added name member isGiven
    rw [Uniforms.bindingIn_eq foundBefore, Table.find?_eq_none_iff] at isGiven
    exact ⟨fields, _, found, isGiven, last isGiven found⟩

theorem Rebound.completed : Completed members others where
  keys := rebound.keys
  all name member := by
    obtain ⟨_, value, -, -, isValue⟩ := rebound.exists_last member
    rw [isValue]
    rfl
  kept name member value isGiven := by
    obtain ⟨fields, -, found⟩ := rebound.kept name member value isGiven
    rw [Uniforms.bindingIn_eq found, Table.find?_put, if_pos rfl]

theorem Rebound.hashable (hashable : Hashable members) : Hashable others := by
  intro name member value isValue
  rw [rebound.keys] at member
  rcases rebound.bindingIn_eq member with same | ⟨number, isNumber⟩
  · exact hashable name member value (same.symm.trans isValue)
  · rw [Option.some.inj (isValue.symm.trans isNumber)]
    rfl

theorem Rebound.someBound (someBound : SomeBound uniforms members)
    (isWhole : whole.document = .object others) : SomeBound whole others := by
  obtain ⟨name, member, -⟩ := someBound.isSome
  refine ⟨isWhole, fun other otherMember => ?_, name, rebound.keys ▸ member,
    rebound.completed.all name member⟩
  obtain ⟨fields, value, found, -, -⟩ := rebound.exists_last (rebound.keys ▸ otherMember)
  exact ⟨_, found⟩

/-- Where each descriptor has its binding last, nothing is left to change. -/
theorem Rebound.eq_of_rebound {final : Members} (distinct : (Table.keys others).Nodup)
    (again : Rebound others final) : final = others := by
  refine Table.eq_of_find?_eq again.keys distinct fun name _ => ?_
  rcases again.cases_name name with same | member
  · exact same
  · obtain ⟨fields, value, found, absent, isValue⟩ :=
      rebound.exists_last (rebound.keys ▸ member)
    obtain ⟨_, foundThen, foundLast⟩ := again.kept name member value isValue
    obtain rfl := Document.object.inj (Option.some.inj (foundThen.symm.trans found))
    rw [foundLast, found, Table.erase_append_of_notMem _ absent, Table.put_of_notMem _ absent]

end Rebound

/-- Free uniforms, of which there is one at least, are what they were after bindings have been given
to them and taken away. Uniforms that are all bound are the same mapping after their bindings have
been taken away and given back. Uniforms that are bound in part are completed by that, and stay as
they are the next time. -/
theorem converts_of_describes {uniforms : Uniforms} {members : Members}
    (isObject : uniforms.document = .object members)
    (describes : Describes members (ofUniforms (Table.keys members))) :
    (uniforms.hasBindings = .ok false → ofUniforms (Table.keys members) ≠ [] →
      ∀ given : Bindings, (∀ value ∈ given.values, value.isHashable = true) →
        ∃ whole, uniforms.withBindings given = .ok whole ∧
          whole.withoutBindings = .ok uniforms) ∧
    (ofUniforms (Table.keys members) ≠ [] →
      (∀ name ∈ ofUniforms (Table.keys members), ∃ value,
        bindingIn members name = some value ∧ value.isHashable = true) →
        ∃ same others, uniforms.rebind = .ok same ∧ same.document = .object others ∧
          SameMapping members others ∧
          (uniforms.document.WellFormed → uniforms.equals same = true)) ∧
    (uniforms.hasBindings = .ok true → Hashable members →
      ∃ whole others, uniforms.rebind = .ok whole ∧ whole.document = .object others ∧
        Completed members others ∧ whole.rebind = .ok whole) := by
  refine ⟨fun free someUniform given hashable => ?_, fun someUniform allBound => ?_,
    fun bound hashable => ?_⟩
  · have unbound := unbound_of_hasBindings isObject describes free
    obtain ⟨whole, others, numbers, ended, isWhole, binds⟩ := unbound.exists_withBindings hashable
    exact ⟨whole, ended, unbound.withoutBindings_eq someUniform isWhole binds⟩
  · have isSome : ∀ name ∈ ofUniforms (Table.keys members),
        (bindingIn members name).isSome = true := by
      intro name member
      obtain ⟨value, isGiven, -⟩ := allBound name member
      rw [isGiven]
      rfl
    have hashable : Hashable members := by
      intro name member value isGiven
      obtain ⟨other, isOther, isHashable⟩ := allBound name member
      rwa [Option.some.inj (isGiven.symm.trans isOther)]
    obtain ⟨name, member⟩ := List.exists_mem_of_ne_nil _ someUniform
    have someBound : SomeBound uniforms members :=
      ⟨isObject, describes, name, member, isSome name member⟩
    obtain ⟨same, others, ended, isSame, rebound⟩ := someBound.exists_rebind hashable
    refine ⟨same, others, ended, isSame, rebound.sameMapping isSome, fun wellFormed => ?_⟩
    rw [equals, isObject, isSame]
    exact rebound.equals (isObject ▸ wellFormed) isSome
  · have someBound := someBound_of_hasBindings isObject describes bound
    obtain ⟨whole, others, ended, isWhole, rebound⟩ := someBound.exists_rebind hashable
    obtain ⟨final, finalMembers, endedAgain, isFinal, again⟩ :=
      (rebound.someBound someBound isWhole).exists_rebind (rebound.hashable hashable)
    obtain rfl := rebound.eq_of_rebound (distinct_of_isObject isWhole) again
    refine ⟨whole, _, ended, isWhole, rebound.completed, ?_⟩
    rw [endedAgain, eq_of_document_eq (isFinal.trans isWhole.symm)]

/-! ### Uniforms of each form -/

/-- Two uniforms with bindings, of which one is a truth value, and data between them. -/
def wholeUniforms : Uniforms :=
  ⟨.object [("size", .object [("binding", .integer 3), ("args", .array [.integer 4])]),
    ("$compute", .null), ("gain", .object [("binding", .boolean true)])], by decide⟩

/-- A uniform with a binding and one without. -/
def mixedUniforms : Uniforms :=
  ⟨.object [("size", .object [("binding", .integer 0), ("args", .array [.integer 4])]),
    ("gain", .object [])], by decide⟩

/-- A uniform of which the binding is an array. -/
def arrayUniforms : Uniforms :=
  ⟨.object [("size", .object [("binding", .array [.integer 1])])], by decide⟩

/-- What holds of the members that are no data holds of the uniforms. -/
theorem forall_mem_ofUniforms {members : Members} {holds : Text → Prop}
    (each : ∀ entry ∈ members, isMetadata entry.1 = false → holds entry.1) :
    ∀ name ∈ ofUniforms (Table.keys members), holds name := by
  intro name member
  obtain ⟨present, notData⟩ := mem_ofUniforms_iff.1 member
  obtain ⟨entry, isEntry, rfl⟩ := List.mem_map.1 present
  exact each entry isEntry notData

theorem mem_ofUniforms_size {members : Members} (present : ("size" : Text) ∈ Table.keys members) :
    ("size" : Text) ∈ ofUniforms (Table.keys members) := mem_ofUniforms_iff.2 ⟨present, rfl⟩

theorem converts_of_describes_eachForm :
    (∃ whole, freeUniforms.withBindings mixedBindings = .ok whole ∧
      whole.withoutBindings = .ok freeUniforms) ∧
    (∃ same others, wholeUniforms.rebind = .ok same ∧ same.document = .object others ∧
      SameMapping wholeUniforms.members others ∧ wholeUniforms.equals same = true) ∧
    ∃ whole others, mixedUniforms.rebind = .ok whole ∧ whole.document = .object others ∧
      Completed mixedUniforms.members others ∧ whole.rebind = .ok whole := by
  refine ⟨?_, ?_, ?_⟩
  · refine (converts_of_describes unbound_freeUniforms.isObject unbound_freeUniforms.describes).1
      unbound_freeUniforms.hasBindings_eq ?_ mixedBindings (by decide)
    exact List.ne_nil_of_mem (mem_ofUniforms_size (by decide))
  · have describes : Describes wholeUniforms.members
        (ofUniforms (Table.keys wholeUniforms.members)) := by
      refine forall_mem_ofUniforms ?_
      exact List.forall_mem_cons.2 ⟨fun _ => ⟨_, rfl⟩, List.forall_mem_cons.2
        ⟨fun uniform => Bool.noConfusion uniform, List.forall_mem_singleton.2 fun _ => ⟨_, rfl⟩⟩⟩
    have allBound : ∀ name ∈ ofUniforms (Table.keys wholeUniforms.members), ∃ value,
        bindingIn wholeUniforms.members name = some value ∧ value.isHashable = true := by
      refine forall_mem_ofUniforms ?_
      exact List.forall_mem_cons.2 ⟨fun _ => ⟨_, rfl, rfl⟩, List.forall_mem_cons.2
        ⟨fun uniform => Bool.noConfusion uniform,
          List.forall_mem_singleton.2 fun _ => ⟨_, rfl, rfl⟩⟩⟩
    have fields : (["binding", "args"] : List Text).Nodup := by decide
    have wellFormed : wholeUniforms.document.WellFormed :=
      ⟨wholeUniforms.distinct, ⟨fields, trivial, ⟨trivial, trivial⟩, trivial⟩, trivial,
        ⟨List.nodup_singleton _, trivial, trivial⟩, trivial⟩
    have isObject : wholeUniforms.document = .object wholeUniforms.members := rfl
    obtain ⟨same, others, ended, isSame, sameMapping, equals⟩ :=
      (converts_of_describes isObject describes).2.1
        (List.ne_nil_of_mem (mem_ofUniforms_size (by decide))) allBound
    exact ⟨same, others, ended, isSame, sameMapping, equals wellFormed⟩
  · have describes : Describes mixedUniforms.members
        (ofUniforms (Table.keys mixedUniforms.members)) := by
      refine forall_mem_ofUniforms ?_
      exact List.forall_mem_cons.2
        ⟨fun _ => ⟨_, rfl⟩, List.forall_mem_singleton.2 fun _ => ⟨_, rfl⟩⟩
    have hashable : Hashable mixedUniforms.members := by
      refine forall_mem_ofUniforms ?_
      refine List.forall_mem_cons.2 ⟨fun _ value isGiven => ?_, ?_⟩
      · obtain rfl := Option.some.inj isGiven
        rfl
      · exact List.forall_mem_singleton.2 fun _ value isGiven => nomatch isGiven
    have someBound : SomeBound mixedUniforms mixedUniforms.members :=
      ⟨rfl, describes, "size", mem_ofUniforms_size (by decide), rfl⟩
    exact (converts_of_describes someBound.isObject describes).2.2 someBound.hasBindings_eq hashable

/-- Uniforms can have a binding that is taken away and cannot be given back. -/
theorem rebind_arrayUniforms :
    arrayUniforms.document = .object arrayUniforms.members ∧
      Describes arrayUniforms.members (ofUniforms (Table.keys arrayUniforms.members)) ∧
      arrayUniforms.hasBindings = .ok true ∧
      arrayUniforms.rebind = .error .unusableBinding := by
  have describes : Describes arrayUniforms.members
      (ofUniforms (Table.keys arrayUniforms.members)) :=
    forall_mem_ofUniforms (List.forall_mem_singleton.2 fun _ => ⟨_, rfl⟩)
  have isUniform : ("size" : Text) ∈ ofUniforms (Table.keys arrayUniforms.members) :=
    mem_ofUniforms_size (by decide)
  have someBound : SomeBound arrayUniforms arrayUniforms.members :=
    ⟨rfl, describes, "size", isUniform, rfl⟩
  have notHashable : ¬Hashable arrayUniforms.members := fun hashable =>
    Bool.noConfusion (hashable "size" isUniform _ rfl)
  exact ⟨rfl, describes, someBound.hasBindings_eq, someBound.rebind_eq_error notHashable⟩

end Uniforms

end ShaderReduction
