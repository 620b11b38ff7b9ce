/-
This file proves what becomes of bound uniforms that pass to their free form and back.

Their descriptors are objects and their bindings integers. Taking the bindings away and giving them
back leaves every bound uniform as it was but for the order in its descriptor, and the data kept
with the uniforms too. A uniform that had no binding gets the first number that is not used, and no
two get the same one. Both ways go through the uniforms in turn, each time with one new descriptor
in the place of the old one, so what they leave is said uniform by uniform.
-/

import Mathlib.Data.Fintype.Pigeonhole
import Mathlib.Data.Nat.Nth
import ShaderReduction.Job
import ShaderReduction.Proofs.Document
import ShaderReduction.Proofs.Respect
import ShaderReduction.Proofs.Uniforms

namespace ShaderReduction

namespace Table

variable {Key Value : Type} [DecidableEq Key]

/-- A value that is put for a key that is present takes the place of the old one. -/
theorem keys_put_of_mem {key : Key} {table : Table Key Value} (value : Value)
    (member : key ∈ keys table) : keys (put key value table) = keys table := by
  induction table with
  | nil => exact absurd member List.not_mem_nil
  | cons entry table inductionHypothesis =>
    obtain ⟨other, old⟩ := entry
    rw [put]
    split
    · rfl
    · next different =>
      have later : key ∈ keys table :=
        (List.mem_cons.1 member).resolve_left fun same => different same.symm
      exact congrArg (other :: ·) (inductionHypothesis later)

theorem mem_keys_of_find?_eq_some {key : Key} {value : Value} {table : Table Key Value}
    (found : find? key table = some value) : key ∈ keys table :=
  List.mem_map.2 ⟨_, mem_of_find? found, rfl⟩

theorem erase_of_notMem {key : Key} {table : Table Key Value} (absent : key ∉ keys table) :
    erase key table = table := by
  refine List.filter_eq_self.2 fun entry member => decide_eq_true fun same => absent ?_
  rw [← same]
  exact List.mem_map_of_mem member

end Table

namespace Double

/-- A number has the value of one integer at most. -/
theorem eq_of_equalsInt {value : Double} {first second : Int}
    (isFirst : value.equalsInt first = true) (isSecond : value.equalsInt second = true) :
    first = second := by
  have positive : ∀ significand exponent, 0 < (scaled significand 1 exponent).2 := by
    rintro significand (power | power)
    · exact Nat.one_pos
    · exact Nat.mul_pos Nat.one_pos (Nat.pow_pos Nat.two_pos)
  cases value with
  | infinite negative => cases isFirst
  | undefined => cases isFirst
  | finite negative significand exponent =>
    have same := (beq_iff_eq.1 isFirst).symm.trans (beq_iff_eq.1 isSecond)
    exact Int.eq_of_mul_eq_mul_right
      (Int.natCast_ne_zero.2 (Nat.ne_of_gt (positive significand exponent))) same

end Double

namespace Document

theorem equals_integer_iff {left right : Int} :
    (Document.integer left).equals (.integer right) = true ↔ left = right := beq_iff_eq

/-- A value is equal to one number at most. -/
theorem eq_of_equals_integer {value : Document} {first second : Nat}
    (equalFirst : value.equals (.integer first) = true)
    (equalSecond : value.equals (.integer second) = true) : first = second := by
  have integers : ∀ {whole : Int}, (whole == (first : Int)) = true →
      (whole == (second : Int)) = true → first = second := fun isFirst isSecond =>
    Int.ofNat_inj.1 ((beq_iff_eq.1 isFirst).symm.trans (beq_iff_eq.1 isSecond))
  cases value with
  | null | string _ | array _ | object _ => cases equalFirst
  | boolean value => exact integers equalFirst equalSecond
  | integer value => exact integers equalFirst equalSecond
  | number value => exact Int.ofNat_inj.1 (Double.eq_of_equalsInt equalFirst equalSecond)

end Document

namespace Descriptor

/-- A descriptor without its binding. -/
def unbound : Document → Document
  | .object fields => .object (Table.erase bindingName fields)
  | other => other

/-- A descriptor with a binding. -/
def bound (value : Document) : Document → Document
  | .object fields => .object (Table.put bindingName value fields)
  | other => other

end Descriptor

namespace Uniforms

open ShaderReduction.Action Descriptor

/-! ### What is taken of uniforms -/

/-- The binding that the members of an object hold for a name. -/
def bindingIn (members : Members) (name : Text) : Option Document :=
  match Table.find? name members with
  | some (.object fields) => Table.find? bindingName fields
  | _ => none

/-- The descriptors of some names are objects. -/
def Describes (members : Members) (names : List Text) : Prop :=
  ∀ name ∈ names, ∃ fields, Table.find? name members = some (.object fields)

theorem bindingIn_eq {members : Members} {name : Text} {fields : Members}
    (found : Table.find? name members = some (.object fields)) :
    bindingIn members name = Table.find? bindingName fields := by
  rw [bindingIn, found]

section Taking

variable {uniforms : Uniforms} {members : Members} (isObject : uniforms.document = .object members)

include isObject

theorem names_eq : uniforms.names = .ok (ofUniforms (Table.keys members)) := by
  rw [names, isObject]

theorem descriptor_eq {name : Text} {document : Document}
    (found : Table.find? name members = some document) :
    uniforms.descriptor name = .ok document := by
  rw [descriptor, isObject]
  dsimp only
  rw [found]

theorem anyBound_eq {names : List Text} (describes : Describes members names) :
    uniforms.anyBound names = .ok (names.any fun name => (bindingIn members name).isSome) := by
  induction names with
  | nil => rfl
  | cons name names inductionHypothesis =>
    obtain ⟨⟨fields, found⟩, rest⟩ := List.forall_mem_cons.1 describes
    have others := inductionHypothesis rest
    rw [anyBound, descriptor_eq isObject found, List.any_cons, bindingIn_eq found]
    show (Except.ok (Table.find? bindingName fields).isSome >>= fun bound =>
      if bound then pure true else uniforms.anyBound names) = _
    cases Table.find? bindingName fields with
    | none => exact others
    | some value => rfl

theorem bindingsOf_eq {names : List Text} (describes : Describes members names) :
    uniforms.bindingsOf names =
      .ok (names.filterMap fun name => (bindingIn members name).map (name, ·)) := by
  induction names with
  | nil => rfl
  | cons name names inductionHypothesis =>
    obtain ⟨⟨fields, found⟩, rest⟩ := List.forall_mem_cons.1 describes
    have others := inductionHypothesis rest
    rw [bindingsOf, descriptor_eq isObject found, List.filterMap_cons, bindingIn_eq found]
    show (Except.ok (Table.find? bindingName fields).isSome >>= fun bound =>
      if bound then Descriptor.binding (.object fields) >>= fun value =>
        uniforms.bindingsOf names >>= fun rest => pure ((name, value) :: rest)
      else uniforms.bindingsOf names) = _
    cases binding : Table.find? bindingName fields with
    | none => exact others
    | some value =>
      have taken : Descriptor.binding (.object fields) = .ok value := by
        rw [Descriptor.binding, binding]
      show (Descriptor.binding (.object fields) >>= fun value =>
        uniforms.bindingsOf names >>= fun rest => pure ((name, value) :: rest)) = _
      rw [taken, others]
      rfl

end Taking

/-! ### One descriptor after the other -/

/-- Under some names the members are changed, each in the way that is said for its name, and
otherwise they are the same. -/
structure Redescribed (change : Text → Document → Document) (names : List Text)
    (members others : Members) : Prop where
  keys : Table.keys others = Table.keys members
  find : ∀ name, Table.find? name others =
    if name ∈ names then (Table.find? name members).map (change name)
    else Table.find? name members

section Redescribed

variable {change : Text → Document → Document} {name : Text} {names : List Text}
  {members others : Members} {document : Document}

theorem redescribed_nil : Redescribed change [] members members where
  keys := rfl
  find _ := (if_neg List.not_mem_nil).symm

theorem Redescribed.cons (absent : name ∉ names)
    (found : Table.find? name members = some document)
    (rest : Redescribed change names (Table.put name (change name document) members) others) :
    Redescribed change (name :: names) members others where
  keys := rest.keys.trans (Table.keys_put_of_mem _ (Table.mem_keys_of_find?_eq_some found))
  find other := by
    rw [rest.find, Table.find?_put]
    by_cases same : name = other
    · subst same
      rw [if_neg absent, if_pos rfl, if_pos List.mem_cons_self, found, Option.map_some]
    · have among : other ∈ name :: names ↔ other ∈ names := by
        rw [List.mem_cons]
        exact or_iff_right fun equal => same equal.symm
      rw [if_neg same]
      simp only [among]

theorem Redescribed.congr {other : Text → Document → Document}
    (redescribed : Redescribed change names members others)
    (same : ∀ name ∈ names, change name = other name) : Redescribed other names members others where
  keys := redescribed.keys
  find name := by
    rw [redescribed.find]
    split
    · next among => rw [same name among]
    · rfl

/-- A change of one descriptor leaves those of other names objects. -/
theorem Describes.put (describes : Describes members names) (absent : name ∉ names)
    (document : Document) : Describes (Table.put name document members) names := by
  intro other among
  obtain ⟨fields, found⟩ := describes other among
  refine ⟨fields, ?_⟩
  have different : name ≠ other := fun same => absent (same ▸ among)
  rw [Table.find?_put, if_neg different]
  exact found

end Redescribed

theorem describe_eq {uniforms : Uniforms} {members : Members}
    (isObject : uniforms.document = .object members) (name : Text) (document : Document) :
    (uniforms.describe name document).document = .object (Table.put name document members) := by
  have same : uniforms.members = members := by
    show uniforms.document.members = members
    rw [isObject]
    rfl
  show Document.object (Table.put name document uniforms.members) = _
  rw [same]

/-- Taking bindings away ends well if the descriptors are objects. -/
theorem exists_unbindEach {uniforms : Uniforms} {members : Members} {names : List Text}
    (isObject : uniforms.document = .object members) (describes : Describes members names)
    (distinct : names.Nodup) :
    ∃ free others, uniforms.unbindEach names = .ok free ∧ free.document = .object others ∧
      Redescribed (fun _ => unbound) names members others := by
  induction names generalizing uniforms members with
  | nil => exact ⟨uniforms, members, rfl, isObject, redescribed_nil⟩
  | cons name names inductionHypothesis =>
    obtain ⟨⟨fields, found⟩, rest⟩ := List.forall_mem_cons.1 describes
    obtain ⟨absent, restDistinct⟩ := List.nodup_cons.1 distinct
    obtain ⟨free, others, ended, isFree, redescribed⟩ :=
      inductionHypothesis (describe_eq isObject name (unbound (.object fields)))
        (Describes.put rest absent _) restDistinct
    refine ⟨free, others, ?_, isFree, redescribed.cons absent found⟩
    rw [unbindEach, descriptor_eq isObject found]
    exact ended

/-! ### Unused numbers -/

/-- A number to which no value is equal. -/
abbrev IsFree (values : List Document) (number : Nat) : Prop := isUsed values number = false

theorem exists_unused (values : List Document) (start : Nat) :
    ∃ number, start ≤ number ∧ number < start + (values.length + 1) ∧ IsFree values number := by
  by_contra none
  have all : ∀ step : Fin (values.length + 1), ∃ index : Fin values.length,
      values[index].equals (.integer (start + step : Nat)) = true := by
    intro step
    have used : isUsed values (start + step) = true := by
      by_contra unused
      exact none ⟨start + step, Nat.le_add_right _ _, Nat.add_lt_add_left step.isLt _,
        Bool.eq_false_iff.2 unused⟩
    obtain ⟨value, member, equal⟩ := List.any_eq_true.1 used
    obtain ⟨index, bound, rfl⟩ := List.getElem_of_mem member
    exact ⟨⟨index, bound⟩, equal⟩
  choose index equal using all
  obtain ⟨first, second, different, same⟩ :=
    Fintype.exists_ne_map_eq_of_card_lt index (by simp only [Fintype.card_fin]; omega)
  have numbers := Document.eq_of_equals_integer (equal first) (same ▸ equal second)
  exact different (Fin.ext (by omega))

theorem infinite_isFree (values : List Document) :
    (Set.ofPred (IsFree values)).Infinite := by
  refine Set.infinite_of_forall_exists_gt fun start => ?_
  obtain ⟨number, above, -, free⟩ := exists_unused values (start + 1)
  exact ⟨number, free, above⟩

theorem firstUnused_spec {values : List Document} {steps start : Nat}
    (enough : ∃ number, start ≤ number ∧ number < start + steps ∧ IsFree values number) :
    start ≤ firstUnused values steps start ∧ IsFree values (firstUnused values steps start) ∧
      ∀ number, start ≤ number → number < firstUnused values steps start →
        isUsed values number = true := by
  induction steps generalizing start with
  | zero =>
    obtain ⟨number, above, below, -⟩ := enough
    omega
  | succ steps inductionHypothesis =>
    rw [firstUnused]
    split
    · next used =>
      obtain ⟨number, above, below, free⟩ := enough
      have later : start ≠ number := fun same => by
        rw [← same, IsFree, used] at free
        cases free
      have enoughLeft : ∃ number, start + 1 ≤ number ∧ number < start + 1 + steps ∧
          IsFree values number := ⟨number, by omega, by omega, free⟩
      obtain ⟨least, isFree, passed⟩ := inductionHypothesis enoughLeft
      refine ⟨by omega, isFree, fun other aboveStart belowFound => ?_⟩
      by_cases same : start = other
      · exact same ▸ used
      · exact passed other (by omega) belowFound
    · next unused =>
      exact ⟨Nat.le_refl _, Bool.eq_false_iff.2 unused, fun number above below => by omega⟩

/-- The search for an unused number passes over used ones only. -/
theorem nextUnused_spec (values : List Document) (start : Nat) :
    start ≤ nextUnused values start ∧ IsFree values (nextUnused values start) ∧
      ∀ number, start ≤ number → number < nextUnused values start → isUsed values number = true :=
  firstUnused_spec (exists_unused values start)

/-- Of the numbers to which none of some values is equal the first ones are used besides those
values, so many as is said, and no search goes on behind another one. -/
structure HasTaken (values used : List Document) (next count : Nat) : Prop where
  isUsed_iff : ∀ number, isUsed used number = true ↔
    isUsed values number = true ∨ Nat.count (IsFree values) number < count
  next_le : Nat.count (IsFree values) next ≤ count

theorem hasTaken_zero (values : List Document) : HasTaken values values 0 0 where
  isUsed_iff _ := ⟨.inl, fun either => either.resolve_right (Nat.not_lt_zero _)⟩
  next_le := Nat.le_refl _

section HasTaken

variable {values used : List Document} {next count : Nat}
  (hasTaken : HasTaken values used next count)

include hasTaken

/-- The search finds the next of the numbers that are free at the start. -/
theorem HasTaken.nextUnused_eq : nextUnused used next = Nat.nth (IsFree values) count := by
  obtain ⟨-, unused, passed⟩ := nextUnused_spec used next
  have notUsed := mt (hasTaken.isUsed_iff _).2 (Bool.eq_false_iff.1 unused)
  obtain ⟨free, atLeast⟩ := not_or.1 notUsed
  have atMost : Nat.count (IsFree values) (nextUnused used next) ≤ count := by
    by_contra beyond
    have infinite := infinite_isFree values
    have before := Nat.nth_lt_of_lt_count (not_le.1 beyond)
    have isFree : IsFree values (Nat.nth (IsFree values) count) :=
      Nat.nth_mem_of_infinite infinite count
    have isCount := Nat.count_nth_of_infinite infinite count
    have isUsed : isUsed used (Nat.nth (IsFree values) count) = true := by
      refine passed _ (not_lt.1 fun belowNext => ?_) before
      have fewer := Nat.count_strict_mono isFree belowNext
      have bound := hasTaken.next_le
      omega
    rcases (hasTaken.isUsed_iff _).1 isUsed with isValue | fewer
    · rw [isFree] at isValue
      cases isValue
    · omega
  rw [← Nat.nth_count (p := IsFree values) (Bool.eq_false_iff.2 free)]
  exact congrArg _ (Nat.le_antisymm atMost (not_lt.1 atLeast))

/-- A number that was found is used from then on. -/
theorem HasTaken.cons : HasTaken values (.integer (nextUnused used next) :: used)
    (nextUnused used next) (count + 1) := by
  have infinite := infinite_isFree values
  have isCount : Nat.count (IsFree values) (nextUnused used next) = count := by
    rw [hasTaken.nextUnused_eq]
    exact Nat.count_nth_of_infinite infinite count
  refine ⟨fun number => ?_, isCount ▸ Nat.le_succ _⟩
  have split : isUsed (.integer (nextUnused used next) :: used) number = true ↔
      nextUnused used next = number ∨ isUsed used number = true := by
    rw [isUsed, List.any_cons, Bool.or_eq_true, Document.equals_integer_iff, Int.ofNat_inj]
    rfl
  rw [split, hasTaken.isUsed_iff]
  constructor
  · rintro (rfl | isValue | fewer)
    · exact .inr (by omega)
    · exact .inl isValue
    · exact .inr (by omega)
  · rintro (isValue | fewer)
    · exact .inr (.inl isValue)
    · by_cases same : Nat.count (IsFree values) number = count
      · cases isValue : isUsed values number with
        | true => exact .inr (.inl rfl)
        | false =>
          rw [hasTaken.nextUnused_eq, ← same]
          exact .inl (Nat.nth_count (p := IsFree values) isValue)
      · exact .inr (.inr (by omega))

end HasTaken

/-! ### Giving bindings -/

/-- The binding that a uniform takes: the one that is given to its name, or else a number. -/
def taken (given : Members) (numbers : Text → Nat) (name : Text) : Document :=
  (Table.find? name given).getD (.integer (numbers name))

/-- The names to which nothing is given. -/
def unlisted (given : Members) (names : List Text) : List Text :=
  names.filter fun name => (Table.find? name given).isNone

theorem mem_unlisted_iff {given : Members} {names : List Text} {name : Text} :
    name ∈ unlisted given names ↔ name ∈ names ∧ Table.find? name given = none := by
  rw [unlisted, List.mem_filter, Option.isNone_iff_eq_none]

/-- The number that a name takes: names in a row take free numbers in a row, the first one of them
the free number of a given place. -/
noncomputable def numberOf (values : List Document) (place : Nat) (names : List Text)
    (name : Text) : Nat :=
  Nat.nth (IsFree values) (place + names.idxOf name)

theorem isFree_numberOf (values : List Document) (place : Nat) (names : List Text) (name : Text) :
    IsFree values (numberOf values place names name) :=
  Nat.nth_mem_of_infinite (infinite_isFree values) _

theorem eq_of_numberOf_eq {values : List Document} {place : Nat} {names : List Text}
    {first second : Text} (member : first ∈ names)
    (same : numberOf values place names first = numberOf values place names second) :
    first = second :=
  (List.idxOf_inj member).1 (Nat.add_left_cancel (Nat.nth_injective (infinite_isFree values) same))

/-- Giving bindings ends well if the descriptors are objects, and the uniforms to which nothing is
given take the numbers that are free, in their order. -/
theorem exists_bindEach {uniforms : Uniforms} {members : Members} {names : List Text}
    (given : Members) {values used : List Document} {next count : Nat}
    (isObject : uniforms.document = .object members) (describes : Describes members names)
    (distinct : names.Nodup) (hasTaken : HasTaken values used next count) :
    ∃ whole others, bindEach given uniforms used next names = .ok whole ∧
      whole.document = .object others ∧
      Redescribed (fun name =>
        bound (taken given (numberOf values count (unlisted given names)) name))
        names members others := by
  induction names generalizing uniforms members used next count with
  | nil => exact ⟨uniforms, members, rfl, isObject, redescribed_nil⟩
  | cons name names inductionHypothesis =>
    obtain ⟨⟨fields, found⟩, rest⟩ := List.forall_mem_cons.1 describes
    obtain ⟨absent, restDistinct⟩ := List.nodup_cons.1 distinct
    cases isGiven : Table.find? name given with
    | some value =>
      obtain ⟨whole, others, ended, isWhole, redescribed⟩ :=
        inductionHypothesis (describe_eq isObject name (bound value (.object fields)))
          (Describes.put rest absent _) restDistinct hasTaken
      have same : unlisted given (name :: names) = unlisted given names :=
        List.filter_cons_of_neg (by rw [isGiven]; exact Bool.false_ne_true)
      refine ⟨whole, others, ?_, isWhole, Redescribed.cons absent found ?_⟩
      · rw [bindEach, descriptor_eq isObject found]
        dsimp only [Bind.bind, Except.bind]
        rw [isGiven]
        exact ended
      · rw [taken, isGiven, Option.getD_some, same]
        exact redescribed
    | none =>
      obtain ⟨whole, others, ended, isWhole, redescribed⟩ :=
        inductionHypothesis
          (describe_eq isObject name (bound (.integer (nextUnused used next)) (.object fields)))
          (Describes.put rest absent _) restDistinct hasTaken.cons
      have longer : unlisted given (name :: names) = name :: unlisted given names :=
        List.filter_cons_of_pos (by rw [isGiven]; rfl)
      have first : numberOf values count (name :: unlisted given names) name =
          nextUnused used next := by
        rw [numberOf, List.idxOf_cons_self, hasTaken.nextUnused_eq]
        rfl
      refine ⟨whole, others, ?_, isWhole, Redescribed.cons absent found ?_⟩
      · rw [bindEach, descriptor_eq isObject found]
        dsimp only [Bind.bind, Except.bind]
        rw [isGiven]
        exact ended
      · rw [taken, isGiven, Option.getD_none, longer, first]
        refine redescribed.congr fun other member => ?_
        have different : name ≠ other := fun same => absent (same ▸ member)
        rw [taken, taken, numberOf, numberOf, List.idxOf_cons_ne _ different, Nat.succ_eq_add_one,
          Nat.add_right_comm, Nat.add_assoc]

/-! ### There and back -/

/-- The descriptors of the uniforms are objects, some of which hold bindings. -/
structure SomeBound (uniforms : Uniforms) (members : Members) : Prop where
  isObject : uniforms.document = .object members
  describes : Describes members (ofUniforms (Table.keys members))
  isSome : ∃ name ∈ ofUniforms (Table.keys members), (bindingIn members name).isSome = true

/-- All bindings of the uniforms can be members of a set. -/
def Hashable (members : Members) : Prop :=
  ∀ name ∈ ofUniforms (Table.keys members), ∀ value,
    bindingIn members name = some value → value.isHashable = true

/-- The descriptors of the uniforms are objects, some of which hold bindings, and all bindings are
integers. -/
structure IsBound (uniforms : Uniforms) (members : Members) : Prop where
  isObject : uniforms.document = .object members
  describes : Describes members (ofUniforms (Table.keys members))
  isSome : ∃ name ∈ ofUniforms (Table.keys members), (bindingIn members name).isSome = true
  integers : ∀ name ∈ ofUniforms (Table.keys members), ∀ value,
    bindingIn members name = some value → ∃ number, value = .integer number

theorem IsBound.someBound {uniforms : Uniforms} {members : Members}
    (isBound : IsBound uniforms members) : SomeBound uniforms members :=
  ⟨isBound.isObject, isBound.describes, isBound.isSome⟩

theorem IsBound.hashable {uniforms : Uniforms} {members : Members}
    (isBound : IsBound uniforms members) : Hashable members := by
  intro name member value isGiven
  obtain ⟨number, rfl⟩ := isBound.integers name member value isGiven
  rfl

/-- What the members of bound uniforms become when the bindings are taken away and given back: the
same names in the same order, the same data, and for each uniform its descriptor, with the binding
that it had put last or, if it had none, with a number that is no other's binding. -/
structure Rebound (members others : Members) : Prop where
  keys : Table.keys others = Table.keys members
  data : ∀ name, isMetadata name = true → Table.find? name others = Table.find? name members
  kept : ∀ name ∈ ofUniforms (Table.keys members), ∀ value, bindingIn members name = some value →
    ∃ fields, Table.find? name members = some (.object fields) ∧
      Table.find? name others = some (.object
        (Table.put bindingName value (Table.erase bindingName fields)))
  added : ∀ name ∈ ofUniforms (Table.keys members), bindingIn members name = none →
    ∃ fields, ∃ number : Nat, Table.find? name members = some (.object fields) ∧
      Table.find? name others = some (.object (fields ++ [(bindingName, .integer number)])) ∧
      ∀ other ∈ ofUniforms (Table.keys members), other ≠ name →
        bindingIn others other ≠ some (.integer number)

theorem mem_ofUniforms_iff {name : Text} {names : List Text} :
    name ∈ ofUniforms names ↔ name ∈ names ∧ isMetadata name = false := by
  rw [ofUniforms, Text.sort, List.mem_mergeSort, List.mem_filter, Bool.not_eq_true']

/-- A binding that is taken away and given back is found as before, and so is every other field. -/
theorem find?_put_erase {fields : Members} {value : Document}
    (isGiven : Table.find? bindingName fields = some value) (field : Text) :
    Table.find? field (Table.put bindingName value (Table.erase bindingName fields)) =
      Table.find? field fields := by
  rw [Table.find?_put, Table.find?_erase]
  split
  · next same => rw [← same, isGiven]
  · rfl

/-- Two objects are the same mapping but for the order of the fields in their members: they have the
same names in the same order, and under each name both have the same member, or two objects that
have the same under every field. -/
structure SameMapping (members others : Members) : Prop where
  keys : Table.keys others = Table.keys members
  same : ∀ name, Table.find? name others = Table.find? name members ∨
    ∃ fields found, Table.find? name members = some (.object fields) ∧
      Table.find? name others = some (.object found) ∧
      ∀ field, Table.find? field found = Table.find? field fields

section Rebound

variable {members others : Members} (rebound : Rebound members others)

include rebound

/-- What is under a name is data, the descriptor of a uniform or nothing. -/
theorem Rebound.cases_name (name : Text) :
    Table.find? name others = Table.find? name members ∨
      name ∈ ofUniforms (Table.keys members) := by
  by_cases present : name ∈ Table.keys members
  · cases isData : isMetadata name with
    | true => exact .inl (rebound.data name isData)
    | false => exact .inr (mem_ofUniforms_iff.2 ⟨present, isData⟩)
  · have absent : name ∉ Table.keys others := rebound.keys ▸ present
    rw [(Table.find?_eq_none_iff name others).2 absent,
      (Table.find?_eq_none_iff name members).2 present]
    exact .inl rfl

/-- Uniforms that all have bindings are the same when these are given back. -/
theorem Rebound.sameMapping
    (all : ∀ name ∈ ofUniforms (Table.keys members), (bindingIn members name).isSome = true) :
    SameMapping members others where
  keys := rebound.keys
  same name := by
    rcases rebound.cases_name name with same | member
    · exact .inl same
    · obtain ⟨value, isGiven⟩ := Option.isSome_iff_exists.1 (all name member)
      obtain ⟨fields, found, foundThen⟩ := rebound.kept name member value isGiven
      rw [bindingIn_eq found] at isGiven
      exact .inr ⟨fields, _, found, foundThen, find?_put_erase isGiven⟩

/-- They are equal as documents if no object in them names a member twice. -/
theorem Rebound.equals (wellFormed : Document.WellFormed (.object members))
    (all : ∀ name ∈ ofUniforms (Table.keys members), (bindingIn members name).isSome = true) :
    (Document.object members).equals (.object others) = true := by
  have length : members.length = others.length := by
    have sameKeys := congrArg List.length rebound.keys
    rw [Table.keys, Table.keys, List.length_map, List.length_map] at sameKeys
    exact sameKeys.symm
  refine Bool.and_eq_true_iff.2
    ⟨beq_iff_eq.2 length, Document.equalsMembers_iff.2 fun entry member => ?_⟩
  have isThere := Table.find?_of_mem wellFormed.1 member
  have isWellFormed := Document.wellFormedMembers_iff.1 wellFormed.2 entry member
  rcases rebound.cases_name entry.1 with same | isUniform
  · exact ⟨entry.2, same.trans isThere, Document.equals_self isWellFormed⟩
  · obtain ⟨value, isGiven⟩ := Option.isSome_iff_exists.1 (all entry.1 isUniform)
    obtain ⟨fields, found, foundThen⟩ := rebound.kept entry.1 isUniform value isGiven
    rw [bindingIn_eq found] at isGiven
    have isObject : entry.2 = .object fields := Option.some.inj (isThere.symm.trans found)
    rw [isObject] at isWellFormed ⊢
    have distinct : (Table.keys (Table.erase bindingName fields)).Nodup :=
      isWellFormed.1.sublist (List.filter_sublist.map Prod.fst)
    exact ⟨_, foundThen, Document.equals_of_find? isWellFormed
      (Table.nodup_keys_put bindingName value distinct)
      fun field => (find?_put_erase isGiven field).symm⟩

end Rebound

theorem nodup_ofUniforms {names : List Text} (distinct : names.Nodup) :
    (ofUniforms names).Nodup := by
  rw [ofUniforms, Text.sort, (List.mergeSort_perm _ _).nodup_iff]
  exact distinct.sublist List.filter_sublist

/-- The bindings of some names, in their order. -/
def listed (members : Members) (names : List Text) : Members :=
  names.filterMap fun name => (bindingIn members name).map (name, ·)

theorem find?_listed (members : Members) {names : List Text} {name : Text}
    (member : name ∈ names) : Table.find? name (listed members names) = bindingIn members name := by
  induction names with
  | nil => exact absurd member List.not_mem_nil
  | cons first names inductionHypothesis =>
    rw [listed, List.filterMap_cons]
    by_cases same : first = name
    · subst same
      cases isBound : bindingIn members first with
      | none =>
        by_cases later : first ∈ names
        · exact (inductionHypothesis later).trans isBound
        · refine (Table.find?_eq_none_iff _ _).2 fun inKeys => later ?_
          obtain ⟨entry, isListed, rfl⟩ := List.mem_map.1 inKeys
          obtain ⟨other, among, found⟩ := List.mem_filterMap.1 isListed
          obtain ⟨value, -, rfl⟩ := Option.map_eq_some_iff.1 found
          exact among
      | some value => exact if_pos rfl
    · have rest := inductionHypothesis
        ((List.mem_cons.1 member).resolve_left fun equal => same equal.symm)
      cases bindingIn members first with
      | none => exact rest
      | some value => exact (if_neg same).trans rest

theorem mem_listed_iff {members : Members} {names : List Text} {name : Text} {value : Document} :
    (name, value) ∈ listed members names ↔ name ∈ names ∧ bindingIn members name = some value := by
  rw [listed, List.mem_filterMap]
  constructor
  · rintro ⟨other, member, found⟩
    obtain ⟨given, isGiven, same⟩ := Option.map_eq_some_iff.1 found
    obtain ⟨rfl, rfl⟩ := Prod.mk.inj same
    exact ⟨member, isGiven⟩
  · rintro ⟨member, isGiven⟩
    exact ⟨name, member, by rw [isGiven]; rfl⟩

/-- A free form and a bound one, to which the given bindings lead from the other. -/
structure Toggles (given : Members) (free whole : Uniforms) : Prop where
  isFree : free.hasBindings = .ok false
  isWhole : free.withBindings (.ofMembers given) = .ok whole
  isTaken : ∃ written, whole.bindings = .ok written

section Forms

variable {uniforms : Uniforms} {members : Members} (someBound : SomeBound uniforms members)

include someBound

theorem SomeBound.distinct : (ofUniforms (Table.keys members)).Nodup := by
  have distinct := uniforms.distinct
  rw [someBound.isObject] at distinct
  exact nodup_ofUniforms distinct

theorem SomeBound.bindings_eq :
    uniforms.bindings = .ok (listed members (ofUniforms (Table.keys members))) := by
  rw [bindings, names_eq someBound.isObject]
  exact bindingsOf_eq someBound.isObject someBound.describes

theorem SomeBound.hasBindings_eq : uniforms.hasBindings = .ok true := by
  rw [hasBindings, names_eq someBound.isObject]
  refine (anyBound_eq someBound.isObject someBound.describes).trans (congrArg Except.ok ?_)
  exact List.any_eq_true.2 someBound.isSome

/-- Without their bindings, uniforms are free. -/
theorem SomeBound.exists_free :
    ∃ free others, uniforms.withoutBindings = .ok free ∧ free.document = .object others ∧
      Redescribed (fun _ => unbound) (ofUniforms (Table.keys members)) members others ∧
      free.hasBindings = .ok false := by
  obtain ⟨free, others, ended, isFree, redescribed⟩ :=
    exists_unbindEach someBound.isObject someBound.describes someBound.distinct
  have freed : ∀ name ∈ ofUniforms (Table.keys members), ∃ fields,
      Table.find? name others = some (.object (Table.erase bindingName fields)) := by
    intro name member
    obtain ⟨fields, found⟩ := someBound.describes name member
    refine ⟨fields, ?_⟩
    rw [redescribed.find, if_pos member, found]
    rfl
  have describes : Describes others (ofUniforms (Table.keys others)) := by
    rw [redescribed.keys]
    intro name member
    obtain ⟨fields, found⟩ := freed name member
    exact ⟨_, found⟩
  refine ⟨free, others, ?_, isFree, redescribed, ?_⟩
  · rw [withoutBindings, someBound.hasBindings_eq, names_eq someBound.isObject]
    exact ended
  · rw [hasBindings, names_eq isFree]
    refine (anyBound_eq isFree describes).trans (congrArg Except.ok ?_)
    rw [redescribed.keys, List.any_eq_false]
    intro name member
    obtain ⟨fields, found⟩ := freed name member
    rw [bindingIn_eq found, Table.find?_erase, if_pos rfl]
    exact Bool.false_ne_true

section Rebound

variable {between others : Members}
  (unbinds : Redescribed (fun _ => unbound) (ofUniforms (Table.keys members)) members between)

section Taken

variable {numbers : Text → Nat}
  (binds : Redescribed
    (fun name => bound (taken (listed members (ofUniforms (Table.keys members))) numbers name))
    (ofUniforms (Table.keys members)) between others)

include unbinds binds

/-- A uniform whose binding was taken away and given back has the fields of its descriptor, and the
binding that it takes. -/
theorem SomeBound.exists_fields {name : Text} (member : name ∈ ofUniforms (Table.keys members)) :
    ∃ fields, Table.find? name members = some (.object fields) ∧
      Table.find? name others = some (.object (Table.put bindingName
        ((bindingIn members name).getD (.integer (numbers name)))
          (Table.erase bindingName fields))) := by
  obtain ⟨fields, found⟩ := someBound.describes name member
  refine ⟨fields, found, ?_⟩
  rw [binds.find, if_pos member, unbinds.find, if_pos member, found, taken, find?_listed _ member]
  rfl

theorem SomeBound.bindingIn_others {name : Text} (member : name ∈ ofUniforms (Table.keys members)) :
    bindingIn others name = some ((bindingIn members name).getD (.integer (numbers name))) := by
  obtain ⟨fields, -, found⟩ := someBound.exists_fields unbinds binds member
  rw [bindingIn_eq found, Table.find?_put, if_pos rfl]

end Taken

variable (binds : Redescribed
    (fun name => bound (taken (listed members (ofUniforms (Table.keys members)))
      (numberOf ((listed members (ofUniforms (Table.keys members))).map Prod.snd) 0
        (unlisted (listed members (ofUniforms (Table.keys members)))
          (ofUniforms (Table.keys members)))) name))
    (ofUniforms (Table.keys members)) between others)

include unbinds binds

/-- The number that a uniform takes is no other's binding. -/
theorem SomeBound.bindingIn_others_ne {name other : Text}
    (member : name ∈ ofUniforms (Table.keys members)) (nothing : bindingIn members name = none)
    (otherMember : other ∈ ofUniforms (Table.keys members)) (different : other ≠ name) :
    bindingIn others other ≠ bindingIn others name := by
  rw [someBound.bindingIn_others unbinds binds otherMember,
    someBound.bindingIn_others unbinds binds member, nothing, Option.getD_none]
  intro same
  have equal := Option.some.inj same
  cases isGiven : bindingIn members other with
  | none =>
    rw [isGiven, Option.getD_none] at equal
    have isUnlisted := mem_unlisted_iff.2
      ⟨otherMember, (find?_listed members otherMember).trans isGiven⟩
    exact different (eq_of_numberOf_eq isUnlisted (Int.ofNat_inj.1 (Document.integer.inj equal)))
  | some value =>
    rw [isGiven, Option.getD_some] at equal
    have isValue : value ∈ (listed members (ofUniforms (Table.keys members))).map Prod.snd :=
      List.mem_map.2 ⟨(other, value), mem_listed_iff.2 ⟨otherMember, isGiven⟩, rfl⟩
    have free := isFree_numberOf
      ((listed members (ofUniforms (Table.keys members))).map Prod.snd) 0
      (unlisted (listed members (ofUniforms (Table.keys members)))
        (ofUniforms (Table.keys members))) name
    rw [IsFree, isUsed, List.any_eq_false] at free
    exact free value isValue (equal ▸ Document.equals_integer_iff.2 rfl)

theorem SomeBound.rebound : Rebound members others where
  keys := binds.keys.trans unbinds.keys
  data name isData := by
    have outside : name ∉ ofUniforms (Table.keys members) := by
      rw [mem_ofUniforms_iff, isData]
      exact fun both => Bool.noConfusion both.2
    rw [binds.find, if_neg outside, unbinds.find, if_neg outside]
  kept name member value isGiven := by
    obtain ⟨fields, found, foundThen⟩ := someBound.exists_fields unbinds binds member
    rw [isGiven, Option.getD_some] at foundThen
    exact ⟨fields, found, foundThen⟩
  added name member nothing := by
    obtain ⟨fields, found, foundThen⟩ := someBound.exists_fields unbinds binds member
    have absent : bindingName ∉ Table.keys fields := by
      rw [← Table.find?_eq_none_iff, ← bindingIn_eq found]
      exact nothing
    have isNumber := someBound.bindingIn_others unbinds binds member
    rw [nothing, Option.getD_none] at foundThen isNumber
    rw [Table.erase_of_notMem absent, Table.put_of_notMem _ absent] at foundThen
    refine ⟨fields, _, found, foundThen, fun other otherMember different => ?_⟩
    rw [← isNumber]
    exact someBound.bindingIn_others_ne unbinds binds member nothing otherMember different

end Rebound

/-- Bindings that were taken away are given back, and the uniforms that had none get numbers. -/
theorem SomeBound.exists_rebound (hashable : Hashable members) :
    ∃ given free whole others, uniforms.bindings = .ok given ∧
      uniforms.withoutBindings = .ok free ∧ Toggles given free whole ∧
      whole.document = .object others ∧ Rebound members others := by
  obtain ⟨free, between, freed, isFree, unbinds, unboundNow⟩ := someBound.exists_free
  have describes : Describes between (ofUniforms (Table.keys members)) := by
    intro name member
    obtain ⟨fields, found⟩ := someBound.describes name member
    refine ⟨Table.erase bindingName fields, ?_⟩
    rw [unbinds.find, if_pos member, found]
    rfl
  obtain ⟨whole, others, ended, isWhole, binds⟩ :=
    exists_bindEach (listed members (ofUniforms (Table.keys members))) isFree describes
      someBound.distinct (hasTaken_zero _)
  refine ⟨_, free, whole, others, someBound.bindings_eq, freed, ⟨unboundNow, ?_, ?_⟩, isWhole,
    someBound.rebound unbinds binds⟩
  · let given := listed members (ofUniforms (Table.keys members))
    have allValues : (Bindings.ofMembers given).values = given.map Prod.snd := List.append_nil _
    have allHashable : (given.map Prod.snd).all Document.isHashable = true := by
      refine List.all_eq_true.2 (List.forall_mem_map.2 fun entry member => ?_)
      obtain ⟨isUniform, isGiven⟩ := mem_listed_iff.1 member
      exact hashable entry.1 isUniform entry.2 isGiven
    rw [withBindings, unboundNow, allValues, allHashable, names_eq isFree, unbinds.keys]
    exact ended
  · rw [bindings, names_eq isWhole, binds.keys.trans unbinds.keys]
    refine ⟨_, bindingsOf_eq isWhole fun name member => ?_⟩
    obtain ⟨fields, -, found⟩ := someBound.exists_fields unbinds binds member
    exact ⟨_, found⟩

end Forms

theorem IsBound.hasBindings_eq {uniforms : Uniforms} {members : Members}
    (isBound : IsBound uniforms members) :
    uniforms.hasBindings = .ok true := isBound.someBound.hasBindings_eq

theorem IsBound.exists_rebound {uniforms : Uniforms} {members : Members}
    (isBound : IsBound uniforms members) :
    ∃ given free whole others, uniforms.bindings = .ok given ∧
      uniforms.withoutBindings = .ok free ∧ Toggles given free whole ∧
      whole.document = .object others ∧ Rebound members others :=
  isBound.someBound.exists_rebound isBound.hashable

/-! ### Bindings that are numbers -/

/-- All bindings are integers. -/
def AreIntegers (given : Members) : Prop := ∀ entry ∈ given, ∃ number, entry.2 = .integer number

instance (document : Document) : Decidable (∃ number, document = .integer number) :=
  match document with
  | .integer number => isTrue ⟨number, rfl⟩
  | .null | .boolean _ | .number _ | .string _ | .array _ | .object _ =>
    isFalse fun ⟨_, same⟩ => nomatch same

instance (given : Members) : Decidable (AreIntegers given) :=
  inferInstanceAs (Decidable (∀ entry ∈ given, ∃ number, entry.2 = .integer number))

theorem Rebound.bindingIn_eq {members others : Members} (rebound : Rebound members others)
    {name : Text} (member : name ∈ ofUniforms (Table.keys members)) :
    bindingIn others name = bindingIn members name ∨
      ∃ number, bindingIn others name = some (.integer number) := by
  cases isGiven : bindingIn members name with
  | some value =>
    obtain ⟨fields, -, found⟩ := rebound.kept name member value isGiven
    rw [Uniforms.bindingIn_eq found, Table.find?_put, if_pos rfl]
    exact .inl rfl
  | none =>
    obtain ⟨fields, number, foundBefore, found, -⟩ := rebound.added name member isGiven
    rw [Uniforms.bindingIn_eq foundBefore, Table.find?_eq_none_iff] at isGiven
    rw [← Table.put_of_notMem _ isGiven] at found
    rw [Uniforms.bindingIn_eq found, Table.find?_put, if_pos rfl]
    exact .inr ⟨number, rfl⟩

/-- Bindings can be taken out of objects only. -/
theorem describes_of_unbindEach {uniforms free : Uniforms} {members : Members} {names : List Text}
    (isObject : uniforms.document = .object members)
    (freed : uniforms.unbindEach names = .ok free) : Describes members names := by
  induction names generalizing uniforms members with
  | nil => exact fun _ member => absurd member List.not_mem_nil
  | cons name names inductionHypothesis =>
    obtain ⟨document, described, freed⟩ := except_bind_eq_ok freed
    obtain ⟨unbound, isUnbound, rest⟩ := except_bind_eq_ok freed
    obtain ⟨fields, rfl⟩ : ∃ fields, document = .object fields := by
      cases document with
      | object fields => exact ⟨fields, rfl⟩
      | _ => cases isUnbound
    have found : Table.find? name members = some (.object fields) := by
      rw [descriptor, isObject] at described
      dsimp only at described
      split at described
      · next found => rw [found, Except.ok.inj described]
      · cases described
    have others := inductionHypothesis (describe_eq isObject name unbound) rest
    refine List.forall_mem_cons.2 ⟨⟨fields, found⟩, fun other member => ?_⟩
    obtain ⟨otherFields, otherFound⟩ := others other member
    rw [Table.find?_put] at otherFound
    split at otherFound
    · next same => exact ⟨fields, same ▸ found⟩
    · exact ⟨otherFields, otherFound⟩

/-- Uniforms that have a free form are bound, with the bindings that are taken of them. -/
theorem isBound_of_withoutBindings {uniforms free : Uniforms} {members given : Members}
    (isObject : uniforms.document = .object members) (isGiven : uniforms.bindings = .ok given)
    (integers : AreIntegers given) (freed : uniforms.withoutBindings = .ok free) :
    uniforms.IsBound members := by
  obtain ⟨isBound, bound, freed⟩ := except_bind_eq_ok freed
  cases isBound with
  | false => cases freed
  | true =>
    obtain ⟨names, isNames, ended⟩ := except_bind_eq_ok freed
    obtain rfl := Except.ok.inj ((names_eq isObject).symm.trans isNames)
    have describes := describes_of_unbindEach isObject ended
    rw [hasBindings, names_eq isObject] at bound
    have anyBound := Except.ok.inj ((anyBound_eq isObject describes).symm.trans bound)
    rw [bindings, names_eq isObject] at isGiven
    obtain rfl := Except.ok.inj ((bindingsOf_eq isObject describes).symm.trans isGiven)
    refine ⟨isObject, describes, List.any_eq_true.1 anyBound, fun name member value found => ?_⟩
    exact integers (name, value) (List.mem_filterMap.2 ⟨name, member, by rw [found]; rfl⟩)

/-- Bindings that are numbers are numbers when they are given back, and so are those that others get
with them. -/
theorem IsBound.areIntegers_of_withBindings {uniforms free : Uniforms}
    {members given written : Members} (isBound : uniforms.IsBound members)
    (isGiven : uniforms.bindings = .ok given) (freed : uniforms.withoutBindings = .ok free)
    (taken : free.withBindings (.ofMembers given) >>= bindings = .ok written) :
    AreIntegers written := by
  obtain ⟨_, _, whole, others, sameGiven, sameFree, toggles, isWhole, rebound⟩ :=
    isBound.exists_rebound
  obtain rfl := Except.ok.inj (sameGiven.symm.trans isGiven)
  obtain rfl := Except.ok.inj (sameFree.symm.trans freed)
  rw [toggles.isWhole] at taken
  change whole.bindings = .ok written at taken
  have describes : Describes others (ofUniforms (Table.keys members)) := by
    intro name member
    cases isGiven : bindingIn members name with
    | some value =>
      obtain ⟨fields, -, found⟩ := rebound.kept name member value isGiven
      exact ⟨_, found⟩
    | none =>
      obtain ⟨fields, number, -, found, -⟩ := rebound.added name member isGiven
      exact ⟨_, found⟩
  rw [bindings, names_eq isWhole, rebound.keys] at taken
  obtain rfl := Except.ok.inj ((bindingsOf_eq isWhole describes).symm.trans taken)
  intro entry member
  obtain ⟨name, isUniform, found⟩ := List.mem_filterMap.1 member
  obtain ⟨value, isValue, rfl⟩ := Option.map_eq_some_iff.1 found
  rcases rebound.bindingIn_eq isUniform with same | ⟨number, isNumber⟩
  · exact isBound.integers name isUniform value (same ▸ isValue)
  · exact ⟨number, Option.some.inj (isValue.symm.trans isNumber)⟩

end Uniforms

end ShaderReduction
