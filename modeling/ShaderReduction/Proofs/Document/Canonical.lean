/-
This file proves which equal documents are written with the same text when they are hashed.

Documents are equal by value: the integer one, the number one and truth are equal, and so are the
two zeros. They are written by kind, so equal documents are written with the same text exactly if
the scalars at the same places in them are of the same kind and, if they are numbers, have the same
sign. The order of members is of no account to either side. Two texts are compared before any
continuation: a scalar that is no text ends where a comma or a closing bracket stands, and a text,
an array and an object end with their last mark.
-/

import Mathlib.Data.List.Nodup
import Mathlib.Data.List.Perm.Subperm
import ShaderReduction.Job
import ShaderReduction.Proofs.Document

namespace ShaderReduction

/-! ### The order of names -/

namespace CodePoint

theorem toNat_injective : Function.Injective toNat := by
  have apart : ∀ (character : Char) (offset : Fin 2048),
      (scalar character).toNat ≠ (surrogate offset).toNat := by
    intro character offset same
    rw [toNat_scalar, toNat_surrogate] at same
    have small := offset.isLt
    rcases character.valid with below | above
    · have low : character.toNat < 0xD800 := below
      omega
    · have high : 0xDFFF < character.toNat := above.1
      omega
  intro left right same
  cases left with
  | scalar character =>
    cases right with
    | scalar other => exact congrArg scalar (Char.toNat_inj.1 same)
    | surrogate offset => exact absurd same (apart character offset)
  | surrogate offset =>
    cases right with
    | scalar other => exact absurd same.symm (apart other offset)
    | surrogate other => exact congrArg surrogate (Fin.ext (Nat.add_left_cancel same))

end CodePoint

namespace Text

theorem le_cons_iff {left right : CodePoint} {lefts rights : Text} :
    le (left :: lefts) (right :: rights) = true ↔
      left.toNat < right.toNat ∨ left = right ∧ le lefts rights = true := by
  rw [le]
  by_cases same : left = right
  · simp [same]
  · have different : left.toNat ≠ right.toNat := CodePoint.toNat_injective.ne same
    simp only [same, if_false, decide_eq_true_eq, false_and, or_false]
    omega

theorem le_total (left right : Text) : (le left right || le right left) = true := by
  rw [Bool.or_eq_true]
  induction left generalizing right with
  | nil => exact .inl rfl
  | cons point left inductionHypothesis =>
    cases right with
    | nil => exact .inr rfl
    | cons other right =>
      rw [le_cons_iff, le_cons_iff]
      rcases Nat.lt_trichotomy point.toNat other.toNat with less | same | greater
      · exact .inl (.inl less)
      · obtain rfl := CodePoint.toNat_injective same
        exact (inductionHypothesis right).imp (fun rest => .inr ⟨rfl, rest⟩)
          fun rest => .inr ⟨rfl, rest⟩
      · exact .inr (.inl greater)

theorem le_trans (first second third : Text) (lower : le first second = true)
    (upper : le second third = true) : le first third = true := by
  induction first generalizing second third with
  | nil => rfl
  | cons point first inductionHypothesis =>
    cases second with
    | nil => cases lower
    | cons other second =>
      cases third with
      | nil => cases upper
      | cons last third =>
        rw [le_cons_iff] at lower upper ⊢
        rcases lower with less | ⟨rfl, rest⟩
        · rcases upper with more | ⟨rfl, -⟩
          · exact .inl (Nat.lt_trans less more)
          · exact .inl less
        · rcases upper with more | ⟨rfl, others⟩
          · exact .inl more
          · exact .inr ⟨rfl, inductionHypothesis _ _ rest others⟩

theorem le_antisymm {left right : Text} (lower : le left right = true)
    (upper : le right left = true) : left = right := by
  induction left generalizing right with
  | nil =>
    cases right with
    | nil => rfl
    | cons other right => cases upper
  | cons point left inductionHypothesis =>
    cases right with
    | nil => cases lower
    | cons other right =>
      rw [le_cons_iff] at lower upper
      rcases lower with less | ⟨rfl, rest⟩
      · rcases upper with more | ⟨rfl, -⟩
        · exact absurd more (Nat.lt_asymm less)
        · exact absurd less (Nat.lt_irrefl _)
      · rcases upper with more | ⟨-, others⟩
        · exact absurd more (Nat.lt_irrefl _)
        · rw [inductionHypothesis rest others]

end Text

namespace Document

/-! ### Sorted members -/

section Sorted

variable {members others : Members}

theorem sortMembers_map (change : Text × Document → Text × Document)
    (keeps : ∀ entry, (change entry).1 = entry.1) (members : Members) :
    sortMembers (members.map change) = (sortMembers members).map change := by
  refine (List.map_mergeSort fun left _ right _ => ?_).symm
  rw [keeps, keeps]

/-- Members with distinct names are sorted in one way, whatever their order. -/
theorem sortMembers_eq_of_perm (distinct : (Table.keys members).Nodup)
    (same : members.Perm others) : sortMembers members = sortMembers others := by
  have sorted : ∀ members : Members,
      (sortMembers members).Pairwise fun left right => Text.le left.1 right.1 = true :=
    fun members => List.pairwise_mergeSort
      (fun first second third => Text.le_trans first.1 second.1 third.1)
      (fun left right => Text.le_total left.1 right.1) members
  have areSame : (sortMembers members).Perm (sortMembers others) :=
    ((List.mergeSort_perm members _).trans same).trans (List.mergeSort_perm others _).symm
  refine List.Perm.eq_of_pairwise (fun left right isLeft isRight lower upper => ?_)
    (sorted members) (sorted others) areSame
  have leftMember := List.mem_mergeSort.1 isLeft
  have rightMember := same.mem_iff.2 (List.mem_mergeSort.1 isRight)
  have sameName := Text.le_antisymm lower upper
  have found := Table.find?_of_mem distinct leftMember
  rw [sameName, Table.find?_of_mem distinct rightMember] at found
  exact Prod.ext sameName (Option.some.inj found).symm

end Sorted

/-! ### What is written, piece by piece -/

theorem compactItems_eq (items : List Document) :
    compactItems items = Text.joinWith ", " (items.map compact) := by
  induction items with
  | nil => rfl
  | cons item items inductionHypothesis =>
    cases items with
    | nil => rfl
    | cons next items =>
      rw [compactItems, inductionHypothesis]
      rfl

theorem compactMembers_eq (members : Members) :
    compactMembers members =
      Text.joinWith ", "
        (members.map fun entry => quoted entry.1 ++ (": " : Text) ++ compact entry.2) := by
  induction members with
  | nil => rfl
  | cons member members inductionHypothesis =>
    cases members with
    | nil => rfl
    | cons next members =>
      rw [compactMembers, inductionHypothesis]
      rfl

theorem sortedItems_eq (items : List Document) : sortedItems items = items.map sorted := by
  induction items with
  | nil => rfl
  | cons item items inductionHypothesis => rw [sortedItems, inductionHypothesis, List.map_cons]

theorem sortedMembers_eq (members : Members) :
    sortedMembers members = members.map fun entry => (entry.1, entry.2.sorted) := by
  induction members with
  | nil => rfl
  | cons member members inductionHypothesis =>
    rw [sortedMembers, inductionHypothesis, List.map_cons]

/-- A member as it is written when it is hashed. -/
def spelled (entry : Text × Document) : Text :=
  quoted entry.1 ++ (": " : Text) ++ entry.2.canonical

theorem canonical_array (items : List Document) :
    (array items).canonical =
      ("[" : Text) ++ Text.joinWith ", " (items.map canonical) ++ ("]" : Text) := by
  rw [canonical, sorted, compact, compactItems_eq, sortedItems_eq, List.map_map]
  rfl

theorem canonical_object (members : Members) :
    (object members).canonical =
      ("\x7b" : Text) ++ Text.joinWith ", " ((sortMembers members).map spelled) ++
        ("\x7d" : Text) := by
  rw [canonical, sorted, compact, compactMembers_eq, sortedMembers_eq,
    sortMembers_map (fun entry => (entry.1, entry.2.sorted)) fun _ => rfl, List.map_map]
  rfl

/-! ### Documents of the same kinds -/

end Document

namespace Double

/-- Whether a number is written with a minus sign. -/
def isNegative : Double → Bool
  | finite negative _ _ => negative
  | infinite negative => negative
  | undefined => false

end Double

namespace Document

/-- Whether two scalars are of the same kind and, if they are numbers, have the same sign. -/
def sameKind : Document → Document → Bool
  | null, null => true
  | boolean _, boolean _ => true
  | integer _, integer _ => true
  | number left, number right => left.isNegative == right.isNegative
  | string _, string _ => true
  | _, _ => false

mutual

/-- Whether the scalars at the same places in two documents are of the same kind. -/
def sameKinds : Document → Document → Bool
  | array lefts, right =>
    match right with
    | array rights => sameKindsItems lefts rights
    | _ => false
  | object lefts, right =>
    match right with
    | object rights => sameKindsMembers lefts rights
    | _ => false
  | left, right => left.sameKind right

/-- Whether items are of the same kinds, one by one. -/
def sameKindsItems : List Document → List Document → Bool
  | [], _ => true
  | left :: lefts, rights =>
    match rights with
    | [] => true
    | right :: rights => sameKinds left right && sameKindsItems lefts rights

/-- Whether every member on the left has one of the same kinds on the right. -/
def sameKindsMembers : List (Text × Document) → Members → Bool
  | [], _ => true
  | (name, value) :: lefts, rights =>
    (match Table.find? name rights with
      | some other => sameKinds value other
      | none => false) && sameKindsMembers lefts rights

end

theorem sameKindsItems_iff {lefts rights : List Document} :
    sameKindsItems lefts rights = true ↔
      ∀ pair ∈ lefts.zip rights, pair.1.sameKinds pair.2 = true := by
  induction lefts generalizing rights with
  | nil => simp [sameKindsItems]
  | cons left lefts inductionHypothesis =>
    cases rights with
    | nil => simp [sameKindsItems]
    | cons right rights =>
      rw [List.zip_cons_cons, List.forall_mem_cons, ← inductionHypothesis]
      exact Bool.and_eq_true_iff

/-! ### Texts that are told apart before any continuation -/

/-- The code points that may follow a value inside an array or object. -/
def delimiters : Text := ",]\x7d"

/-- A text that may follow a value. -/
def Continues (rest : Text) : Prop := ∀ point ∈ rest.head?, point ∈ delimiters

/-- Before any continuations two texts are told apart unless a property holds. -/
def Decides (holds : Prop) (left right : Text) : Prop :=
  ∀ rest more, Continues rest → Continues more →
    (left ++ rest = right ++ more ↔ holds ∧ rest = more)

theorem continues_nil : Continues [] := fun _ isHead => nomatch isHead

theorem continues_cons {point : CodePoint} (member : point ∈ delimiters) (rest : Text) :
    Continues (point :: rest) := by
  rintro other ⟨⟩
  exact member

theorem decides_of_eq {holds : Prop} (text : Text) (isTrue : holds) : Decides holds text text := by
  intro rest more _ _
  rw [List.append_cancel_left_eq]
  exact (and_iff_right isTrue).symm

/-- Texts without delimiters end before any continuation. -/
theorem decides_of_ne {holds : Prop} {left right : Text}
    (leftFree : ∀ point ∈ left, point ∉ delimiters)
    (rightFree : ∀ point ∈ right, point ∉ delimiters) (different : left ≠ right)
    (isFalse : ¬holds) : Decides holds left right := by
  have cut : ∀ {text rest : Text}, (∀ point ∈ text, point ∉ delimiters) →
      Continues rest → (text ++ rest).takeWhile (· ∉ delimiters) = text := by
    intro text rest free continues
    rw [List.takeWhile_append_of_pos fun point member => decide_eq_true (free point member)]
    cases rest with
    | nil => rw [List.takeWhile_nil, List.append_nil]
    | cons point rest =>
      have isDelimiter := continues point rfl
      rw [List.takeWhile_cons_of_neg (by simpa using isDelimiter), List.append_nil]
  intro rest more continues moreContinues
  refine iff_of_false (fun same => different ?_) fun both => isFalse both.1
  rw [← cut leftFree continues, same, cut rightFree moreContinues]

section Decides

variable {holds : Prop} {left right : Text}

theorem Decides.congr {other : Prop} (decides : Decides holds left right) (same : holds ↔ other) :
    Decides other left right := by
  intro rest more continues moreContinues
  rw [← same]
  exact decides rest more continues moreContinues

theorem Decides.symm (decides : Decides holds left right) : Decides holds right left := by
  intro rest more continues moreContinues
  rw [eq_comm, decides more rest moreContinues continues, eq_comm (a := more)]

theorem Decides.prepend (decides : Decides holds left right) (start : Text) :
    Decides holds (start ++ left) (start ++ right) := by
  intro rest more continues moreContinues
  rw [List.append_assoc, List.append_assoc, List.append_cancel_left_eq]
  exact decides rest more continues moreContinues

theorem Decides.append (decides : Decides holds left right) {ending : Text}
    (ends : ∀ rest, Continues (ending ++ rest)) :
    Decides holds (left ++ ending) (right ++ ending) := by
  intro rest more _ _
  rw [List.append_assoc, List.append_assoc, decides _ _ (ends rest) (ends more),
    List.append_cancel_left_eq]

/-- Texts in a row are told apart one by one. -/
theorem decides_joinWith {Entry : Type} {entries : List Entry} {holds : Entry → Prop}
    {first second : Entry → Text}
    (each : ∀ entry ∈ entries, Decides (holds entry) (first entry) (second entry)) :
    Decides (∀ entry ∈ entries, holds entry) (Text.joinWith ", " (entries.map first))
      (Text.joinWith ", " (entries.map second)) := by
  match entries with
  | [] => exact decides_of_eq [] fun _ member => absurd member List.not_mem_nil
  | [entry] => exact (each entry List.mem_cons_self).congr (by simp)
  | entry :: next :: entries =>
    obtain ⟨here, others⟩ := List.forall_mem_cons.1 each
    have later := decides_joinWith others
    intro rest more continues moreContinues
    simp only [List.map_cons, Text.joinWith, List.append_assoc] at later ⊢
    have comma (rest : Text) : Continues ((", " : Text) ++ rest) := continues_cons (by decide) _
    rw [here _ _ (comma _) (comma _), List.append_cancel_left_eq,
      later rest more continues moreContinues, ← and_assoc, ← List.forall_mem_cons]

end Decides

/-! ### Scalars -/

/-- A numeral has no delimiter. -/
theorem notMem_delimiters_of_isNumeral {text : Text} (isNumeral : Text.IsNumeral text) :
    ∀ point ∈ text, point ∉ delimiters := by
  have apart : ∀ point ∈ Text.numeralPoints, point ∉ delimiters := by decide
  exact fun point member => apart point (isNumeral member)

theorem notMem_delimiters_truthWord (value : Bool) :
    ∀ point ∈ truthWord value, point ∉ delimiters := by
  cases value <;> decide

/-- The word for a truth value is no numeral. -/
theorem truthWord_ne_of_isNumeral {text : Text} (isNumeral : Text.IsNumeral text) (value : Bool) :
    truthWord value ≠ text := by
  rintro rfl
  cases value
  · exact absurd isNumeral (by decide)
  · exact absurd isNumeral (by decide)

/-- The numeral of a number with a fraction has a point or a power of ten. -/
theorem mem_magnitudeNumeral (style : Double.NumeralStyle) (significand : Nat) (exponent : Int) :
    .scalar '.' ∈ Double.magnitudeNumeral style significand exponent ∨
      .scalar 'e' ∈ Double.magnitudeNumeral style significand exponent := by
  unfold Double.magnitudeNumeral
  dsimp only
  split
  · refine .inl ?_
    unfold Double.writtenOut
    split
    · exact List.mem_append_right _ (by decide)
    · exact List.mem_append_left _ (List.mem_append_right _ (by decide))
  · refine .inr (List.mem_append_left _ (List.mem_append_right _ ?_))
    split
    · decide
    · decide

/-- The numeral of a number that equals an integer is no numeral of an integer. -/
theorem isNumeral_of_equalsInt {value : Double} {whole : Int}
    (same : value.equalsInt whole = true) :
    Text.IsNumeral (numberText value) ∧ ∀ other, Text.ofInt other ≠ numberText value := by
  cases value with
  | finite negative significand exponent =>
    refine ⟨(Double.isNumeral_sign negative).append (Double.isNumeral_magnitudeNumeral _ _ _),
      fun other equal => ?_⟩
    have within : numberText (.finite negative significand exponent) ⊆ ("0123456789-" : Text) :=
      equal ▸ Text.ofInt_subset other
    rcases mem_magnitudeNumeral Double.documentStyle significand exponent with point | power
    · exact absurd (within (List.mem_append_right _ point)) (by decide)
    · exact absurd (within (List.mem_append_right _ power)) (by decide)
  | infinite negative => cases same
  | undefined => cases same

/-- The two zeros are written with different numerals. -/
theorem decides_zero (leftNegative rightNegative : Bool) (leftExponent rightExponent : Int) :
    Decides ((leftNegative == rightNegative) = true)
      (numberText (.finite leftNegative 0 leftExponent))
      (numberText (.finite rightNegative 0 rightExponent)) := by
  have free : ∀ negative exponent, ∀ point ∈ numberText (.finite negative 0 exponent),
      point ∉ delimiters := fun negative exponent => notMem_delimiters_of_isNumeral <|
    (Double.isNumeral_sign negative).append (Double.isNumeral_magnitudeNumeral _ _ _)
  by_cases same : leftNegative = rightNegative
  · subst same
    exact decides_of_eq _ (beq_self_eq_true _)
  · refine decides_of_ne (free _ _) (free _ _) (fun equal => same ?_) fun equal =>
      same (eq_of_beq equal)
    have signs : Double.sign leftNegative = Double.sign rightNegative :=
      List.append_cancel_right equal
    cases leftNegative <;> cases rightNegative <;> first | rfl | cases signs

/-- Equal numbers are written with the same numeral exactly if they have the same sign. -/
theorem decides_number {left right : Double} (same : left.equals right = true) :
    Decides ((left.isNegative == right.isNegative) = true) (numberText left)
      (numberText right) := by
  match left, right with
  | .finite leftNegative leftSignificand _, .finite rightNegative rightSignificand _ =>
    rcases Bool.or_eq_true_iff.1 same with zeros | equal
    · obtain ⟨leftZero, rightZero⟩ := Bool.and_eq_true_iff.1 zeros
      obtain rfl := eq_of_beq leftZero
      obtain rfl := eq_of_beq rightZero
      exact decides_zero _ _ _ _
    · obtain ⟨equal, exponents⟩ := Bool.and_eq_true_iff.1 equal
      obtain ⟨signs, significands⟩ := Bool.and_eq_true_iff.1 equal
      obtain rfl := eq_of_beq signs
      obtain rfl := eq_of_beq significands
      obtain rfl := eq_of_beq exponents
      exact decides_of_eq _ (beq_self_eq_true _)
  | .infinite leftNegative, .infinite rightNegative =>
    obtain rfl : leftNegative = rightNegative := eq_of_beq same
    exact decides_of_eq _ (beq_self_eq_true _)
  | .undefined, .undefined => exact decides_of_eq _ rfl

/-- A truth value is told apart from every number. -/
theorem decides_truthWord (value : Bool) {numeral : Text} (isNumeral : Text.IsNumeral numeral) :
    Decides (false = true) (truthWord value) numeral :=
  decides_of_ne (notMem_delimiters_truthWord value) (notMem_delimiters_of_isNumeral isNumeral)
    (truthWord_ne_of_isNumeral isNumeral value) Bool.false_ne_true

/-- A number that equals an integer is told apart from every integer. -/
theorem decides_ofInt {value : Double} {whole : Int} (same : value.equalsInt whole = true)
    (other : Int) : Decides (false = true) (Text.ofInt other) (numberText value) := by
  obtain ⟨isNumeral, different⟩ := isNumeral_of_equalsInt same
  exact decides_of_ne (notMem_delimiters_of_isNumeral (Text.isNumeral_ofInt other))
    (notMem_delimiters_of_isNumeral isNumeral) (different other) Bool.false_ne_true

/-- Equal scalars are written with the same text exactly if they are of the same kind. -/
theorem decides_scalar {left right : Document} (same : equalsScalar left right = true) :
    Decides (left.sameKind right = true) left.compact right.compact := by
  match left, right with
  | null, null => exact decides_of_eq _ rfl
  | string value, string other =>
    obtain rfl := eq_of_beq same
    exact decides_of_eq _ rfl
  | boolean value, boolean other =>
    have equal : value = other := by
      cases value <;> cases other <;> first | rfl | cases same
    exact equal ▸ decides_of_eq _ rfl
  | integer value, integer other =>
    obtain rfl : value = other := eq_of_beq same
    exact decides_of_eq _ rfl
  | number value, number other => exact decides_number same
  | boolean value, integer other => exact decides_truthWord value (Text.isNumeral_ofInt other)
  | integer value, boolean other =>
    exact (decides_truthWord other (Text.isNumeral_ofInt value)).symm
  | boolean value, number other =>
    exact decides_truthWord value (isNumeral_of_equalsInt same).1
  | number value, boolean other =>
    exact (decides_truthWord other (isNumeral_of_equalsInt same).1).symm
  | integer value, number other => exact decides_ofInt same value
  | number value, integer other => exact (decides_ofInt same other).symm
  | array _, other | object _, other => cases other <;> cases same

theorem decides_canonical_of_scalar {left right : Document}
    (same : equalsScalar left right = true) :
    Decides (left.sameKind right = true) left.canonical right.canonical := by
  have unsorted : left.canonical = left.compact ∧ right.canonical = right.compact := by
    cases left <;> cases right <;> first | exact ⟨rfl, rfl⟩ | cases same
  rw [unsorted.1, unsorted.2]
  exact decides_scalar same

/-! ### Arrays and objects -/

/-- The members on the right that the ones on the left are equal to, in the order of the left. -/
def counterpart (rights : Members) (entry : Text × Document) : Text × Document :=
  (entry.1, (Table.find? entry.1 rights).getD .null)

/-- Sorting brings equal members to the same places. -/
theorem sortMembers_eq_map_counterpart {lefts rights : Members}
    (distinct : (Table.keys lefts).Nodup) (same : (object lefts).equals (object rights) = true) :
    sortMembers rights = (sortMembers lefts).map (counterpart rights) := by
  obtain ⟨lengths, each⟩ := Bool.and_eq_true_iff.1 same
  have keys : Table.keys (lefts.map (counterpart rights)) = Table.keys lefts := by
    rw [Table.keys, List.map_map]
    rfl
  have nodup : (Table.keys (lefts.map (counterpart rights))).Nodup := keys ▸ distinct
  have within : lefts.map (counterpart rights) ⊆ rights := by
    intro entry member
    obtain ⟨left, isLeft, rfl⟩ := List.mem_map.1 member
    obtain ⟨right, found, -⟩ := equalsMembers_iff.1 each left isLeft
    rw [counterpart, found, Option.getD_some]
    exact Table.mem_of_find? found
  have length : rights.length ≤ (lefts.map (counterpart rights)).length := by
    rw [List.length_map, eq_of_beq lengths]
  have perm : (lefts.map (counterpart rights)).Perm rights :=
    (List.subperm_of_subset (List.Nodup.of_map Prod.fst nodup) within).perm_of_length_le length
  rw [← sortMembers_eq_of_perm nodup perm, sortMembers_map (counterpart rights) fun _ => rfl]

theorem sameKindsMembers_iff {lefts rights : Members} :
    sameKindsMembers lefts rights = true ↔
      ∀ entry ∈ lefts, ∃ right, Table.find? entry.1 rights = some right ∧
        entry.2.sameKinds right = true :=
  eachMember_iff (fun _ => rfl) fun _ _ _ => rfl

theorem decides_array {lefts rights : List Document} (lengths : lefts.length = rights.length)
    (each : ∀ pair ∈ lefts.zip rights,
      Decides (pair.1.sameKinds pair.2 = true) pair.1.canonical pair.2.canonical) :
    Decides ((array lefts).sameKinds (array rights) = true) (array lefts).canonical
      (array rights).canonical := by
  have firsts : (lefts.zip rights).map (fun pair => pair.1.canonical) = lefts.map canonical := by
    rw [← congrArg (List.map canonical) (List.map_fst_zip lengths.le), List.map_map]
    rfl
  have seconds : (lefts.zip rights).map (fun pair => pair.2.canonical) = rights.map canonical := by
    rw [← congrArg (List.map canonical) (List.map_snd_zip lengths.ge), List.map_map]
    rfl
  have items := decides_joinWith each
  rw [firsts, seconds] at items
  rw [canonical_array, canonical_array]
  refine ((items.prepend _).append fun rest => continues_cons (by decide) _).congr ?_
  exact sameKindsItems_iff.symm

theorem decides_object {lefts rights : Members} (distinct : (Table.keys lefts).Nodup)
    (same : (object lefts).equals (object rights) = true)
    (each : ∀ entry ∈ lefts, ∀ right, entry.2.equals right = true →
      Decides (entry.2.sameKinds right = true) entry.2.canonical right.canonical) :
    Decides ((object lefts).sameKinds (object rights) = true) (object lefts).canonical
      (object rights).canonical := by
  have found := equalsMembers_iff.1 (Bool.and_eq_true_iff.1 same).2
  have entries : ∀ entry ∈ sortMembers lefts,
      Decides (entry.2.sameKinds (counterpart rights entry).2 = true) (spelled entry)
        (spelled (counterpart rights entry)) := by
    intro entry member
    have isLeft := List.mem_mergeSort.1 member
    obtain ⟨right, isRight, equal⟩ := found entry isLeft
    have value : (counterpart rights entry).2 = right := by
      rw [counterpart, isRight, Option.getD_some]
    rw [value, spelled, spelled, value]
    exact (each entry isLeft right equal).prepend _
  have members := decides_joinWith entries
  rw [canonical_object, canonical_object, sortMembers_eq_map_counterpart distinct same,
    List.map_map]
  refine ((members.prepend _).append fun rest => continues_cons (by decide) _).congr ?_
  rw [show (object lefts).sameKinds (object rights) = sameKindsMembers lefts rights from rfl,
    sameKindsMembers_iff]
  refine ⟨fun all entry isLeft => ?_, fun all entry member => ?_⟩
  · obtain ⟨right, isRight, -⟩ := found entry isLeft
    have kinds := all entry (List.mem_mergeSort.2 isLeft)
    rw [counterpart, isRight, Option.getD_some] at kinds
    exact ⟨right, isRight, kinds⟩
  · obtain ⟨right, isRight, kinds⟩ := all entry (List.mem_mergeSort.1 member)
    rwa [counterpart, isRight, Option.getD_some]

theorem length_eq_of_equalsItems {lefts rights : List Document}
    (same : equalsItems lefts rights = true) : lefts.length = rights.length := by
  induction lefts generalizing rights with
  | nil => exact (List.length_eq_zero_iff.2 (List.isEmpty_iff.1 same)).symm
  | cons left lefts inductionHypothesis =>
    cases rights with
    | nil => cases same
    | cons right rights =>
      exact congrArg (· + 1) (inductionHypothesis (Bool.and_eq_true_iff.1 same).2)

mutual

/-- Equal documents are written with the same text when they are hashed exactly if they are of the
same kinds, even before any continuations. -/
theorem decides_canonical : ∀ {left right : Document}, WellFormed left →
    left.equals right = true →
    Decides (left.sameKinds right = true) left.canonical right.canonical
  | array _, array _, wellFormed, same =>
    decides_array (length_eq_of_equalsItems same) (decides_items wellFormed same)
  | object _, object _, wellFormed, same =>
    decides_object wellFormed.1 same (decides_members wellFormed.2)
  | array _, null, _, same | array _, boolean _, _, same | array _, integer _, _, same
  | array _, number _, _, same | array _, string _, _, same | array _, object _, _, same =>
    nomatch same
  | object _, null, _, same | object _, boolean _, _, same | object _, integer _, _, same
  | object _, number _, _, same | object _, string _, _, same | object _, array _, _, same =>
    nomatch same
  | null, _, _, same | boolean _, _, _, same | integer _, _, _, same | number _, _, _, same
  | string _, _, _, same => decides_canonical_of_scalar same

theorem decides_items : ∀ {lefts rights : List Document}, WellFormedItems lefts →
    equalsItems lefts rights = true → ∀ pair ∈ lefts.zip rights,
      Decides (pair.1.sameKinds pair.2 = true) pair.1.canonical pair.2.canonical
  | [], _, _, _ => fun _ member => absurd member List.not_mem_nil
  | _ :: _, [], _, same => nomatch same
  | _ :: _, _ :: _, wellFormed, same =>
    List.forall_mem_cons.2 ⟨decides_canonical wellFormed.1 (Bool.and_eq_true_iff.1 same).1,
      decides_items wellFormed.2 (Bool.and_eq_true_iff.1 same).2⟩

theorem decides_members : ∀ {members : Members}, WellFormedMembers members →
    ∀ entry ∈ members, ∀ right, entry.2.equals right = true →
      Decides (entry.2.sameKinds right = true) entry.2.canonical right.canonical
  | [], _ => fun _ member => absurd member List.not_mem_nil
  | _ :: _, wellFormed =>
    List.forall_mem_cons.2
      ⟨fun _ => decides_canonical wellFormed.1, decides_members wellFormed.2⟩

end

/-- Equal documents are written with the same text when they are hashed exactly if the scalars at
the same places in them are of the same kind and sign. -/
theorem canonical_eq_iff_sameKinds {left right : Document} (wellFormed : WellFormed left)
    (same : left.equals right = true) :
    left.canonical = right.canonical ↔ left.sameKinds right = true := by
  have decided := decides_canonical wellFormed same [] [] continues_nil continues_nil
  rwa [List.append_nil, List.append_nil, and_iff_left rfl] at decided

end Document

/-- Equal uniforms have the same text to take a hash from exactly if the scalars at the same places
in them are of the same kind and sign, and so have the jobs with these uniforms and otherwise the
same contents, which are equal. -/
theorem Job.sameHash_iff_sameKinds {left right : Uniforms}
    (wellFormed : left.document.WellFormed) (same : left.equals right = true) :
    (left.hashText = right.hashText ↔ left.document.sameKinds right.document = true) ∧
      ∀ license shaders,
        Job.equals ⟨license, left, shaders⟩ ⟨license, right, shaders⟩ = true ∧
        (Job.sameHash ⟨license, left, shaders⟩ ⟨license, right, shaders⟩ = true ↔
          left.document.sameKinds right.document = true) := by
  have texts : left.hashText = right.hashText ↔ left.document.sameKinds right.document = true :=
    Document.canonical_eq_iff_sameKinds wellFormed same
  refine ⟨texts, fun license shaders => ⟨?_, ?_⟩⟩
  · rw [Job.equals, beq_self_eq_true, beq_self_eq_true, same]
    rfl
  · rw [← texts, Job.sameHash, beq_self_eq_true, beq_self_eq_true, Bool.true_and, Bool.and_true,
      beq_iff_eq]

/-- Uniforms with an argument. -/
def withArgument (argument : Document) : Uniforms :=
  Uniforms.ofMembers
    [("size", .object [("func", .string "glUniform1f"), ("args", .array [argument])])]

/-- The same uniforms with the members of the descriptor in the other order. -/
def withArgumentFirst (argument : Document) : Uniforms :=
  Uniforms.ofMembers
    [("size", .object [("args", .array [argument]), ("func", .string "glUniform1f")])]

theorem wellFormed_withArgument {argument : Document} (wellFormed : argument.WellFormed) :
    (withArgument argument).document.WellFormed := by
  have names : (["func", "args"] : List Text).Nodup := by decide
  exact ⟨(withArgument argument).distinct, ⟨names, trivial, ⟨wellFormed, trivial⟩, trivial⟩,
    trivial⟩

theorem Job.sameHash_iff_sameKinds_withArgument :
    let left := withArgument (.integer 1)
    let right := withArgumentFirst (.integer 1)
    left.document.WellFormed ∧ left.equals right = true ∧
      (left.hashText = right.hashText ↔ left.document.sameKinds right.document = true) ∧
      ∀ license shaders,
        Job.equals ⟨license, left, shaders⟩ ⟨license, right, shaders⟩ = true ∧
        (Job.sameHash ⟨license, left, shaders⟩ ⟨license, right, shaders⟩ = true ↔
          left.document.sameKinds right.document = true) := by
  have wellFormed : (withArgument (.integer 1)).document.WellFormed :=
    wellFormed_withArgument trivial
  have same : (withArgument (.integer 1)).equals (withArgumentFirst (.integer 1)) = true := by
    decide
  exact ⟨wellFormed, same, Job.sameHash_iff_sameKinds wellFormed same⟩

/-- Of two equal jobs one may have the integer one where the other one has the number one, which
are written with different numerals. -/
theorem Job.exists_equals_not_sameHash :
    ∃ left right : Uniforms, left.equals right = true ∧ left.hashText ≠ right.hashText ∧
      ∀ license shaders,
        Job.equals ⟨license, left, shaders⟩ ⟨license, right, shaders⟩ = true ∧
        Job.sameHash ⟨license, left, shaders⟩ ⟨license, right, shaders⟩ = false := by
  have same : (withArgument (.integer 1)).equals
      (withArgument (.number (.finite false (Nat.pow 2 52) (-52)))) = true := by decide
  have differ : (withArgument (.integer 1)).hashText ≠
      (withArgument (.number (.finite false (Nat.pow 2 52) (-52)))).hashText := by
    have wellFormed : (withArgument (.integer 1)).document.WellFormed :=
      wellFormed_withArgument trivial
    intro texts
    exact absurd ((Document.canonical_eq_iff_sameKinds wellFormed same).1 texts) (by decide)
  refine ⟨_, _, same, differ, fun license shaders => ⟨?_, ?_⟩⟩
  · rw [Job.equals, beq_self_eq_true, beq_self_eq_true, same]
    rfl
  · rw [Job.sameHash, beq_false_of_ne differ, Bool.and_false, Bool.false_and]

end ShaderReduction
