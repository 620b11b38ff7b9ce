/-
This file proves how declarations are spelled.

In a declaration a variable stands as its type, a gap, its name, blanks, an array bound if there is
one, and the sign that ends it. The type is a word that may have a precision qualifier before it.
Whatever a scanner of declarations uses is spelled like this, and whatever is spelled like this is
used, with the same parts. A word that could be a qualifier is read as one exactly if two more words
follow it.

A bound declaration has one parenthesis that opens, right behind its first word, and ends in a fixed
sign, so it is told by what it uses alone.
-/

import ShaderReduction.Proofs.Declaration
import ShaderReduction.Proofs.Document

namespace ShaderReduction

namespace CodePoint

open CharacterClass

/-- No blank is a digit. -/
theorem isDigit_of_isBlank {point : CodePoint} (isBlank : point.isBlank = true) :
    point.isDigit = false := by
  have apart : (blankRanges.all fun blank => digitZeros.all fun first =>
      decide (blank.2 < first) || decide (first + 9 < blank.1)) = true := by decide +kernel
  obtain ⟨blank, isRange, inside⟩ := List.any_eq_true.1 isBlank
  have none : (digitZeros.find? fun first =>
      first ≤ point.toNat && point.toNat ≤ first + 9) = none := by
    refine List.find?_eq_none.2 fun first isZero within => ?_
    have different := List.all_eq_true.1 (List.all_eq_true.1 apart blank isRange) first isZero
    simp only [Bool.and_eq_true, Bool.or_eq_true, decide_eq_true_eq] at inside within different
    omega
  rw [isDigit, digit?, none]
  rfl

theorem isBlank_of_isWord {point : CodePoint} (isWord : point.isWord = true) :
    point.isBlank = false := by
  refine Bool.eq_false_iff.2 fun isBlank => ?_
  rw [isWord_of_isBlank isBlank] at isWord
  cases isWord

theorem isBlank_of_isDigit {point : CodePoint} (isDigit : point.isDigit = true) :
    point.isBlank = false := by
  refine Bool.eq_false_iff.2 fun isBlank => ?_
  rw [isDigit_of_isBlank isBlank] at isDigit
  cases isDigit

theorem isBlank_of_isIndent {point : CodePoint} (isIndent : point.isIndent = true) :
    point.isBlank = true := by
  rcases Bool.or_eq_true_iff.1 isIndent with space | tab
  · rw [beq_iff_eq.1 space]
    decide
  · rw [beq_iff_eq.1 tab]
    decide

end CodePoint

namespace Declaration

open Scanner CodePoint

/-! ### The parts of a variable -/

/-- The words that qualify a type. -/
def qualifiers : List Text := ["lowp", "mediump", "highp"]

/-- A type: a word, which may have a qualifier. -/
inductive IsType : Text → Prop
  | single {word : Text} (run : IsRun isWord word) : IsType word
  | qualified {qualifier gap word : Text} (isQualifier : qualifier ∈ qualifiers)
      (gapRun : IsRun isBlank gap) (wordRun : IsRun isWord word) :
      IsType (qualifier ++ (gap ++ word))

theorem isWord_of_mem_qualifiers {qualifier : Text} (isQualifier : qualifier ∈ qualifiers) :
    IsRun isWord qualifier := by
  have all : ∀ qualifier ∈ qualifiers, qualifier ≠ [] ∧ ∀ point ∈ qualifier, isWord point = true :=
    by decide +kernel
  exact ⟨(all qualifier isQualifier).1, (all qualifier isQualifier).2⟩

/-- A type begins with a word. -/
theorem IsType.stops {type : Text} (isType : IsType type) (rest : Text) :
    Stops isBlank (type ++ rest) := by
  cases isType with
  | single run => exact run.stops (fun _ => isBlank_of_isWord) rest
  | qualified isQualifier =>
    rw [List.append_assoc]
    exact (isWord_of_mem_qualifiers isQualifier).stops (fun _ => isBlank_of_isWord) _

/-- The size of an array between brackets. -/
inductive IsArrayBound : Text → Prop
  | mk {front number back : Text} (frontBlank : ∀ point ∈ front, point.isBlank = true)
      (numberRun : IsRun isDigit number) (backBlank : ∀ point ∈ back, point.isBlank = true) :
      IsArrayBound (("[" : Text) ++ (front ++ (number ++ (back ++ ("]" : Text)))))

/-- A variable with its type, as it stands in a declaration. Blanks between the name and the sign
that ends the declaration are counted to the name. -/
structure Spelling where
  type : Text
  gap : Text
  name : Text
  space : Text
  size : Text
  ending : Text
  isType : IsType type
  gapRun : IsRun isBlank gap
  nameRun : IsRun isWord name
  spaceBlank : ∀ point ∈ space, point.isBlank = true
  closes : size = [] ∧ ending = [] ∨ IsArrayBound size ∧ ∀ point ∈ ending, point.isBlank = true

namespace Spelling

/-- The name with what belongs to it. -/
def declarator (spelling : Spelling) : Text := spelling.name ++ spelling.space ++ spelling.size

/-- The variable that is spelled. -/
def member (spelling : Spelling) : Variable :=
  ⟨spelling.type, spelling.name, spelling.declarator⟩

/-- The whole up to the sign. -/
def text (spelling : Spelling) : Text :=
  spelling.type ++ (spelling.gap ++ spelling.declarator) ++ (spelling.ending ++ (";" : Text))

end Spelling

/-- The scanner of a variable and the sign after it. -/
def ended : Scanner Variable := do
  let member ← typedName
  let _ ← closing ";"
  pure member

/-! ### What is spelled is used -/

theorem takes_closing {sign blank : Text} (allBlank : ∀ point ∈ blank, point.isBlank = true)
    (stops : ∀ rest : Text, Stops isBlank (sign ++ rest)) (rest : Text) :
    Takes (closing sign) sign (blank ++ sign) rest :=
  (takes_run allBlank (stops rest)).bind (takes_literal sign rest)

theorem takes_arrayBound {size : Text} (isBound : IsArrayBound size) (rest : Text) :
    Takes arrayBound size size rest := by
  obtain ⟨frontBlank, numberRun, backBlank⟩ := isBound
  rename_i front number back
  have afterFront : Stops isBlank (number ++ (back ++ ("]" : Text)) ++ rest) := by
    rw [List.append_assoc]
    exact numberRun.stops (fun _ => isBlank_of_isDigit) _
  have afterNumber : Stops isDigit (back ++ ("]" : Text) ++ rest) := by
    cases back with
    | nil => exact stops_cons (by decide)
    | cons point back =>
      exact stops_cons (isDigit_of_isBlank (backBlank point List.mem_cons_self))
  have bracketed : Takes (literal "[" >>= fun _ => blanks >>= fun _ => digits >>= fun _ =>
      blanks >>= fun _ => literal "]") "]"
      (("[" : Text) ++ (front ++ (number ++ (back ++ ("]" : Text))))) rest :=
    (takes_literal "[" _).bind ((takes_run frontBlank afterFront).bind
      ((takes_someRun numberRun afterNumber).bind
        ((takes_run backBlank (stops_cons (by decide))).bind (takes_literal "]" rest))))
  exact bracketed.written

theorem takes_precision {qualifier : Text} (isQualifier : qualifier ∈ qualifiers) (rest : Text) :
    Takes precision qualifier qualifier rest := by
  have among : qualifier = "lowp" ∨ qualifier = "mediump" ∨ qualifier = "highp" := by
    simpa only [qualifiers, List.mem_cons, List.not_mem_nil, or_false] using isQualifier
  rcases among with rfl | rfl | rfl
  · exact (takes_literal _ rest).otherwise
  · exact takes_otherwise_of_none rfl (takes_literal _ rest).otherwise
  · exact takes_otherwise_of_none rfl (takes_otherwise_of_none rfl (takes_literal _ rest))

namespace Spelling

variable (spelling : Spelling) (rest : Text)

/-- What comes after the blanks behind the name stops every run that has neither a bracket nor the
sign in it. -/
theorem stops_size {isMember : CodePoint → Bool} (bracket : isMember (.scalar '[') = false)
    (sign : isMember (.scalar ';') = false) :
    Stops isMember (spelling.size ++ (spelling.ending ++ (";" : Text) ++ rest)) := by
  rcases spelling.closes with ⟨noSize, noEnding⟩ | ⟨isBound, -⟩
  · rw [noSize, noEnding]
    exact stops_cons sign
  · cases bound : spelling.size with
    | nil =>
      rw [bound] at isBound
      nomatch isBound
    | cons point size =>
      rw [bound] at isBound
      cases isBound
      exact stops_cons bracket

theorem stops_space :
    Stops isWord
      (spelling.space ++ (spelling.size ++ (spelling.ending ++ (";" : Text) ++ rest))) := by
  cases space : spelling.space with
  | nil => exact spelling.stops_size rest (by decide) (by decide)
  | cons point others =>
    refine stops_cons (isWord_of_isBlank (spelling.spaceBlank point ?_))
    rw [space]
    exact List.mem_cons_self

theorem stops_declarator :
    Stops isBlank (spelling.declarator ++ (spelling.ending ++ (";" : Text) ++ rest)) := by
  rw [declarator, List.append_assoc, List.append_assoc]
  exact spelling.nameRun.stops (fun _ => isBlank_of_isWord) _

theorem takes_named (type : Text) :
    Takes (named type) ⟨type, spelling.name, spelling.declarator⟩ spelling.declarator
      (spelling.ending ++ (";" : Text) ++ rest) := by
  have takesSize : Takes (optionally arrayBound) spelling.size spelling.size
      (spelling.ending ++ (";" : Text) ++ rest) := by
    rcases spelling.closes with ⟨noSize, noEnding⟩ | ⟨isBound, -⟩
    · rw [noSize, noEnding]
      rfl
    · exact (takes_arrayBound isBound _).written.otherwise
  have parts : spelling.declarator = spelling.name ++ (spelling.space ++ spelling.size) := by
    rw [declarator, List.append_assoc]
  show Takes (named type) ⟨type, spelling.name, spelling.name ++ spelling.space ++ spelling.size⟩
    spelling.declarator _
  rw [parts]
  refine (takes_someRun spelling.nameRun ?_).bind ((takes_run spelling.spaceBlank ?_).bind
    (takesSize.bind_pure _))
  · rw [List.append_assoc]
    exact spelling.stops_space rest
  · exact spelling.stops_size rest (by decide) (by decide)

end Spelling

/-! ### What is used is spelled -/

section Used

variable {text : Text}

theorem isArrayBound_of_eq_some {reading : Reading Text} (found : arrayBound text = some reading) :
    IsArrayBound reading.used := by
  obtain ⟨bracketed, bracketedFound, rfl⟩ := Option.map_eq_some_iff.1 found
  obtain ⟨opening, _, openingFound, afterOpening, rfl⟩ := bind_eq_some bracketedFound
  obtain ⟨front, _, frontFound, afterFront, rfl⟩ := bind_eq_some afterOpening
  obtain ⟨number, _, numberFound, afterNumber, rfl⟩ := bind_eq_some afterFront
  obtain ⟨back, last, backFound, lastFound, rfl⟩ := bind_eq_some afterNumber
  dsimp only
  rw [(literal_eq_some openingFound).2, (literal_eq_some lastFound).2]
  exact .mk (run_eq_some frontFound).2.1 (isRun_of_someRun_eq_some numberFound).2.1
    (run_eq_some backFound).2.1

theorem mem_qualifiers_of_precision {reading : Reading Text}
    (found : precision text = some reading) : reading.used ∈ qualifiers := by
  rcases otherwise_eq_some found with low | ⟨-, others⟩
  · rw [(literal_eq_some low).2]
    decide
  · rcases otherwise_eq_some others with medium | ⟨-, high⟩
    · rw [(literal_eq_some medium).2]
      decide
    · rw [(literal_eq_some high).2]
      decide

theorem exists_parts_of_named {type : Text} {reading : Reading Variable}
    (found : named type text = some reading) :
    ∃ name space size, IsRun isWord name ∧ (∀ point ∈ space, point.isBlank = true) ∧
      (size = [] ∧ Stops isBlank reading.rest ∨ IsArrayBound size) ∧
      reading.value = ⟨type, name, name ++ space ++ size⟩ ∧
      reading.used = name ++ space ++ size := by
  obtain ⟨name, _, nameFound, afterName, rfl⟩ := bind_eq_some found
  obtain ⟨space, _, spaceFound, afterSpace, rfl⟩ := bind_eq_some afterName
  obtain ⟨size, _, sizeFound, made, rfl⟩ := bind_eq_some afterSpace
  cases made
  obtain ⟨nameValue, nameRun, -⟩ := isRun_of_someRun_eq_some nameFound
  obtain ⟨spaceValue, spaceBlank, stops⟩ := run_eq_some spaceFound
  refine ⟨name.used, space.used, size.used, nameRun, spaceBlank, ?_, ?_, ?_⟩
  · rcases otherwise_eq_some sizeFound with bound | ⟨-, nothing⟩
    · obtain ⟨inner, innerFound, rfl⟩ := Option.map_eq_some_iff.1 bound
      have isBound := isArrayBound_of_eq_some innerFound
      exact .inr isBound
    · cases nothing
      exact .inl ⟨rfl, stops⟩
  · rw [nameValue, spaceValue, tells_optionally _ _ _ sizeFound]
  · dsimp only
    rw [List.append_nil, List.append_assoc]

/-- Before the name stand the type and a gap. -/
theorem exists_named_of_typedName {reading : Reading Variable}
    (found : typedName text = some reading) :
    ∃ type gap more inner, IsType type ∧ IsRun isBlank gap ∧ named type more = some inner ∧
      reading = ⟨inner.value, type ++ (gap ++ inner.used), inner.rest⟩ := by
  have typed : ∀ {scanner : Scanner Text}, Tells scanner →
      (∀ {text reading}, scanner text = some reading → IsType reading.used) →
      (scanner >>= fun type => gap >>= fun _ => named type) text = some reading →
      ∃ type gap more inner, IsType type ∧ IsRun isBlank gap ∧ named type more = some inner ∧
        reading = ⟨inner.value, type ++ (gap ++ inner.used), inner.rest⟩ := by
    intro scanner tells isType found
    obtain ⟨type, _, typeFound, afterType, rfl⟩ := bind_eq_some found
    obtain ⟨gap, inner, gapFound, innerFound, rfl⟩ := bind_eq_some afterType
    rw [tells _ _ typeFound] at innerFound
    exact ⟨type.used, gap.used, _, inner, isType typeFound,
      (isRun_of_someRun_eq_some gapFound).2.1, innerFound, rfl⟩
  rcases otherwise_eq_some found with qualified | ⟨-, unqualified⟩
  · refine typed (tells_written _) (fun {text reading} typeFound => ?_) qualified
    obtain ⟨whole, wholeFound, rfl⟩ := Option.map_eq_some_iff.1 typeFound
    obtain ⟨qualifier, _, qualifierFound, afterQualifier, rfl⟩ := bind_eq_some wholeFound
    obtain ⟨gap, word, gapFound, wordFound, rfl⟩ := bind_eq_some afterQualifier
    exact .qualified (mem_qualifiers_of_precision qualifierFound)
      (isRun_of_someRun_eq_some gapFound).2.1 (isRun_of_someRun_eq_some wordFound).2.1
  · exact typed (tells_someRun _)
      (fun wordFound => .single (isRun_of_someRun_eq_some wordFound).2.1) unqualified

/-- What is used as a variable and its ending is spelled as one. -/
theorem exists_spelling {reading : Reading Variable} (found : ended text = some reading) :
    ∃ spelling : Spelling, reading.value = spelling.member ∧ reading.used = spelling.text := by
  obtain ⟨typed, _, typedFound, afterTyped, rfl⟩ := bind_eq_some found
  obtain ⟨closed, _, closedFound, made, rfl⟩ := bind_eq_some afterTyped
  cases made
  obtain ⟨type, gap, more, inner, isType, gapRun, innerFound, rfl⟩ :=
    exists_named_of_typedName typedFound
  obtain ⟨name, space, size, nameRun, spaceBlank, sized, value, used⟩ :=
    exists_parts_of_named innerFound
  obtain ⟨ending, sign, endingFound, signFound, rfl⟩ := bind_eq_some closedFound
  obtain ⟨-, endingBlank, -⟩ := run_eq_some endingFound
  have closes : size = [] ∧ ending.used = [] ∨
      IsArrayBound size ∧ ∀ point ∈ ending.used, point.isBlank = true := by
    refine sized.imp (fun nothing => ⟨nothing.1, ?_⟩) fun isBound => ⟨isBound, endingBlank⟩
    have whole := faithful_run _ _ _ endingFound
    cases blanks : ending.used with
    | nil => rfl
    | cons point blanks =>
      have isBlank := endingBlank point (blanks ▸ List.mem_cons_self)
      have first : point ∈ inner.rest.head? := by
        rw [show inner.rest = _ from whole, blanks]
        rfl
      rw [nothing.2 point first] at isBlank
      cases isBlank
  refine ⟨⟨type, gap, name, space, size, ending.used, isType, gapRun, nameRun, spaceBlank,
    closes⟩, value, ?_⟩
  dsimp only [Spelling.text, Spelling.declarator]
  rw [used, (literal_eq_some signFound).2, List.append_nil]

end Used

/-! ### Which words are a qualifier -/

/-- A variable with a qualifier has two more words before its name ends. -/
theorem exists_words_of_qualifiedVariable {text : Text} {reading : Reading Variable}
    (found : qualifiedVariable text = some reading) :
    ∃ qualifier gap second space name more, IsRun isWord qualifier ∧ IsRun isBlank gap ∧
      IsRun isWord second ∧ IsRun isBlank space ∧ IsRun isWord name ∧
      text = qualifier ++ (gap ++ (second ++ (space ++ (name ++ more)))) := by
  obtain ⟨type, _, typeFound, afterType, rfl⟩ := bind_eq_some found
  obtain ⟨space, inner, spaceFound, innerFound, rfl⟩ := bind_eq_some afterType
  obtain ⟨whole, wholeFound, rfl⟩ := Option.map_eq_some_iff.1 typeFound
  obtain ⟨qualifier, _, qualifierFound, afterQualifier, rfl⟩ := bind_eq_some wholeFound
  obtain ⟨gap, second, gapFound, secondFound, rfl⟩ := bind_eq_some afterQualifier
  obtain ⟨name, _, nameFound, -, -⟩ := bind_eq_some innerFound
  refine ⟨qualifier.used, gap.used, second.used, space.used, name.used, name.rest,
    isWord_of_mem_qualifiers (mem_qualifiers_of_precision qualifierFound),
    (isRun_of_someRun_eq_some gapFound).2.1, (isRun_of_someRun_eq_some secondFound).2.1,
    (isRun_of_someRun_eq_some spaceFound).2.1, (isRun_of_someRun_eq_some nameFound).2.1, ?_⟩
  rw [← faithful_someRun _ _ _ nameFound, ← faithful_someRun _ _ _ spaceFound,
    ← faithful_someRun _ _ _ secondFound, ← faithful_someRun _ _ _ gapFound]
  exact faithful_precision _ _ qualifierFound

namespace Spelling

variable (spelling : Spelling) (rest : Text)

/-- A word that is the type is not read as a qualifier, because no second name follows. -/
theorem qualifiedVariable_eq_none {word : Text} (wordRun : IsRun isWord word) :
    qualifiedVariable (word ++ (spelling.gap ++ spelling.declarator) ++
      (spelling.ending ++ (";" : Text) ++ rest)) = none := by
  refine Option.eq_none_iff_forall_not_mem.2 fun reading found => ?_
  obtain ⟨qualifier, gap, second, space, name, more, qualifierRun, gapRun, secondRun, spaceRun,
    nameRun, same⟩ := exists_words_of_qualifiedVariable found
  have blankStops : ∀ {blanks : Text}, IsRun isBlank blanks → ∀ rest : Text,
      Stops isWord (blanks ++ rest) := fun run => run.stops fun _ => isWord_of_isBlank
  have wordStops : ∀ {word : Text}, IsRun isWord word → ∀ rest : Text,
      Stops isBlank (word ++ rest) := fun run => run.stops fun _ => isBlank_of_isWord
  -- The parts are compared one after the other, up to where the second name would begin.
  rw [List.append_assoc, List.append_assoc] at same
  obtain ⟨-, atGap⟩ := append_inj_of_stops wordRun.all (blankStops spelling.gapRun _)
    qualifierRun.all (blankStops gapRun _) same
  obtain ⟨-, atName⟩ := append_inj_of_stops spelling.gapRun.all (spelling.stops_declarator rest)
    gapRun.all (wordStops secondRun _) atGap
  rw [declarator, List.append_assoc, List.append_assoc] at atName
  obtain ⟨-, atSpace⟩ := append_inj_of_stops spelling.nameRun.all (spelling.stops_space rest)
    secondRun.all (blankStops spaceRun _) atName
  obtain ⟨-, atSize⟩ := append_inj_of_stops spelling.spaceBlank
    (spelling.stops_size rest (by decide) (by decide)) spaceRun.all (wordStops nameRun _) atSpace
  have stops : Stops isWord (name ++ more) :=
    atSize ▸ spelling.stops_size rest (by decide) (by decide)
  obtain ⟨point, others, isName⟩ := List.exists_cons_of_ne_nil nameRun.nonempty
  have foreign := stops point (isName ▸ rfl)
  rw [nameRun.all point (isName ▸ List.mem_cons_self)] at foreign
  cases foreign

theorem takes_typedName {type : Text} (isType : IsType type) :
    Takes typedName ⟨type, spelling.name, spelling.declarator⟩
      (type ++ (spelling.gap ++ spelling.declarator))
      (spelling.ending ++ (";" : Text) ++ rest) := by
  have afterType : Stops isWord (spelling.gap ++ spelling.declarator ++
      (spelling.ending ++ (";" : Text) ++ rest)) := by
    rw [List.append_assoc]
    exact spelling.gapRun.stops (fun _ => isWord_of_isBlank) _
  cases isType with
  | single wordRun =>
    refine takes_otherwise_of_none (spelling.qualifiedVariable_eq_none rest wordRun) ?_
    exact (takes_someRun wordRun afterType).bind
      ((takes_someRun spelling.gapRun (spelling.stops_declarator rest)).bind
        (spelling.takes_named rest _))
  | @qualified qualifier gap word isQualifier gapRun wordRun =>
    have takesType : Takes (precision >>= fun _ => Scanner.gap >>= fun _ => Scanner.word) word
        (qualifier ++ (gap ++ word)) (spelling.gap ++ spelling.declarator ++
          (spelling.ending ++ (";" : Text) ++ rest)) :=
      (takes_precision isQualifier _).bind ((takes_someRun gapRun
        (wordRun.stops (fun _ => isBlank_of_isWord) _)).bind (takes_someRun wordRun afterType))
    refine Takes.otherwise ?_
    exact takesType.written.bind
      ((takes_someRun spelling.gapRun (spelling.stops_declarator rest)).bind
        (spelling.takes_named rest _))

theorem endingBlank : ∀ point ∈ spelling.ending, point.isBlank = true := by
  rcases spelling.closes with ⟨-, noEnding⟩ | ⟨-, blank⟩
  · rw [noEnding]
    exact fun _ member => absurd member List.not_mem_nil
  · exact blank

/-- What is spelled as a variable and its ending is used, with the same parts. -/
theorem takes : Takes ended spelling.member spelling.text rest := by
  have closed : Takes (closing ";") ";" (spelling.ending ++ (";" : Text)) rest :=
    takes_closing spelling.endingBlank (fun _ => stops_cons (by decide)) rest
  exact (spelling.takes_typedName _ spelling.isType).bind (closed.bind_pure _)

end Spelling

theorem closed_ended : Closed ended := by
  refine ⟨faithful_bind faithful_typedName fun _ =>
    faithful_bind (faithful_closing _) fun _ => faithful_pure _, fun text reading found => ?_,
    fun text reading found rest => ?_⟩
  · obtain ⟨spelling, -, used⟩ := exists_spelling found
    rw [used]
    exact List.append_ne_nil_of_right_ne_nil _ (List.append_ne_nil_of_right_ne_nil _ (by decide))
  · obtain ⟨spelling, value, used⟩ := exists_spelling found
    rw [value, used]
    exact spelling.takes rest

/-! ### Plain declarations -/

/-- A plain declaration, as it is written. -/
structure Sentence where
  indent : Text
  lead : Text
  spelling : Spelling
  indentAll : ∀ point ∈ indent, point.isIndent = true
  leadRun : IsRun isBlank lead

theorem plain_eq : plain = run isIndent >>= fun indent => literal "uniform" >>= fun _ =>
    gap >>= fun _ => ended >>= fun member => pure ⟨indent, member⟩ := by
  simp only [plain, ended, bind_assoc, pure_bind]
  rfl

namespace Sentence

/-- The whole up to the sign. -/
def text (sentence : Sentence) : Text :=
  sentence.indent ++ (("uniform" : Text) ++ (sentence.lead ++ sentence.spelling.text))

/-- The declaration that is written. -/
def declaration (sentence : Sentence) : PlainDeclaration :=
  ⟨sentence.indent, sentence.spelling.member⟩

/-- What is written as a plain declaration is used, with the same parts. -/
theorem takes (sentence : Sentence) (rest : Text) :
    Takes plain sentence.declaration sentence.text rest := by
  rw [plain_eq]
  refine (takes_run sentence.indentAll (stops_cons (by decide))).bind
    ((takes_literal "uniform" _).bind ((takes_someRun sentence.leadRun ?_).bind
      ((sentence.spelling.takes rest).bind_pure _)))
  rw [Spelling.text, List.append_assoc, List.append_assoc]
  exact sentence.spelling.isType.stops _

end Sentence

/-- What is used as a plain declaration is written as one. -/
theorem exists_sentence {text : Text} {reading : Reading PlainDeclaration}
    (found : plain text = some reading) :
    ∃ sentence : Sentence, reading.value = sentence.declaration ∧
      reading.used = sentence.text := by
  rw [plain_eq] at found
  obtain ⟨indent, _, indentFound, afterIndent, rfl⟩ := bind_eq_some found
  obtain ⟨introduction, _, introductionFound, afterIntroduction, rfl⟩ := bind_eq_some afterIndent
  obtain ⟨lead, _, leadFound, afterLead, rfl⟩ := bind_eq_some afterIntroduction
  obtain ⟨member, _, memberFound, made, rfl⟩ := bind_eq_some afterLead
  cases made
  obtain ⟨indentValue, indentAll, -⟩ := run_eq_some indentFound
  obtain ⟨spelling, value, used⟩ := exists_spelling memberFound
  refine ⟨⟨indent.used, lead.used, spelling, indentAll,
    (isRun_of_someRun_eq_some leadFound).2.1⟩, ?_, ?_⟩
  · dsimp only [Sentence.declaration]
    rw [indentValue, value]
  · dsimp only [Sentence.text]
    rw [(literal_eq_some introductionFound).2, used, List.append_nil]

/-! ### Bound declarations -/

/-- What follows the opening parenthesis of a bound declaration. -/
def boundRest (indent : Text) : Scanner BoundDeclaration := do
  let _ ← closing "set"
  let _ ← closing "="
  let _ ← closing "0"
  let _ ← closing ","
  let _ ← closing "binding"
  let _ ← closing "="
  let _ ← blanks
  let binding ← digits
  let _ ← closing ")"
  let _ ← closing "uniform"
  let _ ← gap
  let _ ← word
  let _ ← closing "\x7b"
  let _ ← blanks
  let member ← ended
  let _ ← closing "\x7d"
  let _ ← closing ";"
  pure ⟨indent, binding, member⟩

theorem bound_eq : bound = run isIndent >>= fun indent => literal "layout" >>= fun _ =>
    closing "(" >>= fun _ => boundRest indent := by
  simp only [bound, layout, boundRest, ended, bind_assoc, pure_bind]
  rfl

theorem closed_closing {sign : Text} (nonempty : sign ≠ []) : Closed (closing sign) :=
  closed_bind (near_run _) fun _ => closed_literal nonempty

theorem endsIn_closing (sign : Text) : EndsIn sign (closing sign) :=
  endsIn_bind fun _ => fun _ _ found => (literal_eq_some found).2 ▸ List.suffix_refl _

theorem closed_boundRest (indent : Text) : Closed (boundRest indent) := by
  refine closed_bind (closed_closing (by decide)).near fun _ => ?_
  refine closed_bind (closed_closing (by decide)).near fun _ => ?_
  refine closed_bind (closed_closing (by decide)).near fun _ => ?_
  refine closed_bind (closed_closing (by decide)).near fun _ => ?_
  refine closed_bind (closed_closing (by decide)).near fun _ => ?_
  refine closed_bind (closed_closing (by decide)).near fun _ => ?_
  refine closed_bind (near_run _) fun _ => closed_bind (near_someRun _) fun _ => ?_
  refine closed_bind (closed_closing (by decide)).near fun _ => ?_
  refine closed_bind (closed_closing (by decide)).near fun _ => ?_
  refine closed_bind (near_someRun _) fun _ => closed_bind (near_someRun _) fun _ => ?_
  refine closed_bind (closed_closing (by decide)).near fun _ => closed_bind (near_run _) fun _ => ?_
  refine closed_bind closed_ended.near fun _ => ?_
  refine closed_bind (closed_closing (by decide)).near fun _ => ?_
  exact closed_bind_pure (closed_closing (by decide)) _

theorem closed_bound : Closed bound := by
  rw [bound_eq]
  exact closed_bind (near_run _) fun _ => closed_bind (closed_literal (by decide)).near fun _ =>
    closed_bind (closed_closing (by decide)).near fun _ => closed_boundRest _

/-- No other parenthesis opens in what follows. -/
theorem avoids_boundRest (indent : Text) : Avoids (.scalar '(') (boundRest indent) := by
  have isForeign : IsForeign (.scalar '(') := by decide
  have avoids : ∀ {sign : Text}, .scalar '(' ∉ sign → Avoids (.scalar '(') (closing sign) :=
    avoids_closing isForeign
  have ends : Avoids (.scalar '(') ended := avoids_bind (avoids_typedName isForeign) fun _ =>
    avoids_bind (avoids (by decide)) fun _ => avoids_pure _
  refine avoids_bind (avoids (by decide)) fun _ => avoids_bind (avoids (by decide)) fun _ => ?_
  refine avoids_bind (avoids (by decide)) fun _ => avoids_bind (avoids (by decide)) fun _ => ?_
  refine avoids_bind (avoids (by decide)) fun _ => avoids_bind (avoids (by decide)) fun _ => ?_
  refine avoids_bind (avoids_blanks isForeign) fun _ => avoids_bind (avoids_digits isForeign)
    fun _ => ?_
  refine avoids_bind (avoids (by decide)) fun _ => avoids_bind (avoids (by decide)) fun _ => ?_
  refine avoids_bind (avoids_gap isForeign) fun _ => avoids_bind (avoids_word isForeign)
    fun _ => ?_
  refine avoids_bind (avoids (by decide)) fun _ => avoids_bind (avoids_blanks isForeign)
    fun _ => ?_
  refine avoids_bind ends fun _ => avoids_bind (avoids (by decide)) fun _ => ?_
  exact avoids_bind (avoids (by decide)) fun _ => avoids_pure _

theorem endsIn_boundRest (indent : Text) : EndsIn ";" (boundRest indent) :=
  endsIn_bind fun _ => endsIn_bind fun _ => endsIn_bind fun _ => endsIn_bind fun _ =>
    endsIn_bind fun _ => endsIn_bind fun _ => endsIn_bind fun _ => endsIn_bind fun _ =>
      endsIn_bind fun _ => endsIn_bind fun _ => endsIn_bind fun _ => endsIn_bind fun _ =>
        endsIn_bind fun _ => endsIn_bind fun _ => endsIn_bind fun _ => endsIn_bind fun _ =>
          endsIn_bind_pure (endsIn_closing _) _

/-- A bound declaration has one parenthesis that opens, before which only its first word and blanks
stand, and ends in the sign. -/
theorem exists_opening_of_bound {text : Text} {reading : Reading BoundDeclaration}
    (found : bound text = some reading) :
    ∃ indent space back : Text, (∀ point ∈ indent, point.isIndent = true) ∧
      (∀ point ∈ space, point.isBlank = true) ∧ .scalar '(' ∉ back ∧ (";" : Text) <:+ back ∧
      reading.used = indent ++ (("layout" : Text) ++ space) ++ .scalar '(' :: back := by
  rw [bound_eq] at found
  obtain ⟨indent, _, indentFound, afterIndent, rfl⟩ := bind_eq_some found
  obtain ⟨introduction, _, introductionFound, afterIntroduction, rfl⟩ := bind_eq_some afterIndent
  obtain ⟨opening, last, openingFound, lastFound, rfl⟩ := bind_eq_some afterIntroduction
  obtain ⟨space, sign, spaceFound, signFound, rfl⟩ := bind_eq_some openingFound
  refine ⟨indent.used, space.used, last.used, (run_eq_some indentFound).2.1,
    (run_eq_some spaceFound).2.1, (avoids_boundRest _).unused _ _ lastFound,
    endsIn_boundRest _ _ _ lastFound, ?_⟩
  dsimp only
  rw [(literal_eq_some introductionFound).2, (literal_eq_some signFound).2]
  simp only [List.append_assoc]
  rfl

/-! ### From one form to the other -/

/-- The variable with one blank before its name and none before the sign if those do not belong to
the name. -/
def Spelling.tidy (spelling : Spelling) : Spelling :=
  { spelling with
    gap := " "
    ending := []
    gapRun := ⟨by decide, by decide⟩
    closes := spelling.closes.imp (fun nothing => ⟨nothing.1, rfl⟩)
      fun isBound => ⟨isBound.1, fun _ member => absurd member List.not_mem_nil⟩ }

/-- The declaration with one blank before the type and one before the name. -/
def Sentence.tidy (sentence : Sentence) : Sentence :=
  { sentence with
    lead := " "
    spelling := sentence.spelling.tidy
    leadRun := ⟨by decide, by decide⟩ }

/-- A numeral is made of digits, which are part of words. -/
theorem isDigit_and_isWord_of_mem_ofNat {number : Nat} {point : CodePoint}
    (member : point ∈ Text.ofNat number) : point.isDigit = true ∧ point.isWord = true := by
  have all : ∀ point ∈ ("0123456789" : Text), point.isDigit = true ∧ point.isWord = true := by
    decide +kernel
  exact all point (Text.ofNat_subset number member)

theorem ofNat_ne_nil (number : Nat) : Text.ofNat number ≠ [] :=
  fun empty => Nat.toDigits_ne_nil (List.map_eq_nil_iff.1 empty)

/-- What follows the parenthesis in the bound form of a declaration. -/
theorem takes_boundRest (indent : Text) (spelling : Spelling) (number : Nat) (rest : Text) :
    Takes (boundRest indent) ⟨indent, Text.ofNat number, spelling.member⟩
      (("set = 0, binding = " : Text) ++ (Text.ofNat number ++ ((") uniform buf" : Text) ++
        (Text.ofNat number ++ ((" \x7b " : Text) ++ (spelling.tidy.text ++ (" \x7d;" : Text)))))))
      rest := by
  have numberRun : IsRun isDigit (Text.ofNat number) :=
    ⟨ofNat_ne_nil number, fun _ member => (isDigit_and_isWord_of_mem_ofNat member).1⟩
  have blockRun : IsRun isWord (("buf" : Text) ++ Text.ofNat number) := by
    refine ⟨List.append_ne_nil_of_left_ne_nil (by decide) _, fun point member => ?_⟩
    rcases List.mem_append.1 member with name | digit
    · exact (by decide +kernel : ∀ point ∈ ("buf" : Text), point.isWord = true) point name
    · exact (isDigit_and_isWord_of_mem_ofNat digit).2
  have close : ∀ {sign : Text}, (∀ rest : Text, Stops isBlank (sign ++ rest)) → ∀ rest : Text,
      Takes (closing sign) sign sign rest := fun stops =>
    takes_closing (fun _ member => absurd member List.not_mem_nil) stops
  have spaced : ∀ {sign : Text}, (∀ rest : Text, Stops isBlank (sign ++ rest)) → ∀ rest : Text,
      Takes (closing sign) sign ((" " : Text) ++ sign) rest := takes_closing (by decide)
  have space : ∀ {text : Text}, Stops isBlank text → Takes blanks " " " " text :=
    takes_run (by decide)
  have parts : ("set = 0, binding = " : Text) ++ (Text.ofNat number ++
      ((") uniform buf" : Text) ++ (Text.ofNat number ++ ((" \x7b " : Text) ++
        (spelling.tidy.text ++ (" \x7d;" : Text)))))) =
      ("set" : Text) ++ (((" " : Text) ++ ("=" : Text)) ++ (((" " : Text) ++ ("0" : Text)) ++
        (("," : Text) ++ (((" " : Text) ++ ("binding" : Text)) ++
        (((" " : Text) ++ ("=" : Text)) ++ ((" " : Text) ++ (Text.ofNat number ++
        ((")" : Text) ++ (((" " : Text) ++ ("uniform" : Text)) ++ ((" " : Text) ++
        ((("buf" : Text) ++ Text.ofNat number) ++ (((" " : Text) ++ ("\x7b" : Text)) ++
        ((" " : Text) ++ (spelling.tidy.text ++ (((" " : Text) ++ ("\x7d" : Text)) ++
        (";" : Text)))))))))))))))) := by
    simp only [List.append_assoc]
    rfl
  rw [parts]
  refine (close (fun _ => stops_cons (by decide)) _).bind ?_
  refine (spaced (fun _ => stops_cons (by decide)) _).bind ?_
  refine (spaced (fun _ => stops_cons (by decide)) _).bind ?_
  refine (close (fun _ => stops_cons (by decide)) _).bind ?_
  refine (spaced (fun _ => stops_cons (by decide)) _).bind ?_
  refine (spaced (fun _ => stops_cons (by decide)) _).bind ?_
  refine (space ?_).bind ((takes_someRun numberRun (stops_cons (by decide))).bind ?_)
  · rw [List.append_assoc]
    exact numberRun.stops (fun _ => isBlank_of_isDigit) _
  refine (close (fun _ => stops_cons (by decide)) _).bind ?_
  refine (spaced (fun _ => stops_cons (by decide)) _).bind ?_
  refine (takes_someRun ⟨by decide, by decide⟩ ?_).bind ((takes_someRun blockRun ?_).bind ?_)
  · rw [List.append_assoc]
    exact blockRun.stops (fun _ => isBlank_of_isWord) _
  · exact stops_cons (by decide)
  refine (spaced (fun _ => stops_cons (by decide)) _).bind ?_
  refine (space ?_).bind ((spelling.tidy.takes _).bind ?_)
  · simp only [List.append_assoc, Spelling.text]
    exact spelling.tidy.isType.stops _
  refine (spaced (fun _ => stops_cons (by decide)) _).bind ?_
  exact (close (fun _ => stops_cons (by decide)) _).bind_pure _

namespace Sentence

variable (sentence : Sentence) (number : Nat) (rest : Text)

/-- The bound form of a declaration is recognised whatever follows, with the same parts. -/
theorem takes_boundForm : Takes bound
    ⟨sentence.indent, Text.ofNat number, sentence.spelling.member⟩
    (boundForm sentence.declaration (.integer number)) rest := by
  have parts : boundForm sentence.declaration (.integer number) =
      sentence.indent ++ (("layout" : Text) ++ (("(" : Text) ++ (("set = 0, binding = " : Text) ++
        (Text.ofNat number ++ ((") uniform buf" : Text) ++ (Text.ofNat number ++
          ((" \x7b " : Text) ++ (sentence.spelling.tidy.text ++ (" \x7d;" : Text))))))))) := by
    simp only [boundForm, Spelling.text, Spelling.tidy, List.append_assoc, List.nil_append]
    rfl
  rw [bound_eq, parts]
  refine (takes_run sentence.indentAll (stops_cons (by decide))).bind
    ((takes_literal "layout" _).bind ?_)
  have opening : ∀ rest : Text, Takes (closing "(") "(" "(" rest :=
    takes_closing (fun _ member => absurd member List.not_mem_nil)
      fun _ => stops_cons (by decide)
  exact (opening _).bind (takes_boundRest _ _ number rest)

/-- The plain form of a bound declaration is tidy. -/
theorem plainForm_eq (binding : Text) :
    plainForm ⟨sentence.indent, binding, sentence.spelling.member⟩ = sentence.tidy.text := by
  simp only [plainForm, Sentence.text, Sentence.tidy, Spelling.text, Spelling.tidy,
    Spelling.member, Spelling.declarator, List.append_assoc, List.nil_append]
  rfl

end Sentence

end Declaration

end ShaderReduction
