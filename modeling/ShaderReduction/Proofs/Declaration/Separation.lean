/-
This file proves that declarations stand apart.

No declaration, of either form, goes on over a line end behind which another one of the same form
begins. A bound declaration has its only opening parenthesis right behind its first word, and the
other one would bring a second. A plain declaration has three words, or four of which the second is
a qualifier, and the other one would bring at least three more.
-/

import Mathlib.Data.List.Basic
import ShaderReduction.Proofs.Declaration.Replacing

namespace ShaderReduction

namespace Declaration

open Scanner CodePoint

/-! ### Words -/

/-- The parts of a text between its blanks. -/
def words (text : Text) : List Text := (text.splitOnP isBlank).filter fun word => decide (word ≠ [])

theorem words_append_cons {blank : CodePoint} (isBlank : blank.isBlank = true) (front rest : Text) :
    words (front ++ blank :: rest) = words front ++ words rest := by
  rw [words, List.splitOnP_append_cons front rest isBlank, List.filter_append]
  rfl

theorem words_blank_append {blanks : Text} (allBlank : ∀ point ∈ blanks, point.isBlank = true)
    (rest : Text) : words (blanks ++ rest) = words rest := by
  induction blanks with
  | nil => rfl
  | cons point blanks inductionHypothesis =>
    obtain ⟨here, later⟩ := List.forall_mem_cons.1 allBlank
    rw [List.cons_append, ← List.nil_append (point :: (blanks ++ rest)), words_append_cons here,
      inductionHypothesis later]
    rfl

theorem words_append_gap {gap : Text} (gapRun : IsRun isBlank gap) (front rest : Text) :
    words (front ++ (gap ++ rest)) = words front ++ words rest := by
  obtain ⟨point, blanks, rfl⟩ := List.exists_cons_of_ne_nil gapRun.nonempty
  obtain ⟨here, later⟩ := List.forall_mem_cons.1 gapRun.all
  rw [List.cons_append, words_append_cons here, words_blank_append later]

theorem words_of_run {word : Text} (wordRun : IsRun isWord word) : words word = [word] := by
  rw [words, List.splitOnP_eq_singleton fun point member =>
    isBlank_of_isWord (wordRun.all point member)]
  exact List.filter_cons_of_pos (decide_eq_true wordRun.nonempty)

/-- A type has one word, or two of which the first is a qualifier. -/
theorem words_of_isType {type : Text} (isType : IsType type) :
    (∃ word, words type = [word]) ∨
      ∃ qualifier word, qualifier ∈ qualifiers ∧ words type = [qualifier, word] := by
  cases isType with
  | single run => exact .inl ⟨_, words_of_run run⟩
  | @qualified qualifier gap word isQualifier gapRun wordRun =>
    refine .inr ⟨qualifier, word, isQualifier, ?_⟩
    rw [words_append_gap gapRun, words_of_run (isWord_of_mem_qualifiers isQualifier),
      words_of_run wordRun]
    rfl

theorem one_le_length_words {type : Text} (isType : IsType type) : 1 ≤ (words type).length := by
  rcases words_of_isType isType with ⟨word, isWord⟩ | ⟨_, word, -, both⟩
  · rw [isWord]
    exact Nat.le_refl _
  · rw [both]
    exact Nat.le_succ _

/-! ### What a variable is made of -/

/-- Whether a code point may stand before the array bound or the sign. -/
def isPart (point : CodePoint) : Bool := point.isWord || point.isBlank

/-- Whether a code point may stand in the array bound and behind it. -/
def isTail (point : CodePoint) : Bool :=
  point.isBlank || point.isDigit || ("[];" : Text).contains point

section Point

variable {point : CodePoint}

theorem isPart_of_isWord (isWord : point.isWord = true) : isPart point = true := by
  rw [isPart, isWord, Bool.true_or]

theorem isPart_of_isBlank (isBlank : point.isBlank = true) : isPart point = true := by
  rw [isPart, isBlank, Bool.or_true]

theorem isTail_of_isBlank (isBlank : point.isBlank = true) : isTail point = true := by
  rw [isTail, isBlank, Bool.true_or, Bool.true_or]

theorem isPart_of_mem_type {type : Text} (isType : IsType type) (member : point ∈ type) :
    isPart point = true := by
  cases isType with
  | single run => exact isPart_of_isWord (run.all point member)
  | qualified isQualifier gapRun wordRun =>
    rw [List.mem_append, List.mem_append] at member
    rcases member with inQualifier | inGap | inWord
    · exact isPart_of_isWord ((isWord_of_mem_qualifiers isQualifier).all point inQualifier)
    · exact isPart_of_isBlank (gapRun.all point inGap)
    · exact isPart_of_isWord (wordRun.all point inWord)

theorem isTail_of_mem_arrayBound {size : Text} (isBound : IsArrayBound size)
    (member : point ∈ size) : isTail point = true := by
  obtain ⟨frontBlank, numberRun, backBlank⟩ := isBound
  have signs : ∀ sign ∈ ("[]" : Text), isTail sign = true := by decide
  rw [List.mem_append, List.mem_append, List.mem_append, List.mem_append] at member
  rcases member with opening | inFront | inNumber | inBack | closing
  · exact signs point ((by decide : ("[" : Text) ⊆ ("[]" : Text)) opening)
  · exact isTail_of_isBlank (frontBlank point inFront)
  · rw [isTail, numberRun.all point inNumber, Bool.or_true, Bool.true_or]
  · exact isTail_of_isBlank (backBlank point inBack)
  · exact signs point ((by decide : ("]" : Text) ⊆ ("[]" : Text)) closing)

end Point

namespace Spelling

/-- What stands before the array bound or the sign. -/
def phrase (spelling : Spelling) : Text :=
  spelling.type ++ (spelling.gap ++ (spelling.name ++ spelling.space))

theorem text_eq (spelling : Spelling) : spelling.text =
    spelling.phrase ++ (spelling.size ++ (spelling.ending ++ (";" : Text))) := by
  simp only [text, phrase, declarator, List.append_assoc]

theorem words_phrase (spelling : Spelling) :
    words spelling.phrase = words spelling.type ++ [spelling.name] := by
  have named : words (spelling.name ++ spelling.space) = [spelling.name] := by
    by_cases empty : spelling.space = []
    · rw [empty, List.append_nil, words_of_run spelling.nameRun]
    · have spaceRun : IsRun isBlank spelling.space := ⟨empty, spelling.spaceBlank⟩
      rw [← List.append_nil spelling.space, words_append_gap spaceRun,
        words_of_run spelling.nameRun]
      rfl
  rw [phrase, words_append_gap spelling.gapRun, named]

theorem isPart_of_mem_phrase (spelling : Spelling) {point : CodePoint}
    (member : point ∈ spelling.phrase) : isPart point = true := by
  rw [phrase, List.mem_append, List.mem_append, List.mem_append] at member
  rcases member with inType | inGap | inName | inSpace
  · exact isPart_of_mem_type spelling.isType inType
  · exact isPart_of_isBlank (spelling.gapRun.all point inGap)
  · exact isPart_of_isWord (spelling.nameRun.all point inName)
  · exact isPart_of_isBlank (spelling.spaceBlank point inSpace)

/-- What stands behind that is made of blanks, digits and signs. -/
theorem isTail_of_mem (spelling : Spelling) {point : CodePoint}
    (member : point ∈ spelling.size ++ (spelling.ending ++ (";" : Text))) :
    isTail point = true := by
  rw [List.mem_append, List.mem_append] at member
  rcases member with inSize | inEnding | isSign
  · rcases spelling.closes with ⟨noSize, -⟩ | ⟨isBound, -⟩
    · rw [noSize] at inSize
      exact absurd inSize List.not_mem_nil
    · exact isTail_of_mem_arrayBound isBound inSize
  · exact isTail_of_isBlank (spelling.endingBlank point inEnding)
  · exact (by decide : ∀ sign ∈ (";" : Text), isTail sign = true) point isSign

end Spelling

/-! ### Pieces that would go on -/

/-- A piece that is longer than what is before a place holds the start of what follows, up to a
sign. -/
theorem exists_overlap {Value : Type} {scanner : Scanner Value} (faithful : Faithful scanner)
    (endsIn : EndsIn ";" scanner) {before after : Text} {outer : Reading Value}
    (found : scanner (before ++ after) = some outer)
    (long : before.length < outer.used.length) :
    ∃ front : Text, outer.used = before ++ (front ++ (";" : Text)) ∧
      front ++ (";" : Text) <+: after := by
  have whole := faithful _ _ found
  obtain ⟨more, used⟩ : before <+: outer.used :=
    List.prefix_of_prefix_length_le (List.prefix_append _ _) ⟨outer.rest, whole.symm⟩ long.le
  have nonempty : more ≠ [] := by
    rintro rfl
    rw [← used, List.append_nil] at long
    exact Nat.lt_irrefl _ long
  obtain ⟨front, last, rfl⟩ := List.eq_nil_or_concat more |>.resolve_left nonempty
  obtain ⟨head, ended⟩ := endsIn _ _ found
  rw [← used, List.concat_eq_append, ← List.append_assoc] at ended
  have sign : (";" : Text) = [last] := (List.append_inj' ended rfl).2
  rw [List.concat_eq_append, ← sign] at used
  refine ⟨front, used.symm, ?_⟩
  rw [← used, List.append_assoc] at whole
  exact ⟨outer.rest, (List.append_cancel_left whole).symm⟩

/-- What ends in a line feed goes on behind a part without line feeds. -/
theorem exists_more_of_lineFeed {before head rest tail : Text}
    (ends : before.getLast? = some (.scalar '\n')) (noFeed : .scalar '\n' ∉ head)
    (same : before ++ rest = head ++ tail) : ∃ more, tail = more ++ .scalar '\n' :: rest := by
  obtain ⟨most, rfl⟩ := List.getLast?_eq_some_iff.1 ends
  rw [List.append_assoc, List.singleton_append] at same
  rcases List.prefix_or_prefix_of_prefix (List.prefix_append most (.scalar '\n' :: rest))
    (same ▸ List.prefix_append head tail) with ⟨more, beyond⟩ | ⟨more, within⟩
  · rw [← beyond, List.append_assoc] at same
    have later : .scalar '\n' :: rest = more ++ tail := List.append_cancel_left same
    cases more with
    | nil => exact ⟨[], later.symm⟩
    | cons point more =>
      obtain ⟨rfl, -⟩ := List.cons.inj later
      rw [← beyond] at noFeed
      exact absurd (List.mem_append_right _ List.mem_cons_self) noFeed
  · rw [← within, List.append_assoc] at same
    exact ⟨more, (List.append_cancel_left same).symm⟩

/-! ### Bound declarations -/

theorem endsIn_bound : EndsIn ";" bound := by
  intro text reading found
  obtain ⟨indent, space, back, -, -, -, ends, used⟩ := exists_opening_of_bound found
  rw [used]
  exact (ends.trans (List.suffix_cons _ _)).trans (List.suffix_append _ _)

/-- What stands before the parenthesis of a bound declaration. -/
theorem isPart_of_mem_opening {indent space : Text}
    (indentAll : ∀ point ∈ indent, point.isIndent = true)
    (spaceBlank : ∀ point ∈ space, point.isBlank = true) {point : CodePoint}
    (member : point ∈ indent ++ (("layout" : Text) ++ space)) : isPart point = true := by
  rw [List.mem_append, List.mem_append] at member
  rcases member with inIndent | inWord | inSpace
  · exact isPart_of_isBlank (isBlank_of_isIndent (indentAll point inIndent))
  · exact (by decide : ∀ point ∈ ("layout" : Text), isPart point = true) point inWord
  · exact isPart_of_isBlank (spaceBlank point inSpace)

/-- What stands before the parenthesis of a declaration does not end in what stands before the one
of another declaration that begins behind a line feed. -/
theorem opening_ne_append {indent space before innerIndent innerSpace : Text}
    (indentAll : ∀ point ∈ indent, point.isIndent = true)
    (spaceBlank : ∀ point ∈ space, point.isBlank = true)
    (ends : before.getLast? = some (.scalar '\n')) :
    indent ++ (("layout" : Text) ++ space) ≠
      before ++ (innerIndent ++ (("layout" : Text) ++ innerSpace)) := by
  intro same
  have noFeed : .scalar '\n' ∉ indent ++ ("layout" : Text) := by
    rw [List.mem_append, not_or]
    exact ⟨fun member => absurd (indentAll _ member) (by decide), by decide⟩
  obtain ⟨more, inSpace⟩ := exists_more_of_lineFeed ends noFeed
    (same.symm.trans (List.append_assoc _ _ _).symm)
  have letter : .scalar 'l' ∈ space := by
    rw [inSpace]
    exact List.mem_append_right _ (List.mem_cons_of_mem _ (List.mem_append_right _
      (List.mem_append_left _ (by decide))))
  exact absurd (spaceBlank _ letter) (by decide)

theorem separate_bound : Separate bound where
  toClosed := closed_bound
  endsIn := endsIn_bound
  apart := by
    intro before after outer inner ends outerFound innerFound
    by_contra long
    obtain ⟨front, outerUsed, within⟩ := exists_overlap faithful_bound endsIn_bound outerFound
      (not_le.1 long)
    obtain ⟨indent, space, back, indentAll, spaceBlank, single, -, used⟩ :=
      exists_opening_of_bound outerFound
    obtain ⟨innerIndent, innerSpace, innerBack, innerIndentAll, innerSpaceBlank, -, -, innerUsed⟩ :=
      exists_opening_of_bound innerFound
    have noSign : .scalar ';' ∉
        innerIndent ++ (("layout" : Text) ++ innerSpace) ++ [.scalar '('] := by
      rw [List.mem_append, not_or]
      exact ⟨fun member => absurd (isPart_of_mem_opening innerIndentAll innerSpaceBlank member)
        (by decide), by decide⟩
    -- The other declaration opens its parenthesis within this one.
    obtain ⟨rest, opened⟩ : innerIndent ++ (("layout" : Text) ++ innerSpace) ++ [.scalar '('] <+:
        front ++ (";" : Text) := by
      have begins : innerIndent ++ (("layout" : Text) ++ innerSpace) ++ [.scalar '('] <+:
          after := by
        refine ⟨innerBack ++ inner.rest, ?_⟩
        rw [faithful_bound _ _ innerFound, innerUsed]
        simp only [List.append_assoc, List.cons_append, List.nil_append]
      refine (List.prefix_or_prefix_of_prefix begins within).resolve_right fun short => noSign ?_
      exact short.subset (List.mem_append_right _ (by decide))
    have noOpening : .scalar '(' ∉ indent ++ (("layout" : Text) ++ space) := fun member =>
      absurd (isPart_of_mem_opening indentAll spaceBlank member) (by decide)
    have compared : indent ++ (("layout" : Text) ++ space) ++ .scalar '(' :: back =
        before ++ (innerIndent ++ (("layout" : Text) ++ innerSpace)) ++ .scalar '(' :: rest := by
      rw [← used, outerUsed, ← opened]
      simp only [List.append_assoc, List.cons_append, List.nil_append]
    obtain ⟨heads, -, -⟩ := (List.append_cons_inj_of_notMem noOpening single).1 compared
    exact opening_ne_append indentAll spaceBlank ends heads

/-! ### Plain declarations -/

theorem Spelling.stops_tail (spelling : Spelling) :
    Stops isPart (spelling.size ++ (spelling.ending ++ (";" : Text))) := by
  have stops : Stops isPart (spelling.size ++ (spelling.ending ++ (";" : Text) ++ [])) :=
    spelling.stops_size [] (by decide) (by decide)
  rwa [List.append_nil] at stops

theorem Sentence.isPart_of_mem (sentence : Sentence) :
    ∀ point ∈ sentence.lead ++ sentence.spelling.phrase, isPart point = true := by
  intro point member
  rcases List.mem_append.1 member with inLead | inPhrase
  · exact isPart_of_isBlank (sentence.leadRun.all point inLead)
  · exact sentence.spelling.isPart_of_mem_phrase inPhrase

/-- The word of a declaration that begins within another one stands before the array bound of that,
in which no letter is. -/
theorem eq_append_of_isPart {parts tail front others rest : Text}
    (areParts : ∀ point ∈ parts, isPart point = true)
    (isTail : ∀ point ∈ tail, isTail point = true) (stops : Stops isPart tail)
    (othersAreParts : ∀ point ∈ others, isPart point = true) (restStops : Stops isPart rest)
    (same : parts ++ tail = front ++ (("uniform" : Text) ++ (others ++ rest))) :
    parts = front ++ (("uniform" : Text) ++ others) := by
  have within : front <+: parts := by
    rcases List.prefix_or_prefix_of_prefix (List.prefix_append front _)
      (same ▸ List.prefix_append parts tail) with inside | ⟨more, rfl⟩
    · exact inside
    · rw [List.append_assoc] at same
      have letter : .scalar 'u' ∈ tail := by
        rw [List.append_cancel_left same]
        exact List.mem_append_right _ (List.mem_append_left _ (by decide))
      exact absurd (isTail _ letter) (by decide)
  have introduction : ∀ point ∈ ("uniform" : Text), isPart point = true := by decide
  have allParts : ∀ point ∈ front ++ (("uniform" : Text) ++ others), isPart point = true := by
    intro point member
    rw [List.mem_append, List.mem_append] at member
    rcases member with inFront | inWord | inOthers
    · exact areParts point (within.subset inFront)
    · exact introduction point inWord
    · exact othersAreParts point inOthers
  refine (append_inj_of_stops areParts stops allParts restStops ?_).1
  rw [same]
  simp only [List.append_assoc]

/-- The words of a plain declaration that ends in another one which begins behind a line feed. -/
theorem Sentence.exists_words_eq (outer inner : Sentence) {before : Text}
    (ends : before.getLast? = some (.scalar '\n')) (same : outer.text = before ++ inner.text) :
    ∃ more, words outer.spelling.type ++ [outer.spelling.name] =
      words more ++ (("uniform" : Text) :: (words inner.spelling.type ++
        [inner.spelling.name])) := by
  have noFeed : .scalar '\n' ∉ outer.indent ++ ("uniform" : Text) := by
    rw [List.mem_append, not_or]
    exact ⟨fun member => absurd (outer.indentAll _ member) (by decide), by decide⟩
  have cut : before ++ inner.text = (outer.indent ++ ("uniform" : Text)) ++
      (outer.lead ++ outer.spelling.text) := by
    rw [← same, Sentence.text, List.append_assoc]
  obtain ⟨more, tail⟩ := exists_more_of_lineFeed ends noFeed cut
  have phrases : outer.lead ++ outer.spelling.phrase = more ++ .scalar '\n' :: inner.indent ++
      (("uniform" : Text) ++ (inner.lead ++ inner.spelling.phrase)) := by
    refine eq_append_of_isPart outer.isPart_of_mem (fun point => outer.spelling.isTail_of_mem)
      outer.spelling.stops_tail inner.isPart_of_mem inner.spelling.stops_tail ?_
    rw [List.append_assoc outer.lead, ← Spelling.text_eq, tail, Sentence.text, Spelling.text_eq]
    simp only [List.append_assoc, List.cons_append]
  have introduction : words ("uniform" : Text) = [("uniform" : Text)] :=
    words_of_run ⟨by decide, by decide +kernel⟩
  have counted := congrArg words phrases
  rw [words_blank_append outer.leadRun.all, List.append_assoc, List.cons_append,
    words_append_cons (by decide),
    words_blank_append fun point member => isBlank_of_isIndent (inner.indentAll point member),
    words_append_gap inner.leadRun, introduction, Spelling.words_phrase,
    Spelling.words_phrase] at counted
  exact ⟨more, counted⟩

/-- A plain declaration does not end in another one that begins behind a line feed. -/
theorem Sentence.text_ne_append (outer inner : Sentence) {before : Text}
    (ends : before.getLast? = some (.scalar '\n')) : outer.text ≠ before ++ inner.text := by
  intro same
  obtain ⟨more, counted⟩ := outer.exists_words_eq inner ends same
  have innerWords := one_le_length_words inner.spelling.isType
  have lengths := congrArg List.length counted
  simp only [List.length_append, List.length_cons, List.length_nil] at lengths
  rcases words_of_isType outer.spelling.isType with ⟨word, single⟩ | ⟨qualifier, word, isQualifier,
    both⟩
  · rw [single, List.length_singleton] at lengths
    omega
  · cases front : words more with
    | nil =>
      -- The first word of the other declaration would be the qualifier.
      rw [both, front] at counted
      have first : qualifier = "uniform" := (List.cons.inj counted).1
      rw [first] at isQualifier
      exact absurd isQualifier (by decide)
    | cons other others =>
      rw [both, front, List.length_cons, List.length_cons, List.length_cons] at lengths
      simp only [List.length_nil] at lengths
      omega

theorem closed_plain : Closed plain := by
  refine ⟨faithful_plain, fun text reading found => ?_, fun text reading found rest => ?_⟩
  · obtain ⟨sentence, -, used⟩ := exists_sentence found
    rw [used]
    exact List.append_ne_nil_of_right_ne_nil _ (List.append_ne_nil_of_left_ne_nil (by decide) _)
  · obtain ⟨sentence, value, used⟩ := exists_sentence found
    rw [value, used]
    exact sentence.takes rest

/-- A plain declaration has its only sign at its end. -/
theorem exists_body_of_plain {text : Text} {reading : Reading PlainDeclaration}
    (found : plain text = some reading) :
    ∃ body : Text, .scalar ';' ∉ body ∧ reading.used = body ++ (";" : Text) := by
  obtain ⟨indentAll, body, noSign, used, -⟩ := plain_eq_some found
  refine ⟨reading.value.indent ++ (("uniform" : Text) ++ body), ?_, ?_⟩
  · simp only [List.mem_append, not_or]
    exact ⟨fun member => absurd (indentAll _ member) (by decide), by decide, noSign⟩
  · rw [used, ← List.append_assoc]

theorem endsIn_plain : EndsIn ";" plain := by
  intro text reading found
  obtain ⟨body, -, used⟩ := exists_body_of_plain found
  rw [used]
  exact List.suffix_append _ _

theorem separate_plain : Separate plain where
  toClosed := closed_plain
  endsIn := endsIn_plain
  apart := by
    intro before after outer inner ends outerFound innerFound
    by_contra long
    obtain ⟨front, outerUsed, rest, within⟩ := exists_overlap faithful_plain endsIn_plain
      outerFound (not_le.1 long)
    obtain ⟨outerBody, noSign, outerWhole⟩ := exists_body_of_plain outerFound
    obtain ⟨innerBody, innerNoSign, innerWhole⟩ := exists_body_of_plain innerFound
    have frontNoSign : .scalar ';' ∉ front := by
      rw [outerWhole, ← List.append_assoc] at outerUsed
      rw [(List.append_inj' outerUsed rfl).1, List.mem_append, not_or] at noSign
      exact noSign.2
    have others : ∀ {part : Text}, .scalar ';' ∉ part →
        ∀ point ∈ part, (point != .scalar ';') = true := fun absent point member =>
      bne_iff_ne.2 fun same => absent (same ▸ member)
    have stops : ∀ rest : Text, Stops (fun point => point != .scalar ';') ((";" : Text) ++ rest) :=
      fun _ => stops_cons (by decide)
    -- Both end at the first sign behind the place where the other one begins.
    have same : front ++ ((";" : Text) ++ rest) = innerBody ++ ((";" : Text) ++ inner.rest) := by
      rw [← List.append_assoc, within, ← List.append_assoc, ← innerWhole]
      exact faithful_plain _ _ innerFound
    obtain ⟨rfl, -⟩ := append_inj_of_stops (others frontNoSign) (stops _) (others innerNoSign)
      (stops _) same
    obtain ⟨outerSentence, -, outerText⟩ := exists_sentence outerFound
    obtain ⟨innerSentence, -, innerText⟩ := exists_sentence innerFound
    refine outerSentence.text_ne_append innerSentence ends ?_
    rw [← outerText, ← innerText, innerWhole, outerUsed]

end Declaration

end ShaderReduction
