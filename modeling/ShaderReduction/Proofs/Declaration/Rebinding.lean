/-
This file proves that declarations that are bound, made plain and bound again are bound as before.

Making plain what was bound finds the new blocks and nothing else, and leaves each declaration with
the same parts, between which the blanks are as usual. Binding finds the same declarations again.
-/

import ShaderReduction.Proofs.Declaration.Separation

namespace ShaderReduction

namespace Declaration

open Scanner

/-! ### Declarations of listed names -/

/-- The scanner of the plain declarations of listed names. -/
def plainOf (names : List Text) : Scanner PlainDeclaration :=
  only (fun declaration => names.contains declaration.member.name) plain

/-- The scanner of the bound declarations of listed names. -/
def boundOf (names : List Text) : Scanner BoundDeclaration :=
  only (fun declaration => names.contains declaration.member.name) bound

/-- What a plain declaration becomes that is bound and made plain again, which stays as it was
written unless its name is listed. -/
def tidyPiece (names : List Text) (declaration : PlainDeclaration) (used : Text) : Text :=
  if names.contains declaration.member.name then
    plainForm ⟨declaration.indent, [], declaration.member⟩
  else used

section Listed

variable {names : List Text}

theorem separate_plainOf (names : List Text) : Separate (plainOf names) := separate_plain.only _

theorem separate_boundOf (names : List Text) : Separate (boundOf names) := separate_bound.only _

theorem exists_sentence_of_plainOf {text : Text} {reading : Reading PlainDeclaration}
    (found : plainOf names text = some reading) :
    ∃ sentence : Sentence, sentence.spelling.name ∈ names ∧
      reading.value = sentence.declaration ∧ reading.used = sentence.text := by
  obtain ⟨recognised, listed⟩ := only_eq_some_iff.1 found
  obtain ⟨sentence, value, used⟩ := exists_sentence recognised
  rw [value] at listed
  exact ⟨sentence, List.contains_iff_mem.1 listed, value, used⟩

theorem takes_plainOf (sentence : Sentence) (listed : sentence.spelling.name ∈ names)
    (rest : Text) : Takes (plainOf names) sentence.declaration sentence.text rest :=
  only_eq_some_iff.2 ⟨sentence.takes rest, List.contains_iff_mem.2 listed⟩

theorem tidyPiece_of_mem (sentence : Sentence) (listed : sentence.spelling.name ∈ names)
    (used : Text) : tidyPiece names sentence.declaration used = sentence.tidy.text :=
  (if_pos (List.contains_iff_mem.2 listed)).trans (sentence.plainForm_eq [])

theorem unbindBlocks_eq (text : Text) : unbindBlocks names text =
    replaceAtLines (boundOf names) (fun declaration used =>
      if names.contains declaration.member.name then plainForm declaration else used) true text :=
  replaceAtLines_only separate_bound
    (fun _ _ other => if_neg (Bool.eq_false_iff.1 other)) true text

theorem boundPiece_of_some {bindings : Members} {declaration : PlainDeclaration}
    {binding : Document} (found : Table.find? declaration.member.name bindings = some binding)
    (used : Text) : boundPiece bindings declaration used = boundForm declaration binding := by
  unfold boundPiece
  rw [found]

theorem bindPlain_eq_plainOf (bindings : Members) (text : Text) : bindPlain bindings text =
    replaceAtLines (plainOf (Table.keys bindings)) (boundPiece bindings) true text := by
  refine replaceAtLines_only separate_plain (fun declaration used other => ?_) true text
  have absent : declaration.member.name ∉ Table.keys bindings := fun listed =>
    Bool.eq_false_iff.1 other (List.contains_iff_mem.2 listed)
  rw [(Table.find?_eq_none_iff _ _).2 absent]

end Listed

/-! ### Texts that are bound and made plain -/

/-- No line of the text begins with a bound declaration of a listed name. -/
def LacksBound (names : List Text) (text : Text) : Prop :=
  ∀ before after reading, text = before ++ after → afterLine true before = true →
    bound after = some reading → reading.value.member.name ∉ names

/-- A text without parentheses has no bound declarations. -/
theorem lacksBound_of_notMem {text : Text} (noOpening : .scalar '(' ∉ text)
    (names : List Text) : LacksBound names text := by
  intro before after reading whole begins found
  obtain ⟨indent, space, back, -, -, -, -, used⟩ := exists_opening_of_bound found
  rw [whole, faithful_bound _ _ found, used] at noOpening
  refine absurd ?_ noOpening
  exact List.mem_append_right _ (List.mem_append_left _ (List.mem_append_right _
    List.mem_cons_self))

/-- A declaration has one blank before the type and one before the name, and none between the array
bound and the sign. -/
def Sentence.IsTidy (sentence : Sentence) : Prop :=
  sentence.lead = " " ∧ sentence.spelling.gap = " " ∧ sentence.spelling.ending = []

theorem Sentence.IsTidy.text_tidy {sentence : Sentence} (isTidy : sentence.IsTidy) :
    sentence.tidy.text = sentence.text := by
  obtain ⟨lead, gap, ending⟩ := isTidy
  simp only [text, tidy, Spelling.text, Spelling.tidy, Spelling.declarator, lead, gap, ending]

/-- A text and the one in which the plain declarations of listed names that begin a line are tidy
and nothing else is different. -/
inductive Tidied (names : List Text) : Bool → Text → Text → Prop
  | nil {atLineStart : Bool} : Tidied names atLineStart [] []
  | keep {atLineStart : Bool} {point : CodePoint} {text other : Text}
      (others : atLineStart = true → ∀ (sentence : Sentence) (rest : Text),
        point :: text = sentence.text ++ rest → sentence.spelling.name ∉ names)
      (later : Tidied names (point == .scalar '\n') text other) :
      Tidied names atLineStart (point :: text) (point :: other)
  | tidy {sentence : Sentence} {rest other : Text} (listed : sentence.spelling.name ∈ names)
      (later : Tidied names false rest other) :
      Tidied names true (sentence.text ++ rest) (sentence.tidy.text ++ other)

theorem tidied_replaceAtLines (names : List Text) (atLineStart : Bool) (text : Text) :
    Tidied names atLineStart text
      (replaceAtLines (plainOf names) (tidyPiece names) atLineStart text) := by
  induction atLineStart, text using line_induction (separate_plainOf names) with
  | nil atLineStart =>
    rw [replaceAtLines_nil]
    exact .nil
  | refused atLineStart point text nothing inductionHypothesis =>
    rw [replaceAtLines_cons nothing]
    refine .keep (fun start sentence rest whole listed => ?_) inductionHypothesis
    have taken : plainOf names (sentence.text ++ rest) = some _ :=
      takes_plainOf sentence listed rest
    rw [← whole, nothing start] at taken
    cases taken
  | piece reading found inductionHypothesis =>
    obtain ⟨sentence, listed, value, used⟩ := exists_sentence_of_plainOf found
    rw [replaceAtLines_piece (separate_plainOf names) found, value,
      tidyPiece_of_mem sentence listed, used]
    exact .tidy listed inductionHypothesis

theorem Tidied.eq_replaceAtLines {names : List Text} {atLineStart : Bool} {text other : Text}
    (isTidied : Tidied names atLineStart text other) :
    other = replaceAtLines (plainOf names) (tidyPiece names) atLineStart text := by
  induction isTidied with
  | nil => rw [replaceAtLines_nil]
  | keep others _ inductionHypothesis =>
    rw [replaceAtLines_cons, ← inductionHypothesis]
    refine fun start => Option.eq_none_iff_forall_not_mem.2 fun reading found => ?_
    obtain ⟨sentence, listed, -, used⟩ := exists_sentence_of_plainOf found
    refine others start sentence reading.rest ?_ listed
    rw [← used]
    exact (separate_plainOf names).faithful _ _ found
  | @tidy sentence rest _ listed _ inductionHypothesis =>
    rw [replaceAtLines_piece (separate_plainOf names) (takes_plainOf sentence listed rest),
      tidyPiece_of_mem sentence listed, ← inductionHypothesis]

/-- There is one such text, and it is got by going through the lines. -/
theorem tidied_iff {names : List Text} {atLineStart : Bool} {text other : Text} :
    Tidied names atLineStart text other ↔
      other = replaceAtLines (plainOf names) (tidyPiece names) atLineStart text :=
  ⟨Tidied.eq_replaceAtLines, fun same => same ▸ tidied_replaceAtLines names atLineStart text⟩

theorem exists_find?_of_mem_keys {bindings : Members} {name : Text}
    (listed : name ∈ Table.keys bindings) :
    ∃ binding, Table.find? name bindings = some binding := by
  refine Option.ne_none_iff_exists'.1 fun absent => ?_
  exact (Table.find?_eq_none_iff _ _).1 absent listed

/-- Binding finds tidy declarations where it found the others. -/
theorem bindPlain_tidied (bindings : Members) (text : Text) :
    bindPlain bindings (replaceAtLines (plainOf (Table.keys bindings))
      (tidyPiece (Table.keys bindings)) true text) = bindPlain bindings text := by
  rw [bindPlain_eq_plainOf, bindPlain_eq_plainOf]
  refine replaceAtLines_replaceAtLines (separate_plainOf _) (separate_plainOf _)
    (fun text reading found => ?_) fun before after whole begins recognised => recognised
  obtain ⟨sentence, listed, value, used⟩ := exists_sentence_of_plainOf found
  obtain ⟨binding, isBinding⟩ := exists_find?_of_mem_keys listed
  rw [value, tidyPiece_of_mem sentence listed, boundPiece_of_some isBinding]
  exact ⟨sentence.tidy.declaration, takes_plainOf sentence.tidy listed,
    boundPiece_of_some isBinding _⟩

section Bindings

variable {bindings : Members} {text : Text}
  (numbers : ∀ name binding, Table.find? name bindings = some binding →
    ∃ number : Nat, binding = .integer number)

include numbers

/-- Making plain what was bound leaves each declaration tidy. -/
theorem unbindBlocks_bindPlain (lacks : LacksBound (Table.keys bindings) text) :
    unbindBlocks (Table.keys bindings) (bindPlain bindings text) =
      replaceAtLines (plainOf (Table.keys bindings)) (tidyPiece (Table.keys bindings)) true
        text := by
  rw [unbindBlocks_eq, bindPlain_eq_plainOf]
  refine replaceAtLines_replaceAtLines (separate_plainOf _) (separate_boundOf _)
    (fun text reading found => ?_) fun before after whole begins recognised => ?_
  · obtain ⟨sentence, listed, value, used⟩ := exists_sentence_of_plainOf found
    obtain ⟨binding, isBinding⟩ := exists_find?_of_mem_keys listed
    obtain ⟨number, rfl⟩ := numbers _ _ isBinding
    have isListed := List.contains_iff_mem.2 listed
    rw [value, boundPiece_of_some isBinding, tidyPiece_of_mem sentence listed]
    refine ⟨⟨sentence.indent, Text.ofNat number, sentence.spelling.member⟩, fun rest => ?_, ?_⟩
    · exact only_eq_some_iff.2 ⟨sentence.takes_boundForm number rest, isListed⟩
    · exact (if_pos isListed).trans (sentence.plainForm_eq _)
  · obtain ⟨reading, found⟩ := Option.isSome_iff_exists.1 recognised
    obtain ⟨boundFound, listed⟩ := only_eq_some_iff.1 found
    have absent := lacks before after reading whole begins boundFound
    exact absurd (List.contains_iff_mem.1 listed) absent

/-- Declarations that are bound, made plain and bound again are bound as before. Making them plain
changes nothing but the blanks in them, and nothing at all if those were as usual. -/
theorem bindPlain_unbindBlocks_bindPlain (lacks : LacksBound (Table.keys bindings) text) :
    bindPlain bindings (unbindBlocks (Table.keys bindings) (bindPlain bindings text)) =
        bindPlain bindings text ∧
      Tidied (Table.keys bindings) true text
        (unbindBlocks (Table.keys bindings) (bindPlain bindings text)) ∧
      ((∀ before (sentence : Sentence) after, text = before ++ (sentence.text ++ after) →
          afterLine true before = true → sentence.spelling.name ∈ Table.keys bindings →
          sentence.IsTidy) →
        unbindBlocks (Table.keys bindings) (bindPlain bindings text) = text) := by
  rw [unbindBlocks_bindPlain numbers lacks]
  refine ⟨bindPlain_tidied _ _, tidied_iff.2 rfl, fun tidy => ?_⟩
  refine replaceAtLines_eq_self (separate_plainOf _)
    fun before after reading whole begins found => ?_
  obtain ⟨sentence, listed, value, used⟩ := exists_sentence_of_plainOf found
  have isTidy : sentence.IsTidy := by
    refine tidy before sentence reading.rest ?_ begins listed
    rw [whole, (separate_plainOf _).faithful _ _ found, used]
  rw [value, tidyPiece_of_mem sentence listed, used, isTidy.text_tidy]

end Bindings

/-- Binding numbers for two uniforms. -/
def screenBindings : Members := [("size", .integer 3), ("time", .integer 0)]

/-- An array with a qualifier, declared over two lines, a variable after two blanks and one that is
not bound. -/
def screenText : Text :=
  "uniform  highp\n vec2 size [ 2 ] ;\n  uniform float time;\nuniform int other;\n"

theorem bindPlain_unbindBlocks_bindPlain_screenText :
    (∀ name binding, Table.find? name screenBindings = some binding →
        ∃ number : Nat, binding = .integer number) ∧
      LacksBound (Table.keys screenBindings) screenText ∧
      unbindBlocks (Table.keys screenBindings) (bindPlain screenBindings screenText) =
        "uniform highp\n vec2 size [ 2 ];\n  uniform float time;\nuniform int other;\n" ∧
      bindPlain screenBindings (unbindBlocks (Table.keys screenBindings)
        (bindPlain screenBindings screenText)) = bindPlain screenBindings screenText ∧
      Tidied (Table.keys screenBindings) true screenText
        (unbindBlocks (Table.keys screenBindings) (bindPlain screenBindings screenText)) := by
  have numbers : ∀ name binding, Table.find? name screenBindings = some binding →
      ∃ number : Nat, binding = .integer number := by
    intro name binding found
    simp only [screenBindings, Table.find?] at found
    split at found
    · exact ⟨3, (Option.some.inj found).symm⟩
    · split at found
      · exact ⟨0, (Option.some.inj found).symm⟩
      · cases found
  have lacks : LacksBound (Table.keys screenBindings) screenText :=
    lacksBound_of_notMem (by decide) _
  obtain ⟨boundAgain, isTidied, -⟩ := bindPlain_unbindBlocks_bindPlain numbers lacks
  exact ⟨numbers, lacks, by decide +kernel, boundAgain, isTidied⟩

end Declaration

end ShaderReduction
