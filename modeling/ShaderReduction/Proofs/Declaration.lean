/-
This file proves that binding the declarations of a text keeps its lines, provided that every
declaration ends on the line that it begins on.

A plain declaration begins with the word `uniform`, after blanks and tabs only, and has one
semicolon, at its end. So if every line that begins in this way has a semicolon (`Alone`), then no
declaration goes on beyond its line. Blanks of a declaration are not all kept in its bound form, and
line breaks are blanks: without the proviso, texts with different numbers of lines may have the same
bound form.
-/

import Mathlib.Data.List.Infix
import Mathlib.Data.List.TakeWhile
import ShaderReduction.Declaration
import ShaderReduction.Proofs.LineFeeds
import ShaderReduction.Proofs.Scanner

namespace ShaderReduction

namespace Scanner

variable {Value First Second : Type} {sign : CodePoint}

/-! ### What scanners use -/

/-- A scanner that is faithful and never uses a certain code point. -/
structure Avoids (sign : CodePoint) (scanner : Scanner Value) : Prop where
  faithful : Faithful scanner
  unused : ∀ text reading, scanner text = some reading → sign ∉ reading.used

theorem avoids_bind {first : Scanner First} {second : First → Scanner Second}
    (firstAvoids : Avoids sign first) (secondAvoids : ∀ value, Avoids sign (second value)) :
    Avoids sign (first >>= second) where
  faithful := faithful_bind firstAvoids.faithful fun value => (secondAvoids value).faithful
  unused text reading found member := by
    obtain ⟨early, late, earlyFound, lateFound, rfl⟩ := bind_eq_some found
    rcases List.mem_append.1 member with front | back
    · exact firstAvoids.unused text early earlyFound front
    · exact (secondAvoids _).unused _ late lateFound back

theorem avoids_pure (value : Value) : Avoids sign (pure value : Scanner Value) where
  faithful := faithful_pure value
  unused text reading found := by
    cases found
    exact List.not_mem_nil

theorem avoids_otherwise {first second : Scanner Value} (firstAvoids : Avoids sign first)
    (secondAvoids : Avoids sign second) : Avoids sign (otherwise first second) where
  faithful := faithful_otherwise firstAvoids.faithful secondAvoids.faithful
  unused text reading found := by
    unfold otherwise at found
    split at found
    · next early earlyFound =>
      obtain rfl := Option.some.inj found
      exact firstAvoids.unused text early earlyFound
    · exact secondAvoids.unused text reading found

theorem avoids_run {isMember : CodePoint → Bool} (foreign : isMember sign = false) :
    Avoids sign (run isMember) where
  faithful := faithful_run isMember
  unused text reading found member := by
    cases found
    rw [List.mem_takeWhile_imp member] at foreign
    cases foreign

theorem avoids_someRun {isMember : CodePoint → Bool} (foreign : isMember sign = false) :
    Avoids sign (someRun isMember) where
  faithful := faithful_someRun isMember
  unused text reading found :=
    (avoids_run foreign).unused text reading (someRun_eq_some_iff.1 found).1

theorem avoids_literal {word : Text} (foreign : sign ∉ word) : Avoids sign (literal word) where
  faithful := faithful_literal word
  unused text reading found := by rwa [(literal_eq_some found).2]

theorem avoids_written {scanner : Scanner Value} (avoids : Avoids sign scanner) :
    Avoids sign (written scanner) where
  faithful := faithful_written avoids.faithful
  unused text reading found := by
    obtain ⟨early, earlyFound, rfl⟩ := Option.map_eq_some_iff.1 found
    exact avoids.unused text early earlyFound

theorem avoids_optionally {scanner : Scanner Value} (avoids : Avoids sign scanner) :
    Avoids sign (optionally scanner) :=
  avoids_otherwise (avoids_written avoids) (avoids_pure [])

/-- A scanner gives the text that it used. -/
def Tells (scanner : Scanner Text) : Prop :=
  ∀ text reading, scanner text = some reading → reading.value = reading.used

theorem tells_run (isMember : CodePoint → Bool) : Tells (run isMember) := by
  intro text reading found
  cases found
  rfl

theorem tells_someRun (isMember : CodePoint → Bool) : Tells (someRun isMember) :=
  fun text reading found => tells_run isMember text reading (someRun_eq_some_iff.1 found).1

theorem tells_written (scanner : Scanner Value) : Tells (written scanner) := by
  intro text reading found
  obtain ⟨early, -, rfl⟩ := Option.map_eq_some_iff.1 found
  rfl

theorem tells_optionally (scanner : Scanner Value) : Tells (optionally scanner) := by
  intro text reading found
  unfold optionally otherwise at found
  split at found
  · next early earlyFound =>
    obtain rfl := Option.some.inj found
    exact tells_written scanner text early earlyFound
  · cases found
    rfl

end Scanner

namespace Declaration

open Scanner Text

/-! ### What a declaration uses -/

/-- A sign that is in no variable with its type. -/
def IsForeign (sign : CodePoint) : Prop :=
  sign.isBlank = false ∧ sign.isWord = false ∧ sign.isDigit = false ∧ sign ∉ ("[]" : Text)

instance : DecidablePred IsForeign := fun _ => inferInstanceAs (Decidable (_ ∧ _ ∧ _ ∧ _))

section Foreign

variable {sign : CodePoint} (isForeign : IsForeign sign)

include isForeign

theorem avoids_blanks : Avoids sign blanks := avoids_run isForeign.1

theorem avoids_gap : Avoids sign gap := avoids_someRun isForeign.1

theorem avoids_word : Avoids sign word := avoids_someRun isForeign.2.1

theorem avoids_digits : Avoids sign digits := avoids_someRun isForeign.2.2.1

theorem avoids_arrayBound : Avoids sign arrayBound := by
  have opening : sign ∉ ("[" : Text) := fun member =>
    isForeign.2.2.2 ((by decide : ("[" : Text) ⊆ ("[]" : Text)) member)
  have closing : sign ∉ ("]" : Text) := fun member =>
    isForeign.2.2.2 ((by decide : ("]" : Text) ⊆ ("[]" : Text)) member)
  refine avoids_written (avoids_bind (avoids_literal opening) fun _ => ?_)
  refine avoids_bind (avoids_blanks isForeign) fun _ => ?_
  refine avoids_bind (avoids_digits isForeign) fun _ => ?_
  exact avoids_bind (avoids_blanks isForeign) fun _ => avoids_literal closing

theorem avoids_closing {word : Text} (foreign : sign ∉ word) : Avoids sign (closing word) :=
  avoids_bind (avoids_blanks isForeign) fun _ => avoids_literal foreign

theorem avoids_named (type : Text) : Avoids sign (named type) :=
  avoids_bind (avoids_word isForeign) fun _ =>
    avoids_bind (avoids_blanks isForeign) fun _ =>
      avoids_bind (avoids_optionally (avoids_arrayBound isForeign)) fun _ => avoids_pure _

theorem avoids_precision : Avoids sign precision := by
  have noWord : ∀ {word : Text}, (∀ point ∈ word, point.isWord = true) → sign ∉ word := by
    intro word all member
    have foreign := isForeign.2.1
    rw [all sign member] at foreign
    cases foreign
  exact avoids_otherwise (avoids_literal (noWord (by decide)))
    (avoids_otherwise (avoids_literal (noWord (by decide)))
      (avoids_literal (noWord (by decide))))

theorem avoids_typedName : Avoids sign typedName := by
  refine avoids_otherwise (avoids_bind (avoids_written ?_) fun type => ?_)
    (avoids_bind (avoids_word isForeign) fun type => ?_)
  · exact avoids_bind (avoids_precision isForeign) fun _ =>
      avoids_bind (avoids_gap isForeign) fun _ => avoids_word isForeign
  · exact avoids_bind (avoids_gap isForeign) fun _ => avoids_named isForeign type
  · exact avoids_bind (avoids_gap isForeign) fun _ => avoids_named isForeign type

end Foreign

theorem isForeign_semicolon : IsForeign (.scalar ';') := by decide

theorem faithful_precision : Faithful precision := (avoids_precision isForeign_semicolon).faithful

theorem faithful_typedName : Faithful typedName := (avoids_typedName isForeign_semicolon).faithful

theorem named_eq_some {type text : Text} {reading : Reading Variable}
    (found : named type text = some reading) :
    reading.value.type = type ∧ reading.value.declarator = reading.used := by
  obtain ⟨name, _, nameFound, afterName, rfl⟩ := bind_eq_some found
  obtain ⟨space, _, spaceFound, afterSpace, rfl⟩ := bind_eq_some afterName
  obtain ⟨size, _, sizeFound, made, rfl⟩ := bind_eq_some afterSpace
  cases made
  refine ⟨rfl, ?_⟩
  show name.value ++ space.value ++ size.value = name.used ++ (space.used ++ (size.used ++ []))
  rw [tells_someRun _ _ _ nameFound, tells_run _ _ _ spaceFound,
    tells_optionally _ _ _ sizeFound, List.append_nil, List.append_assoc]

/-- The type and the declarator of a variable stand one after the other in what was used. -/
theorem typedName_eq_some {text : Text} {reading : Reading Variable}
    (found : typedName text = some reading) :
    (reading.value.type ++ reading.value.declarator).Sublist reading.used := by
  have typed : ∀ {typeScanner : Scanner Text} {text : Text} {reading : Reading Variable},
      Tells typeScanner →
      (typeScanner >>= fun type => gap >>= fun _ => named type) text = some reading →
      (reading.value.type ++ reading.value.declarator).Sublist reading.used := by
    intro typeScanner text reading tells found
    obtain ⟨type, _, typeFound, afterType, rfl⟩ := bind_eq_some found
    obtain ⟨space, _, _, afterSpace, rfl⟩ := bind_eq_some afterType
    obtain ⟨isType, isDeclarator⟩ := named_eq_some afterSpace
    dsimp only at isType isDeclarator ⊢
    rw [isType, isDeclarator, tells _ _ typeFound]
    exact (List.Sublist.refl _).append (List.sublist_append_right _ _)
  unfold typedName otherwise at found
  split at found
  · next early earlyFound =>
    obtain rfl := Option.some.inj found
    exact typed (tells_written _) earlyFound
  · exact typed (tells_someRun _) found

/-- A plain declaration begins with its word and has one semicolon, at its end. -/
theorem plain_eq_some {text : Text} {reading : Reading PlainDeclaration}
    (found : plain text = some reading) :
    (∀ point ∈ reading.value.indent, point.isIndent = true) ∧
      ∃ body : Text, .scalar ';' ∉ body ∧
        reading.used = reading.value.indent ++ (("uniform" : Text) ++ body ++ (";" : Text)) ∧
        (reading.value.member.type ++ reading.value.member.declarator).Sublist body := by
  obtain ⟨indent, _, indentFound, afterIndent, rfl⟩ := bind_eq_some found
  obtain ⟨introduction, _, introductionFound, afterIntroduction, rfl⟩ := bind_eq_some afterIndent
  obtain ⟨space, _, spaceFound, afterSpace, rfl⟩ := bind_eq_some afterIntroduction
  obtain ⟨member, _, memberFound, afterMember, rfl⟩ := bind_eq_some afterSpace
  obtain ⟨ending, _, endingFound, made, rfl⟩ := bind_eq_some afterMember
  cases made
  obtain ⟨blank, sign, blankFound, signFound, rfl⟩ := bind_eq_some endingFound
  dsimp only
  refine ⟨?_, space.used ++ (member.used ++ blank.used), ?_, ?_, ?_⟩
  · cases indentFound
    exact fun point among => List.mem_takeWhile_imp among
  · simp only [List.mem_append, not_or]
    exact ⟨(avoids_gap isForeign_semicolon).unused _ _ spaceFound,
      (avoids_typedName isForeign_semicolon).unused _ _ memberFound,
      (avoids_blanks isForeign_semicolon).unused _ _ blankFound⟩
  · rw [tells_run _ _ _ indentFound, (literal_eq_some introductionFound).2,
      (literal_eq_some signFound).2]
    simp only [List.append_assoc, List.append_nil]
  · exact ((typedName_eq_some memberFound).trans (List.sublist_append_left _ _)).trans
      (List.sublist_append_right _ _)

theorem faithful_closing (sign : Text) : Faithful (closing sign) :=
  faithful_bind (faithful_run _) fun _ => faithful_literal sign

theorem faithful_plain : Faithful plain :=
  faithful_bind (faithful_run _) fun _ => faithful_bind (faithful_literal _) fun _ =>
    faithful_bind (faithful_someRun _) fun _ => faithful_bind faithful_typedName fun _ =>
      faithful_bind (faithful_closing _) fun _ => faithful_pure _

theorem faithful_layout : Faithful layout :=
  faithful_bind (faithful_literal _) fun _ => faithful_bind (faithful_closing _) fun _ =>
    faithful_bind (faithful_closing _) fun _ => faithful_bind (faithful_closing _) fun _ =>
      faithful_bind (faithful_closing _) fun _ => faithful_bind (faithful_closing _) fun _ =>
        faithful_bind (faithful_closing _) fun _ => faithful_bind (faithful_closing _) fun _ =>
          faithful_bind (faithful_run _) fun _ => faithful_bind (faithful_someRun _) fun _ =>
            faithful_bind (faithful_closing _) fun _ => faithful_pure _

theorem faithful_bound : Faithful bound :=
  faithful_bind (faithful_run _) fun _ => faithful_bind faithful_layout fun _ =>
    faithful_bind (faithful_closing _) fun _ => faithful_bind (faithful_someRun _) fun _ =>
      faithful_bind (faithful_someRun _) fun _ => faithful_bind (faithful_closing _) fun _ =>
        faithful_bind (faithful_run _) fun _ =>
          faithful_bind faithful_typedName fun _ =>
            faithful_bind (faithful_closing _) fun _ => faithful_bind (faithful_closing _) fun _ =>
              faithful_bind (faithful_closing _) fun _ => faithful_pure _

/-! ### Declarations on one line -/

/-- A line that begins like a declaration has a semicolon. -/
def Alone (line : Text) : Prop :=
  ("uniform" : Text) <+: line.dropWhile CodePoint.isIndent → .scalar ';' ∈ line

instance : DecidablePred Alone := fun _ => inferInstanceAs (Decidable (_ <+: _ → _ ∈ _))

/-- What may follow a line: nothing, or a line feed and more. -/
inductive Ends : Text → Prop
  | nothing : Ends []
  | feed (rest : Text) : Ends (.scalar '\n' :: rest)

/-- A part without line feeds at the start of a text is at the start of its first line. -/
theorem Ends.prefix_line {ending line part : Text} (ends : Ends ending)
    (noFeed : .scalar '\n' ∉ part) (begins : part <+: line ++ ending) : part <+: line := by
  rcases List.prefix_or_prefix_of_prefix begins (List.prefix_append line ending) with
    within | ⟨more, rfl⟩
  · exact within
  · have later : more <+: ending := (List.prefix_append_right_inj line).1 begins
    cases ends with
    | nothing => rw [List.prefix_nil.1 later, List.append_nil]
    | feed rest =>
      cases more with
      | nil => rw [List.append_nil]
      | cons point more =>
        obtain ⟨rfl, -⟩ := List.cons_prefix_cons.1 later
        exact absurd (List.mem_append_right _ List.mem_cons_self) noFeed

/-- What comes before the first occurrence of a sign that is in a line. -/
theorem prefix_of_first {sign : CodePoint} {line ending front rest : Text} (inLine : sign ∈ line)
    (absent : sign ∉ front) (same : line ++ ending = front ++ sign :: rest) :
    front ++ [sign] <+: line := by
  have begins : front ++ [sign] <+: line ++ ending :=
    ⟨rest, by rw [same, List.append_assoc, List.singleton_append]⟩
  rcases List.prefix_or_prefix_of_prefix begins (List.prefix_append line ending) with
    within | ⟨more, whole⟩
  · exact within
  · rcases List.eq_nil_or_concat more with rfl | ⟨most, last, rfl⟩
    · rw [← whole, List.append_nil]
    · rw [List.concat_eq_append, ← List.append_assoc] at whole
      rw [← (List.append_inj' whole rfl).1] at absent
      exact absurd (List.mem_append_left _ inLine) absent

/-- A declaration that begins on a line which has its semicolon ends on that line. -/
theorem used_prefix_of_alone {line ending : Text} {reading : Reading PlainDeclaration}
    (unbroken : Unbroken line) (alone : Alone line) (ends : Ends ending)
    (found : plain (line ++ ending) = some reading) : reading.used <+: line := by
  obtain ⟨isIndent, body, noSemicolon, used, -⟩ := plain_eq_some found
  have whole := faithful_plain _ _ found
  have noIndent : ∀ {point : CodePoint}, point.isIndent = false → point ∉ reading.value.indent := by
    intro point foreign member
    rw [isIndent point member] at foreign
    cases foreign
  have introduced : reading.value.indent ++ ("uniform" : Text) <+: line := by
    refine ends.prefix_line ?_ ?_
    · rw [List.mem_append, not_or]
      exact ⟨noIndent (by decide), by decide⟩
    · refine ⟨body ++ (";" : Text) ++ reading.rest, ?_⟩
      rw [whole, used]
      simp only [List.append_assoc]
  obtain ⟨more, rfl⟩ := introduced
  have inLine := alone (by
    rw [List.append_assoc, List.dropWhile_append_of_pos isIndent]
    exact ⟨more, rfl⟩)
  have first : .scalar ';' ∉ reading.value.indent ++ (("uniform" : Text) ++ body) := by
    simp only [List.mem_append, not_or]
    exact ⟨noIndent (by decide), by decide, noSemicolon⟩
  have cut : reading.value.indent ++ ("uniform" : Text) ++ more ++ ending =
      reading.value.indent ++ (("uniform" : Text) ++ body) ++ .scalar ';' :: reading.rest := by
    rw [whole, used]
    simp only [List.append_assoc]
    rfl
  rw [used, ← List.append_assoc]
  exact prefix_of_first inLine first cut

/-! ### Lines that are bound -/

section Replace

variable {Value : Type} {scanner : Scanner Value} {replace : Value → Text → Text}

theorem replaceAtLines_of_none {text : Text} (none : scanner text = none) :
    replaceAtLines scanner replace true text = replaceAtLines scanner replace false text := by
  cases text with
  | nil => rw [replaceAtLines, replaceAtLines]
  | cons point text =>
    rw [replaceAtLines, replaceAtLines, if_pos rfl, if_neg Bool.false_ne_true, none]

/-- The rest of a line stays as it is. -/
theorem replaceAtLines_false_append {line : Text} (noFeed : .scalar '\n' ∉ line) (ending : Text) :
    replaceAtLines scanner replace false (line ++ ending) =
      line ++ replaceAtLines scanner replace false ending := by
  induction line with
  | nil => rfl
  | cons point line inductionHypothesis =>
    obtain ⟨here, later⟩ := not_or.1 (mt List.mem_cons.2 noFeed)
    have notFeed : (point == .scalar '\n') = false := beq_false_of_ne (Ne.symm here)
    rw [List.cons_append, replaceAtLines, if_neg Bool.false_ne_true, notFeed]
    exact congrArg (point :: ·) (inductionHypothesis later)

/-- A piece that is recognised is replaced. -/
theorem replaceAtLines_of_some {text : Text} {reading : Reading Value}
    (faithful : Faithful scanner) (used : reading.used ≠ [])
    (found : scanner text = some reading) :
    replaceAtLines scanner replace true text = replace reading.value reading.used ++
      replaceAtLines scanner replace (reading.used.getLast? == some (.scalar '\n'))
        reading.rest := by
  have whole := faithful text reading found
  cases text with
  | nil => exact absurd (List.append_eq_nil_iff.1 whole.symm).1 used
  | cons point text =>
    have shorter : reading.rest.length ≤ text.length := by
      have lengths := congrArg List.length whole
      rw [List.length_cons, List.length_append] at lengths
      have := List.length_pos_iff.2 used
      omega
    rw [replaceAtLines, if_pos rfl, found]
    dsimp only
    rw [if_pos shorter]

end Replace

/-- What a plain declaration becomes, which stays as it was written unless it has a binding. -/
def boundPiece (bindings : Members) (declaration : PlainDeclaration) (used : Text) : Text :=
  match Table.find? declaration.member.name bindings with
  | some binding => boundForm declaration binding
  | none => used

theorem bindPlain_eq (bindings : Members) (text : Text) :
    bindPlain bindings text = replaceAtLines plain (boundPiece bindings) true text := rfl

section Bind

variable {bindings : Members}
  (shown : ∀ name binding, Table.find? name bindings = some binding → Unbroken binding.display)

include shown

theorem unbroken_boundForm {declaration : PlainDeclaration} {binding : Document}
    (indent : Unbroken declaration.indent) (type : Unbroken declaration.member.type)
    (declarator : Unbroken declaration.member.declarator)
    (found : Table.find? declaration.member.name bindings = some binding) :
    Unbroken (boundForm declaration binding) := by
  have number := shown _ _ found
  have opening : Unbroken "layout(set = 0, binding = " := by decide
  have block : Unbroken ") uniform buf" := by decide
  have brace : Unbroken " \x7b " := by decide
  have space : Unbroken " " := by decide
  have closing : Unbroken "; \x7d;" := by decide
  exact (((((((((indent.append opening).append number).append block).append number).append
    brace).append type).append space).append declarator).append closing)

/-- What a declaration on one line becomes stands on one line. -/
theorem unbroken_boundPiece {text : Text} {reading : Reading PlainDeclaration}
    (found : plain text = some reading) (unbroken : Unbroken reading.used) :
    Unbroken (boundPiece bindings reading.value reading.used) ∧
      boundPiece bindings reading.value reading.used ≠ [] := by
  obtain ⟨-, body, -, used, within⟩ := plain_eq_some found
  unfold boundPiece
  split
  · next binding bound =>
    have bodyWithin : body ⊆ reading.used := by
      intro point member
      rw [used]
      exact List.mem_append_right _ (List.mem_append_left _ (List.mem_append_right _ member))
    have member := unbroken.mono (List.Subset.trans within.subset bodyWithin)
    refine ⟨unbroken_boundForm shown (unbroken.mono ?_)
      (member.mono (List.subset_append_left _ _))
      (member.mono (List.subset_append_right _ _)) bound, ?_⟩
    · rw [used]
      exact List.subset_append_left _ _
    · exact List.append_ne_nil_of_right_ne_nil _ (by decide)
  · refine ⟨unbroken, ?_⟩
    rw [used]
    exact List.append_ne_nil_of_right_ne_nil _ (List.append_ne_nil_of_right_ne_nil _ (by decide))

/-- Binding what a line declares leaves a line, which is empty only if the line was. -/
theorem exists_line_of_replaceAtLines {line ending : Text} (unbroken : Unbroken line)
    (alone : Alone line) (ends : Ends ending) :
    ∃ other, Unbroken other ∧ (other = [] ↔ line = []) ∧
      replaceAtLines plain (boundPiece bindings) true (line ++ ending) =
        other ++ replaceAtLines plain (boundPiece bindings) false ending := by
  cases found : plain (line ++ ending) with
  | none =>
    refine ⟨line, unbroken, Iff.rfl, ?_⟩
    rw [replaceAtLines_of_none found, replaceAtLines_false_append unbroken.notMem_lineFeed]
  | some reading =>
    obtain ⟨tail, rfl⟩ := used_prefix_of_alone unbroken alone ends found
    have usedUnbroken : Unbroken reading.used := unbroken.mono (List.subset_append_left _ _)
    have tailUnbroken : Unbroken tail := unbroken.mono (List.subset_append_right _ _)
    obtain ⟨pieceUnbroken, nonempty⟩ := unbroken_boundPiece shown found usedUnbroken
    obtain ⟨-, body, -, used, -⟩ := plain_eq_some found
    have begun : reading.used ≠ [] := by
      rw [used]
      exact List.append_ne_nil_of_right_ne_nil _ (List.append_ne_nil_of_right_ne_nil _ (by decide))
    have rest : reading.rest = tail ++ ending := by
      have whole := faithful_plain _ _ found
      rw [List.append_assoc] at whole
      exact (List.append_cancel_left whole).symm
    have open? : (reading.used.getLast? == some (.scalar '\n')) = false := by
      refine beq_false_of_ne fun last => ?_
      exact usedUnbroken.notMem_lineFeed (List.mem_of_getLast? last)
    refine ⟨boundPiece bindings reading.value reading.used ++ tail,
      pieceUnbroken.append tailUnbroken, ?_, ?_⟩
    · exact iff_of_false (List.append_ne_nil_of_left_ne_nil nonempty _)
        (List.append_ne_nil_of_left_ne_nil begun _)
    · rw [replaceAtLines_of_some faithful_plain begun found, open?, rest,
        replaceAtLines_false_append tailUnbroken.notMem_lineFeed, List.append_assoc]

/-- Binding the declarations of a text, each of which stands on one line, keeps the number of its
lines. -/
theorem length_lines_bindPlain {text : Text} (feedsOnly : FeedsOnly text)
    (alone : ∀ line ∈ lines text, Alone line) :
    FeedsOnly (bindPlain bindings text) ∧
      (lines (bindPlain bindings text)).length = (lines text).length := by
  rw [bindPlain_eq]
  induction feedsOnly with
  | nil =>
    rw [replaceAtLines]
    exact ⟨.nil, rfl⟩
  | @last line unbroken nonempty =>
    rw [lines_unbroken unbroken nonempty] at alone ⊢
    obtain ⟨other, otherUnbroken, empty, replaced⟩ := exists_line_of_replaceAtLines shown unbroken
      (alone line List.mem_cons_self) .nothing
    have otherNonempty := mt empty.1 nonempty
    rw [List.append_nil, replaceAtLines, List.append_nil] at replaced
    rw [replaced, lines_unbroken otherUnbroken otherNonempty]
    exact ⟨.last otherUnbroken otherNonempty, rfl⟩
  | @next line rest unbroken _ inductionHypothesis =>
    rw [lines_unbroken_append unbroken] at alone ⊢
    obtain ⟨here, later⟩ := List.forall_mem_cons.1 alone
    obtain ⟨restFeeds, restLines⟩ := inductionHypothesis later
    obtain ⟨other, otherUnbroken, -, replaced⟩ :=
      exists_line_of_replaceAtLines shown unbroken here (.feed rest)
    rw [replaceAtLines, if_neg Bool.false_ne_true, beq_self_eq_true] at replaced
    rw [replaced, lines_unbroken_append otherUnbroken, List.length_cons, restLines]
    exact ⟨.next otherUnbroken restFeeds, rfl⟩

end Bind

end Declaration

end ShaderReduction
