/-
This file proves that nested macros are expanded as their definitions say.

What macros mean is said of trees: plain text, groups in brackets and calls of macros, with trees as
their arguments. A call that has as many arguments as the definition of its macro means what the
definition says, with the meaning of its last argument put in; any other call keeps its name and its
bracket around the meanings of its arguments. Simplification knows no trees: it goes through a text
from the left, looks for names, and cuts a call where its brackets say. On the spelling of a tree
both agree. The spelling of each argument leads back to the level where it stands, so the call is
cut between its arguments, and what is expanded at one place of a text is independent of what
follows unless a word goes on there.
-/

import ShaderReduction.Proofs.Macro.Simplification

namespace ShaderReduction

namespace Macro

open Call Scanner

/-! ### Trees -/

/-- A text without brackets, commas and number signs of which no word is the name of a macro. -/
structure PlainText where
  text : Text
  flat : ∀ point ∈ text, isOpening point = false ∧ isClosing point = false ∧
    point ≠ .scalar ',' ∧ point ≠ .scalar '#'
  nameless : AtWords (fun rest => leadingWord rest ∉ names) false text

/-- What stands before the bracket of a call: the name of a macro and blanks. -/
structure Head where
  name : Text
  meaning : MacroMeaning
  gap : Text
  isMacro : (name, meaning) ∈ meanings
  blank : ∀ point ∈ gap, point.isBlank = true

mutual

/-- A piece of a text: plain text, a group in square brackets or parentheses, or a call of a macro,
the last two with their arguments. -/
inductive Piece where
  | plain (content : PlainText)
  | group (isSquare : Bool) (arguments : Arguments)
  | call (head : Head) (arguments : Arguments)

/-- Pieces in a row. -/
inductive Tree where
  | nil
  | cons (first : Piece) (rest : Tree)

/-- A tree, or several that commas separate. -/
inductive Arguments where
  | one (only : Tree)
  | more (first : Tree) (others : Arguments)

end

/-- A text in square brackets or parentheses. -/
def bracketed (isSquare : Bool) (text : Text) : Text :=
  if isSquare then .scalar '[' :: (text ++ [.scalar ']'])
  else .scalar '(' :: (text ++ [.scalar ')'])

/-- What stands in front of the arguments of a call. -/
def Head.text (head : Head) : Text := head.name ++ head.gap

mutual

/-- The spelling of a piece. -/
def Piece.rendering : Piece → Text
  | .plain content => content.text
  | .group isSquare arguments => bracketed isSquare arguments.rendering
  | .call head arguments => head.text ++ bracketed false arguments.rendering

/-- The spelling of pieces in a row. -/
def Tree.rendering : Tree → Text
  | .nil => []
  | .cons first rest => first.rendering ++ rest.rendering

/-- The spelling of arguments. -/
def Arguments.rendering : Arguments → Text
  | .one only => only.rendering
  | .more first others => first.rendering ++ .scalar ',' :: others.rendering

end

mutual

/-- What a piece means when its macros are expanded. -/
def Piece.expansion : Piece → Text
  | .plain content => content.text
  | .group isSquare arguments => bracketed isSquare arguments.expansion
  | .call head arguments =>
    match head.meaning, arguments with
    | .value, .more _ (.one last) => bracketed false last.expansion.trim
    | .parenthesis, .one only => bracketed false only.expansion.trim
    | .wrapper, .one only => only.expansion.trim
    | _, arguments => head.text ++ bracketed false arguments.expansion

/-- What pieces in a row mean. -/
def Tree.expansion : Tree → Text
  | .nil => []
  | .cons first rest => first.expansion ++ rest.expansion

/-- What arguments mean, each on its own. -/
def Arguments.expansion : Arguments → Text
  | .one only => only.expansion
  | .more first others => first.expansion ++ .scalar ',' :: others.expansion

end

/-- Plain text is not followed by plain text, nor directly by a call if it ends in a word. -/
def Piece.MayPrecede : Piece → Tree → Prop
  | .plain _, .cons (.plain _) _ => False
  | .plain content, .cons (.call _ _) _ => endsWord false content.text = false
  | _, _ => True

mutual

/-- What is in a piece is spelled apart. -/
def Piece.Apart : Piece → Prop
  | .plain _ => True
  | .group _ arguments => arguments.Apart
  | .call _ arguments => arguments.Apart

/-- All neighbours in a tree, at every depth, are pieces that may be neighbours. -/
def Tree.Apart : Tree → Prop
  | .nil => True
  | .cons first rest => first.Apart ∧ rest.Apart ∧ first.MayPrecede rest

/-- What is in arguments is spelled apart. -/
def Arguments.Apart : Arguments → Prop
  | .one only => only.Apart
  | .more first others => first.Apart ∧ others.Apart

end

/-! ### Calls with as many arguments as the definition -/

/-- How many arguments there are. -/
def Arguments.length : Arguments → Nat
  | .one _ => 1
  | .more _ others => others.length + 1

/-- The last argument. -/
def Arguments.last : Arguments → Tree
  | .one only => only
  | .more _ others => others.last

/-- The spellings of the arguments. -/
def Arguments.texts : Arguments → List Text
  | .one only => [only.rendering]
  | .more first others => first.rendering :: others.texts

theorem Arguments.length_pos (arguments : Arguments) : 0 < arguments.length := by
  cases arguments <;> exact Nat.succ_pos _

theorem Arguments.length_texts (arguments : Arguments) :
    arguments.texts.length = arguments.length := by
  match arguments with
  | .one _ => rfl
  | .more _ others => exact congrArg (· + 1) others.length_texts

theorem Arguments.getLast?_texts (arguments : Arguments) :
    arguments.texts.getLast? = some arguments.last.rendering := by
  match arguments with
  | .one _ => rfl
  | .more _ others =>
    have later := others.getLast?_texts
    rw [texts, List.getLast?_cons, later]
    rfl

theorem expansion_of_filled {head : Head} {arguments : Arguments}
    (filled : arguments.length = head.meaning.arity) :
    (Piece.call head arguments).expansion =
      head.meaning.apply arguments.last.expansion.trim := by
  obtain ⟨name, meaning, gap, isMacro, blank⟩ := head
  match meaning, arguments with
  | .value, .more _ (.one last) => rfl
  | .parenthesis, .one only => rfl
  | .wrapper, .one only => rfl
  | .value, .one _ => cases filled
  | .value, .more _ (.more _ others) =>
    have positive := others.length_pos
    simp only [Arguments.length, MacroMeaning.arity] at filled
    omega
  | .parenthesis, .more _ others | .wrapper, .more _ others =>
    have positive := others.length_pos
    simp only [Arguments.length, MacroMeaning.arity] at filled
    omega

theorem expansion_of_unfilled {head : Head} {arguments : Arguments}
    (unfilled : arguments.length ≠ head.meaning.arity) :
    (Piece.call head arguments).expansion =
      head.text ++ bracketed false arguments.expansion := by
  obtain ⟨name, meaning, gap, isMacro, blank⟩ := head
  match meaning, arguments with
  | .value, .more _ (.one _) => exact absurd rfl unfilled
  | .parenthesis, .one _ => exact absurd rfl unfilled
  | .wrapper, .one _ => exact absurd rfl unfilled
  | .value, .one _ => rfl
  | .value, .more _ (.more _ _) => rfl
  | .parenthesis, .more _ _ => rfl
  | .wrapper, .more _ _ => rfl

/-! ### Spellings stay within their argument -/

/-- A text leads from a level back to it and has no number sign. -/
structure StaysAt (level : Int) (text : Text) : Prop where
  leads : leadsTo? level text = some level
  noSign : .scalar '#' ∉ text

theorem StaysAt.append {level : Int} {text more : Text} (stays : StaysAt level text)
    (moreStays : StaysAt level more) : StaysAt level (text ++ more) := by
  refine ⟨?_, fun member => (List.mem_append.1 member).elim stays.noSign moreStays.noSign⟩
  rw [leadsTo?_append_of_eq stays.leads, moreStays.leads]

theorem StaysAt.deeper {level : Int} {text : Text} (stays : StaysAt 1 text) (inside : 1 ≤ level) :
    StaysAt level text :=
  ⟨Sealed.leadsTo? stays.leads inside, stays.noSign⟩

theorem StaysAt.bracketed {text : Text} (stays : StaysAt 2 text) (isSquare : Bool) :
    StaysAt 1 (bracketed isSquare text) := by
  have around : ∀ opening closing : CodePoint, leadsTo? 1 [opening] = some 2 →
      leadsTo? 2 [closing] = some 1 → opening ≠ .scalar '#' → closing ≠ .scalar '#' →
      StaysAt 1 (opening :: (text ++ [closing])) := by
    intro opening closing opens closes openingSign closingSign
    refine ⟨?_, ?_⟩
    · rw [← List.singleton_append, leadsTo?_append_of_eq opens, leadsTo?_append_of_eq stays.leads,
        closes]
    · simp [openingSign.symm, closingSign.symm, stays.noSign]
  cases isSquare with
  | true => exact around _ _ (by decide) (by decide) (by decide) (by decide)
  | false => exact around _ _ (by decide) (by decide) (by decide) (by decide)

theorem PlainText.staysAt (plain : PlainText) (level : Int) : StaysAt level plain.text := by
  refine ⟨?_, fun member => (plain.flat _ member).2.2.2 rfl⟩
  have flat := plain.flat
  generalize plain.text = text at flat ⊢
  induction text with
  | nil => rfl
  | cons point text inductionHypothesis =>
    obtain ⟨⟨opens, closes, separates, -⟩, others⟩ := List.forall_mem_cons.1 flat
    rw [leadsTo?, opens, closes, if_neg Bool.false_ne_true, if_neg Bool.false_ne_true,
      if_neg fun both => separates both.1]
    exact inductionHypothesis others

theorem Head.staysAt (head : Head) (level : Int) : StaysAt level head.text := by
  have parts : ∀ point ∈ head.text, point.isWord = true ∨ point.isBlank = true := by
    intro point member
    rcases List.mem_append.1 member with inName | inGap
    · exact .inl (isWord_of_mem_name head.isMacro point inName)
    · exact .inr (head.blank point inGap)
  refine ⟨leadsTo?_of_plain parts level, fun member => ?_⟩
  exact absurd (parts _ member) (by decide +kernel)

mutual

theorem Piece.staysAt (piece : Piece) : StaysAt 1 piece.rendering := by
  match piece with
  | .plain content => exact content.staysAt 1
  | .group isSquare arguments => exact arguments.staysAt.bracketed isSquare
  | .call head arguments => exact (head.staysAt 1).append (arguments.staysAt.bracketed false)

theorem Tree.staysAt (tree : Tree) : StaysAt 1 tree.rendering := by
  match tree with
  | .nil => exact ⟨rfl, List.not_mem_nil⟩
  | .cons first rest => exact first.staysAt.append rest.staysAt

/-- Between their brackets arguments stay where they are. -/
theorem Arguments.staysAt (arguments : Arguments) : StaysAt 2 arguments.rendering := by
  match arguments with
  | .one only => exact only.staysAt.deeper (by decide)
  | .more first others =>
    have comma : StaysAt 2 [.scalar ','] := ⟨by decide, by decide⟩
    exact (first.staysAt.deeper (by decide)).append (comma.append others.staysAt)

end

/-! ### Where a call is cut -/

theorem Arguments.texts_ne_nil (arguments : Arguments) : arguments.texts ≠ [] :=
  List.ne_nil_of_length_pos (arguments.length_texts ▸ arguments.length_pos)

theorem Arguments.joinWith_texts (arguments : Arguments) :
    Text.joinWith "," arguments.texts = arguments.rendering := by
  match arguments with
  | .one only => rfl
  | .more first others =>
    rw [texts, joinWith_comma_cons _ others.texts_ne_nil, others.joinWith_texts, rendering]

theorem Arguments.sealed_texts (arguments : Arguments) :
    ∀ text ∈ arguments.texts, Sealed text := by
  match arguments with
  | .one only => exact List.forall_mem_singleton.2 only.staysAt.leads
  | .more first others => exact List.forall_mem_cons.2 ⟨first.staysAt.leads, others.sealed_texts⟩

/-- A call is cut into the spellings of its arguments. -/
theorem Arguments.splitFrom_rendering (arguments : Arguments) (rest : Text) :
    splitFrom 1 (arguments.rendering ++ .scalar ')' :: rest) = some ⟨arguments.texts, rest⟩ := by
  rw [← arguments.joinWith_texts]
  exact splitFrom_joinWith arguments.texts_ne_nil arguments.sealed_texts rfl rest

/-! ### Expansion of one piece -/

/-- Whatever follows, if no word goes on there a text is expanded to another one on its own. -/
def ExpandsTo (text expanded : Text) : Prop :=
  ∀ rest, beginsWord rest = false →
    expand false (text ++ rest) = expanded ++ expand false rest

/-- Where no word begins it does not matter whether one stands before. -/
theorem expand_of_beginsWord {text : Text} (ends : beginsWord text = false) (afterWord : Bool) :
    expand afterWord text = expand false text := by
  cases text with
  | nil => rw [expand, expand]
  | cons point following =>
    have absent : ∀ before, useAt before (point :: following) = none := by
      intro before
      unfold useAt
      split
      · rfl
      · exact anyUse_of_beginsWord ends
    rw [expand_cons_of_none (absent _), expand_cons_of_none (absent _)]

theorem expand_cons_of_not_isWord {point : CodePoint} (notWord : point.isWord = false)
    (following : Text) : expand false (point :: following) = point :: expand false following := by
  have noUse : useAt false (point :: following) = none := anyUse_of_beginsWord notWord
  rw [expand_cons_of_none noUse, notWord]

/-- What follows a text that does not end in a word leaves the word at its start as it is. -/
theorem leadingWord_append_of_endsWord {text rest : Text}
    (ends : endsWord true text = true → beginsWord rest = false) :
    leadingWord (text ++ rest) = leadingWord text := by
  induction text with
  | nil => exact leadingWord_of_beginsWord (ends rfl)
  | cons point text inductionHypothesis =>
    rw [List.cons_append, leadingWord, leadingWord, List.takeWhile_cons, List.takeWhile_cons]
    split
    · next isWord =>
      rw [endsWord_cons, isWord] at ends
      exact congrArg _ (inductionHypothesis ends)
    · rfl

/-- Plain text is kept if its last word does not go on after it. -/
theorem expand_append_of_nameless {afterWord : Bool} {text rest : Text}
    (nameless : AtWords (fun part => leadingWord part ∉ names) afterWord text)
    (ends : endsWord afterWord text = true → beginsWord rest = false) :
    expand afterWord (text ++ rest) = text ++ expand (endsWord afterWord text) rest := by
  induction text generalizing afterWord with
  | nil => rfl
  | cons point text inductionHypothesis =>
    have noUse : useAt afterWord (point :: (text ++ rest)) = none := by
      refine Option.eq_none_iff_forall_ne_some.2 fun reading found => ?_
      obtain ⟨start, isUse⟩ := useAt_eq_some_iff.1 found
      have isName := leadingWord_mem_names isUse
      rw [endsWord_cons, ← endsWord_cons true] at ends
      rw [← List.cons_append, leadingWord_append_of_endsWord ends] at isName
      exact nameless.1 start isName
    rw [endsWord_cons] at ends ⊢
    rw [List.cons_append, expand_cons_of_none noUse, inductionHypothesis nameless.2 ends,
      List.cons_append]

/-! ### Expansion of trees -/

theorem Head.anyUse (head : Head) (rest : Text) :
    Macro.anyUse (head.text ++ .scalar '(' :: rest) =
      some ⟨head.meaning, head.text ++ [.scalar '('], rest⟩ := by
  have word : leadingWord (head.text ++ .scalar '(' :: rest) = head.name := by
    rw [Head.text, List.append_assoc]
    exact leadingWord_append (isWord_of_mem_name head.isMacro) (beginsWord_gap_append head.blank _)
  refine anyUse_eq_some_iff.2 ⟨head.gap, ?_, head.blank, ?_, ?_⟩
  · rw [word]
    exact head.isMacro
  · rw [word]
    rfl
  · simp

theorem ExpandsTo.bracketed {text expanded : Text} (expands : ExpandsTo text expanded)
    (isSquare : Bool) (rest : Text) :
    expand false (bracketed isSquare text ++ rest) =
      bracketed isSquare expanded ++ expand false rest := by
  have around : ∀ opening closing : CodePoint, opening.isWord = false → closing.isWord = false →
      expand false (opening :: (text ++ closing :: rest)) =
        opening :: (expanded ++ closing :: expand false rest) := by
    intro opening closing opens closes
    have ends : beginsWord (closing :: rest) = false := closes
    rw [expand_cons_of_not_isWord opens, expands _ ends, expand_cons_of_not_isWord closes]
  cases isSquare with
  | true =>
    simpa [Macro.bracketed] using around (.scalar '[') (.scalar ']') (by decide) (by decide)
  | false =>
    simpa [Macro.bracketed] using around (.scalar '(') (.scalar ')') (by decide) (by decide)

/-- A spelling has no block of definitions. -/
theorem StaysAt.strip_eq {level : Int} {text : Text} (stays : StaysAt level text) :
    Definitions.strip text = text :=
  Text.removeFirst_of_not_infix fun occurs =>
    stays.noSign (occurs.subset (by decide))

/-- A call is expanded as its definition says, if its arguments are. -/
theorem expand_call (head : Head) {arguments : Arguments}
    (each : ExpandsTo arguments.rendering arguments.expansion)
    (last : ExpandsTo arguments.last.rendering arguments.last.expansion) (rest : Text) :
    expand false (head.text ++ bracketed false arguments.rendering ++ rest) =
      (Piece.call head arguments).expansion ++ expand false rest := by
  have spelled : head.text ++ bracketed false arguments.rendering ++ rest =
      head.text ++ .scalar '(' :: (arguments.rendering ++ .scalar ')' :: rest) := by
    simp [bracketed]
  have found := head.anyUse (arguments.rendering ++ .scalar ')' :: rest)
  have splitting := arguments.splitFrom_rendering rest
  rw [spelled]
  by_cases filled : arguments.length = head.meaning.arity
  · have alone := last [] rfl
    rw [List.append_nil, expand, List.append_nil] at alone
    rw [expand_of_filled found splitting arguments.getLast?_texts
      (arguments.length_texts.trans filled), arguments.last.staysAt.strip_eq, alone,
      expansion_of_filled filled]
  · have unfilled : arityFrom 1 (arguments.rendering ++ .scalar ')' :: rest) ≠
        some head.meaning.arity := by
      rw [arityFrom, splitting, Option.map_some, arguments.length_texts]
      exact fun same => filled (Option.some.inj same)
    have closes : CodePoint.isWord (.scalar ')') = false := by decide
    have ends : beginsWord (.scalar ')' :: rest) = false := closes
    rw [expand_of_unfilled found unfilled, each _ ends, expand_cons_of_not_isWord closes,
      expansion_of_unfilled filled]
    simp [bracketed]

theorem endsWord_bracketed (isSquare : Bool) (before text : Text) :
    endsWord false (before ++ bracketed isSquare text) = false := by
  have around : ∀ opening closing : CodePoint, closing.isWord = false →
      endsWord false (before ++ opening :: (text ++ [closing])) = false := by
    intro opening closing closes
    rw [← List.cons_append, ← List.append_assoc, endsWord_concat, closes]
  cases isSquare with
  | true => exact around _ _ (by decide)
  | false => exact around _ _ (by decide)

theorem beginsWord_bracketed (isSquare : Bool) (text rest : Text) :
    beginsWord (bracketed isSquare text ++ rest) = false := by
  cases isSquare with
  | true => exact show CodePoint.isWord (.scalar '[') = false by decide
  | false => exact show CodePoint.isWord (.scalar '(') = false by decide

/-- No word goes on from a piece to one that may be its neighbour. -/
theorem Piece.MayPrecede.ends {first : Piece} {rest : Tree} (may : first.MayPrecede rest)
    {after : Text} (ends : beginsWord after = false) :
    endsWord false first.rendering = true → beginsWord (rest.rendering ++ after) = false := by
  intro word
  match first, rest with
  | .group isSquare arguments, _ =>
    have noWord := endsWord_bracketed isSquare [] arguments.rendering
    exact absurd (word.symm.trans noWord) (by decide)
  | .call head arguments, _ =>
    have noWord := endsWord_bracketed false head.text arguments.rendering
    exact absurd (word.symm.trans noWord) (by decide)
  | .plain _, .nil => exact ends
  | .plain _, .cons (.plain _) _ => exact may.elim
  | .plain _, .cons (.call _ _) _ => exact absurd (word.symm.trans may) (by decide)
  | .plain _, .cons (.group isSquare arguments) rest =>
    rw [Tree.rendering, Piece.rendering, List.append_assoc]
    exact beginsWord_bracketed isSquare arguments.rendering _

mutual

theorem Piece.expand_rendering (piece : Piece) (apart : piece.Apart) {rest : Text}
    (ends : endsWord false piece.rendering = true → beginsWord rest = false) :
    expand false (piece.rendering ++ rest) = piece.expansion ++ expand false rest := by
  match piece with
  | .plain content =>
    have kept : expand false (content.text ++ rest) =
        content.text ++ expand (endsWord false content.text) rest :=
      expand_append_of_nameless content.nameless ends
    cases word : endsWord false content.text with
    | false => rwa [word] at kept
    | true => rwa [expand_of_beginsWord (ends word)] at kept
  | .group isSquare arguments =>
    exact (arguments.expandsTo apart).1.bracketed isSquare rest
  | .call head arguments =>
    have each := arguments.expandsTo apart
    exact expand_call head each.1 each.2 rest

theorem Tree.expandsTo (tree : Tree) (apart : tree.Apart) :
    ExpandsTo tree.rendering tree.expansion := by
  match tree with
  | .nil => exact fun _ _ => rfl
  | .cons first rest =>
    intro after ends
    obtain ⟨firstApart, restApart, may⟩ := apart
    have head := first.expand_rendering firstApart (may.ends ends)
    rw [Tree.rendering, List.append_assoc, head, rest.expandsTo restApart after ends,
      ← List.append_assoc, Tree.expansion]

/-- Each argument is expanded on its own, and so is the last one if it is all that is left. -/
theorem Arguments.expandsTo (arguments : Arguments) (apart : arguments.Apart) :
    ExpandsTo arguments.rendering arguments.expansion ∧
      ExpandsTo arguments.last.rendering arguments.last.expansion := by
  match arguments with
  | .one only => exact ⟨only.expandsTo apart, only.expandsTo apart⟩
  | .more first others =>
    have comma : CodePoint.isWord (.scalar ',') = false := by decide
    refine ⟨fun after ends => ?_, (others.expandsTo apart.2).2⟩
    have separated : beginsWord (.scalar ',' :: (others.rendering ++ after)) = false := comma
    rw [Arguments.rendering, List.append_assoc, List.cons_append,
      first.expandsTo apart.1 _ separated, expand_cons_of_not_isWord comma,
      (others.expandsTo apart.2).1 after ends, Arguments.expansion, List.append_assoc,
      List.cons_append]

end

/-- Simplifying the spelling of a tree gives what the tree means: of nested macros, in groups and in
arguments of any depth, each is expanded as its definition says. -/
theorem simplify_rendering (tree : Tree) (apart : tree.Apart) :
    simplify tree.rendering = tree.expansion := by
  have expanded := tree.expandsTo apart [] rfl
  rw [List.append_nil, expand, List.append_nil] at expanded
  rw [simplify, tree.staysAt.strip_eq, expanded]

/-- Calls in the arguments of calls and in brackets, one of them with an argument too many. -/
def nestedTree : Tree :=
  .cons (.plain ⟨"x = ", by decide, by decide +kernel⟩) <|
  .cons (.call ⟨"_GLF_IDENTITY", .value, " ", by decide, by decide⟩ <|
    .more (.cons (.call ⟨"_GLF_ONE", .value, [], by decide, by decide⟩ (.one .nil)) .nil) <|
    .one <|
      .cons (.plain ⟨" m", by decide, by decide +kernel⟩) <|
      .cons (.group true <|
        .more (.cons (.plain ⟨"i", by decide, by decide +kernel⟩) .nil) <|
        .one (.cons (.call ⟨"_GLF_SWITCH", .wrapper, [], by decide, by decide⟩ <|
          .one (.cons (.plain ⟨" j ", by decide, by decide +kernel⟩) .nil)) .nil)) .nil) <|
  .cons (.plain ⟨" + ", by decide, by decide +kernel⟩) <|
  .cons (.call ⟨"_GLF_DEAD", .parenthesis, [], by decide, by decide⟩ <|
    .more (.cons (.plain ⟨"c", by decide, by decide +kernel⟩) .nil) <|
    .one (.cons (.call ⟨"_GLF_FUZZED", .parenthesis, [], by decide, by decide⟩ <|
      .one (.cons (.plain ⟨"d", by decide, by decide +kernel⟩) .nil)) .nil)) .nil

theorem simplify_rendering_nestedTree :
    nestedTree.Apart ∧
      nestedTree.rendering =
        ("x = _GLF_IDENTITY (_GLF_ONE(), m[i,_GLF_SWITCH( j )]) + _GLF_DEAD(c,_GLF_FUZZED(d))" :
          Text) ∧
      nestedTree.expansion = ("x = (m[i,j]) + _GLF_DEAD(c,(d))" : Text) ∧
      simplify nestedTree.rendering = nestedTree.expansion := by
  have apart : nestedTree.Apart := by
    simp only [nestedTree, Tree.Apart, Piece.Apart, Arguments.Apart, Piece.MayPrecede]
    decide
  exact ⟨apart, by decide +kernel, by decide +kernel, simplify_rendering nestedTree apart⟩

end Macro

end ShaderReduction
