/-
This file proves that simplification only takes out of a text, and how far it keeps the brackets.

Each thing that is taken out leads from the level at which it stands back to that level: the block
of definitions, blanks, and a use with all but its last argument. So the brackets of a text are well
nested before as after. What is left stands in the order of the text, except for one thing: a macro
with parentheses keeps its closing bracket, and writes a parenthesis for it. Since each kind of
bracket closes a call, that may have been a square one.
-/

import ShaderReduction.Proofs.Thinning

namespace ShaderReduction

namespace Call

/-! ### Nesting -/

/-- How many brackets are open after a code point, if it closes none that is not open. -/
def openAfterPoint? (count : Nat) (point : CodePoint) : Option Nat :=
  if isOpening point then some (count + 1)
  else if isClosing point then if count = 0 then none else some (count - 1)
  else some count

/-- How many brackets are open after a text, if it closes none that is not open. -/
def openAfter? (count : Nat) : Text → Option Nat
  | [] => some count
  | point :: text => (openAfterPoint? count point).bind (openAfter? · text)

/-- The brackets of a text are well nested: each that closes has one that opens, and the other way
round. -/
def WellNested (text : Text) : Prop := openAfter? 0 text = some 0

instance (text : Text) : Decidable (WellNested text) :=
  inferInstanceAs (Decidable (openAfter? 0 text = some 0))

theorem openAfter?_append (count : Nat) (text more : Text) :
    openAfter? count (text ++ more) = (openAfter? count text).bind (openAfter? · more) := by
  induction text generalizing count with
  | nil => rfl
  | cons point text inductionHypothesis =>
    rw [List.cons_append, openAfter?, openAfter?, Option.bind_assoc]
    simp only [inductionHypothesis]

theorem openAfter?_append_of_eq {count after : Nat} {text : Text}
    (opens : openAfter? count text = some after) (more : Text) :
    openAfter? count (text ++ more) = openAfter? after more := by
  rw [openAfter?_append, opens, Option.bind_some]

/-- What leads from a level of a call to another opens so many brackets more. -/
theorem openAfter?_of_leadsTo? {count after : Nat} {text : Text}
    (leads : leadsTo? (count + 1) text = some ((after : Int) + 1)) :
    openAfter? count text = some after := by
  induction text generalizing count with
  | nil =>
    have same : (count : Int) + 1 = after + 1 := Option.some.inj leads
    exact congrArg some (by omega)
  | cons point text inductionHypothesis =>
    simp only [leadsTo?] at leads
    rw [openAfter?, openAfterPoint?]
    split_ifs at leads ⊢
    · exact inductionHypothesis leads
    · omega
    · exact inductionHypothesis (by rwa [show (count : Int) = (count - 1 : Nat) + 1 by omega,
        Int.add_sub_cancel] at leads)
    · exact inductionHypothesis leads

theorem Sealed.openAfter? {text : Text} (isSealed : Sealed text) (count : Nat) :
    openAfter? count text = some count :=
  openAfter?_of_leadsTo? (isSealed.leadsTo? (by omega))

/-- A sealed part of a text opens and closes nothing for the rest. -/
theorem Sealed.openAfter?_append {part : Text} (isSealed : Sealed part) (count : Nat)
    (before after : Text) :
    Call.openAfter? count (before ++ part ++ after) = Call.openAfter? count (before ++ after) := by
  rw [List.append_assoc, Call.openAfter?_append, Call.openAfter?_append]
  refine congrArg _ (funext fun between => ?_)
  rw [openAfter?_append_of_eq (isSealed.openAfter? between)]

/-- A call is closed by the first bracket that closes more than has been opened in it. -/
theorem exists_inner_of_splitFrom {count : Nat} {text : Text} {split : Split}
    (found : splitFrom (count + 1) text = some split) :
    ∃ inner bracket, text = inner ++ bracket :: split.rest ∧ isClosing bracket = true ∧
      openAfter? count inner = some 0 := by
  induction text generalizing count split with
  | nil => cases found
  | cons point text inductionHypothesis =>
    -- Whatever becomes of the code point in the arguments, it belongs to what is inside the call.
    have longer : ∀ {deeper : Nat} {alter : Split → Split},
        (∀ inner, (alter inner).rest = inner.rest) → openAfterPoint? count point = some deeper →
        (splitFrom (deeper + 1) text).map alter = some split →
        ∃ inner bracket, point :: text = inner ++ bracket :: split.rest ∧
          isClosing bracket = true ∧ openAfter? count inner = some 0 := by
      intro deeper alter keeps step found
      obtain ⟨innerSplit, innerFound, rfl⟩ := Option.map_eq_some_iff.1 found
      obtain ⟨inner, bracket, whole, closing, opened⟩ := inductionHypothesis innerFound
      refine ⟨point :: inner, bracket, ?_, closing, ?_⟩
      · rw [whole, keeps, List.cons_append]
      · rw [openAfter?, step, Option.bind_some, opened]
    have lengthened : ∀ inner : Split, (inner.lengthen point).rest = inner.rest := by
      intro inner
      unfold Split.lengthen
      split <;> rfl
    simp only [splitFrom] at found
    split_ifs at found with opening closing atFirst separating
    · exact longer lengthened (by rw [openAfterPoint?, if_pos opening]) found
    · obtain rfl : count = 0 := by omega
      obtain rfl := Option.some.inj found
      exact ⟨[], point, rfl, closing, rfl⟩
    · rw [show (count : Int) + 1 - 1 = (count - 1 : Nat) + 1 by omega] at found
      refine longer lengthened ?_ found
      rw [openAfterPoint?, if_neg opening, if_pos closing, if_neg (by omega)]
    · have separated : ∀ inner : Split, inner.separate.rest = inner.rest := fun _ => rfl
      refine longer separated ?_ found
      rw [openAfterPoint?, if_neg opening, if_neg closing]
    · refine longer lengthened ?_ found
      rw [openAfterPoint?, if_neg opening, if_neg closing]

end Call

namespace Macro

open Call

/-! ### Nesting of simplified texts -/

theorem openAfter?_strip (count : Nat) (text : Text) :
    openAfter? count (Definitions.strip text) = openAfter? count text := by
  by_cases occurs : Definitions.block <:+: text
  · obtain ⟨before, after, whole, stripped⟩ := Text.exists_removeFirst_of_infix occurs
    rw [Definitions.strip, stripped, whole, sealed_block.openAfter?_append]
  · rw [Definitions.strip, Text.removeFirst_of_not_infix occurs]

theorem openAfter?_used {text gap : Text} {reading : Reading MacroMeaning}
    (uses : Uses text reading gap) (count : Nat) :
    openAfter? count reading.used = some (count + 1) :=
  openAfter?_of_leadsTo? (leadsTo?_used uses _)

/-- Expansion opens and closes as many brackets as there were. -/
theorem openAfter?_expand (afterWord : Bool) (text : Text) (count : Nat) :
    openAfter? count (expand afterWord text) = openAfter? count text := by
  induction afterWord, text using expand_induction generalizing count with
  | nil => rw [expand]
  | plain afterWord point following none inductionHypothesis =>
    rw [expand_cons_of_none none, openAfter?, openAfter?]
    simp only [inductionHypothesis]
  | unfilled text gap reading uses expanded _ inductionHypothesis =>
    have opens := openAfter?_used uses count
    conv_rhs => rw [uses.whole, openAfter?_append_of_eq opens]
    rw [expanded, openAfter?_append_of_eq opens, inductionHypothesis]
  | filled text gap reading split last before bracket fills _ inRest =>
    have isSealed := sealed_trim (sealed_expand (sealed_strip fills.closes.isSealed))
    have replaced := (sealed_apply isSealed reading.value).openAfter? count
    have taken : openAfter? count (reading.used ++ (before ++ last ++ [bracket])) = some count :=
      openAfter?_of_leadsTo? (fills.closes.leadsTo? (leadsTo?_used fills.uses) (by omega))
    rw [fills.expand_eq, openAfter?_append_of_eq replaced, inRest]
    conv_rhs => rw [fills.whole, openAfter?_append_of_eq taken]

/-! ### What is left of a text -/

/-- A bracket that closes a parenthesis of a text, with a text in between that is well nested, is
read as a parenthesis. -/
def ReadsClosed (read : CodePoint → CodePoint) (text : Text) : Prop :=
  ∀ before inner bracket after, text = before ++ .scalar '(' :: (inner ++ bracket :: after) →
    WellNested inner → isClosing bracket = true → read bracket = read (.scalar ')')

section ReadsClosed

variable {read : CodePoint → CodePoint} {text : Text}

theorem ReadsClosed.of_infix {before after : Text}
    (readsClosed : ReadsClosed read (before ++ text ++ after)) : ReadsClosed read text := by
  intro first inner bracket last whole nested closing
  refine readsClosed (before ++ first) inner bracket (last ++ after) ?_ nested closing
  rw [whole]
  simp only [List.append_assoc, List.cons_append]

theorem ReadsClosed.strip (readsClosed : ReadsClosed read text) :
    ReadsClosed read (Definitions.strip text) := by
  by_cases occurs : Definitions.block <:+: text
  · obtain ⟨front, back, wholeText, stripped⟩ := Text.exists_removeFirst_of_infix occurs
    intro before inner bracket after whole nested closing
    rw [Definitions.strip, stripped] at whole
    -- The block stands before the parenthesis, within what that opens or after the bracket.
    rcases List.append_eq_append_iff.1 whole with ⟨between, rfl, rfl⟩ | ⟨opened, rfl, rest⟩
    · refine readsClosed (front ++ Definitions.block ++ between) inner bracket after ?_ nested
        closing
      rw [wholeText, List.append_assoc (front ++ _)]
    rcases List.cons_eq_append_iff.1 rest with ⟨rfl, rfl⟩ | ⟨opened, rfl, inside⟩
    · refine readsClosed (before ++ Definitions.block) inner bracket after ?_ nested closing
      rw [wholeText, List.append_nil]
    rcases List.append_eq_append_iff.1 inside with ⟨passed, rfl, behind⟩ | ⟨left, rfl, rfl⟩
    · rcases List.cons_eq_append_iff.1 behind with ⟨rfl, rfl⟩ | ⟨passed, rfl, rfl⟩
      · refine readsClosed before (inner ++ Definitions.block) bracket after ?_ ?_ closing
        · rw [wholeText]
          simp only [List.append_assoc, List.cons_append, List.append_nil]
        · rw [WellNested, ← List.append_nil (inner ++ _), sealed_block.openAfter?_append,
            List.append_nil]
          exact nested
      · refine readsClosed before inner bracket (passed ++ Definitions.block ++ back) ?_ nested
          closing
        rw [wholeText]
        simp only [List.append_assoc, List.cons_append]
    · refine readsClosed before (opened ++ Definitions.block ++ left) bracket after ?_ ?_ closing
      · rw [wholeText]
        simp only [List.append_assoc, List.cons_append]
      · rw [WellNested, sealed_block.openAfter?_append]
        exact nested
  · rwa [Definitions.strip, Text.removeFirst_of_not_infix occurs]

end ReadsClosed

/-- The meaning of a use is taken out of the use. -/
theorem sublist_apply {read : CodePoint → CodePoint} {meaning : MacroMeaning}
    {argument last word before : Text} {bracket : CodePoint}
    (sublist : (argument.map read).Sublist (last.map read))
    (closed : read bracket = read (.scalar ')')) :
    ((meaning.apply argument).map read).Sublist
      ((word ++ ("(" : Text) ++ (before ++ last ++ [bracket])).map read) := by
  have isBracket : List.map read (")" : Text) = List.map read [bracket] :=
    congrArg (fun point => [point]) closed.symm
  have inside : (argument.map read).Sublist ((before ++ last).map read) := by
    rw [List.map_append]
    exact sublist.trans (List.sublist_append_right _ _)
  have whole : (word ++ ("(" : Text) ++ (before ++ last ++ [bracket])).map read =
      word.map read ++
        ((("(" : Text) ++ (before ++ last)).map read ++ List.map read [bracket]) := by
    simp only [List.map_append, List.append_assoc]
  rw [whole]
  refine List.Sublist.trans ?_ (List.sublist_append_right _ _)
  cases meaning with
  | wrapper =>
    rw [List.map_append]
    exact (inside.trans (List.sublist_append_right _ _)).trans (List.sublist_append_left _ _)
  | value | parenthesis =>
    show ((("(" : Text) ++ argument ++ (")" : Text)).map read).Sublist _
    rw [List.map_append, List.map_append, List.map_append, isBracket]
    exact ((List.Sublist.refl _).append inside).append (List.Sublist.refl _)

/-- What is left of a text stands in its order, but for the brackets that close calls. -/
theorem sublist_expand {read : CodePoint → CodePoint} (afterWord : Bool) {text : Text}
    (readsClosed : ReadsClosed read text) :
    ((expand afterWord text).map read).Sublist (text.map read) := by
  induction afterWord, text using expand_induction with
  | nil => rw [expand]
  | plain afterWord point following none inductionHypothesis =>
    have rest : ReadsClosed read ([point] ++ following ++ []) := by rwa [List.append_nil]
    rw [expand_cons_of_none none]
    exact (inductionHypothesis rest.of_infix).cons_cons _
  | unfilled text gap reading uses expanded _ inductionHypothesis =>
    have rest : ReadsClosed read (reading.used ++ reading.rest ++ []) := by
      rwa [List.append_nil, ← uses.whole]
    conv_rhs => rw [uses.whole, List.map_append]
    rw [expanded, List.map_append]
    exact (List.Sublist.refl _).append (inductionHypothesis rest.of_infix)
  | filled text gap reading split last before bracket fills inArgument inRest =>
    obtain ⟨inner, other, whole, -, nested⟩ := exists_inner_of_splitFrom fills.splitting
    obtain ⟨rfl, sameBracket⟩ :
        inner = before ++ last ∧ other :: split.rest = bracket :: split.rest :=
      List.append_inj' (whole.symm.trans fills.closes.whole) rfl
    have closed : read bracket = read (.scalar ')') := by
      refine readsClosed (leadingWord text ++ gap) (before ++ last) bracket split.rest ?_ nested
        fills.closes.closing
      conv_lhs => rw [fills.whole, fills.uses.used]
      simp only [List.append_assoc, List.cons_append, List.nil_append]
    rw [fills.whole] at readsClosed
    have restClosed : ReadsClosed read split.rest := by
      rw [← List.append_nil split.rest, ← List.append_assoc] at readsClosed
      exact readsClosed.of_infix
    have lastClosed : ReadsClosed read last := by
      have parts : reading.used ++ (before ++ last ++ [bracket]) ++ split.rest =
          reading.used ++ before ++ last ++ ([bracket] ++ split.rest) := by
        simp only [List.append_assoc]
      rw [parts] at readsClosed
      exact readsClosed.of_infix
    have inside : ((expand false (Definitions.strip last)).trim.map read).Sublist
        (last.map read) :=
      ((Text.trim_sublist _).map read).trans ((inArgument lastClosed.strip).trans
        ((Text.removeFirst_sublist _ _).map read))
    conv_rhs => rw [fills.whole, List.map_append, fills.uses.used]
    rw [fills.expand_eq, List.map_append]
    exact (sublist_apply inside closed).append (inRest restClosed)

/-- A parenthesis of the text is closed by a square bracket. -/
def Mixes (text : Text) : Prop :=
  ∃ before inner after, text = before ++ .scalar '(' :: (inner ++ .scalar ']' :: after) ∧
    WellNested inner

/-- A code point, with a closing square bracket read as a parenthesis. -/
def rounded (point : CodePoint) : CodePoint :=
  if point = .scalar ']' then .scalar ')' else point

theorem eq_or_eq_of_isClosing {bracket : CodePoint} (closing : isClosing bracket = true) :
    bracket = .scalar ')' ∨ bracket = .scalar ']' := by
  rwa [isClosing, Bool.or_eq_true, beq_iff_eq, beq_iff_eq] at closing

theorem readsClosed_rounded (text : Text) : ReadsClosed rounded text := by
  intro before inner bracket after _ _ closing
  rcases eq_or_eq_of_isClosing closing with rfl | rfl
  · rfl
  · decide

theorem readsClosed_id {text : Text} (unmixed : ¬Mixes text) : ReadsClosed id text := by
  intro before inner bracket after whole nested closing
  rcases eq_or_eq_of_isClosing closing with rfl | rfl
  · rfl
  · exact absurd ⟨before, inner, after, whole, nested⟩ unmixed

/-- A simplified text is left of the text in its order, with square brackets read as parentheses
where they close; and as it is, unless a parenthesis of the text is closed by a square bracket. Its
brackets are well nested if and only if those of the text are. -/
theorem sublist_and_wellNested_simplify (text : Text) :
    ((simplify text).map rounded).Sublist (text.map rounded) ∧
      (¬Mixes text → (simplify text).Sublist text) ∧
      (WellNested (simplify text) ↔ WellNested text) := by
  have stripped := Text.removeFirst_sublist Definitions.block text
  refine ⟨?_, fun unmixed => ?_, ?_⟩
  · exact (sublist_expand false (readsClosed_rounded _)).trans (stripped.map rounded)
  · have same := sublist_expand false (readsClosed_id unmixed).strip
    rw [List.map_id, List.map_id] at same
    exact same.trans stripped
  · rw [WellNested, simplify, openAfter?_expand, openAfter?_strip, WellNested]

/-- A square bracket that closes a use becomes a parenthesis, which the text does not have. -/
theorem not_sublist_simplify_squareClosed :
    ¬(simplify "_GLF_DEAD(x]").Sublist "_GLF_DEAD(x]" := by
  decide +kernel

end Macro

end ShaderReduction
