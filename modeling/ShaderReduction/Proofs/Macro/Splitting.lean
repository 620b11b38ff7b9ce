/-
This file proves that a call is split exactly where its brackets and its commas say.

Brackets of both kinds are counted from the one that opens the call on. The call is closed where the
count gets back to zero for the first time; if it never does, the call is not split. What stands
between is made up of the arguments with commas between them. Each argument is well nested and has
no comma outside of its own brackets, and no other arguments of that kind make up the same text.

The scan keeps one level, that of the place where it stands. From there the rest of the first
argument leads to the first level, and every other argument leads from the first level back to it.
An argument does that if and only if it is well nested and each comma of it is within brackets.
-/

import ShaderReduction.Proofs.Macro.Nesting

namespace ShaderReduction

namespace Call

/-! ### Counting brackets -/

/-- How many brackets of both kinds a text opens more than it closes. -/
def rise (text : Text) : Int :=
  (text.count (.scalar '(') + text.count (.scalar '[') : Nat) -
    (text.count (.scalar ')') + text.count (.scalar ']') : Nat)

theorem rise_nil : rise [] = 0 := rfl

theorem rise_append (text more : Text) : rise (text ++ more) = rise text + rise more := by
  unfold rise
  rw [List.count_append, List.count_append, List.count_append, List.count_append]
  omega

theorem rise_singleton (point : CodePoint) : rise [point] = levelAfter point := by
  by_cases isBracket : point ∈ ([.scalar '(', .scalar '[', .scalar ')', .scalar ']'] : Text)
  · revert point
    decide
  · simp only [List.mem_cons, List.not_mem_nil, or_false, not_or] at isBracket
    obtain ⟨round, square, closingRound, closingSquare⟩ := isBracket
    simp [rise, levelAfter, isOpening, isClosing, round, square, closingRound, closingSquare]

theorem rise_cons (point : CodePoint) (text : Text) :
    rise (point :: text) = levelAfter point + rise text := by
  rw [← List.singleton_append, rise_append, rise_singleton]

theorem rise_of_openAfter? {count after : Nat} {text : Text}
    (opens : openAfter? count text = some after) : rise text = after - count := by
  induction text generalizing count with
  | nil =>
    cases opens
    rw [rise_nil, Int.sub_self]
  | cons point text inductionHypothesis =>
    rw [openAfter?, openAfterPoint?] at opens
    rw [rise_cons, levelAfter]
    split_ifs at opens ⊢
    · have later := inductionHypothesis opens
      omega
    · cases opens
    · have later := inductionHypothesis opens
      omega
    · have later := inductionHypothesis opens
      omega

/-- No beginning of a well nested text closes more brackets than it opens. -/
theorem rise_nonneg_of_wellNested {before after : Text} (nested : WellNested (before ++ after)) :
    0 ≤ rise before := by
  rw [WellNested, openAfter?_append] at nested
  obtain ⟨between, opens, -⟩ := Option.bind_eq_some_iff.1 nested
  rw [rise_of_openAfter? opens]
  omega

theorem WellNested.rise_eq {text : Text} (nested : WellNested text) : rise text = 0 :=
  rise_of_openAfter? nested

/-! ### Commas within brackets -/

/-- With so many brackets open before a text, each comma of the text stands within brackets. -/
def EnclosesCommas (depth : Int) (text : Text) : Prop :=
  ∀ before after, text = before ++ .scalar ',' :: after → 0 < depth + rise before

theorem EnclosesCommas.tail {depth : Int} {point : CodePoint} {text : Text}
    (encloses : EnclosesCommas depth (point :: text)) :
    EnclosesCommas (depth + levelAfter point) text := by
  intro before after whole
  have later := encloses (point :: before) after (by rw [whole, List.cons_append])
  rwa [rise_cons, ← Int.add_assoc] at later

theorem enclosesCommas_of_leadsTo? {count : Nat} {after : Int} {text : Text}
    (leads : leadsTo? (count + 1) text = some after) : EnclosesCommas count text := by
  intro before rest whole
  rw [whole, leadsTo?_append] at leads
  obtain ⟨level, start, onward⟩ := Option.bind_eq_some_iff.1 leads
  have inside := one_le_of_leadsTo? (by omega) start
  obtain ⟨opened, rfl⟩ : ∃ opened : Nat, level = opened + 1 := ⟨(level - 1).toNat, by omega⟩
  have counted := rise_of_openAfter? (openAfter?_of_leadsTo? start)
  have opens : opened ≠ 0 := by
    rintro rfl
    cases onward
  omega

theorem leadsTo?_of_enclosesCommas {count after : Nat} {text : Text}
    (opens : openAfter? count text = some after) (encloses : EnclosesCommas count text) :
    leadsTo? (count + 1) text = some ((after : Int) + 1) := by
  induction text generalizing count with
  | nil =>
    cases opens
    rfl
  | cons point text inductionHypothesis =>
    have later := encloses.tail
    rw [levelAfter] at later
    rw [openAfter?, openAfterPoint?] at opens
    rw [leadsTo?]
    split_ifs at opens later ⊢ with _ _ atFirst empty empty separating
    · exact inductionHypothesis opens later
    · cases opens
    · omega
    · cases opens
    · obtain ⟨fewer, rfl⟩ := Nat.exists_eq_add_one_of_ne_zero empty
      rw [Int.add_sub_cancel]
      refine inductionHypothesis opens ?_
      rwa [Int.natCast_add, Int.natCast_one, Int.add_neg_cancel_right] at later
    · have here := encloses [] text (by rw [separating.1, List.nil_append])
      rw [rise_nil] at here
      omega
    · exact inductionHypothesis opens (by rwa [Int.add_zero] at later)

/-- The argument of a call leads from the first level back to it if and only if it is well nested
and has no comma outside of its own brackets. -/
theorem sealed_iff (text : Text) : Sealed text ↔ WellNested text ∧ EnclosesCommas 0 text :=
  ⟨fun isSealed => ⟨isSealed.openAfter? 0, @enclosesCommas_of_leadsTo? 0 1 text isSealed⟩,
    fun both => leadsTo?_of_enclosesCommas both.1 both.2⟩

/-! ### The arguments of a call -/

/-- Arguments with commas between them make up a text. Each of them is well nested, and each comma
of it stands within its own brackets. -/
structure SplitsInto (text : Text) (arguments : List Text) : Prop where
  nonempty : arguments ≠ []
  joined : Text.joinWith "," arguments = text
  nested : ∀ argument ∈ arguments, WellNested argument
  encloses : ∀ argument ∈ arguments, EnclosesCommas 0 argument

theorem SplitsInto.areSealed {text : Text} {arguments : List Text}
    (splits : SplitsInto text arguments) : ∀ argument ∈ arguments, Sealed argument :=
  fun argument member =>
    (sealed_iff argument).2 ⟨splits.nested argument member, splits.encloses argument member⟩

/-- A text is split in one way only: with a bracket behind it, that is how a call is split. -/
theorem SplitsInto.unique {text : Text} {arguments others : List Text}
    (splits : SplitsInto text arguments) (otherwise : SplitsInto text others) :
    arguments = others := by
  have closing : isClosing (.scalar ')') = true := by decide
  have first := splitFrom_joinWith splits.nonempty splits.areSealed closing []
  have second := splitFrom_joinWith otherwise.nonempty otherwise.areSealed closing []
  rw [splits.joined] at first
  rw [otherwise.joined, first] at second
  exact congrArg Split.arguments (Option.some.inj second)

/-- What becomes of a text that stands at a level of a call: the first argument leads from there to
the first level, and sealed arguments follow, with commas between them and a bracket at the end. -/
structure Cuts (level : Int) (text : Text) (split : Split) (first : Text) (others : List Text)
    (bracket : CodePoint) : Prop where
  arguments : split.arguments = first :: others
  whole : text = Text.joinWith "," split.arguments ++ bracket :: split.rest
  closing : isClosing bracket = true
  start : leadsTo? level first = some 1
  areSealed : ∀ argument ∈ others, Sealed argument

/-- A code point that separates no arguments goes to the first of them. -/
theorem Cuts.lengthen {level deeper : Int} {point bracket : CodePoint} {text first : Text}
    {split : Split} {others : List Text} (cuts : Cuts deeper text split first others bracket)
    (step : ∀ rest, leadsTo? level (point :: rest) = leadsTo? deeper rest) :
    Cuts level (point :: text) (split.lengthen point) (point :: first) others bracket := by
  obtain ⟨arguments, whole, closing, start, areSealed⟩ := cuts
  rw [lengthen_of_arguments arguments]
  refine ⟨rfl, ?_, closing, (step first).trans start, areSealed⟩
  rw [whole, arguments]
  cases others <;> rfl

/-- A comma at the first level ends an argument before the first one. -/
theorem Cuts.separate {bracket : CodePoint} {text first : Text} {split : Split}
    {others : List Text} (cuts : Cuts 1 text split first others bracket) :
    Cuts 1 (.scalar ',' :: text) split.separate [] (first :: others) bracket := by
  obtain ⟨arguments, whole, closing, start, areSealed⟩ := cuts
  refine ⟨?_, ?_, closing, rfl, List.forall_mem_cons.2 ⟨start, areSealed⟩⟩
  · rw [Split.separate, arguments]
  · have nonempty : split.arguments ≠ [] := arguments ▸ List.cons_ne_nil _ _
    rw [Split.separate, joinWith_comma_cons _ nonempty, whole]
    rfl

theorem exists_cuts {level : Int} {text : Text} {split : Split}
    (found : splitFrom level text = some split) :
    ∃ first others bracket, Cuts level text split first others bracket := by
  induction text generalizing level split with
  | nil => cases found
  | cons point text inductionHypothesis =>
    have lengthened : ∀ {deeper : Int},
        (∀ rest, leadsTo? level (point :: rest) = leadsTo? deeper rest) →
        (splitFrom deeper text).map (Split.lengthen point) = some split →
        ∃ first others bracket, Cuts level (point :: text) split first others bracket := by
      intro deeper step found
      obtain ⟨inner, innerFound, rfl⟩ := Option.map_eq_some_iff.1 found
      obtain ⟨first, others, bracket, cuts⟩ := inductionHypothesis innerFound
      exact ⟨_, _, _, cuts.lengthen step⟩
    simp only [splitFrom] at found
    split_ifs at found with opening closing atFirst separating
    · exact lengthened (fun rest => by rw [leadsTo?, if_pos opening]) found
    · cases found
      rw [atFirst]
      exact ⟨[], [], point, rfl, rfl, closing, rfl, List.forall_mem_nil _⟩
    · exact lengthened (fun rest => by
        rw [leadsTo?, if_neg opening, if_pos closing, if_neg atFirst]) found
    · obtain ⟨inner, innerFound, rfl⟩ := Option.map_eq_some_iff.1 found
      obtain ⟨rfl, rfl⟩ := separating
      obtain ⟨first, others, bracket, cuts⟩ := inductionHypothesis innerFound
      exact ⟨_, _, _, cuts.separate⟩
    · exact lengthened (fun rest => by
        rw [leadsTo?, if_neg opening, if_neg closing, if_neg separating]) found

/-- A call that is closed is cut into its arguments, its bracket and what is left. -/
theorem exists_splitsInto_of_splitFrom {text : Text} {split : Split}
    (found : splitFrom 1 text = some split) :
    ∃ taken bracket, text = taken ++ bracket :: split.rest ∧ isClosing bracket = true ∧
      WellNested taken ∧ SplitsInto taken split.arguments := by
  obtain ⟨first, others, bracket, cuts⟩ := exists_cuts found
  obtain ⟨inner, _, otherWhole, -, nested⟩ := exists_inner_of_splitFrom found
  have same := (List.append_inj' (otherWhole.symm.trans cuts.whole) rfl).1
  have areSealed : ∀ argument ∈ split.arguments, Sealed argument :=
    cuts.arguments ▸ List.forall_mem_cons.2 ⟨cuts.start, cuts.areSealed⟩
  refine ⟨_, bracket, cuts.whole, cuts.closing, same ▸ nested, arguments_ne_nil found, rfl, ?_, ?_⟩
  · exact fun argument member => ((sealed_iff argument).1 (areSealed argument member)).1
  · exact fun argument member => ((sealed_iff argument).1 (areSealed argument member)).2

/-- Nowhere in a call that is not closed has it been left. -/
theorem one_le_of_splitFrom_eq_none {level : Int} {before after : Text} (inside : 1 ≤ level)
    (unclosed : splitFrom level (before ++ after) = none) : 1 ≤ level + rise before := by
  induction before generalizing level with
  | nil => rwa [rise_nil, Int.add_zero]
  | cons point before inductionHypothesis =>
    rw [List.cons_append, splitFrom] at unclosed
    rw [rise_cons, levelAfter, ← Int.add_assoc]
    split_ifs at unclosed ⊢
    · exact inductionHypothesis (by omega) (Option.map_eq_none_iff.1 unclosed)
    · exact inductionHypothesis (by omega) (Option.map_eq_none_iff.1 unclosed)
    · rw [Int.add_zero]
      exact inductionHypothesis inside (Option.map_eq_none_iff.1 unclosed)
    · rw [Int.add_zero]
      exact inductionHypothesis inside (Option.map_eq_none_iff.1 unclosed)

/-! ### Places -/

theorem between_natCast (text : Text) (start stop : Nat) :
    between text start stop = (text.drop start).take (stop - start) := by
  rw [between, place, place, if_neg (by omega), if_neg (by omega), Int.toNat_natCast,
    Int.toNat_natCast]

/-- The count of brackets from a place of a text to another one, both of them counted in. -/
def riseAt (text : Text) (start place : Nat) : Int := rise (between text start (place + 1))

/-- The bracket at a place of a text is closed at another one: there the count from that bracket on
is zero, and at no place before. -/
structure ClosedAt (text : Text) (start last : Nat) : Prop where
  ordered : start ≤ last
  within : last < text.length
  zero : riseAt text start last = 0
  first : ∀ place, start ≤ place → place < last → riseAt text start place ≠ 0

theorem ClosedAt.unique {text : Text} {start last other : Nat} (closed : ClosedAt text start last)
    (otherwise : ClosedAt text start other) : last = other := by
  rcases Nat.lt_trichotomy last other with less | same | more
  · exact absurd closed.zero (otherwise.first last closed.ordered less)
  · exact same
  · exact absurd otherwise.zero (closed.first other otherwise.ordered more)

section Opening

variable {text : Text} {index : Nat} (opens : text[index]? = some (.scalar '('))

include opens

theorem drop_of_opening : text.drop index = .scalar '(' :: text.drop (index + 1) := by
  obtain ⟨inside, here⟩ := List.getElem?_eq_some_iff.1 opens
  rw [List.drop_eq_getElem_cons inside, here]

theorem splitAtIndex_of_opening :
    splitAtIndex text index = .ok ((splitFrom 1 (text.drop (index + 1))).map fun split =>
      (split.arguments, ((text.length - split.rest.length : Nat) : Int))) := by
  have split : splitAt? text index = (splitFrom 1 (text.drop (index + 1))).map fun split =>
      (split.arguments, text.length - split.rest.length) := by
    rw [splitAt?, drop_of_opening opens]
    rfl
  show Except.ok ((splitAt? text index).map _) = _
  rw [split, Option.map_map]
  rfl

theorem riseAt_of_opening (offset : Nat) :
    riseAt text index (index + offset) = 1 + rise ((text.drop (index + 1)).take offset) := by
  have slice : between text index ((index + offset : Nat) + 1) =
      .scalar '(' :: (text.drop (index + 1)).take offset := by
    have cut := between_natCast text index (index + offset + 1)
    rwa [Nat.add_assoc, Nat.add_sub_cancel_left, drop_of_opening opens, List.take_succ_cons] at cut
  rw [riseAt, slice, rise_cons]
  rfl

/-- A call is closed by the bracket after what is well nested. -/
theorem closedAt_of_drop_eq {taken rest : Text} {bracket : CodePoint}
    (whole : text.drop (index + 1) = taken ++ bracket :: rest) (nested : WellNested taken)
    (closing : isClosing bracket = true) : ClosedAt text index (index + (taken.length + 1)) where
  ordered := Nat.le_add_right _ _
  within := by
    have lengths := congrArg List.length whole
    rw [List.length_drop, List.length_append, List.length_cons] at lengths
    omega
  zero := by
    have last : rise [bracket] = -1 := by
      rw [rise_singleton, levelAfter, isOpening_of_isClosing closing, closing]
      rfl
    rw [riseAt_of_opening opens, whole, List.take_length_add_append, List.take_succ_cons,
      List.take_zero, rise_append, nested.rise_eq, last]
    rfl
  first place _ earlier := by
    obtain ⟨offset, rfl⟩ : ∃ offset, place = index + offset := ⟨place - index, by omega⟩
    have inside : (taken ++ bracket :: rest).take offset = taken.take offset :=
      List.take_append_of_le_length (by omega)
    rw [← List.take_append_drop offset taken] at nested
    have counted := rise_nonneg_of_wellNested nested
    rw [riseAt_of_opening opens, whole, inside]
    omega

/-- In a call that is not closed the count is zero nowhere. -/
theorem riseAt_ne_zero_of_splitFrom_eq_none
    (unclosed : splitFrom 1 (text.drop (index + 1)) = none) {place : Nat} (ordered : index ≤ place) :
    riseAt text index place ≠ 0 := by
  obtain ⟨offset, rfl⟩ : ∃ offset, place = index + offset := ⟨place - index, by omega⟩
  rw [← List.take_append_drop offset (text.drop (index + 1))] at unclosed
  have inside := one_le_of_splitFrom_eq_none (Int.le_refl 1) unclosed
  rw [riseAt_of_opening opens]
  omega

/-- A call that is split goes to the bracket that closes it, and its arguments fill it. -/
theorem exists_closedAt_of_splitFrom {split : Split}
    (found : splitFrom 1 (text.drop (index + 1)) = some split) :
    ∃ last : Nat, text.length - split.rest.length = last + 1 ∧ ClosedAt text index last ∧
      SplitsInto (between text (index + 1) last) split.arguments := by
  obtain ⟨taken, bracket, whole, closing, nested, splits⟩ := exists_splitsInto_of_splitFrom found
  refine ⟨index + (taken.length + 1), ?_, closedAt_of_drop_eq opens whole nested closing, ?_⟩
  · have lengths := congrArg List.length whole
    rw [List.length_drop, List.length_append, List.length_cons] at lengths
    omega
  · have cut := between_natCast text (index + 1) (index + (taken.length + 1))
    rw [whole, show index + (taken.length + 1) - (index + 1) = taken.length by omega,
      List.take_left] at cut
    exact cut.symm ▸ splits

end Opening

/-- Where an opening parenthesis stands in a text, its call is not split if and only if the count of
brackets from there on never gets back to zero. Otherwise the place behind the call is the one after
that at which the count is zero for the first time, and the arguments split what stands between the
two brackets. No other arguments do. -/
theorem splitAtIndex_eq_iff {text : Text} {index : Nat}
    (opens : text[index]? = some (.scalar '(')) :
    ∃ result, splitAtIndex text index = .ok result ∧
      (result = none ↔ ∀ place, index ≤ place → place < text.length → riseAt text index place ≠ 0) ∧
      ∀ arguments after, result = some (arguments, after) ↔
        ∃ last : Nat, after = last + 1 ∧ ClosedAt text index last ∧
          SplitsInto (between text (index + 1) last) arguments := by
  rw [splitAtIndex_of_opening opens]
  refine ⟨_, rfl, ?_⟩
  cases found : splitFrom 1 (text.drop (index + 1)) with
  | none =>
    have never := fun place => @riseAt_ne_zero_of_splitFrom_eq_none _ _ opens found place
    refine ⟨iff_of_true rfl fun place ordered _ => never place ordered,
      fun arguments after => ⟨nofun, ?_⟩⟩
    rintro ⟨last, -, closed, -⟩
    exact absurd closed.zero (never last closed.ordered)
  | some split =>
    obtain ⟨last, behind, closed, splits⟩ := exists_closedAt_of_splitFrom opens found
    rw [Option.map_some, behind]
    refine ⟨iff_of_false nofun fun never => never last closed.ordered closed.within closed.zero,
      fun arguments after => ⟨fun same => ?_, ?_⟩⟩
    · obtain ⟨rfl, rfl⟩ := Prod.mk.inj (Option.some.inj same)
      exact ⟨last, rfl, closed, splits⟩
    · rintro ⟨other, rfl, otherClosed, otherSplits⟩
      obtain rfl := otherClosed.unique closed
      rw [splits.unique otherSplits]
      rfl

/-- A call with brackets of both kinds, which close each other, and one that is not closed. -/
def mixedCalls : Text := "x = f(a, m[i, j) * g((b], c), ) y(z"

theorem splitAtIndex_eq_iff_mixedCalls :
    mixedCalls[5]? = some (.scalar '(') ∧
      splitAtIndex mixedCalls 5 = .ok (some (["a", " m[i, j) * g((b], c)", " "], 31)) ∧
      ClosedAt mixedCalls 5 30 ∧
      SplitsInto (between mixedCalls 6 30) ["a", " m[i, j) * g((b], c)", " "] ∧
      mixedCalls[33]? = some (.scalar '(') ∧
      splitAtIndex mixedCalls 33 = .ok none ∧
      ∀ place, 33 ≤ place → place < mixedCalls.length → riseAt mixedCalls 33 place ≠ 0 := by
  have opens : mixedCalls[5]? = some (.scalar '(') := by decide
  have split : splitAtIndex mixedCalls 5 =
      .ok (some (["a", " m[i, j) * g((b], c)", " "], 31)) := rfl
  have opensAgain : mixedCalls[33]? = some (.scalar '(') := by decide
  have unsplit : splitAtIndex mixedCalls 33 = .ok none := rfl
  obtain ⟨result, found, -, only⟩ := splitAtIndex_eq_iff opens
  obtain rfl := Except.ok.inj (split.symm.trans found)
  obtain ⟨last, behind, closed, splits⟩ := (only _ _).1 rfl
  obtain rfl : last = 30 := by omega
  obtain ⟨unfound, notFound, never, -⟩ := splitAtIndex_eq_iff opensAgain
  obtain rfl := Except.ok.inj (unsplit.symm.trans notFound)
  exact ⟨opens, split, closed, splits, opensAgain, unsplit, never.1 rfl⟩

end Call

end ShaderReduction
