/-
This file proves how brackets decide what belongs to a call.

Inside a call a text leads from one level to another, unless it closes the call or separates two of
its arguments. Whether a call is closed, and how many arguments it has, depends on where its parts
lead and on nothing else, so a part may be replaced by any other that leads to the same level. The
arguments themselves are sealed: from the first level they lead back to it.
-/

import Mathlib.Tactic.SplitIfs
import ShaderReduction.Call

namespace ShaderReduction

namespace Call

/-! ### Levels -/

/-- The level to which a text leads from a level inside a call, if it neither closes the call nor
separates two of its arguments. -/
def leadsTo? (level : Int) : Text → Option Int
  | [] => some level
  | point :: text =>
    if isOpening point then leadsTo? (level + 1) text
    else if isClosing point then if level = 1 then none else leadsTo? (level - 1) text
    else if point = .scalar ',' ∧ level = 1 then none
    else leadsTo? level text

/-- A text leads from the first level of a call back to it. -/
def Sealed (text : Text) : Prop := leadsTo? 1 text = some 1

theorem leadsTo?_append (level : Int) (text more : Text) :
    leadsTo? level (text ++ more) = (leadsTo? level text).bind (leadsTo? · more) := by
  induction text generalizing level with
  | nil => rfl
  | cons point text inductionHypothesis =>
    simp only [List.cons_append, leadsTo?]
    split_ifs
    · exact inductionHypothesis _
    · rfl
    · exact inductionHypothesis _
    · rfl
    · exact inductionHypothesis _

theorem leadsTo?_append_of_eq {level between : Int} {text : Text}
    (leads : leadsTo? level text = some between) (more : Text) :
    leadsTo? level (text ++ more) = leadsTo? between more := by
  rw [leadsTo?_append, leads, Option.bind_some]

theorem one_le_of_leadsTo? {level after : Int} {text : Text} (inside : 1 ≤ level)
    (leads : leadsTo? level text = some after) : 1 ≤ after := by
  induction text generalizing level with
  | nil =>
    cases leads
    exact inside
  | cons point text inductionHypothesis =>
    simp only [leadsTo?] at leads
    split_ifs at leads with _ _ atFirst
    · exact inductionHypothesis (by omega) leads
    · exact inductionHypothesis (by omega) leads
    · exact inductionHypothesis inside leads

/-- From deeper levels a text leads as much deeper. -/
theorem leadsTo?_add {level after : Int} {text : Text} (inside : 1 ≤ level)
    (leads : leadsTo? level text = some after) {depth : Int} (positive : 0 ≤ depth) :
    leadsTo? (level + depth) text = some (after + depth) := by
  induction text generalizing level with
  | nil =>
    cases leads
    rfl
  | cons point text inductionHypothesis =>
    simp only [leadsTo?] at leads ⊢
    split_ifs at leads with opening closing atFirst separating
    · rw [if_pos opening, Int.add_right_comm]
      exact inductionHypothesis (by omega) leads
    · rw [if_neg opening, if_pos closing, if_neg (by omega), Int.sub_eq_add_neg,
        Int.add_right_comm]
      exact inductionHypothesis (by omega) leads
    · rw [if_neg opening, if_neg closing]
      split
      · next both => exact absurd ⟨both.1, by omega⟩ separating
      · exact inductionHypothesis inside leads

theorem Sealed.leadsTo? {text : Text} (isSealed : Sealed text) {level : Int} (inside : 1 ≤ level) :
    leadsTo? level text = some level := by
  have deeper := leadsTo?_add (Int.le_refl 1) isSealed (Int.sub_nonneg_of_le inside)
  rwa [show (1 : Int) + (level - 1) = level by omega] at deeper

theorem sealed_parenthesized {text : Text} (isSealed : Sealed text) :
    Sealed (("(" : Text) ++ text ++ (")" : Text)) := by
  have opened : Call.leadsTo? 1 ("(" : Text) = some 2 := by decide
  unfold Sealed
  rw [List.append_assoc, leadsTo?_append_of_eq opened,
    leadsTo?_append_of_eq (isSealed.leadsTo? (by decide))]
  decide

/-! ### How many arguments a call has -/

/-- How many arguments a call has of which a text stands at a level, if it is closed. -/
def arityFrom (level : Int) (text : Text) : Option Nat :=
  (splitFrom level text).map fun split => split.arguments.length

theorem length_lengthen {point : CodePoint} {split : Split} (nonempty : split.arguments ≠ []) :
    (split.lengthen point).arguments.length = split.arguments.length := by
  unfold Split.lengthen
  split
  · next empty => exact absurd empty nonempty
  · next equation => simp [equation]

theorem map_lengthen (level : Int) (point : CodePoint) (text : Text) :
    (((splitFrom level text).map (Split.lengthen point)).map fun split => split.arguments.length) =
      arityFrom level text := by
  unfold arityFrom
  cases found : splitFrom level text with
  | none => rfl
  | some split => exact congrArg some (length_lengthen (arguments_ne_nil found))

theorem arityFrom_cons (level : Int) (point : CodePoint) (text : Text) :
    arityFrom level (point :: text) =
      if isOpening point then arityFrom (level + 1) text
      else if isClosing point then if level = 1 then some 1 else arityFrom (level - 1) text
      else if point = .scalar ',' ∧ level = 1 then (arityFrom level text).map (· + 1)
      else arityFrom level text := by
  rw [arityFrom, splitFrom]
  split_ifs
  · exact map_lengthen _ _ _
  · rfl
  · exact map_lengthen _ _ _
  · unfold arityFrom
    cases splitFrom level text <;> rfl
  · exact map_lengthen _ _ _

theorem arityFrom_append_of_leadsTo? {level after : Int} {text : Text}
    (leads : leadsTo? level text = some after) (more : Text) :
    arityFrom level (text ++ more) = arityFrom after more := by
  induction text generalizing level with
  | nil =>
    cases leads
    rfl
  | cons point text inductionHypothesis =>
    rw [List.cons_append, arityFrom_cons]
    simp only [leadsTo?] at leads
    split_ifs at leads ⊢
    · exact inductionHypothesis leads
    · exact inductionHypothesis leads
    · exact inductionHypothesis leads

/-- What a call sees of a text that stands at a level of it: where the text leads, and how many
arguments the call has if it is closed there. -/
def outline (level : Int) (text : Text) : Option Int × Option Nat :=
  (leadsTo? level text, arityFrom level text)

theorem outline_append_of_leadsTo? {level after : Int} {text : Text}
    (leads : leadsTo? level text = some after) (more : Text) :
    outline level (text ++ more) = outline after more :=
  Prod.ext (leadsTo?_append_of_eq leads more) (arityFrom_append_of_leadsTo? leads more)

/-- Texts that look the same to a call still do so after one more code point. -/
theorem outline_cons_congr {level : Int} {text other : Text} (point : CodePoint)
    (inside : 1 ≤ level)
    (same : ∀ deeper, 1 ≤ deeper → outline deeper text = outline deeper other) :
    outline level (point :: text) = outline level (point :: other) := by
  have leads : ∀ deeper, 1 ≤ deeper → leadsTo? deeper text = leadsTo? deeper other :=
    fun deeper positive => congrArg Prod.fst (same deeper positive)
  have arity : ∀ deeper, 1 ≤ deeper → arityFrom deeper text = arityFrom deeper other :=
    fun deeper positive => congrArg Prod.snd (same deeper positive)
  refine Prod.ext ?_ ?_
  · simp only [outline, leadsTo?]
    split_ifs
    · exact leads _ (by omega)
    · rfl
    · exact leads _ (by omega)
    · rfl
    · exact leads _ inside
  · simp only [outline, arityFrom_cons]
    split_ifs
    · exact arity _ (by omega)
    · rfl
    · exact arity _ (by omega)
    · rw [arity _ inside]
    · exact arity _ inside

/-- A closed call is not changed by what follows it. -/
theorem arityFrom_append_of_eq_some {level : Int} {text : Text} {count : Nat}
    (closed : arityFrom level text = some count) (more : Text) :
    arityFrom level (text ++ more) = some count := by
  induction text generalizing level count with
  | nil => cases closed
  | cons point text inductionHypothesis =>
    rw [List.cons_append, arityFrom_cons]
    rw [arityFrom_cons] at closed
    split_ifs at closed ⊢
    · exact inductionHypothesis closed
    · exact closed
    · exact inductionHypothesis closed
    · obtain ⟨others, found, rfl⟩ := Option.map_eq_some_iff.1 closed
      rw [inductionHypothesis found, Option.map_some]
    · exact inductionHypothesis closed

/-- A text that does not close a call does not lead below the level at which the call stands. -/
theorem le_of_arityFrom_eq_none {depth level after : Int} {text : Text} (positive : 1 ≤ depth)
    (unclosed : arityFrom depth text = none) (leads : leadsTo? level text = some after) :
    level + 1 ≤ after + depth := by
  induction text generalizing depth level with
  | nil =>
    cases leads
    omega
  | cons point text inductionHypothesis =>
    rw [arityFrom_cons] at unclosed
    simp only [leadsTo?] at leads
    split_ifs at unclosed leads with opening closing
    · have within := inductionHypothesis (by omega) unclosed leads
      omega
    · have within := inductionHypothesis (by omega) unclosed leads
      omega
    · exact inductionHypothesis positive (Option.map_eq_none_iff.1 unclosed) leads
    · exact inductionHypothesis positive unclosed leads

/-- A call that begins within a sealed text ends within it. -/
theorem Sealed.isSome_arityFrom {before opened text : Text}
    (isSealed : Sealed (before ++ (opened ++ text)))
    (opens : ∀ level, Call.leadsTo? level opened = some (level + 1)) :
    (arityFrom 1 text).isSome = true := by
  unfold Sealed at isSealed
  rw [leadsTo?_append] at isSealed
  cases start : Call.leadsTo? 1 before with
  | none =>
    rw [start] at isSealed
    cases isSealed
  | some level =>
    rw [start, Option.bind_some, leadsTo?_append_of_eq (opens level)] at isSealed
    have inside := one_le_of_leadsTo? (Int.le_refl 1) start
    refine Option.isSome_iff_ne_none.2 fun unclosed => ?_
    have within := le_of_arityFrom_eq_none (Int.le_refl 1) unclosed isSealed
    omega

/-! ### Splits -/

theorem lengthen_of_arguments {split : Split} {first : Text} {others : List Text}
    (equation : split.arguments = first :: others) (point : CodePoint) :
    split.lengthen point = ⟨(point :: first) :: others, split.rest⟩ := by
  unfold Split.lengthen
  rw [equation]

/-- What follows a call goes to what its split leaves. -/
theorem splitFrom_append {level : Int} {text : Text} {split : Split}
    (found : splitFrom level text = some split) (more : Text) :
    splitFrom level (text ++ more) = some ⟨split.arguments, split.rest ++ more⟩ := by
  induction text generalizing level split with
  | nil => cases found
  | cons point text inductionHypothesis =>
    have lengthened : ∀ {deeper : Int},
        (splitFrom deeper text).map (Split.lengthen point) = some split →
          (splitFrom deeper (text ++ more)).map (Split.lengthen point) =
            some ⟨split.arguments, split.rest ++ more⟩ := by
      intro deeper found
      obtain ⟨inner, innerFound, rfl⟩ := Option.map_eq_some_iff.1 found
      obtain ⟨first, others, equation⟩ :=
        List.exists_cons_of_ne_nil (arguments_ne_nil innerFound)
      rw [inductionHypothesis innerFound, Option.map_some, lengthen_of_arguments equation]
      have longer : (Split.mk inner.arguments (inner.rest ++ more)).arguments = first :: others :=
        equation
      exact congrArg some (lengthen_of_arguments longer point)
    rw [List.cons_append]
    simp only [splitFrom] at found ⊢
    split_ifs at found ⊢
    · exact lengthened found
    · cases found
      rfl
    · exact lengthened found
    · obtain ⟨inner, innerFound, rfl⟩ := Option.map_eq_some_iff.1 found
      rw [inductionHypothesis innerFound, Option.map_some]
      rfl
    · exact lengthened found

/-- A text that stays within the first argument of a call becomes the start of that argument. -/
theorem splitFrom_append_of_leadsTo? {level after : Int} {text more : Text}
    (leads : leadsTo? level text = some after) {first rest : Text} {others : List Text}
    (found : splitFrom after more = some ⟨first :: others, rest⟩) :
    splitFrom level (text ++ more) = some ⟨(text ++ first) :: others, rest⟩ := by
  induction text generalizing level with
  | nil =>
    cases leads
    exact found
  | cons point text inductionHypothesis =>
    rw [List.cons_append, splitFrom]
    simp only [leadsTo?] at leads
    split_ifs at leads ⊢
    · rw [inductionHypothesis leads]
      rfl
    · rw [inductionHypothesis leads]
      rfl
    · rw [inductionHypothesis leads]
      rfl

theorem isOpening_of_isClosing {point : CodePoint} (closing : isClosing point = true) :
    isOpening point = false := by
  rw [isClosing, Bool.or_eq_true, beq_iff_eq, beq_iff_eq] at closing
  rcases closing with rfl | rfl
  · decide
  · decide

theorem joinWith_comma_cons (first : Text) {others : List Text} (nonempty : others ≠ []) :
    Text.joinWith "," (first :: others) = first ++ .scalar ',' :: Text.joinWith "," others := by
  obtain ⟨second, others, rfl⟩ := List.exists_cons_of_ne_nil nonempty
  rw [Text.joinWith, List.append_assoc]
  rfl

/-- A call of sealed arguments is cut at the commas between them. -/
theorem splitFrom_joinWith {arguments : List Text} (nonempty : arguments ≠ [])
    (areSealed : ∀ argument ∈ arguments, Sealed argument) {bracket : CodePoint}
    (closing : isClosing bracket = true) (rest : Text) :
    splitFrom 1 (Text.joinWith "," arguments ++ bracket :: rest) = some ⟨arguments, rest⟩ := by
  induction arguments with
  | nil => exact absurd rfl nonempty
  | cons first others inductionHypothesis =>
    obtain ⟨firstSealed, othersSealed⟩ := List.forall_mem_cons.1 areSealed
    cases others with
    | nil =>
      have closed : splitFrom 1 (bracket :: rest) = some ⟨[[]], rest⟩ := by
        rw [splitFrom, isOpening_of_isClosing closing, if_neg Bool.false_ne_true, if_pos closing,
          if_pos rfl]
      have cut := splitFrom_append_of_leadsTo? firstSealed closed
      rwa [List.append_nil] at cut
    | cons second others =>
      have later := inductionHypothesis (List.cons_ne_nil _ _) othersSealed
      have separated : splitFrom 1 (.scalar ',' ::
          (Text.joinWith "," (second :: others) ++ bracket :: rest)) =
            some ⟨[] :: second :: others, rest⟩ := by
        rw [splitFrom, later]
        rfl
      have cut := splitFrom_append_of_leadsTo? firstSealed separated
      rwa [List.append_nil, ← List.cons_append, ← List.append_assoc,
        ← joinWith_comma_cons first (List.cons_ne_nil _ _)] at cut

/-- Where the last argument of a call stands in a text: after `before`, which is empty or ends with
a comma, and in front of the closing bracket and of what the split leaves. -/
structure Closes (level : Int) (text : Text) (split : Split) (last before : Text)
    (bracket : CodePoint) : Prop where
  isLast : split.arguments.getLast? = some last
  alone : before = [] ↔ split.arguments.length = 1
  whole : text = before ++ last ++ bracket :: split.rest
  closing : isClosing bracket = true
  start : before ≠ [] → before.getLast? = some (.scalar ',')
  argument : leadsTo? (if before = [] then level else 1) last = some 1
  taken : leadsTo? (level + 1) (before ++ last) = some 2

/-- A code point that separates no arguments goes to the first argument, which may be the last. -/
theorem Closes.lengthen {level deeper : Int} {point bracket : CodePoint} {text last before : Text}
    {split : Split} (closes : Closes deeper text split last before bracket)
    (step : ∀ rest, leadsTo? level (point :: rest) = leadsTo? deeper rest)
    (stepBelow : ∀ rest, leadsTo? (level + 1) (point :: rest) = leadsTo? (deeper + 1) rest) :
    ∃ last before, Closes level (point :: text) (split.lengthen point) last before bracket := by
  obtain ⟨isLast, alone, whole, closing, start, argument, taken⟩ := closes
  obtain ⟨first, others, equation⟩ : ∃ first others, split.arguments = first :: others :=
    List.exists_cons_of_ne_nil fun empty => by rw [empty] at isLast; cases isLast
  have lengthened := lengthen_of_arguments equation point
  have taken : leadsTo? (level + 1) (point :: (before ++ last)) = some 2 :=
    (stepBelow _).trans taken
  rw [equation, List.length_cons] at alone
  cases others with
  | nil =>
    obtain rfl : before = [] := alone.2 rfl
    obtain rfl : first = last := by
      rw [equation] at isLast
      exact Option.some.inj isLast
    refine ⟨point :: first, [], ?_⟩
    rw [lengthened]
    refine ⟨rfl, iff_of_true rfl rfl, ?_, closing, fun absent => absurd rfl absent, ?_, taken⟩
    · rw [whole]
      rfl
    · exact (step first).trans argument
  | cons second others =>
    have nonempty : before ≠ [] := fun empty => by
      have one := alone.1 empty
      rw [List.length_cons] at one
      omega
    refine ⟨last, point :: before, ?_⟩
    rw [lengthened]
    refine ⟨?_, ?_, ?_, closing, fun _ => ?_, ?_, taken⟩
    · rw [equation, List.getLast?_cons_cons] at isLast
      exact (List.getLast?_cons_cons).trans isLast
    · exact iff_of_false (List.cons_ne_nil _ _) (by simp)
    · rw [whole]
      rfl
    · rw [List.getLast?_cons_of_ne_nil nonempty]
      exact start nonempty
    · rw [if_neg nonempty] at argument
      exact argument

theorem exists_closes {level : Int} {text : Text} {split : Split} (inside : 1 ≤ level)
    (found : splitFrom level text = some split) :
    ∃ last before bracket, Closes level text split last before bracket := by
  induction text generalizing level split with
  | nil => cases found
  | cons point text inductionHypothesis =>
    simp only [splitFrom] at found
    split_ifs at found with opening closing atFirst separating
    · obtain ⟨inner, innerFound, rfl⟩ := Option.map_eq_some_iff.1 found
      obtain ⟨last, before, bracket, closes⟩ := inductionHypothesis (by omega) innerFound
      obtain ⟨last, before, closes⟩ := closes.lengthen
        (fun rest => by rw [leadsTo?, if_pos opening])
        (fun rest => by rw [leadsTo?, if_pos opening])
      exact ⟨last, before, bracket, closes⟩
    · cases found
      exact ⟨[], [], point, rfl, iff_of_true rfl rfl, rfl, closing,
        fun absent => absurd rfl absent, by rw [if_pos rfl, atFirst]; rfl, by rw [atFirst]; rfl⟩
    · obtain ⟨inner, innerFound, rfl⟩ := Option.map_eq_some_iff.1 found
      obtain ⟨last, before, bracket, closes⟩ := inductionHypothesis (by omega) innerFound
      obtain ⟨last, before, closes⟩ := closes.lengthen
        (fun rest => by rw [leadsTo?, if_neg opening, if_pos closing, if_neg atFirst])
        (fun rest => by
          rw [leadsTo?, if_neg opening, if_pos closing, if_neg (by omega), Int.add_sub_cancel,
            Int.sub_add_cancel])
      exact ⟨last, before, bracket, closes⟩
    · obtain ⟨inner, innerFound, rfl⟩ := Option.map_eq_some_iff.1 found
      obtain ⟨last, before, bracket, closes⟩ := inductionHypothesis inside innerFound
      obtain ⟨rfl, rfl⟩ := separating
      have nonempty := arguments_ne_nil innerFound
      refine ⟨last, .scalar ',' :: before, bracket, ?_, ?_, ?_, closes.closing, fun _ => ?_, ?_, ?_⟩
      · obtain ⟨first, others, equation⟩ := List.exists_cons_of_ne_nil nonempty
        have isLast := closes.isLast
        rw [equation] at isLast
        rw [Split.separate, equation]
        exact (List.getLast?_cons_cons).trans isLast
      · refine iff_of_false (List.cons_ne_nil _ _) ?_
        simpa [Split.separate] using nonempty
      · rw [closes.whole]
        rfl
      · by_cases empty : before = []
        · rw [empty]
          rfl
        · rw [List.getLast?_cons_of_ne_nil empty]
          exact closes.start empty
      · have argument := closes.argument
        rwa [ite_self] at argument
      · exact closes.taken
    · obtain ⟨inner, innerFound, rfl⟩ := Option.map_eq_some_iff.1 found
      obtain ⟨last, before, bracket, closes⟩ := inductionHypothesis inside innerFound
      obtain ⟨last, before, closes⟩ := closes.lengthen
        (fun rest => by rw [leadsTo?, if_neg opening, if_neg closing, if_neg separating])
        (fun rest => by
          rw [leadsTo?, if_neg opening, if_neg closing, if_neg fun both => by omega])
      exact ⟨last, before, bracket, closes⟩

/-- The last argument of a call is sealed. -/
theorem Closes.isSealed {text last before : Text} {split : Split} {bracket : CodePoint}
    (closes : Closes 1 text split last before bracket) : Sealed last := by
  have argument := closes.argument
  rwa [ite_self] at argument

/-- What a call takes with its opening bracket leads back to where the call stands. -/
theorem Closes.leadsTo? {text last before opened : Text} {split : Split} {bracket : CodePoint}
    (closes : Closes 1 text split last before bracket)
    (opens : ∀ level, Call.leadsTo? level opened = some (level + 1)) {level : Int}
    (inside : 1 ≤ level) :
    Call.leadsTo? level (opened ++ (before ++ last ++ [bracket])) = some level := by
  have deeper := leadsTo?_add (by decide) closes.taken (Int.sub_nonneg_of_le inside)
  have notOpening := Bool.eq_false_iff.1 (isOpening_of_isClosing closes.closing)
  rw [leadsTo?_append_of_eq (opens level), show level + 1 = 1 + 1 + (level - 1) by omega,
    leadsTo?_append_of_eq deeper]
  rw [Call.leadsTo?, if_neg notOpening, if_pos closes.closing, if_neg (by omega), Call.leadsTo?]
  congr 1
  omega

end Call

end ShaderReduction
