/-
This file proves how the replacement of recognised pieces goes through a text.

Pieces are separate if what is recognised depends on the piece alone and none goes on over a line
end behind which another one begins. Then the pieces that are not wanted may be passed over instead
of being put back, and the first piece that is replaced is found in the same place whatever it is
replaced by. So a second replacement finds nothing in what the first one left alone that was not
there before: what would begin there and go on into a new piece would go on over the beginning of
that piece. Two replacements in a row are one, if the second finds each new piece.
-/

import ShaderReduction.Proofs.Declaration.Spelling

namespace ShaderReduction

namespace Declaration

open Scanner

variable {Value First Second : Type}

/-! ### Line starts -/

/-- Whether what follows a text begins a line, if it does where the text is empty. -/
def afterLine (atLineStart : Bool) (before : Text) : Bool :=
  match before.getLast? with
  | none => atLineStart
  | some point => point == .scalar '\n'

theorem afterLine_cons (atLineStart : Bool) (point : CodePoint) (before : Text) :
    afterLine atLineStart (point :: before) = afterLine (point == .scalar '\n') before := by
  cases before with
  | nil => rfl
  | cons next before =>
    unfold afterLine
    rw [List.getLast?_cons_cons]
    cases last : (next :: before).getLast? with
    | none => exact absurd (List.getLast?_eq_none_iff.1 last) (List.cons_ne_nil _ _)
    | some point => rfl

theorem afterLine_append (atLineStart : Bool) (before more : Text) :
    afterLine atLineStart (before ++ more) = afterLine (afterLine atLineStart before) more := by
  induction before generalizing atLineStart with
  | nil => rfl
  | cons point before inductionHypothesis =>
    rw [List.cons_append, afterLine_cons, afterLine_cons, inductionHypothesis]

theorem getLast?_of_afterLine {atLineStart : Bool} {before : Text} (nonempty : before ≠ [])
    (begins : afterLine atLineStart before = true) : before.getLast? = some (.scalar '\n') := by
  unfold afterLine at begins
  cases last : before.getLast? with
  | none => exact absurd (List.getLast?_eq_none_iff.1 last) nonempty
  | some other =>
    rw [last] at begins
    rw [beq_iff_eq.1 begins]

/-! ### Separate pieces -/

/-- What is recognised depends on the piece alone, which ends in the sign of declarations and does
not go on over a line end behind which another piece begins. -/
structure Separate (scanner : Scanner Value) : Prop extends Closed scanner where
  endsIn : EndsIn ";" scanner
  apart : ∀ {before after : Text} {outer inner : Reading Value},
    before.getLast? = some (.scalar '\n') → scanner (before ++ after) = some outer →
    scanner after = some inner → outer.used.length ≤ before.length

/-- The scanner that refuses what is not wanted. -/
def only (isWanted : Value → Bool) (scanner : Scanner Value) : Scanner Value := fun text =>
  (scanner text).filter fun reading => isWanted reading.value

theorem only_eq_some_iff {isWanted : Value → Bool} {scanner : Scanner Value} {text : Text}
    {reading : Reading Value} : only isWanted scanner text = some reading ↔
      scanner text = some reading ∧ isWanted reading.value = true :=
  Option.filter_eq_some_iff

theorem Separate.only {scanner : Scanner Value} (separate : Separate scanner)
    (isWanted : Value → Bool) : Separate (only isWanted scanner) where
  faithful text reading found := separate.faithful text reading (only_eq_some_iff.1 found).1
  nonempty text reading found := separate.nonempty text reading (only_eq_some_iff.1 found).1
  settled text reading found rest := by
    obtain ⟨recognised, wanted⟩ := only_eq_some_iff.1 found
    exact only_eq_some_iff.2 ⟨separate.settled text reading recognised rest, wanted⟩
  endsIn text reading found := separate.endsIn text reading (only_eq_some_iff.1 found).1
  apart ends outerFound innerFound :=
    separate.apart ends (only_eq_some_iff.1 outerFound).1 (only_eq_some_iff.1 innerFound).1

/-! ### Going through a text -/

section Replace

variable {scanner : Scanner Value} {replace : Value → Text → Text}

theorem replaceAtLines_nil (atLineStart : Bool) :
    replaceAtLines scanner replace atLineStart [] = [] := by rw [replaceAtLines]

/-- Where nothing is recognised, the text goes on. -/
theorem replaceAtLines_cons {atLineStart : Bool} {point : CodePoint} {text : Text}
    (refused : atLineStart = true → scanner (point :: text) = none) :
    replaceAtLines scanner replace atLineStart (point :: text) =
      point :: replaceAtLines scanner replace (point == .scalar '\n') text := by
  have nothing : (if atLineStart then scanner (point :: text) else none) = none := by
    split
    · next begins => exact refused begins
    · rfl
  rw [replaceAtLines, nothing]

/-- A part in which nothing is recognised stays. -/
theorem replaceAtLines_append {atLineStart : Bool} {part rest : Text}
    (refused : ∀ front back, part = front ++ back → back ≠ [] →
      afterLine atLineStart front = true → scanner (back ++ rest) = none) :
    replaceAtLines scanner replace atLineStart (part ++ rest) =
      part ++ replaceAtLines scanner replace (afterLine atLineStart part) rest := by
  induction part generalizing atLineStart with
  | nil => rfl
  | cons point part inductionHypothesis =>
    have here : atLineStart = true → scanner (point :: (part ++ rest)) = none :=
      refused [] _ rfl (List.cons_ne_nil _ _)
    rw [List.cons_append, replaceAtLines_cons here, afterLine_cons, List.cons_append]
    refine congrArg (point :: ·) (inductionHypothesis fun front back same nonempty begins => ?_)
    exact refused (point :: front) back (same ▸ rfl) nonempty
      ((afterLine_cons atLineStart point front).trans begins)

variable (separate : Separate scanner)

include separate

theorem afterLine_used {atLineStart : Bool} {text : Text} {reading : Reading Value}
    (found : scanner text = some reading) : afterLine atLineStart reading.used = false := by
  obtain ⟨front, same⟩ := separate.endsIn text reading found
  rw [← same, afterLine_append]
  rfl

/-- A piece that begins a line is replaced. -/
theorem replaceAtLines_piece {text : Text} {reading : Reading Value}
    (found : scanner text = some reading) :
    replaceAtLines scanner replace true text =
      replace reading.value reading.used ++ replaceAtLines scanner replace false reading.rest := by
  have nonempty := separate.nonempty text reading found
  have begins : (reading.used.getLast? == some (.scalar '\n')) = false := by
    have closed : afterLine true reading.used = false := afterLine_used separate found
    unfold afterLine at closed
    cases last : reading.used.getLast? with
    | none => exact absurd (List.getLast?_eq_none_iff.1 last) nonempty
    | some point =>
      rw [last] at closed
      exact closed
  rw [replaceAtLines_of_some separate.faithful nonempty found, begins]

/-- A text is gone through code point by code point, and piece by piece where one begins a line. -/
theorem line_induction {motive : Bool → Text → Prop} (nil : ∀ atLineStart, motive atLineStart [])
    (refused : ∀ atLineStart point text, (atLineStart = true → scanner (point :: text) = none) →
      motive (point == .scalar '\n') text → motive atLineStart (point :: text))
    (piece : ∀ reading, scanner (reading.used ++ reading.rest) = some reading →
      motive false reading.rest → motive true (reading.used ++ reading.rest))
    (atLineStart : Bool) (text : Text) : motive atLineStart text := by
  induction size : text.length using Nat.strong_induction_on generalizing atLineStart text with
  | _ size inductionHypothesis =>
    subst size
    cases text with
    | nil => exact nil atLineStart
    | cons point text =>
      by_cases begins : atLineStart = true ∧ (scanner (point :: text)).isSome
      · obtain ⟨rfl, recognised⟩ := begins
        obtain ⟨reading, found⟩ := Option.isSome_iff_exists.1 recognised
        have whole := separate.faithful _ _ found
        have used := List.length_pos_iff.2 (separate.nonempty _ _ found)
        rw [whole] at found ⊢
        refine piece reading found (inductionHypothesis _ ?_ false reading.rest rfl)
        rw [whole, List.length_append]
        omega
      · have nothing : atLineStart = true → scanner (point :: text) = none := fun start =>
          Option.not_isSome_iff_eq_none.1 fun recognised => begins ⟨start, recognised⟩
        exact refused atLineStart point text nothing
          (inductionHypothesis _ (Nat.lt_succ_self _) _ text rfl)

/-- What is not wanted may be passed over, if it would only be put back. -/
theorem replaceAtLines_only {isWanted : Value → Bool}
    (putBack : ∀ value used, isWanted value = false → replace value used = used)
    (atLineStart : Bool) (text : Text) :
    replaceAtLines scanner replace atLineStart text =
      replaceAtLines (only isWanted scanner) replace atLineStart text := by
  induction atLineStart, text using line_induction separate with
  | nil atLineStart => rw [replaceAtLines_nil, replaceAtLines_nil]
  | refused atLineStart point text nothing inductionHypothesis =>
    have nothingWanted : atLineStart = true → only isWanted scanner (point :: text) = none := by
      intro start
      rw [only, nothing start]
      rfl
    rw [replaceAtLines_cons nothing, replaceAtLines_cons nothingWanted, inductionHypothesis]
  | piece reading found inductionHypothesis =>
    rw [replaceAtLines_piece separate found, inductionHypothesis]
    cases wanted : isWanted reading.value with
    | true =>
      rw [replaceAtLines_piece (separate.only isWanted) (only_eq_some_iff.2 ⟨found, wanted⟩)]
    | false =>
      rw [putBack _ _ wanted, replaceAtLines_append, afterLine_used separate found]
      intro front back same nonempty begins
      refine Option.eq_none_iff_forall_not_mem.2 fun inner innerFound => ?_
      obtain ⟨recognised, innerWanted⟩ := only_eq_some_iff.1 innerFound
      cases front with
      | nil =>
        rw [List.nil_append] at same
        rw [← same, found] at recognised
        obtain rfl := Option.some.inj recognised
        rw [wanted] at innerWanted
        cases innerWanted
      | cons point front =>
        rw [same, List.append_assoc] at found
        have short := separate.apart (getLast?_of_afterLine (List.cons_ne_nil _ _) begins) found
          recognised
        have long := List.length_pos_iff.2 nonempty
        rw [same, List.length_append] at short
        omega

/-- A text has nothing that is recognised, or a first piece, before which it stays and behind which
the replacement goes on. -/
theorem untouched_or_exists_piece (atLineStart : Bool) (text : Text) :
    (∀ replace, replaceAtLines scanner replace atLineStart text = text) ∨
      ∃ front reading, afterLine atLineStart front = true ∧
        text = front ++ (reading.used ++ reading.rest) ∧
        scanner (reading.used ++ reading.rest) = some reading ∧
        ∀ replace, replaceAtLines scanner replace atLineStart text = front ++
          (replace reading.value reading.used ++
            replaceAtLines scanner replace false reading.rest) := by
  induction atLineStart, text using line_induction separate with
  | nil atLineStart => exact .inl fun replace => replaceAtLines_nil atLineStart
  | refused atLineStart point text nothing inductionHypothesis =>
    rcases inductionHypothesis with untouched | ⟨front, reading, begins, whole, found, replaced⟩
    · exact .inl fun replace => by rw [replaceAtLines_cons nothing, untouched]
    · refine .inr ⟨point :: front, reading, ?_, ?_, found, fun replace => ?_⟩
      · rw [afterLine_cons, begins]
      · rw [whole, List.cons_append]
      · rw [replaceAtLines_cons nothing, replaced, List.cons_append]
  | piece reading found _ =>
    exact .inr ⟨[], reading, rfl, rfl, found, fun replace => replaceAtLines_piece separate found⟩

/-- Pieces that are replaced by themselves stay. -/
theorem replaceAtLines_eq_self {atLineStart : Bool} {text : Text}
    (same : ∀ before after reading, text = before ++ after →
      afterLine atLineStart before = true → scanner after = some reading →
      replace reading.value reading.used = reading.used) :
    replaceAtLines scanner replace atLineStart text = text := by
  induction atLineStart, text using line_induction separate with
  | nil atLineStart => exact replaceAtLines_nil atLineStart
  | refused atLineStart point text nothing inductionHypothesis =>
    rw [replaceAtLines_cons nothing, inductionHypothesis]
    intro before after reading whole begins found
    exact same (point :: before) after reading (by rw [whole, List.cons_append])
      ((afterLine_cons _ _ _).trans begins) found
  | piece reading found inductionHypothesis =>
    rw [replaceAtLines_piece separate found, same [] _ reading rfl rfl found, inductionHypothesis]
    intro before after other whole begins otherFound
    have start : afterLine true (reading.used ++ before) = true := by
      rw [afterLine_append, afterLine_used separate found, begins]
    exact same (reading.used ++ before) after other (by rw [whole, List.append_assoc]) start
      otherFound

end Replace

/-! ### Two replacements in a row -/

section Twice

variable {first : Scanner First} {second : Scanner Second} {early : First → Text → Text}
  (firstSeparate : Separate first) (secondSeparate : Separate second)

include firstSeparate secondSeparate

/-- What is recognised before new pieces, each of which is recognised too, stood in the text
before. -/
theorem isSome_of_replaceAtLines
    (becomes : ∀ text reading, first text = some reading → ∃ value, ∀ rest,
      Takes second value (early reading.value reading.used) rest)
    {point : CodePoint} {text : Text} {outer : Reading Second}
    (found : second (point :: replaceAtLines first early (point == .scalar '\n') text) =
      some outer) :
    (second (point :: text)).isSome := by
  rcases untouched_or_exists_piece firstSeparate (point == .scalar '\n') text with
    untouched | ⟨front, reading, begins, whole, firstFound, replaced⟩
  · rw [untouched] at found
    exact Option.isSome_iff_exists.2 ⟨outer, found⟩
  · obtain ⟨value, taken⟩ := becomes _ _ firstFound
    rw [replaced, ← List.cons_append] at found
    have ends := getLast?_of_afterLine (List.cons_ne_nil point front)
      ((afterLine_cons true point front).trans begins)
    have short := secondSeparate.apart ends found (taken _)
    have used := secondSeparate.faithful _ _ found
    obtain ⟨more, frontWhole⟩ : outer.used <+: point :: front :=
      List.prefix_of_prefix_length_le ⟨outer.rest, used.symm⟩ (List.prefix_append _ _) short
    have settled := secondSeparate.settled _ _ found (more ++ (reading.used ++ reading.rest))
    unfold Takes at settled
    rw [← List.append_assoc, frontWhole, List.cons_append, ← whole] at settled
    exact Option.isSome_iff_exists.2 ⟨_, settled⟩

/-- Replacing again what was put in is one replacement, if nothing else is recognised in the text
than what is replaced first. -/
theorem replaceAtLines_replaceAtLines {whole : First → Text → Text} {late : Second → Text → Text}
    (becomes : ∀ text reading, first text = some reading → ∃ value,
      (∀ rest, Takes second value (early reading.value reading.used) rest) ∧
        late value (early reading.value reading.used) = whole reading.value reading.used)
    {atLineStart : Bool} {text : Text}
    (within : ∀ before after, text = before ++ after → afterLine atLineStart before = true →
      (second after).isSome → (first after).isSome) :
    replaceAtLines second late atLineStart (replaceAtLines first early atLineStart text) =
      replaceAtLines first whole atLineStart text := by
  have recognised : ∀ text reading, first text = some reading → ∃ value, ∀ rest,
      Takes second value (early reading.value reading.used) rest := by
    intro text reading found
    obtain ⟨value, taken, -⟩ := becomes text reading found
    exact ⟨value, taken⟩
  induction atLineStart, text using line_induction firstSeparate with
  | nil atLineStart => rw [replaceAtLines_nil, replaceAtLines_nil, replaceAtLines_nil]
  | refused atLineStart point text nothing inductionHypothesis =>
    have nothingNew : atLineStart = true → second (point ::
        replaceAtLines first early (point == .scalar '\n') text) = none := by
      intro start
      refine Option.eq_none_iff_forall_not_mem.2 fun outer found => ?_
      have impossible := within [] (point :: text) rfl start
        (isSome_of_replaceAtLines firstSeparate secondSeparate recognised found)
      rw [nothing start] at impossible
      cases impossible
    rw [replaceAtLines_cons nothing, replaceAtLines_cons nothingNew,
      replaceAtLines_cons nothing, inductionHypothesis]
    intro before after same begins
    exact within (point :: before) after (by rw [same, List.cons_append])
      ((afterLine_cons _ _ _).trans begins)
  | piece reading found inductionHypothesis =>
    obtain ⟨value, taken, becomesWhole⟩ := becomes _ _ found
    rw [replaceAtLines_piece firstSeparate found, replaceAtLines_piece firstSeparate found,
      replaceAtLines_piece secondSeparate (taken _)]
    dsimp only
    rw [becomesWhole, inductionHypothesis]
    intro before after same begins
    refine within (reading.used ++ before) after (by rw [same, List.append_assoc]) ?_
    rw [afterLine_append, afterLine_used firstSeparate found, begins]

end Twice

end Declaration

end ShaderReduction
