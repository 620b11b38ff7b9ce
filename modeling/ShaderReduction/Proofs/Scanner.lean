/-
This file proves what scanners make of texts whose parts are known.

A run ends where no further code point of its class follows, so it takes a part of a text that is
followed by something else. Parts that are taken one after the other are taken by the scanners in
sequence. A scanner that ends in a fixed sign is closed: what it makes of the text up to that sign
does not depend on what comes after.
-/

import Mathlib.Data.List.TakeWhile
import ShaderReduction.Scanner

namespace ShaderReduction

namespace CodePoint

/-! ### Blanks and words -/

open CharacterClass

/-- No blank is part of a word. -/
theorem isWord_of_isBlank {point : CodePoint} (isBlank : point.isBlank = true) :
    point.isWord = false := by
  have plain : ∀ place < 128, within blankRanges place = true → isPlainWord place = false := by
    decide +kernel
  have apart : (blankRanges.all fun blank => wordRanges.all fun word =>
      decide (blank.2 < word.1) || decide (word.2 < blank.1)) = true := by decide +kernel
  unfold isWord
  split
  · next small => exact plain _ small isBlank
  · obtain ⟨blank, isRange, inside⟩ := List.any_eq_true.1 isBlank
    refine Bool.eq_false_iff.2 fun among => ?_
    obtain ⟨word, isWordRange, within⟩ := List.any_eq_true.1 among
    have different := List.all_eq_true.1 (List.all_eq_true.1 apart blank isRange) word isWordRange
    simp only [Bool.and_eq_true, Bool.or_eq_true, decide_eq_true_eq] at inside within different
    omega

end CodePoint

namespace Scanner

variable {Value First Second : Type}

/-! ### Sequences -/

theorem bind_eq_of_eq_some {first : Scanner First} {second : First → Scanner Second} {text : Text}
    {early : Reading First} {late : Reading Second} (earlyFound : first text = some early)
    (lateFound : second early.value early.rest = some late) :
    (first >>= second) text = some ⟨late.value, early.used ++ late.used, late.rest⟩ := by
  simp only [bind, andThen, earlyFound, lateFound]

theorem literal_eq_some {word text : Text} {reading : Reading Text}
    (found : literal word text = some reading) : reading.value = word ∧ reading.used = word := by
  unfold literal at found
  split at found
  · cases found
  · cases found
    exact ⟨rfl, rfl⟩

theorem otherwise_eq_some {first second : Scanner Value} {text : Text} {reading : Reading Value}
    (found : otherwise first second text = some reading) :
    first text = some reading ∨ first text = none ∧ second text = some reading := by
  unfold otherwise at found
  split at found
  · next early earlyFound => exact .inl (earlyFound.trans found)
  · next refuses => exact .inr ⟨refuses, found⟩

/-- It does not matter how scanners in a sequence are grouped. -/
theorem bind_assoc {Third : Type} (first : Scanner First) (second : First → Scanner Second)
    (third : Second → Scanner Third) :
    (first >>= second) >>= third = first >>= fun value => second value >>= third := by
  funext text
  simp only [bind, andThen]
  cases first text with
  | none => rfl
  | some early =>
    cases middleFound : second early.value early.rest with
    | none => simp only [middleFound]
    | some middle =>
      cases lateFound : third middle.value middle.rest with
      | none => simp only [middleFound, lateFound]
      | some late => simp only [middleFound, lateFound, List.append_assoc]

theorem pure_bind (value : First) (second : First → Scanner Second) :
    (pure value : Scanner First) >>= second = second value := by
  funext text
  simp only [bind, andThen, pure, done, List.nil_append]
  cases second value text <;> rfl

/-! ### Parts that are taken -/

/-- A scanner uses a part of a text before the rest and gives a value. -/
def Takes (scanner : Scanner Value) (value : Value) (part rest : Text) : Prop :=
  scanner (part ++ rest) = some ⟨value, part, rest⟩

theorem Takes.bind {first : Scanner First} {second : First → Scanner Second} {early : First}
    {late : Second} {part more rest : Text} (takesFirst : Takes first early part (more ++ rest))
    (takesSecond : Takes (second early) late more rest) :
    Takes (first >>= second) late (part ++ more) rest := by
  unfold Takes
  rw [List.append_assoc]
  exact bind_eq_of_eq_some takesFirst takesSecond

/-- Giving another value changes nothing in what is used. -/
theorem Takes.bind_pure {first : Scanner First} {value : First} {part rest : Text}
    (takes : Takes first value part rest) (give : First → Second) :
    Takes (first >>= fun value => pure (give value)) (give value) part rest := by
  unfold Takes at takes ⊢
  simp only [Bind.bind, andThen, takes, pure, done, List.append_nil]

theorem takes_literal (word rest : Text) : Takes (literal word) word word rest := by
  unfold Takes literal
  rw [Text.dropWord?_append]

theorem Takes.written {scanner : Scanner Value} {value : Value} {part rest : Text}
    (takes : Takes scanner value part rest) : Takes (written scanner) part part rest := by
  unfold Takes Scanner.written
  rw [takes]
  rfl

theorem Takes.otherwise {first second : Scanner Value} {value : Value} {part rest : Text}
    (takes : Takes first value part rest) : Takes (otherwise first second) value part rest := by
  unfold Takes Scanner.otherwise
  rw [takes]

theorem takes_otherwise_of_none {first second : Scanner Value} {value : Value} {part rest : Text}
    (refuses : first (part ++ rest) = none) (takes : Takes second value part rest) :
    Takes (otherwise first second) value part rest := by
  unfold Takes Scanner.otherwise
  rw [refuses]
  exact takes

/-! ### Runs -/

/-- A text does not begin with a code point of a class. -/
def Stops (isMember : CodePoint → Bool) (text : Text) : Prop :=
  ∀ point ∈ text.head?, isMember point = false

/-- Code points of a class, at least one. -/
structure IsRun (isMember : CodePoint → Bool) (part : Text) : Prop where
  nonempty : part ≠ []
  all : ∀ point ∈ part, isMember point = true

section Runs

variable {isMember isOther : CodePoint → Bool} {part rest : Text}

theorem stops_cons {point : CodePoint} (foreign : isMember point = false) :
    Stops isMember (point :: rest) := by
  intro first isFirst
  cases isFirst
  exact foreign

/-- A run of another class stops a run. -/
theorem IsRun.stops (isRun : IsRun isOther part)
    (foreign : ∀ point, isOther point = true → isMember point = false) (rest : Text) :
    Stops isMember (part ++ rest) := by
  obtain ⟨point, part, rfl⟩ := List.exists_cons_of_ne_nil isRun.nonempty
  exact stops_cons (foreign point (isRun.all point List.mem_cons_self))

theorem takeWhile_append_of_stops (all : ∀ point ∈ part, isMember point = true)
    (stops : Stops isMember rest) : (part ++ rest).takeWhile isMember = part := by
  rw [List.takeWhile_append_of_pos all]
  cases rest with
  | nil => rw [List.takeWhile_nil, List.append_nil]
  | cons point rest =>
    rw [List.takeWhile_cons_of_neg (Bool.eq_false_iff.1 (stops point rfl)), List.append_nil]

theorem dropWhile_append_of_stops (all : ∀ point ∈ part, isMember point = true)
    (stops : Stops isMember rest) : (part ++ rest).dropWhile isMember = rest := by
  have whole := List.takeWhile_append_dropWhile (p := isMember) (l := part ++ rest)
  rw [takeWhile_append_of_stops all stops] at whole
  exact List.append_cancel_left whole

/-- A text has one longest run at its start. -/
theorem append_inj_of_stops {other otherRest : Text} (all : ∀ point ∈ part, isMember point = true)
    (stops : Stops isMember rest) (otherAll : ∀ point ∈ other, isMember point = true)
    (otherStops : Stops isMember otherRest) (same : part ++ rest = other ++ otherRest) :
    part = other ∧ rest = otherRest := by
  have front := takeWhile_append_of_stops all stops
  rw [same, takeWhile_append_of_stops otherAll otherStops] at front
  subst front
  exact ⟨rfl, List.append_cancel_left same⟩

theorem takes_run (all : ∀ point ∈ part, isMember point = true) (stops : Stops isMember rest) :
    Takes (run isMember) part part rest := by
  unfold Takes run
  rw [takeWhile_append_of_stops all stops, dropWhile_append_of_stops all stops]

theorem takes_someRun (isRun : IsRun isMember part) (stops : Stops isMember rest) :
    Takes (someRun isMember) part part rest := by
  obtain ⟨point, part, rfl⟩ := List.exists_cons_of_ne_nil isRun.nonempty
  unfold Takes someRun
  rw [takeWhile_append_of_stops isRun.all stops, dropWhile_append_of_stops isRun.all stops]

variable {text : Text} {reading : Reading Text}

/-- What a run uses is all of its class, and it stops after that. -/
theorem run_eq_some (found : run isMember text = some reading) :
    reading.value = reading.used ∧ (∀ point ∈ reading.used, isMember point = true) ∧
      Stops isMember reading.rest := by
  cases found
  refine ⟨rfl, fun point member => List.mem_takeWhile_imp member, fun point isFirst => ?_⟩
  have first := List.head?_dropWhile_not isMember text
  rw [Option.mem_def.1 isFirst] at first
  exact first

theorem someRun_eq_some_iff : someRun isMember text = some reading ↔
    run isMember text = some reading ∧ reading.used ≠ [] := by
  unfold someRun run
  constructor
  · intro found
    split at found
    · cases found
    · next first used taken =>
      rw [taken]
      cases found
      exact ⟨rfl, List.cons_ne_nil _ _⟩
  · rintro ⟨found, nonempty⟩
    cases found
    split
    · next taken => exact absurd taken nonempty
    · next first used taken => rw [taken]

/-- What is used where at least one code point of a class must be is a run of it. -/
theorem isRun_of_someRun_eq_some (found : someRun isMember text = some reading) :
    reading.value = reading.used ∧ IsRun isMember reading.used ∧ Stops isMember reading.rest := by
  obtain ⟨isRun, nonempty⟩ := someRun_eq_some_iff.1 found
  obtain ⟨value, all, stops⟩ := run_eq_some isRun
  exact ⟨value, ⟨nonempty, all⟩, stops⟩

end Runs

/-! ### Scanners that end in a sign -/

/-- What a scanner makes of a text depends on what it uses and on the code point after that. -/
structure Near (scanner : Scanner Value) : Prop where
  faithful : Faithful scanner
  settled : ∀ text reading, scanner text = some reading → ∀ rest : Text,
    rest.head? = reading.rest.head? → Takes scanner reading.value reading.used rest

/-- A scanner uses something, and what it makes of a text depends on that alone. -/
structure Closed (scanner : Scanner Value) : Prop where
  faithful : Faithful scanner
  nonempty : ∀ text reading, scanner text = some reading → reading.used ≠ []
  settled : ∀ text reading, scanner text = some reading → ∀ rest : Text,
    Takes scanner reading.value reading.used rest

section Closed

variable {scanner : Scanner Value} {first : Scanner First} {second : First → Scanner Second}

theorem Closed.near (closed : Closed scanner) : Near scanner :=
  ⟨closed.faithful, fun text reading found rest _ => closed.settled text reading found rest⟩

theorem near_run (isMember : CodePoint → Bool) : Near (run isMember) where
  faithful := faithful_run isMember
  settled text reading found rest same := by
    obtain ⟨value, all, stops⟩ := run_eq_some found
    rw [value]
    exact takes_run all fun point isFirst => stops point (same ▸ isFirst)

theorem near_someRun (isMember : CodePoint → Bool) : Near (someRun isMember) where
  faithful := faithful_someRun isMember
  settled text reading found rest same := by
    obtain ⟨value, isRun, stops⟩ := isRun_of_someRun_eq_some found
    rw [value]
    exact takes_someRun isRun fun point isFirst => stops point (same ▸ isFirst)

theorem closed_literal {word : Text} (nonempty : word ≠ []) : Closed (literal word) where
  faithful := faithful_literal word
  nonempty text reading found := by rwa [(literal_eq_some found).2]
  settled text reading found rest := by
    rw [(literal_eq_some found).1, (literal_eq_some found).2]
    exact takes_literal word rest

/-- A sequence is closed if it ends in a closed scanner: before that, the next code point is one
that is used. -/
theorem closed_bind (firstNear : Near first) (secondClosed : ∀ value, Closed (second value)) :
    Closed (first >>= second) where
  faithful := faithful_bind firstNear.faithful fun value => (secondClosed value).faithful
  nonempty text reading found := by
    obtain ⟨early, late, earlyFound, lateFound, rfl⟩ := bind_eq_some found
    exact List.append_ne_nil_of_right_ne_nil _ ((secondClosed _).nonempty _ _ lateFound)
  settled text reading found rest := by
    obtain ⟨early, late, earlyFound, lateFound, rfl⟩ := bind_eq_some found
    refine (firstNear.settled _ _ earlyFound _ ?_).bind
      ((secondClosed _).settled _ _ lateFound rest)
    obtain ⟨point, used, same⟩ :=
      List.exists_cons_of_ne_nil ((secondClosed _).nonempty _ _ lateFound)
    rw [(secondClosed _).faithful _ _ lateFound, same]
    rfl

theorem closed_bind_pure (closed : Closed first) (give : First → Second) :
    Closed (first >>= fun value => pure (give value)) where
  faithful := faithful_bind closed.faithful fun value => faithful_pure _
  nonempty text reading found := by
    obtain ⟨early, late, earlyFound, lateFound, rfl⟩ := bind_eq_some found
    cases lateFound
    rw [List.append_nil]
    exact closed.nonempty _ _ earlyFound
  settled text reading found rest := by
    obtain ⟨early, late, earlyFound, lateFound, rfl⟩ := bind_eq_some found
    cases lateFound
    rw [List.append_nil]
    exact (closed.settled _ _ earlyFound rest).bind_pure give

end Closed

section EndsIn

variable {sign : Text} {first : Scanner First} {second : First → Scanner Second}

/-- What a scanner uses ends in a sign. -/
def EndsIn (sign : Text) (scanner : Scanner Value) : Prop :=
  ∀ text reading, scanner text = some reading → sign <:+ reading.used

theorem endsIn_bind (secondEnds : ∀ value, EndsIn sign (second value)) :
    EndsIn sign (first >>= second) := by
  intro text reading found
  obtain ⟨early, late, -, lateFound, rfl⟩ := bind_eq_some found
  exact (secondEnds _ _ _ lateFound).trans (List.suffix_append _ _)

theorem endsIn_bind_pure (ends : EndsIn sign first) (give : First → Second) :
    EndsIn sign (first >>= fun value => pure (give value)) := by
  intro text reading found
  obtain ⟨early, late, earlyFound, lateFound, rfl⟩ := bind_eq_some found
  cases lateFound
  rw [List.append_nil]
  exact ends _ _ earlyFound

end EndsIn

end Scanner

end ShaderReduction
