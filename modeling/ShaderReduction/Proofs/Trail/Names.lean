/-
This file proves which names are read as those of judged steps.

The name of a judged step is read back as its number and outcome. Conversely a name that is read is
made of the name of the reduced job, digits, the tag of an outcome and the ending of a job's file,
so no other name that a session uses is taken for that of a judged step: what follows the digits, if
there are any, is a dot and not the mark before a tag.
-/

import Mathlib.Data.List.TakeWhile
import ShaderReduction.JobFiles
import ShaderReduction.Trail

namespace ShaderReduction

/-! ### Runs of code points -/

theorem takeWhile_eq_of_stop {Item : Type} {isMember : Item → Bool} {used rest : List Item}
    (inside : ∀ item ∈ used, isMember item = true)
    (stop : ∀ item ∈ rest.head?, isMember item = false) :
    (used ++ rest).takeWhile isMember = used ∧ (used ++ rest).dropWhile isMember = rest := by
  rw [List.takeWhile_append_of_pos inside, List.dropWhile_append_of_pos inside]
  cases rest with
  | nil => exact ⟨List.append_nil used, rfl⟩
  | cons item rest =>
    have outside : isMember item = false := stop item rfl
    rw [List.takeWhile_cons_of_neg (by simp [outside]), List.append_nil,
      List.dropWhile_cons_of_neg (by simp [outside])]
    exact ⟨rfl, rfl⟩

/-- Two runs with what stops them are equal only if both parts are. -/
theorem eq_of_run_append_eq {Item : Type} {isMember : Item → Bool}
    {used rest other more : List Item} (inside : ∀ item ∈ used, isMember item = true)
    (stop : ∀ item ∈ rest.head?, isMember item = false)
    (otherInside : ∀ item ∈ other, isMember item = true)
    (otherStop : ∀ item ∈ more.head?, isMember item = false)
    (same : used ++ rest = other ++ more) : used = other ∧ rest = more := by
  obtain ⟨first, second⟩ := takeWhile_eq_of_stop inside stop
  rw [same, (takeWhile_eq_of_stop otherInside otherStop).1] at first
  rw [same, (takeWhile_eq_of_stop otherInside otherStop).2] at second
  exact ⟨first.symm, second.symm⟩

/-! ### What scanners read -/

namespace Scanner

variable {First Second : Type}

/-- A scanner reads a value at the start of a text and leaves the rest. -/
def Scans (scanner : Scanner First) (text : Text) (value : First) (rest : Text) : Prop :=
  ∃ used, scanner text = some ⟨value, used, rest⟩

theorem scans_pure {result value : First} {text rest : Text} :
    Scans (pure result : Scanner First) text value rest ↔ value = result ∧ rest = text := by
  constructor
  · rintro ⟨used, read⟩
    cases read
    exact ⟨rfl, rfl⟩
  · rintro ⟨rfl, rfl⟩
    exact ⟨[], rfl⟩

theorem scans_bind {first : Scanner First} {second : First → Scanner Second} {text rest : Text}
    {value : Second} :
    Scans (first >>= second) text value rest ↔
      ∃ early between, Scans first text early between ∧
        Scans (second early) between value rest := by
  constructor
  · rintro ⟨used, read⟩
    obtain ⟨early, late, earlyFound, lateFound, same⟩ := bind_eq_some read
    cases same
    exact ⟨early.value, early.rest, ⟨early.used, earlyFound⟩, late.used, lateFound⟩
  · rintro ⟨early, between, ⟨earlyUsed, earlyFound⟩, lateUsed, lateFound⟩
    refine ⟨earlyUsed ++ lateUsed, ?_⟩
    show andThen first second text = _
    rw [andThen, earlyFound]
    dsimp only
    rw [lateFound]

theorem scans_literal {word text value rest : Text} :
    Scans (literal word) text value rest ↔ value = word ∧ text = word ++ rest := by
  unfold Scans literal
  constructor
  · rintro ⟨used, read⟩
    cases found : Text.dropWord? word text with
    | none =>
      rw [found] at read
      cases read
    | some left =>
      rw [found] at read
      cases read
      exact ⟨rfl, Text.eq_append_of_dropWord? found⟩
  · rintro ⟨rfl, rfl⟩
    exact ⟨value, by rw [Text.dropWord?_append]⟩

end Scanner

namespace Trail

open Scanner

/-! ### Numbers of attempts -/

/-- Digits of any script, at least four of them. -/
structure IsNumber (digits : Text) : Prop where
  digit : ∀ point ∈ digits, point.isDigit = true
  long : 4 ≤ digits.length

theorem attemptNumber_eq (text : Text) :
    attemptNumber text =
      if 4 ≤ (text.takeWhile CodePoint.isDigit).length then
        some ⟨numberOf (text.takeWhile CodePoint.isDigit), text.takeWhile CodePoint.isDigit,
          text.dropWhile CodePoint.isDigit⟩
      else none := by
  unfold attemptNumber digits someRun
  cases text.takeWhile CodePoint.isDigit with
  | nil => rfl
  | cons first used => rfl

theorem head?_dropWhile_not (text : Text) :
    ∀ point ∈ (text.dropWhile CodePoint.isDigit).head?, point.isDigit = false := by
  intro point first
  have stopped := List.head?_dropWhile_not CodePoint.isDigit text
  rw [Option.mem_def.1 first] at stopped
  simpa using stopped

theorem scans_attemptNumber {text rest : Text} {number : Nat} :
    Scans attemptNumber text number rest ↔
      ∃ digits, IsNumber digits ∧ text = digits ++ rest ∧ number = numberOf digits ∧
        ∀ point ∈ rest.head?, point.isDigit = false := by
  unfold Scans
  rw [attemptNumber_eq]
  constructor
  · rintro ⟨used, read⟩
    split at read
    · next long =>
      cases read
      refine ⟨_, ⟨fun point member => ?_, long⟩, List.takeWhile_append_dropWhile.symm, rfl,
        head?_dropWhile_not text⟩
      exact List.mem_takeWhile_imp member
    · cases read
  · rintro ⟨digits, isNumber, rfl, rfl, stop⟩
    obtain ⟨used, left⟩ := takeWhile_eq_of_stop isNumber.digit stop
    rw [used, left, if_pos isNumber.long]
    exact ⟨digits, rfl⟩

theorem scans_outcomeTag {text rest : Text} {outcome : Outcome} :
    Scans outcomeTag text outcome rest ↔ text = outcome.tag ++ rest := by
  constructor
  · rintro ⟨used, read⟩
    unfold outcomeTag at read
    cases first : literal Outcome.accepted.tag text with
    | some reading =>
      rw [first] at read
      cases read
      exact (scans_literal.1 ⟨reading.used, first⟩).2
    | none =>
      rw [first] at read
      obtain ⟨reading, second, same⟩ := Option.map_eq_some_iff.1 read
      cases same
      exact (scans_literal.1 ⟨reading.used, second⟩).2
  · rintro rfl
    cases outcome with
    | accepted =>
      refine ⟨Outcome.accepted.tag, ?_⟩
      rw [outcomeTag, literal, Text.dropWord?_append]
    | rejected =>
      have notAccepted :
          Text.dropWord? Outcome.accepted.tag (Outcome.rejected.tag ++ rest) = none := rfl
      refine ⟨Outcome.rejected.tag, ?_⟩
      rw [outcomeTag, literal, notAccepted]
      dsimp only
      rw [literal, Text.dropWord?_append]
      rfl

theorem scans_atEnd {text rest : Text} : Scans atEnd text () rest ↔ rest = [] ∧ text = [] := by
  unfold Scans atEnd
  cases text with
  | nil =>
    constructor
    · rintro ⟨used, read⟩
      cases read
      exact ⟨rfl, rfl⟩
    · rintro ⟨rfl, -⟩
      exact ⟨[], rfl⟩
  | cons point text =>
    constructor
    · rintro ⟨used, read⟩
      cases read
    · rintro ⟨-, impossible⟩
      cases impossible

theorem scans_nameEnd {text rest : Text} :
    Scans nameEnd text () rest ↔ rest = [] ∧ (text = [] ∨ text = [.scalar '\n']) := by
  have ended : Scans (do let _ ← literal "\n"; atEnd) text () rest ↔
      rest = [] ∧ text = [.scalar '\n'] := by
    rw [scans_bind]
    constructor
    · rintro ⟨early, between, fed, atLast⟩
      obtain ⟨-, rfl⟩ := scans_literal.1 fed
      obtain ⟨rfl, rfl⟩ := scans_atEnd.1 atLast
      exact ⟨rfl, rfl⟩
    · rintro ⟨rfl, rfl⟩
      exact ⟨_, [], scans_literal.2 ⟨rfl, rfl⟩, scans_atEnd.2 ⟨rfl, rfl⟩⟩
  cases text with
  | nil =>
    have first : Scans nameEnd [] () rest ↔ Scans atEnd [] () rest := Iff.rfl
    rw [first, scans_atEnd]
    exact and_congr_right fun _ => ⟨fun _ => .inl rfl, fun _ => rfl⟩
  | cons point text =>
    have whole : Scans nameEnd (point :: text) () rest ↔ rest = [] ∧
        point :: text = [.scalar '\n'] := ended
    rw [whole]
    exact and_congr_right fun _ => ⟨.inr, fun either => either.resolve_left (List.cons_ne_nil _ _)⟩

theorem scans_stepFile {base text rest : Text} {number : Nat} {outcome : Outcome} :
    Scans (stepFile base) text (number, outcome) rest ↔
      rest = [] ∧ ∃ digits ending, IsNumber digits ∧ numberOf digits = number ∧
        (ending = [] ∨ ending = [.scalar '\n']) ∧
        text = base ++ (("_reduced_" : Text) ++ (digits ++ (("_" : Text) ++ (outcome.tag ++
          ((".json" : Text) ++ ending))))) := by
  unfold stepFile
  simp only [scans_bind, scans_literal, scans_attemptNumber, scans_outcomeTag, scans_pure]
  constructor
  · rintro ⟨_, _, ⟨rfl, rfl⟩, _, _, ⟨rfl, rfl⟩, _, _, ⟨digits, isNumber, rfl, rfl, stop⟩, _, _,
      ⟨rfl, rfl⟩, _, _, rfl, _, _, ⟨rfl, rfl⟩, _, _, ends, same, rfl⟩
    cases same
    obtain ⟨rfl, ending⟩ := scans_nameEnd.1 ends
    exact ⟨rfl, digits, _, isNumber, rfl, ending, rfl⟩
  · rintro ⟨rfl, digits, ending, isNumber, rfl, end_, rfl⟩
    refine ⟨_, _, ⟨rfl, rfl⟩, _, _, ⟨rfl, rfl⟩, _, _, ⟨digits, isNumber, rfl, rfl, ?_⟩, _, _,
      ⟨rfl, rfl⟩, _, _, rfl, _, _, ⟨rfl, rfl⟩, (), _, scans_nameEnd.2 ⟨rfl, end_⟩, rfl, rfl⟩
    rintro point first
    cases first
    decide

/-- The names that are read as those of judged steps. -/
theorem readStep?_eq_some_iff {base name : Text} {number : Nat} {outcome : Outcome} :
    readStep? base name = some (number, outcome) ↔
      ∃ digits ending, IsNumber digits ∧ numberOf digits = number ∧
        (ending = [] ∨ ending = [.scalar '\n']) ∧
        name = base ++ (("_reduced_" : Text) ++ (digits ++ (("_" : Text) ++ (outcome.tag ++
          ((".json" : Text) ++ ending))))) := by
  constructor
  · intro read
    obtain ⟨reading, scanned, same⟩ := Option.map_eq_some_iff.1 read
    have scans : Scans (stepFile base) name (number, outcome) reading.rest :=
      ⟨reading.used, same ▸ scanned⟩
    exact (scans_stepFile.1 scans).2
  · intro shape
    obtain ⟨used, scanned⟩ := scans_stepFile.2 ⟨rfl, shape⟩
    rw [readStep?, scanned]
    rfl

/-! ### The names that a session uses -/

/-- The digits of the number of an attempt. -/
def stepDigits (number : Nat) : Text := Text.ofIntPadded 4 number

theorem exists_stepDigits_eq (number : Nat) :
    ∃ zeros, 4 ≤ zeros + (Nat.toDigits 10 number).length ∧
      stepDigits number =
        (List.replicate zeros '0' ++ Nat.toDigits 10 number).map CodePoint.scalar := by
  refine ⟨4 - (Nat.toDigits 10 number).length, by omega, ?_⟩
  show Text.padStart '0' 4 (Text.ofNat number) = _
  rw [Text.padStart, Text.ofNat, List.length_map, List.map_append, List.map_replicate]

theorem digit?_of_isDigit {character : Char} (isDigit : character.isDigit = true) :
    CodePoint.digit? (.scalar character) = some (character.toNat - 48) := by
  have bounds : (48 ≤ character.toNat && character.toNat ≤ 48 + 9) = true := by
    simp only [Char.isDigit, Bool.and_eq_true, decide_eq_true_eq, Char.toNat] at isDigit ⊢
    exact ⟨isDigit.1, isDigit.2⟩
  obtain ⟨others, zeros⟩ : ∃ others, CharacterClass.digitZeros = 48 :: others := ⟨_, rfl⟩
  rw [CodePoint.digit?, zeros, List.find?_cons_of_pos]
  · rfl
  · exact bounds

theorem isDigit_of_mem_zeros {zeros number : Nat} {character : Char}
    (member : character ∈ List.replicate zeros '0' ++ Nat.toDigits 10 number) :
    character.isDigit = true := by
  rcases List.mem_append.1 member with zero | digit
  · rw [List.eq_of_mem_replicate zero]
    rfl
  · exact Nat.isDigit_of_mem_toDigits (by decide) (by decide) digit

theorem numberOf_map_scalar (characters : List Char) (start : Nat)
    (digits : ∀ character ∈ characters, character.isDigit = true) :
    (characters.map CodePoint.scalar).foldl
        (fun value digit => value * 10 + digit.digit?.getD 0) start =
      Nat.ofDigitChars 10 characters start := by
  induction characters generalizing start with
  | nil => rfl
  | cons character characters inductionHypothesis =>
    rw [List.map_cons, List.foldl_cons, Nat.ofDigitChars_cons,
      inductionHypothesis _ fun other member => digits other (List.mem_cons_of_mem _ member),
      digit?_of_isDigit (digits character List.mem_cons_self), Option.getD_some, Nat.mul_comm]
    rfl

theorem numberOf_stepDigits (number : Nat) : numberOf (stepDigits number) = number := by
  obtain ⟨zeros, -, digits⟩ := exists_stepDigits_eq number
  rw [numberOf, digits, numberOf_map_scalar _ _ fun _ => isDigit_of_mem_zeros,
    Nat.ofDigitChars_append, Nat.ofDigitChars_replicate_zero, Nat.mul_zero,
    Nat.ofDigitChars_ten_toDigits]

theorem isNumber_stepDigits (number : Nat) : IsNumber (stepDigits number) := by
  obtain ⟨zeros, long, digits⟩ := exists_stepDigits_eq number
  rw [digits]
  refine ⟨fun point member => ?_, ?_⟩
  · obtain ⟨character, inside, rfl⟩ := List.mem_map.1 member
    rw [CodePoint.isDigit, digit?_of_isDigit (isDigit_of_mem_zeros inside)]
    rfl
  · rw [List.length_map, List.length_append, List.length_replicate]
    exact long

theorem stepDigits_injective : Function.Injective stepDigits := by
  intro first second same
  rw [← numberOf_stepDigits first, same, numberOf_stepDigits]

theorem judgedName_eq (base : Text) (number : Nat) (outcome : Outcome) :
    judgedName base number outcome =
      base ++ (("_reduced_" : Text) ++ (stepDigits number ++ (("_" : Text) ++ outcome.tag))) := by
  have tagged : outcome.tag ≠ [] := by cases outcome <;> decide
  rw [judgedName, taggedName, if_neg tagged, stepName, stepDigits]
  simp only [List.append_assoc]

/-- The name of the file of a judged step is read back. -/
theorem readStep?_judgedName (base : Text) (number : Nat) (outcome : Outcome) :
    readStep? base (fileName (judgedName base number outcome)) = some (number, outcome) := by
  refine readStep?_eq_some_iff.2 ⟨stepDigits number, [], isNumber_stepDigits number,
    numberOf_stepDigits number, .inl rfl, ?_⟩
  rw [fileName, judgedName_eq]
  simp only [List.append_assoc, List.append_nil]

/-! ### The names of files of judged steps -/

/-- Names that go on after the name of the reduced job as those of the files of judged steps do. -/
def Tagged (base name : Text) : Prop :=
  ∃ digits more, IsNumber digits ∧
    name = base ++ (("_reduced_" : Text) ++ (digits ++ (("_" : Text) ++ more)))

theorem tagged_of_readStep? {base name : Text} {step : Nat × Outcome}
    (read : readStep? base name = some step) : Tagged base name := by
  obtain ⟨digits, ending, isNumber, -, -, rfl⟩ := readStep?_eq_some_iff.1 read
  exact ⟨digits, _, isNumber, rfl⟩

theorem tagged_judgedName (base : Text) (number : Nat) (outcome : Outcome) (ending : Text) :
    Tagged base (judgedName base number outcome ++ ending) := by
  refine ⟨stepDigits number, outcome.tag ++ ending, isNumber_stepDigits number, ?_⟩
  rw [judgedName_eq]
  simp only [List.append_assoc]

theorem IsNumber.ne_nil {digits : Text} (isNumber : IsNumber digits) : digits ≠ [] := by
  rintro rfl
  exact absurd isNumber.long (by decide)

theorem IsNumber.head?_append {digits : Text} (isNumber : IsNumber digits) (rest : Text) :
    ∃ point ∈ (digits ++ rest).head?, point.isDigit = true := by
  obtain ⟨first, others, rfl⟩ := List.exists_cons_of_ne_nil isNumber.ne_nil
  exact ⟨first, rfl, isNumber.digit first List.mem_cons_self⟩

/-- After digits, a mark is not read as one of them. -/
theorem head?_mark (more : Text) :
    ∀ point ∈ (("_" : Text) ++ more).head?, point.isDigit = false := by
  rintro point first
  cases first
  decide

/-- The digits in the name of a file of a judged step can be told. -/
theorem digits_eq_of_append_eq {digits other more rest : Text} (isNumber : IsNumber digits)
    (otherIsNumber : IsNumber other)
    (same : digits ++ (("_" : Text) ++ more) = other ++ (("_" : Text) ++ rest)) :
    digits = other ∧ more = rest := by
  obtain ⟨equal, marked⟩ := eq_of_run_append_eq isNumber.digit (head?_mark more)
    otherIsNumber.digit (head?_mark rest) same
  exact ⟨equal, List.append_cancel_left marked⟩

/-- Files of judged steps with different numbers have different names. -/
theorem number_eq_of_judgedName_append_eq {base : Text} {first second : Nat}
    {firstOutcome secondOutcome : Outcome} {firstEnding secondEnding : Text}
    (same : judgedName base first firstOutcome ++ firstEnding =
      judgedName base second secondOutcome ++ secondEnding) : first = second := by
  rw [judgedName_eq, judgedName_eq] at same
  simp only [List.append_assoc] at same
  have digits := List.append_cancel_left (List.append_cancel_left same)
  exact stepDigits_injective
    (digits_eq_of_append_eq (isNumber_stepDigits first) (isNumber_stepDigits second) digits).1

/-- Beside the uniforms, no file of a judged step has a name that is read as that of one. -/
theorem readStep?_judgedName_append {base : Text} {number : Nat} {outcome : Outcome} {ending : Text}
    (member : ending ∈ JobFiles.resultEnding :: JobFiles.suffixes) :
    readStep? base (judgedName base number outcome ++ ending) = none := by
  cases read : readStep? base (judgedName base number outcome ++ ending) with
  | none => rfl
  | some step =>
    obtain ⟨digits, last, isNumber, -, isLast, same⟩ := readStep?_eq_some_iff.1 read
    rw [judgedName_eq] at same
    simp only [List.append_assoc] at same
    have whole := List.append_cancel_left (List.append_cancel_left same)
    have rest := (digits_eq_of_append_eq (isNumber_stepDigits number) isNumber whole).2
    have all : ∀ ending ∈ JobFiles.resultEnding :: JobFiles.suffixes,
        ∀ last ∈ [[], [CodePoint.scalar '\n']], ∀ first ∈ [Outcome.accepted, Outcome.rejected],
          ∀ second ∈ [Outcome.accepted, Outcome.rejected],
            first.tag ++ ending ≠ second.tag ++ ((".json" : Text) ++ last) := by decide
    have isOutcome : ∀ outcome : Outcome, outcome ∈ [Outcome.accepted, Outcome.rejected] := by
      intro outcome
      cases outcome <;> decide
    exact absurd rest
      (all ending member last (by simpa using isLast) _ (isOutcome _) _ (isOutcome _))

/-! ### The names of other files -/

/-- The names of the jobs of a session that are no judged steps. -/
inductive Untagged (base : Text) : Text → Prop where
  | input : Untagged base base
  | step (number : Nat) : Untagged base (stepName base number)
  | final : Untagged base (finalName base)

/-- Of a job that is no judged step, no file has a name as those of judged steps do: after the name
of the reduced job and digits, it goes on with a dot and not with the mark before a tag. -/
theorem Untagged.not_tagged {base name ending : Text} (untagged : Untagged base name)
    (dot : ending.head? = some (.scalar '.')) : ¬Tagged base (name ++ ending) := by
  rintro ⟨digits, more, isNumber, same⟩
  obtain ⟨rest, rfl⟩ : ∃ rest, ending = .scalar '.' :: rest := by
    cases ending with
    | nil => cases dot
    | cons point rest => exact ⟨rest, congrArg (· :: rest) (Option.some.inj dot)⟩
  cases untagged with
  | input => cases List.append_cancel_left same
  | step number =>
    rw [stepName] at same
    simp only [List.append_assoc] at same
    have whole := List.append_cancel_left (List.append_cancel_left same)
    have dotStop : ∀ point ∈ (CodePoint.scalar '.' :: rest).head?, point.isDigit = false := by
      rintro point first
      cases first
      decide
    cases (eq_of_run_append_eq (isNumber_stepDigits number).digit dotStop isNumber.digit
      (head?_mark more) whole).2
  | final =>
    have split : finalName base = base ++ (("_reduced_" : Text) ++ ("final" : Text)) := rfl
    rw [split] at same
    simp only [List.append_assoc] at same
    have whole := List.append_cancel_left (List.append_cancel_left same)
    obtain ⟨point, first, isDigit⟩ := isNumber.head?_append (("_" : Text) ++ more)
    rw [← whole] at first
    cases first
    exact absurd isDigit (by decide)

/-- Files of the jobs of attempts with different numbers have different names. -/
theorem number_eq_of_stepName_append_eq {base : Text} {first second : Nat}
    {firstEnding secondEnding : Text} (firstDot : firstEnding.head? = some (.scalar '.'))
    (secondDot : secondEnding.head? = some (.scalar '.'))
    (same : stepName base first ++ firstEnding = stepName base second ++ secondEnding) :
    first = second := by
  have stop : ∀ ending : Text, ending.head? = some (.scalar '.') →
      ∀ point ∈ ending.head?, point.isDigit = false := by
    intro ending dot point isFirst
    rw [dot] at isFirst
    cases isFirst
    decide
  rw [stepName, stepName] at same
  simp only [List.append_assoc] at same
  have digits := List.append_cancel_left (List.append_cancel_left same)
  exact stepDigits_injective (eq_of_run_append_eq (isNumber_stepDigits first).digit
    (stop _ firstDot) (isNumber_stepDigits second).digit (stop _ secondDot) digits).1

/-- A name without a letter of the word before the number is not among them. -/
theorem not_tagged_of_notMem {base name : Text} (absent : .scalar 'd' ∉ name) :
    ¬Tagged base name := by
  rintro ⟨digits, more, -, rfl⟩
  exact absent (List.mem_append_right _ (List.mem_append_left _ (by decide)))

theorem noSlash_of_isNumber {digits : Text} (isNumber : IsNumber digits) :
    .scalar '/' ∉ digits :=
  fun member => absurd (isNumber.digit _ member) (by decide)

end Trail

end ShaderReduction
