/-
This file proves when simplifying a text a second time changes nothing.

It is not always so: a wrapper that is replaced by its argument may bring a name before a
parenthesis, or two halves of a name together. It is so if every name of a macro in the text stands
before a parenthesis, no wrapper that is replaced is directly followed by a word, and no second
block of definitions is left. Then the simplified text has no use of a macro as intended, and no
block.

A text is settled where a word may begin if no macro is used there as intended and no name of one
stands there alone. Expansion changes neither the levels of a text nor the number of arguments of a
call, so what was no use as intended is none afterwards, and what is put in place of a use is
sealed, so its own calls end within it.
-/

import ShaderReduction.Proofs.FileText
import ShaderReduction.Proofs.Macro.Levels
import ShaderReduction.Proofs.Macro.Words

namespace ShaderReduction

namespace Macro

open Call

/-! ### Places where a word may begin -/

/-- A property holds of what begins at each place where a word may begin. -/
def AtWords (holds : Text → Prop) (afterWord : Bool) : Text → Prop
  | [] => True
  | point :: text => (afterWord = false → holds (point :: text)) ∧ AtWords holds point.isWord text

/-- Whether a word may go on after a text. -/
def endsWord (afterWord : Bool) (text : Text) : Bool :=
  (text.getLast?.map CodePoint.isWord).getD afterWord

section AtWords

variable {holds other : Text → Prop} {afterWord : Bool} {text more : Text}

theorem endsWord_cons (afterWord : Bool) (point : CodePoint) (text : Text) :
    endsWord afterWord (point :: text) = endsWord point.isWord text := by
  unfold endsWord
  cases text with
  | nil => rfl
  | cons next text =>
    rw [List.getLast?_cons_cons, List.getLast?_eq_some_getLast (List.cons_ne_nil next text)]
    rfl

theorem endsWord_concat (afterWord : Bool) (text : Text) (point : CodePoint) :
    endsWord afterWord (text ++ [point]) = point.isWord := by
  rw [endsWord, List.getLast?_concat]
  rfl

theorem AtWords.weaken (everywhere : AtWords holds false text) (afterWord : Bool) :
    AtWords holds afterWord text := by
  cases text with
  | nil => trivial
  | cons point text => exact ⟨fun _ => everywhere.1 rfl, everywhere.2⟩

theorem AtWords.suffix {before : Text} (everywhere : AtWords holds afterWord (before ++ text)) :
    AtWords holds (endsWord afterWord before) text := by
  induction before generalizing afterWord with
  | nil => exact everywhere
  | cons point before inductionHypothesis =>
    rw [endsWord_cons]
    exact inductionHypothesis everywhere.2

theorem AtWords.of_append (everywhere : AtWords holds afterWord (text ++ more))
    (cut : ∀ part, holds (part ++ more) → other part) : AtWords other afterWord text := by
  induction text generalizing afterWord with
  | nil => trivial
  | cons point text inductionHypothesis =>
    exact ⟨fun start => cut _ (everywhere.1 start), inductionHypothesis everywhere.2⟩

theorem AtWords.append (everywhere : AtWords holds afterWord text)
    (extend : ∀ before part, text = before ++ part → holds part → other (part ++ more))
    (rest : AtWords other false more) : AtWords other afterWord (text ++ more) := by
  induction text generalizing afterWord with
  | nil => exact rest.weaken afterWord
  | cons point text inductionHypothesis =>
    refine ⟨fun start => extend [] _ rfl (everywhere.1 start), ?_⟩
    refine inductionHypothesis everywhere.2 fun before part whole => ?_
    exact extend (point :: before) part (congrArg _ whole)

theorem atWords_word {word : Text} (all : ∀ point ∈ word, point.isWord = true)
    (rest : AtWords holds true text) : AtWords holds true (word ++ text) := by
  induction word with
  | nil => exact rest
  | cons point word inductionHypothesis =>
    obtain ⟨isWord, others⟩ := List.forall_mem_cons.1 all
    refine ⟨fun start => (nomatch start), ?_⟩
    rw [isWord]
    exact inductionHypothesis others

theorem atWords_gap {gap : Text} (none : ∀ point ∈ gap, point.isWord = false)
    (wordless : ∀ part, beginsWord part = false → holds part) (rest : AtWords holds false text) :
    AtWords holds false (gap ++ text) := by
  induction gap with
  | nil => exact rest
  | cons point gap inductionHypothesis =>
    obtain ⟨notWord, others⟩ := List.forall_mem_cons.1 none
    refine ⟨fun _ => wordless _ notWord, ?_⟩
    rw [notWord]
    exact inductionHypothesis others

end AtWords

/-! ### What may begin there -/

/-- If a text begins with the name of a macro, it begins with a use of it. -/
def IsCalled (text : Text) : Prop := leadingWord text ∈ names → (anyUse text).isSome = true

/-- If a text begins with a wrapper that is used as intended, no word follows directly. -/
def IsApart (text : Text) : Prop :=
  ∀ reading ∈ anyUse text, reading.value = .wrapper → ∀ split ∈ splitFrom 1 reading.rest,
    split.arguments.length = 1 → beginsWord split.rest = false

/-- If a text begins with the name of a macro, it begins with a use that is not as intended. -/
def IsSettled (text : Text) : Prop :=
  IsCalled text ∧ ∀ reading ∈ anyUse text, arityFrom 1 reading.rest ≠ some reading.value.arity

/-- Whether a property holds wherever a word may begin is found by going through the text. -/
instance decidableAtWords (holds : Text → Prop) [DecidablePred holds] :
    ∀ afterWord text, Decidable (AtWords holds afterWord text)
  | _, [] => .isTrue trivial
  | afterWord, point :: text =>
    have := decidableAtWords holds point.isWord text
    inferInstanceAs
      (Decidable ((afterWord = false → holds (point :: text)) ∧ AtWords holds point.isWord text))

instance : DecidablePred IsCalled := fun text =>
  inferInstanceAs (Decidable (leadingWord text ∈ names → (anyUse text).isSome = true))

instance : DecidablePred IsApart := fun text =>
  inferInstanceAs (Decidable (∀ reading ∈ anyUse text, reading.value = .wrapper →
    ∀ split ∈ splitFrom 1 reading.rest, split.arguments.length = 1 →
      beginsWord split.rest = false))

section Uses

variable {text more gap : Text} {reading : Reading MacroMeaning}

/-- What opens a call may stand before any text. -/
theorem Uses.replace (uses : Uses text reading gap) (rest : Text) :
    Uses (reading.used ++ rest) ⟨reading.value, reading.used, rest⟩ gap := by
  have word : leadingWord (reading.used ++ rest) = leadingWord text := by
    rw [uses.used, List.append_assoc, List.append_assoc, List.singleton_append]
    exact leadingWord_append (isWord_of_mem_name uses.isMacro) (beginsWord_gap_append uses.blank _)
  exact ⟨word ▸ uses.isMacro, uses.blank, word ▸ uses.used, rfl⟩

theorem Uses.append (uses : Uses text reading gap) (more : Text) :
    Uses (text ++ more) ⟨reading.value, reading.used, reading.rest ++ more⟩ gap := by
  have longer := uses.replace (reading.rest ++ more)
  rwa [← List.append_assoc, ← uses.whole] at longer

theorem anyUse_append (found : anyUse text = some reading) (more : Text) :
    anyUse (text ++ more) = some ⟨reading.value, reading.used, reading.rest ++ more⟩ := by
  obtain ⟨gap, uses⟩ := anyUse_eq_some_iff.1 found
  exact anyUse_eq_some_iff.2 ⟨gap, uses.append more⟩

/-- What holds at the words of a text holds where a use is at its start. -/
theorem AtWords.here {holds : Text → Prop} (everywhere : AtWords holds false text)
    (found : anyUse text = some reading) : holds text := by
  cases text with
  | nil => exact absurd (length_rest_lt_of_anyUse found) (Nat.not_lt_zero _)
  | cons point text => exact everywhere.1 rfl

theorem leadingWord_mem_names (found : anyUse text = some reading) : leadingWord text ∈ names := by
  obtain ⟨gap, uses⟩ := anyUse_eq_some_iff.1 found
  exact List.mem_map_of_mem uses.isMacro

theorem anyUse_of_beginsWord (wordless : beginsWord text = false) : anyUse text = none := by
  refine Option.eq_none_iff_forall_ne_some.2 fun reading found => ?_
  have isName := leadingWord_mem_names found
  rw [leadingWord_of_beginsWord wordless] at isName
  exact nil_notMem_names isName

theorem IsApart.of_append (apart : IsApart (text ++ more)) : IsApart text := by
  intro reading found isWrapper split splitting alone
  have ends :=
    apart _ (anyUse_append found more) isWrapper _ (splitFrom_append splitting more) alone
  cases rest : split.rest with
  | nil => rfl
  | cons point others =>
    rw [rest] at ends
    exact ends

/-- Blanks and an opening parenthesis stand at the start of a text. -/
def Opens (text : Text) : Prop :=
  ∃ gap rest, (∀ point ∈ gap, point.isBlank = true) ∧ text = gap ++ .scalar '(' :: rest

/-- A use that a text begins with lies within its first part if the second part neither goes on with
the name nor opens the call. -/
theorem exists_anyUse_of_append (ends : beginsWord more = false) (closed : ¬Opens more)
    (found : (anyUse (text ++ more)).isSome = true) : (anyUse text).isSome = true := by
  obtain ⟨reading, isFound⟩ := Option.isSome_iff_exists.1 found
  obtain ⟨gap, uses⟩ := anyUse_eq_some_iff.1 isFound
  have word := leadingWord_append_of_beginsWord text ends
  have whole : text = leadingWord text ++ text.dropWhile CodePoint.isWord :=
    List.takeWhile_append_dropWhile.symm
  have cut : text.dropWhile CodePoint.isWord ++ more = gap ++ .scalar '(' :: reading.rest := by
    have same : leadingWord text ++ (text.dropWhile CodePoint.isWord ++ more) =
        leadingWord text ++ (gap ++ .scalar '(' :: reading.rest) := by
      rw [← List.append_assoc, ← whole, uses.split, word]
    exact List.append_cancel_left same
  rcases List.append_eq_append_iff.1 cut with ⟨later, gapSplit, moreSplit⟩ | ⟨later, own, opened⟩
  · refine absurd ⟨later, reading.rest, fun point member => ?_, moreSplit⟩ closed
    exact uses.blank point (gapSplit ▸ List.mem_append_right _ member)
  · cases later with
    | nil =>
      rw [List.nil_append] at opened
      exact absurd ⟨[], reading.rest, fun _ member => absurd member List.not_mem_nil, opened.symm⟩
        closed
    | cons point later =>
      obtain ⟨rfl, -⟩ := List.cons.inj opened
      refine Option.isSome_iff_exists.2 ⟨⟨reading.value, leadingWord text ++ gap ++ [.scalar '('],
        later⟩, anyUse_eq_some_iff.2 ⟨gap, word ▸ uses.isMacro, uses.blank, rfl, ?_⟩⟩
      conv_lhs => rw [whole, own]
      simp only [List.append_assoc, List.singleton_append]

theorem IsCalled.of_append (called : IsCalled (text ++ more)) (ends : beginsWord more = false)
    (closed : ¬Opens more) : IsCalled text := by
  intro isName
  rw [← leadingWord_append_of_beginsWord text ends] at isName
  exact exists_anyUse_of_append ends closed (called isName)

/-- Words and blanks lead from no level to another. -/
theorem leadsTo?_of_plain {part : Text}
    (plain : ∀ point ∈ part, point.isWord = true ∨ point.isBlank = true) (level : Int) :
    leadsTo? level part = some level := by
  have outside : ∀ mark ∈ [(.scalar '(' : CodePoint), .scalar '[', .scalar ')', .scalar ']',
      .scalar ','], ¬(mark.isWord = true ∨ mark.isBlank = true) := by decide +kernel
  induction part with
  | nil => rfl
  | cons point part inductionHypothesis =>
    obtain ⟨first, others⟩ := List.forall_mem_cons.1 plain
    have different : ∀ mark ∈ [(.scalar '(' : CodePoint), .scalar '[', .scalar ')', .scalar ']',
        .scalar ','], point ≠ mark := fun mark isMark same => outside mark isMark (same ▸ first)
    simp only [List.forall_mem_cons, List.not_mem_nil] at different
    simp [leadsTo?, isOpening, isClosing, different, inductionHypothesis others]

theorem leadsTo?_used (uses : Uses text reading gap) (level : Int) :
    leadsTo? level reading.used = some (level + 1) := by
  have word : ∀ point ∈ leadingWord text, point.isWord = true ∨ point.isBlank = true :=
    fun point member => .inl (isWord_of_mem_name uses.isMacro point member)
  have blank : ∀ point ∈ gap, point.isWord = true ∨ point.isBlank = true :=
    fun point member => .inr (uses.blank point member)
  rw [uses.used, List.append_assoc, leadsTo?_append_of_eq (leadsTo?_of_plain word level),
    leadsTo?_append_of_eq (leadsTo?_of_plain blank level)]
  rfl

end Uses

/-! ### Blanks around a text -/

theorem exists_trim (text : Text) : ∃ before after, text = before ++ text.trim ++ after ∧
    (∀ point ∈ before, point.isBlank = true) ∧ ∀ point ∈ after, point.isBlank = true := by
  refine ⟨text.takeWhile CodePoint.isBlank,
    (text.trimStart.reverse.takeWhile CodePoint.isBlank).reverse, ?_,
    fun point member => List.mem_takeWhile_imp member,
    fun point member => List.mem_takeWhile_imp (List.mem_reverse.1 member)⟩
  have back : text.trimStart = text.trim ++
      (text.trimStart.reverse.takeWhile CodePoint.isBlank).reverse := by
    have whole : text.trimStart.reverse.takeWhile CodePoint.isBlank ++
        Text.trimStart text.trimStart.reverse = text.trimStart.reverse :=
      List.takeWhile_append_dropWhile
    rw [Text.trim, Text.trimEnd, ← List.reverse_append, whole, List.reverse_reverse]
  rw [List.append_assoc, ← back]
  exact List.takeWhile_append_dropWhile.symm

/-! ### Levels of simplified texts -/

theorem sealed_of_blank {text : Text} (blank : ∀ point ∈ text, point.isBlank = true) :
    Sealed text := leadsTo?_of_plain (fun point member => .inr (blank point member)) 1

theorem sealed_trim {text : Text} (isSealed : Sealed text) : Sealed text.trim := by
  obtain ⟨before, after, whole, blankBefore, blankAfter⟩ := exists_trim text
  have inner : leadsTo? 1 (text.trim ++ after) = some 1 := by
    have leads := isSealed
    unfold Sealed at leads
    rwa [whole, List.append_assoc, leadsTo?_append_of_eq (sealed_of_blank blankBefore)] at leads
  rw [leadsTo?_append] at inner
  cases found : leadsTo? 1 text.trim with
  | none =>
    rw [found] at inner
    cases inner
  | some level =>
    rw [found, Option.bind_some,
      (sealed_of_blank blankAfter).leadsTo? (one_le_of_leadsTo? (by decide) found)] at inner
    exact found.trans inner

theorem sealed_block : Sealed Definitions.block := by
  unfold Sealed
  decide +kernel

theorem sealed_strip {text : Text} (isSealed : Sealed text) : Sealed (Definitions.strip text) := by
  by_cases occurs : Definitions.block <:+: text
  · obtain ⟨before, after, whole, stripped⟩ := Text.exists_removeFirst_of_infix occurs
    unfold Definitions.strip Sealed
    rw [stripped]
    unfold Sealed at isSealed
    rw [whole, List.append_assoc, leadsTo?_append] at isSealed
    rw [leadsTo?_append]
    cases found : leadsTo? 1 before with
    | none =>
      rw [found] at isSealed
      cases isSealed
    | some level =>
      have block := sealed_block.leadsTo? (one_le_of_leadsTo? (by decide) found)
      rwa [found, Option.bind_some, leadsTo?_append_of_eq block] at isSealed
  · rwa [Definitions.strip, Text.removeFirst_of_not_infix occurs]

theorem sealed_apply {argument : Text} (isSealed : Sealed argument) (meaning : MacroMeaning) :
    Sealed (meaning.apply argument) := by
  cases meaning with
  | wrapper => exact isSealed
  | value | parenthesis => exact sealed_parenthesized isSealed

theorem useAt_eq_some_iff {afterWord : Bool} {text : Text} {reading : Reading MacroMeaning} :
    useAt afterWord text = some reading ↔ afterWord = false ∧ anyUse text = some reading := by
  cases afterWord with
  | true => exact ⟨fun found => (nomatch found), fun both => (nomatch both.1)⟩
  | false => exact ⟨fun found => ⟨rfl, found⟩, And.right⟩

theorem getLast_eq {split : Split} {level : Int} {text last before : Text} {bracket : CodePoint}
    (closes : Closes level text split last before bracket) (nonempty : split.arguments ≠ []) :
    split.arguments.getLast nonempty = last := by
  have isLast := closes.isLast
  rw [List.getLast?_eq_some_getLast nonempty] at isLast
  exact Option.some.inj isLast

/-! ### Expansion along the uses of a text -/

theorem expand_cons_of_none {afterWord : Bool} {point : CodePoint} {following : Text}
    (none : useAt afterWord (point :: following) = none) :
    expand afterWord (point :: following) = point :: expand point.isWord following := by
  rw [expand]
  split
  · rfl
  · next found =>
    rw [none] at found
    cases found

section Use

variable {text : Text} {reading : Reading MacroMeaning} (found : anyUse text = some reading)

include found

/-- At a use the expansion goes by how the call is split. -/
theorem expand_of_anyUse :
    expand false text =
      match splitting : splitFrom 1 reading.rest with
      | none => reading.used ++ expand false reading.rest
      | some split =>
        if split.arguments.length = reading.value.arity then
          reading.value.apply (expand false (Definitions.strip
            (split.arguments.getLast (arguments_ne_nil splitting)))).trim ++
            expand false split.rest
        else reading.used ++ expand false reading.rest := by
  cases text with
  | nil => exact absurd (length_rest_lt_of_anyUse found) (Nat.not_lt_zero _)
  | cons point following =>
    have isUse : useAt false (point :: following) = some reading := found
    rw [expand]
    split
    · next none => rw [isUse] at none; cases none
    · next other isOther =>
      obtain rfl : reading = other := Option.some.inj (isUse.symm.trans isOther)
      rfl

theorem expand_of_filled {split : Split} {last : Text}
    (splitting : splitFrom 1 reading.rest = some split)
    (isLast : split.arguments.getLast? = some last)
    (filled : split.arguments.length = reading.value.arity) :
    expand false text =
      reading.value.apply (expand false (Definitions.strip last)).trim ++
        expand false split.rest := by
  rw [expand_of_anyUse found]
  split
  · next none => rw [splitting] at none; cases none
  · next parts isSplit =>
    obtain rfl : split = parts := Option.some.inj (splitting.symm.trans isSplit)
    rw [List.getLast?_eq_some_getLast (arguments_ne_nil splitting)] at isLast
    rw [if_pos filled, Option.some.inj isLast]

theorem expand_of_unfilled (unfilled : arityFrom 1 reading.rest ≠ some reading.value.arity) :
    expand false text = reading.used ++ expand false reading.rest := by
  rw [expand_of_anyUse found]
  split
  · rfl
  · next parts isSplit =>
    rw [if_neg]
    rwa [arityFrom, isSplit, Option.map_some, Ne, Option.some.injEq] at unfilled

end Use

/-- A text begins with a use as intended: a call with as many arguments as the macro takes. -/
structure Fills (text gap : Text) (reading : Reading MacroMeaning) (split : Split)
    (last before : Text) (bracket : CodePoint) : Prop where
  uses : Uses text reading gap
  splitting : splitFrom 1 reading.rest = some split
  closes : Closes 1 reading.rest split last before bracket
  filled : split.arguments.length = reading.value.arity

section Fills

variable {text gap last before : Text} {reading : Reading MacroMeaning} {split : Split}
  {bracket : CodePoint} (fills : Fills text gap reading split last before bracket)

include fills

theorem Fills.found : anyUse text = some reading := anyUse_eq_some_iff.2 ⟨gap, fills.uses⟩

/-- A use is cut into what opens it, its arguments and what is left. -/
theorem Fills.whole : text = reading.used ++ (before ++ last ++ [bracket]) ++ split.rest := by
  conv_lhs => rw [fills.uses.whole, fills.closes.whole]
  simp only [List.append_assoc, List.singleton_append]

theorem Fills.expand_eq : expand false text =
    reading.value.apply (expand false (Definitions.strip last)).trim ++
      expand false split.rest :=
  expand_of_filled fills.found fills.splitting fills.closes.isLast fills.filled

end Fills

/-- Expansion goes on from a code point where no use begins, from what opens a use that is not as
intended, and from one as intended both into its last argument and behind it. -/
theorem expand_induction {motive : Bool → Text → Prop} (nil : ∀ afterWord, motive afterWord [])
    (plain : ∀ afterWord point following, useAt afterWord (point :: following) = none →
      motive point.isWord following → motive afterWord (point :: following))
    (unfilled : ∀ text gap reading, Uses text reading gap →
      expand false text = reading.used ++ expand false reading.rest →
      arityFrom 1 reading.rest ≠ some reading.value.arity →
      motive false reading.rest → motive false text)
    (filled : ∀ text gap reading split last before bracket,
      Fills text gap reading split last before bracket →
      motive false (Definitions.strip last) → motive false split.rest → motive false text)
    (afterWord : Bool) (text : Text) : motive afterWord text := by
  have unfilledAt : ∀ {text reading}, anyUse text = some reading →
      arityFrom 1 reading.rest ≠ some reading.value.arity →
        motive false reading.rest → motive false text := by
    intro text reading found different rest
    obtain ⟨gap, uses⟩ := anyUse_eq_some_iff.1 found
    exact unfilled text gap reading uses (expand_of_unfilled found different) different rest
  fun_induction expand afterWord text with
  | case1 afterWord => exact nil afterWord
  | case2 afterWord point following found inductionHypothesis =>
    exact plain afterWord point following found inductionHypothesis
  | case3 afterWord point following reading found _ splitting inductionHypothesis =>
    obtain ⟨rfl, isUse⟩ := useAt_eq_some_iff.1 found
    refine unfilledAt isUse ?_ inductionHypothesis
    rw [arityFrom, splitting, Option.map_none]
    exact (Option.some_ne_none _).symm
  | case5 afterWord point following reading found _ split splitting different rest =>
    obtain ⟨rfl, isUse⟩ := useAt_eq_some_iff.1 found
    refine unfilledAt isUse ?_ rest
    rw [arityFrom, splitting]
    exact fun same => different (Option.some.inj same)
  | case4 afterWord point following reading found _ split splitting same argument inArgument
      inRest =>
    obtain ⟨rfl, isUse⟩ := useAt_eq_some_iff.1 found
    obtain ⟨gap, uses⟩ := anyUse_eq_some_iff.1 isUse
    obtain ⟨last, before, bracket, closes⟩ := exists_closes (Int.le_refl 1) splitting
    have isLast : argument = last := getLast_eq closes _
    exact filled _ gap reading split last before bracket ⟨uses, splitting, closes, same⟩
      (isLast ▸ inArgument) inRest

theorem outline_used {text gap : Text} {reading : Reading MacroMeaning}
    (uses : Uses text reading gap) {level : Int} (inside : 1 ≤ level)
    (same : ∀ level, 1 ≤ level →
      outline level (expand false reading.rest) = outline level reading.rest) :
    outline level (reading.used ++ expand false reading.rest) = outline level text := by
  have leads := leadsTo?_used uses level
  conv_rhs => rw [uses.whole, outline_append_of_leadsTo? leads]
  rw [outline_append_of_leadsTo? leads]
  exact same (level + 1) (by omega)

/-- Expansion changes nothing of what a call sees of a text. -/
theorem outline_expand (afterWord : Bool) (text : Text) {level : Int} (inside : 1 ≤ level) :
    outline level (expand afterWord text) = outline level text := by
  induction afterWord, text using expand_induction generalizing level with
  | nil => rw [expand]
  | plain afterWord point following none inductionHypothesis =>
    rw [expand_cons_of_none none]
    exact outline_cons_congr point inside fun _ positive => inductionHypothesis positive
  | unfilled text gap reading uses expanded _ inductionHypothesis =>
    rw [expanded]
    exact outline_used uses inside fun _ positive => inductionHypothesis positive
  | filled text gap reading split last before bracket fills inArgument inRest =>
    have expanded : Sealed (expand false (Definitions.strip last)) :=
      (congrArg Prod.fst (inArgument (Int.le_refl 1))).trans (sealed_strip fills.closes.isSealed)
    have replaced := (sealed_apply (sealed_trim expanded) reading.value).leadsTo? inside
    have taken := fills.closes.leadsTo? (leadsTo?_used fills.uses) inside
    rw [fills.expand_eq, outline_append_of_leadsTo? replaced, inRest inside]
    conv_rhs => rw [fills.whole, outline_append_of_leadsTo? taken]

theorem sealed_expand {text : Text} (isSealed : Sealed text) : Sealed (expand false text) :=
  (congrArg Prod.fst (outline_expand false text (Int.le_refl 1))).trans isSealed

theorem arityFrom_expand (afterWord : Bool) (text : Text) :
    arityFrom 1 (expand afterWord text) = arityFrom 1 text :=
  congrArg Prod.snd (outline_expand afterWord text (Int.le_refl 1))

/-! ### Settled texts -/

theorem isSettled_of_notMem {text : Text} (noName : leadingWord text ∉ names) : IsSettled text :=
  ⟨fun isName => absurd isName noName,
    fun _ found => absurd (leadingWord_mem_names found) noName⟩

theorem isSettled_of_beginsWord {text : Text} (wordless : beginsWord text = false) :
    IsSettled text := by
  refine isSettled_of_notMem ?_
  rw [leadingWord_of_beginsWord wordless]
  exact nil_notMem_names

/-- A settled text stays settled when something is taken off its end that neither goes on with a
word nor opens a call. -/
theorem IsSettled.of_append {text more : Text} (settled : IsSettled (text ++ more))
    (ends : beginsWord more = false) (closed : ¬Opens more) : IsSettled text := by
  refine ⟨settled.1.of_append ends closed, fun reading found filled => ?_⟩
  exact settled.2 _ (anyUse_append found more) (arityFrom_append_of_eq_some filled more)

/-- A sealed text stays settled before a text that does not go on with a word. -/
theorem IsSettled.append {before text more : Text} (settled : IsSettled text)
    (isSealed : Sealed (before ++ text)) (ends : beginsWord more = false) :
    IsSettled (text ++ more) := by
  have called : leadingWord text ∈ names → ∃ reading, anyUse text = some reading :=
    fun isName => Option.isSome_iff_exists.1 (settled.1 isName)
  constructor
  · intro isName
    rw [leadingWord_append_of_beginsWord text ends] at isName
    obtain ⟨reading, found⟩ := called isName
    rw [anyUse_append found more]
    rfl
  · intro longer found
    have isName := leadingWord_mem_names found
    rw [leadingWord_append_of_beginsWord text ends] at isName
    obtain ⟨reading, own⟩ := called isName
    rw [anyUse_append own more] at found
    cases found
    obtain ⟨gap, uses⟩ := anyUse_eq_some_iff.1 own
    obtain ⟨count, closed⟩ := Option.isSome_iff_exists.1
      (Sealed.isSome_arityFrom (uses.whole ▸ isSealed) (leadsTo?_used uses))
    have unfilled := settled.2 reading own
    rw [closed] at unfilled
    rwa [arityFrom_append_of_eq_some closed more]

theorem not_opens_of_blank {text : Text} (blank : ∀ point ∈ text, point.isBlank = true) :
    ¬Opens text := by
  rintro ⟨gap, rest, -, rfl⟩
  exact absurd (blank _ (List.mem_append_right _ List.mem_cons_self)) (by decide)

theorem not_opens_of_isClosing {bracket : CodePoint} (closing : isClosing bracket = true)
    (rest : Text) : ¬Opens (bracket :: rest) := by
  have brackets : ∀ bracket ∈ [(.scalar ')' : CodePoint), .scalar ']'],
      bracket ≠ .scalar '(' ∧ bracket.isBlank = false := by decide
  obtain ⟨different, notBlank⟩ := brackets bracket (by
    simpa [isClosing] using closing)
  rintro ⟨gap, others, blank, whole⟩
  cases gap with
  | nil => exact different (List.cons.inj whole).1
  | cons point gap =>
    rw [(List.cons.inj whole).1, blank point List.mem_cons_self] at notBlank
    cases notBlank

theorem beginsWord_of_isClosing {bracket : CodePoint} (closing : isClosing bracket = true)
    (rest : Text) : beginsWord (bracket :: rest) = false := by
  have brackets : ∀ bracket ∈ [(.scalar ')' : CodePoint), .scalar ']'], bracket.isWord = false := by
    decide
  exact brackets bracket (by simpa [isClosing] using closing)

theorem beginsWord_of_blank {text : Text} (blank : ∀ point ∈ text, point.isBlank = true) :
    beginsWord text = false := by
  cases text with
  | nil => rfl
  | cons point text => exact CodePoint.isWord_of_isBlank (blank point List.mem_cons_self)

/-- Trimming leaves a text settled. -/
theorem atWords_trim {text : Text} (settled : AtWords IsSettled false text) :
    AtWords IsSettled false text.trim := by
  obtain ⟨before, after, whole, blankBefore, blankAfter⟩ := exists_trim text
  rw [whole, List.append_assoc] at settled
  have start : endsWord false before = false := by
    unfold endsWord
    cases last : before.getLast? with
    | none => rfl
    | some point =>
      exact CodePoint.isWord_of_isBlank (blankBefore point (List.mem_of_getLast? last))
  have rest := settled.suffix
  rw [start] at rest
  exact rest.of_append fun part isSettled =>
    isSettled.of_append (beginsWord_of_blank blankAfter) (not_opens_of_blank blankAfter)

/-- A use that is not as intended may stand before a settled text. -/
theorem atWords_used {text gap rest : Text} {reading : Reading MacroMeaning}
    (uses : Uses text reading gap) (unfilled : arityFrom 1 rest ≠ some reading.value.arity)
    (settled : AtWords IsSettled false rest) (afterWord : Bool) :
    AtWords IsSettled afterWord (reading.used ++ rest) := by
  have found := anyUse_eq_some_iff.2 ⟨gap, uses.replace rest⟩
  have first : IsSettled (reading.used ++ rest) := by
    refine ⟨fun _ => by rw [found]; rfl, fun other isOther => ?_⟩
    rw [found] at isOther
    cases isOther
    exact unfilled
  have notWord : ∀ point ∈ gap, point.isWord = false :=
    fun point member => CodePoint.isWord_of_isBlank (uses.blank point member)
  have opened : AtWords IsSettled false (.scalar '(' :: rest) :=
    ⟨fun _ => isSettled_of_beginsWord (show CodePoint.isWord (.scalar '(') = false by decide),
      settled.weaken _⟩
  have afterGap := atWords_gap notWord (fun _ => isSettled_of_beginsWord) opened
  have all := isWord_of_mem_name uses.isMacro
  have whole : reading.used ++ rest = leadingWord text ++ (gap ++ .scalar '(' :: rest) := by
    rw [uses.used]
    simp only [List.append_assoc, List.singleton_append]
  rw [whole] at first ⊢
  cases word : leadingWord text with
  | nil =>
    have isName : leadingWord text ∈ names := List.mem_map_of_mem uses.isMacro
    rw [word] at isName
    exact absurd isName nil_notMem_names
  | cons point others =>
    rw [word] at first
    obtain ⟨isWord, allOthers⟩ := List.forall_mem_cons.1 (word ▸ all)
    refine ⟨fun _ => first, ?_⟩
    rw [isWord]
    exact atWords_word allOthers (afterGap.weaken true)

/-- What an argument of a macro means may stand before a settled text with which no word goes on. -/
theorem atWords_apply {argument rest : Text} (meaning : MacroMeaning)
    (settled : AtWords IsSettled false argument) (isSealed : Sealed argument)
    (restSettled : AtWords IsSettled false rest)
    (ends : meaning = .wrapper → beginsWord rest = false) :
    AtWords IsSettled false (meaning.apply argument ++ rest) := by
  have joined : ∀ {more : Text}, beginsWord more = false → AtWords IsSettled false more →
      AtWords IsSettled false (argument ++ more) := fun ends more =>
    settled.append
      (fun before part whole isSettled => isSettled.append (whole ▸ isSealed) ends) more
  have closed : AtWords IsSettled false (.scalar ')' :: rest) :=
    ⟨fun _ => isSettled_of_beginsWord (show CodePoint.isWord (.scalar ')') = false by decide),
      restSettled.weaken _⟩
  have inParentheses :
      AtWords IsSettled false (("(" : Text) ++ argument ++ (")" : Text) ++ rest) := by
    rw [List.append_assoc, List.append_assoc]
    refine ⟨fun _ =>
      isSettled_of_beginsWord (show CodePoint.isWord (.scalar '(') = false by decide),
      (joined ?_ closed).weaken _⟩
    exact show CodePoint.isWord (.scalar ')') = false by decide
  cases meaning with
  | wrapper => exact joined (ends rfl) restSettled
  | value | parenthesis => exact inParentheses

/-! ### Expansion settles a text -/

/-- Within a word nothing is expanded. -/
theorem leadingWord_expand (text : Text) : leadingWord (expand true text) = leadingWord text := by
  induction text with
  | nil => rw [expand]
  | cons point text inductionHypothesis =>
    have expanded : expand true (point :: text) = point :: expand point.isWord text :=
      expand_cons_of_none rfl
    rw [expanded, leadingWord, leadingWord, List.takeWhile_cons, List.takeWhile_cons]
    split
    · next isWord =>
      rw [isWord]
      exact congrArg _ inductionHypothesis
    · rfl

theorem leadingWord_cons_expand (point : CodePoint) (text : Text) :
    leadingWord (point :: expand point.isWord text) = leadingWord (point :: text) := by
  rw [leadingWord, leadingWord, List.takeWhile_cons, List.takeWhile_cons]
  split
  · next isWord =>
    rw [isWord]
    exact congrArg _ (leadingWord_expand text)
  · rfl

theorem beginsWord_expand {text : Text} (ends : beginsWord text = false) :
    beginsWord (expand false text) = false := by
  cases text with
  | nil => rw [expand]; rfl
  | cons point text =>
    have noUse : useAt false (point :: text) = none := anyUse_of_beginsWord ends
    rw [expand_cons_of_none noUse]
    exact ends

theorem endsWord_used {text gap : Text} {reading : Reading MacroMeaning}
    (uses : Uses text reading gap) (afterWord : Bool) :
    endsWord afterWord reading.used = false := by
  rw [uses.used, endsWord_concat]
  decide

theorem endsWord_used_append {text gap before : Text} {reading : Reading MacroMeaning}
    (uses : Uses text reading gap) (start : before ≠ [] → before.getLast? = some (.scalar ','))
    (afterWord : Bool) : endsWord afterWord (reading.used ++ before) = false := by
  by_cases empty : before = []
  · rw [empty, List.append_nil]
    exact endsWord_used uses afterWord
  · obtain ⟨others, whole⟩ := List.getLast?_eq_some_iff.1 (start empty)
    rw [whole, ← List.append_assoc, endsWord_concat]
    decide

section Cut

variable {holds : Text → Prop} {afterWord : Bool} {text gap last before : Text}
  {reading : Reading MacroMeaning} {split : Split} {bracket : CodePoint}

/-- What holds at the words of a use holds at those of its last argument. -/
theorem AtWords.argument (everywhere : AtWords holds afterWord text)
    (fills : Fills text gap reading split last before bracket)
    (cut : ∀ part, holds (part ++ bracket :: split.rest) → holds part) :
    AtWords holds false last := by
  have whole : text = (reading.used ++ before) ++ (last ++ bracket :: split.rest) := by
    conv_lhs => rw [fills.whole]
    simp only [List.append_assoc, List.singleton_append]
  rw [whole] at everywhere
  have rest := everywhere.suffix
  rw [endsWord_used_append fills.uses fills.closes.start] at rest
  exact rest.of_append cut

/-- What holds at the words of a use holds at those of what is left. -/
theorem AtWords.rest (everywhere : AtWords holds afterWord text)
    (fills : Fills text gap reading split last before bracket) :
    AtWords holds false split.rest := by
  rw [fills.whole] at everywhere
  have rest := everywhere.suffix
  have notWord : bracket.isWord = false := beginsWord_of_isClosing fills.closes.closing []
  rwa [← List.append_assoc, endsWord_concat, notWord] at rest

end Cut

/-- A use that is not as intended is settled if what follows it is. -/
theorem atWords_used_expand {afterWord : Bool} {text gap : Text} {reading : Reading MacroMeaning}
    (called : AtWords IsCalled afterWord text) (apart : AtWords IsApart afterWord text)
    (noBlock : ¬Definitions.block <:+: text) (uses : Uses text reading gap)
    (unfilled : arityFrom 1 reading.rest ≠ some reading.value.arity)
    (rest : AtWords IsCalled false reading.rest → AtWords IsApart false reading.rest →
      ¬Definitions.block <:+: reading.rest → AtWords IsSettled false (expand false reading.rest)) :
    AtWords IsSettled afterWord (reading.used ++ expand false reading.rest) := by
  rw [uses.whole] at called apart noBlock
  have calledRest := called.suffix
  have apartRest := apart.suffix
  rw [endsWord_used uses] at calledRest apartRest
  have noBlockRest : ¬Definitions.block <:+: reading.rest :=
    fun occurs => noBlock (occurs.trans (List.suffix_append _ _).isInfix)
  rw [← arityFrom_expand false] at unfilled
  exact atWords_used uses unfilled (rest calledRest apartRest noBlockRest) afterWord

/-- Where names stand before parentheses, wrappers apart from words, and no block of definitions is
left, an expanded text is settled. -/
theorem atWords_expand {afterWord : Bool} {text : Text}
    (called : AtWords IsCalled afterWord text) (apart : AtWords IsApart afterWord text)
    (noBlock : ¬Definitions.block <:+: text) :
    AtWords IsSettled afterWord (expand afterWord text) := by
  induction afterWord, text using expand_induction with
  | nil =>
    rw [expand]
    trivial
  | plain afterWord point following none inductionHypothesis =>
    have within : following <:+: point :: following := (List.suffix_cons point following).isInfix
    rw [expand_cons_of_none none]
    refine ⟨fun start => ?_,
      inductionHypothesis called.2 apart.2 fun occurs => noBlock (occurs.trans within)⟩
    subst start
    refine isSettled_of_notMem fun isName => ?_
    rw [leadingWord_cons_expand] at isName
    have isUse := called.1 rfl isName
    rw [show anyUse (point :: following) = .none from none] at isUse
    cases isUse
  | unfilled text gap reading uses expanded unfilled inductionHypothesis =>
    rw [expanded]
    exact atWords_used_expand called apart noBlock uses unfilled inductionHypothesis
  | filled text gap reading split last before bracket fills inArgument inRest =>
    have closing := fills.closes.closing
    have noBlockLast : ¬Definitions.block <:+: last := fun occurs => noBlock <| by
      rw [fills.whole]
      exact occurs.trans ⟨reading.used ++ before, [bracket] ++ split.rest, by simp⟩
    have noBlockRest : ¬Definitions.block <:+: split.rest := fun occurs => noBlock <| by
      rw [fills.whole]
      exact occurs.trans (List.suffix_append _ _).isInfix
    have unstripped : Definitions.strip last = last := by
      rw [Definitions.strip, Text.removeFirst_of_not_infix noBlockLast]
    have calledLast := called.argument fills fun part isCalled => isCalled.of_append
      (beginsWord_of_isClosing closing split.rest) (not_opens_of_isClosing closing split.rest)
    have apartLast := apart.argument fills fun part isApart => isApart.of_append
    rw [fills.expand_eq]
    rw [unstripped] at inArgument ⊢
    have settledLast := atWords_trim (inArgument calledLast apartLast noBlockLast)
    have settledRest := inRest (called.rest fills) (apart.rest fills) noBlockRest
    refine atWords_apply reading.value settledLast
      (sealed_trim (sealed_expand fills.closes.isSealed)) settledRest fun isWrapper =>
        beginsWord_expand ?_
    have alone : split.arguments.length = 1 := by
      rw [fills.filled, isWrapper]
      rfl
    exact apart.here fills.found reading fills.found isWrapper split fills.splitting alone

/-! ### Settled texts are not simplified further -/

theorem expand_of_settled {afterWord : Bool} {text : Text}
    (settled : AtWords IsSettled afterWord text) : expand afterWord text = text := by
  induction afterWord, text using expand_induction with
  | nil => rw [expand]
  | plain afterWord point following none inductionHypothesis =>
    rw [expand_cons_of_none none, inductionHypothesis settled.2]
  | unfilled text gap reading uses expanded _ inductionHypothesis =>
    have rest : AtWords IsSettled false (reading.used ++ reading.rest) := uses.whole ▸ settled
    have suffix := rest.suffix
    rw [endsWord_used uses] at suffix
    rw [expanded, inductionHypothesis suffix, ← uses.whole]
  | filled text gap reading split last before bracket fills =>
    refine absurd ?_ ((settled.here fills.found).2 reading fills.found)
    rw [arityFrom, fills.splitting, Option.map_some, fills.filled]

/-- A settled text holds no block of definitions, since that uses a macro as intended. -/
theorem not_block_of_settled {text : Text} (settled : AtWords IsSettled false text) :
    ¬Definitions.block <:+: text := by
  rintro ⟨before, after, whole⟩
  have cut : Definitions.block = Definitions.block.take 24 ++ [.scalar ' '] ++
      (("_GLF_ZERO(X, Y)" : Text) ++ Definitions.block.drop 40) := by decide +kernel
  have rest : text = before ++ Definitions.block.take 24 ++ [.scalar ' '] ++
      (("_GLF_ZERO(X, Y)" : Text) ++ (Definitions.block.drop 40 ++ after)) := by
    conv_lhs => rw [← whole, cut]
    simp only [List.append_assoc]
  rw [rest] at settled
  have within := settled.suffix
  rw [endsWord_concat] at within
  have here : IsSettled (("_GLF_ZERO(X, Y)" : Text) ++ (Definitions.block.drop 40 ++ after)) :=
    within.1 (by decide)
  have found : anyUse ("_GLF_ZERO(X, Y)" : Text) =
      some ⟨.value, ("_GLF_ZERO(" : Text), ("X, Y)" : Text)⟩ := rfl
  have closed : arityFrom 1 ("X, Y)" : Text) = some 2 := rfl
  exact here.2 _ (anyUse_append found _) (arityFrom_append_of_eq_some closed _)

/-- Simplifying a text twice is the same as doing it once, if each name of a macro that is left with
the first block of definitions taken out stands before a parenthesis, no wrapper that is replaced is
directly followed by a word, and no block is left. The simplified text then has no macro that is
used as intended, no name of one alone, and no block. -/
theorem simplify_simplify {text : Text}
    (called : AtWords IsCalled false (Definitions.strip text))
    (apart : AtWords IsApart false (Definitions.strip text))
    (noBlock : ¬Definitions.block <:+: Definitions.strip text) :
    AtWords IsSettled false (simplify text) ∧ ¬Definitions.block <:+: simplify text ∧
      simplify (simplify text) = simplify text := by
  have settled : AtWords IsSettled false (simplify text) := atWords_expand called apart noBlock
  have unblocked := not_block_of_settled settled
  refine ⟨settled, unblocked, ?_⟩
  rw [simplify, Definitions.strip, Text.removeFirst_of_not_infix unblocked]
  exact expand_of_settled settled

/-- Uses within uses, one of them with an argument too many, and a bracket that is not closed. -/
def nestedUses : Text :=
  "x = _GLF_IDENTITY(a, _GLF_SWITCH(m[i, _GLF_ZERO(b)])) + _GLF_DEAD(c, d);\n_GLF_FUZZED (("

theorem simplify_simplify_nestedUses :
    AtWords IsCalled false (Definitions.strip nestedUses) ∧
      AtWords IsApart false (Definitions.strip nestedUses) ∧
      ¬Definitions.block <:+: Definitions.strip nestedUses ∧
      AtWords IsSettled false (simplify nestedUses) ∧ ¬Definitions.block <:+: simplify nestedUses ∧
      simplify (simplify nestedUses) = simplify nestedUses := by
  have called : AtWords IsCalled false (Definitions.strip nestedUses) := by decide +kernel
  have apart : AtWords IsApart false (Definitions.strip nestedUses) := by decide +kernel
  have noBlock : ¬Definitions.block <:+: Definitions.strip nestedUses := by decide +kernel
  exact ⟨called, apart, noBlock, simplify_simplify called apart noBlock⟩

/-- A wrapper that is replaced by the name of a macro brings that before a parenthesis. -/
theorem simplify_simplify_ne_switchedName :
    simplify (simplify "_GLF_SWITCH(_GLF_DEAD)(x)") ≠ simplify "_GLF_SWITCH(_GLF_DEAD)(x)" := by
  decide +kernel

end Macro

end ShaderReduction
