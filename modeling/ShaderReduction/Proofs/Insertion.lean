/-
This file proves for which texts taking out the block of macro definitions undoes putting it in.

The block is put behind the first version line and taken out where it first stands. No ending of the
block is a beginning of it, so the block cannot stand across the place at which it is put in, and
what is taken out first is the block that was put in unless one stands before it. A version line
that a line feed does not end is given one, which stays. A block before the end of the version line
does not stand at that end, so taking it out in place of the other one gives another text.
-/

import Mathlib.Data.List.TakeWhile
import ShaderReduction.Proofs.FileText

namespace ShaderReduction

namespace Text

/-! ### Lines with their ends -/

/-- The lines of a text, each with the break that ends it. -/
def closedLines (text : Text) : List Text := text.cutLines.map fun line => line.1 ++ line.2

theorem flatten_closedLines (text : Text) : text.closedLines.flatten = text := by
  rw [closedLines, ← List.flatMap_def]
  exact joinLines_cutLines text

theorem isBlank_of_isLineBreak {point : CodePoint} (isBreak : point.isLineBreak = true) :
    point.isBlank = true := by
  have all : ∀ place ∈ [0xA, 0xB, 0xC, 0xD, 0x1C, 0x1D, 0x1E, 0x85, 0x2028, 0x2029],
      CharacterClass.within CharacterClass.blankRanges place = true := by decide
  exact all _ (List.contains_iff_mem.1 isBreak)

/-- A line and its end: no break is in the line, and nothing else in the end. -/
structure IsLine (line ending : Text) : Prop where
  unbroken : Unbroken line
  breaks : ∀ point ∈ ending, point.isLineBreak = true

theorem isLine_of_mem_cutLines {text line ending : Text}
    (member : (line, ending) ∈ cutLines text) : IsLine line ending :=
  ⟨unbroken_of_mem_cutLines member, isLineBreak_of_mem_ending member⟩

section IsLine

variable {line ending : Text} (isLine : IsLine line ending)

include isLine

/-- Only breaks follow a break in a line. -/
theorem IsLine.isLineBreak_of_mem {front back : Text} {point : CodePoint}
    (whole : line ++ ending = front ++ point :: back) (isBreak : point.isLineBreak = true) :
    ∀ other ∈ back, other.isLineBreak = true := by
  have notInLine : ∀ more, line ≠ front ++ point :: more := by
    rintro more rfl
    have unbroken := isLine.unbroken point (List.mem_append_right _ List.mem_cons_self)
    rw [isBreak] at unbroken
    cases unbroken
  rcases List.append_eq_append_iff.1 whole with ⟨more, rfl, same⟩ | ⟨more, rfl, same⟩
  · exact fun other member => isLine.breaks other
      (same ▸ List.mem_append_right _ (List.mem_cons_of_mem _ member))
  · cases more with
    | nil =>
      rw [List.nil_append] at same
      exact fun other member => isLine.breaks other (same ▸ List.mem_cons_of_mem _ member)
    | cons first more =>
      obtain ⟨rfl, -⟩ := List.cons.inj same
      exact absurd rfl (notInLine more)

theorem IsLine.ends_iff :
    (line ++ ending).getLast? = some (.scalar '\n') ↔ ending.getLast? = some (.scalar '\n') := by
  cases ending with
  | nil =>
    have notFeed : line.getLast? ≠ some (.scalar '\n') := fun last => by
      have unbroken := isLine.unbroken _ (List.mem_of_getLast? last)
      rw [isLineBreak_lineFeed] at unbroken
      cases unbroken
    rw [List.append_nil]
    exact ⟨fun last => absurd last notFeed, fun impossible => nomatch impossible⟩
  | cons point ending => rw [List.getLast?_append_cons]

end IsLine

/-! ### Where a word stands first -/

/-- No ending of a word but the word itself is a beginning of it. -/
def Unbordered (word : Text) : Prop :=
  ∀ ending, ending ≠ [] → ending <:+ word → ending <+: word → ending = word

/-- A word that occurs in the front of a text is taken out there. -/
theorem removeFirst_append_of_occurs {word front : Text} (occurs : word <:+: front)
    (nonempty : word ≠ []) (rest : Text) :
    removeFirst word (front ++ rest) = removeFirst word front ++ rest := by
  induction front with
  | nil => exact absurd (List.infix_nil.1 occurs) nonempty
  | cons point front inductionHypothesis =>
    by_cases begins : word <+: point :: front
    · obtain ⟨more, whole⟩ := begins
      have here := dropWord?_append word more
      have there := dropWord?_append word (more ++ rest)
      rw [whole] at here
      rw [← List.append_assoc, whole] at there
      rw [List.cons_append] at there ⊢
      rw [removeFirst, there, removeFirst, here]
    · have absent : ∀ longer, word <+: point :: front ++ longer → word <+: point :: front :=
        fun longer found => List.prefix_of_prefix_length_le found (List.prefix_append _ _)
          occurs.length_le
      have refuses : ∀ longer, dropWord? word (point :: (front ++ longer)) = none := by
        intro longer
        cases found : dropWord? word (point :: (front ++ longer)) with
        | none => rfl
        | some more =>
          exact absurd (absent longer ⟨more, (eq_append_of_dropWord? found).symm⟩) begins
      have here := refuses []
      rw [List.append_nil] at here
      rw [List.cons_append, removeFirst, refuses rest, removeFirst, here]
      dsimp only
      rw [inductionHypothesis ((List.infix_cons_iff.1 occurs).resolve_left begins),
        List.cons_append]

/-- A word that occurs in no part before the place at which it was put is taken out there. -/
theorem removeFirst_append_of_unbordered {word front : Text} (unbordered : Unbordered word)
    (nonempty : word ≠ []) (absent : ¬word <:+: front) (rest : Text) :
    removeFirst word (front ++ (word ++ rest)) = front ++ rest := by
  induction front with
  | nil =>
    obtain ⟨point, others, rfl⟩ := List.exists_cons_of_ne_nil nonempty
    have found := dropWord?_append (point :: others) rest
    rw [List.cons_append] at found
    rw [List.nil_append, List.nil_append, List.cons_append, removeFirst, found]
  | cons point front inductionHypothesis =>
    have absentLater : ¬word <:+: front := fun occurs =>
      absent (occurs.trans (List.suffix_cons point front).isInfix)
    cases found : dropWord? word (point :: (front ++ (word ++ rest))) with
    | none =>
      rw [List.cons_append, removeFirst, found]
      dsimp only
      rw [inductionHypothesis absentLater, List.cons_append]
    | some more =>
      -- The word would stand across the place, and what is of it behind the place is a border.
      exfalso
      have begins : word <+: point :: front ++ (word ++ rest) :=
        ⟨more, (eq_append_of_dropWord? found).symm⟩
      rcases List.prefix_or_prefix_of_prefix begins (List.prefix_append _ _) with
        within | ⟨ending, whole⟩
      · exact absent within.isInfix
      · have behind : ending <+: word ++ rest := by
          refine (List.prefix_append_right_inj (point :: front)).1 ?_
          rwa [whole]
        have isSuffix : ending <:+ word := ⟨point :: front, whole⟩
        have isPrefix : ending <+: word :=
          List.prefix_of_prefix_length_le behind (List.prefix_append _ _) isSuffix.length_le
        have notEmpty : ending ≠ [] := by
          rintro rfl
          rw [List.append_nil] at whole
          exact absent (whole ▸ List.infix_rfl)
        have same := congrArg List.length (unbordered ending notEmpty isSuffix isPrefix)
        rw [← whole, List.length_append, List.length_cons] at same
        omega

end Text

namespace Definitions

open Text

/-! ### The block -/

theorem block_ne_nil : block ≠ [] := by decide +kernel

theorem unbordered_block : Unbordered block := by
  have all : ∀ ending ∈ block.tail.tails, ending ≠ [] → ¬ending <+: block := by decide +kernel
  rintro ending nonempty ⟨front, whole⟩ isPrefix
  cases front with
  | nil => exact whole
  | cons point front =>
    have within : ending ∈ block.tail.tails := by
      rw [List.mem_tails, ← whole]
      exact List.suffix_append front ending
    exact absurd isPrefix (all ending within nonempty)

/-! ### Version lines -/

theorem startsWith_iff {text word : Text} : text.startsWith word = true ↔ word <+: text := by
  rw [startsWith, Option.isSome_iff_exists]
  exact exists_congr fun rest => dropWord?_eq_some_iff.trans eq_comm

/-- Whether a line states the version does not depend on its end. -/
theorem isVersionLine_append {line ending : Text} (isLine : IsLine line ending) :
    isVersionLine (line ++ ending) = isVersionLine line := by
  have blank : ∀ point ∈ ending, point.isBlank = true := fun point member =>
    isBlank_of_isLineBreak (isLine.breaks point member)
  have unbroken : Unbroken ("#version" : Text) := by
    unfold Unbroken
    decide
  unfold isVersionLine trimStart
  rw [Bool.eq_iff_iff, startsWith_iff, startsWith_iff, List.dropWhile_append]
  split
  · next allBlank =>
    rw [List.isEmpty_iff.1 allBlank, List.dropWhile_eq_nil_iff.2 blank]
  · refine ⟨fun begins => ?_, fun begins => begins.trans (List.prefix_append _ _)⟩
    rcases List.prefix_or_prefix_of_prefix begins (List.prefix_append _ ending) with
      within | ⟨more, whole⟩
    · exact within
    · rw [← whole] at begins
      have later := (List.prefix_append_right_inj _).1 begins
      cases more with
      | nil => rw [← whole, List.append_nil]
      | cons point more =>
        have isBreak := isLine.breaks point (later.subset List.mem_cons_self)
        have isUnbroken := unbroken point
          (whole ▸ List.mem_append_right _ List.mem_cons_self)
        rw [isBreak] at isUnbroken
        cases isUnbroken

/-- The block does not end in a version line. -/
theorem not_block_suffix {line ending : Text} (isLine : IsLine line ending)
    (isVersion : isVersionLine line = true) (front : Text) :
    ¬block <:+ front ++ (line ++ ending) := by
  intro isSuffix
  have last : (.scalar '\n' :: ("#endif\n" : Text)) <:+ front ++ (line ++ ending) :=
    List.IsSuffix.trans (by decide +kernel) isSuffix
  have long : 8 ≤ line.length :=
    (startsWith_iff.1 isVersion).length_le.trans (List.dropWhile_suffix _).length_le
  obtain ⟨before, whole⟩ := List.suffix_of_suffix_length_le last (List.suffix_append _ _) (by
    rw [List.length_append]
    exact Nat.le_trans long (Nat.le_add_right _ _))
  have isBreak :=
    isLine.isLineBreak_of_mem whole.symm isLineBreak_lineFeed (.scalar '#') (by decide)
  exact absurd isBreak (by decide)

/-! ### Putting the block in and taking it out -/

theorem insertAfterVersion?_of_unversioned {lines : List (Text × Text)}
    (unversioned : ∀ line ∈ lines, isVersionLine line.1 = false) :
    insertAfterVersion? lines = none := by
  induction lines with
  | nil => rfl
  | cons line lines inductionHypothesis =>
    obtain ⟨first, others⟩ := List.forall_mem_cons.1 unversioned
    rw [insertAfterVersion?, if_neg (Bool.not_eq_true _ ▸ first), inductionHypothesis others]
    rfl

theorem insertAfterVersion?_of_versioned {before after : List (Text × Text)} {line ending : Text}
    (unversioned : ∀ line ∈ before, isVersionLine line.1 = false)
    (isVersion : isVersionLine line = true) :
    insertAfterVersion? (before ++ (line, ending) :: after) =
      some (joinLines before ++ (completed line ending ++ (block ++ joinLines after))) := by
  induction before with
  | nil =>
    rw [List.nil_append, insertAfterVersion?, if_pos isVersion, List.append_assoc]
    rfl
  | cons first before inductionHypothesis =>
    obtain ⟨isFirst, others⟩ := List.forall_mem_cons.1 unversioned
    rw [List.cons_append, insertAfterVersion?, if_neg (Bool.not_eq_true _ ▸ isFirst),
      inductionHypothesis others, Option.map_some, ← List.append_assoc]
    rfl

section Versioned

variable {front line ending rest : Text}

/-- Behind a version line that a line feed does not end, another text is left. -/
theorem strip_ne_of_open (isOpen : ending.getLast? ≠ some (.scalar '\n')) :
    strip (front ++ (completed line ending ++ (block ++ rest))) ≠
      front ++ (line ++ ending ++ rest) := by
  have occurs : block <:+: front ++ (completed line ending ++ (block ++ rest)) :=
    ⟨front ++ completed line ending, rest, by simp only [List.append_assoc]⟩
  obtain ⟨before, after, whole, stripped⟩ := exists_removeFirst_of_infix occurs
  intro same
  have lengths := congrArg List.length whole
  have equal := congrArg List.length (stripped.symm.trans same)
  rw [completed, if_neg isOpen] at lengths
  simp only [List.length_append, List.length_singleton] at lengths equal
  omega

/-- Behind a version line that a line feed ends, the text is left if no block stands before, and
only then. -/
theorem strip_eq_iff_of_closed (isLine : IsLine line ending) (isVersion : isVersionLine line = true)
    (isClosed : ending.getLast? = some (.scalar '\n')) :
    strip (front ++ (completed line ending ++ (block ++ rest))) =
        front ++ (line ++ ending ++ rest) ↔
      ¬block <:+: front ++ (line ++ ending) := by
  rw [completed, if_pos isClosed, strip, ← List.append_assoc, ← List.append_assoc front _ rest]
  refine ⟨fun same occurs => ?_, fun absent =>
    removeFirst_append_of_unbordered unbordered_block block_ne_nil absent rest⟩
  rw [removeFirst_append_of_occurs occurs block_ne_nil] at same
  obtain ⟨before, after, whole, removed⟩ := exists_removeFirst_of_infix occurs
  rw [removed, whole, ← List.append_assoc] at same
  have ends : before ++ after ++ block = before ++ block ++ after := List.append_cancel_right same
  exact not_block_suffix isLine isVersion front ⟨before ++ after, ends.trans whole.symm⟩

end Versioned

/-! ### The first version line -/

section First

variable {lines before after : List Text} {line : Text}
  (unversioned : ∀ line ∈ before, isVersionLine line = false)
  (isVersion : isVersionLine line = true)

include unversioned isVersion

theorem takeWhile_unversioned :
    (before ++ line :: after).takeWhile (fun line => !isVersionLine line) = before := by
  rw [List.takeWhile_append_of_pos fun line member => by rw [unversioned line member]; rfl,
    List.takeWhile_cons_of_neg (by rw [isVersion]; decide), List.append_nil]

/-- What is said of the first version line, if there is one, is said of the line that is. -/
theorem unversioned_or_exists_iff (whole : lines = before ++ line :: after)
    (holds : List Text → Text → Prop) :
    ((∀ line ∈ lines, isVersionLine line = false) ∨
      ∃ others other rest, lines = others ++ other :: rest ∧
        (∀ line ∈ others, isVersionLine line = false) ∧ isVersionLine other = true ∧
        holds others other) ↔ holds before line := by
  constructor
  · rintro (none | ⟨others, other, rest, same, othersUnversioned, otherIsVersion, said⟩)
    · have notVersion := none line (whole ▸ List.mem_append_right _ List.mem_cons_self)
      rw [isVersion] at notVersion
      cases notVersion
    · rw [whole] at same
      have fronts := congrArg (List.takeWhile fun line => !isVersionLine line) same
      rw [takeWhile_unversioned unversioned isVersion,
        takeWhile_unversioned othersUnversioned otherIsVersion] at fronts
      subst fronts
      rwa [(List.cons.inj (List.append_cancel_left same)).1]
  · exact fun said => .inr ⟨before, line, after, whole, unversioned, isVersion, said⟩

end First

/-- The block is put to the front of a text without a version line, and behind the first one of a
text that has any. -/
theorem unversioned_or_exists (text : Text) :
    ((∀ line ∈ text.closedLines, isVersionLine line = false) ∧ insert text = block ++ text) ∨
      ∃ before line ending after, text.closedLines = before ++ (line ++ ending) :: after ∧
        IsLine line ending ∧ isVersionLine line = true ∧
        (∀ other ∈ before, isVersionLine other = false) ∧
        insert text = before.flatten ++ (completed line ending ++ (block ++ after.flatten)) := by
  have closed : ∀ lines ⊆ text.cutLines, (∀ line ∈ lines, isVersionLine line.1 = false) →
      ∀ line ∈ lines.map fun line => line.1 ++ line.2, isVersionLine line = false := by
    rintro lines within unversioned _ among
    obtain ⟨line, member, rfl⟩ := List.mem_map.1 among
    rw [isVersionLine_append (isLine_of_mem_cutLines (within member))]
    exact unversioned line member
  cases found : text.cutLines.find? fun line => isVersionLine line.1 with
  | none =>
    have unversioned : ∀ line ∈ text.cutLines, isVersionLine line.1 = false :=
      fun line member => Bool.eq_false_iff.2 (List.find?_eq_none.1 found line member)
    refine .inl ⟨closed _ (List.Subset.refl _) unversioned, ?_⟩
    rw [insert, insertAfterVersion?_of_unversioned unversioned, Option.getD_none]
  | some first =>
    obtain ⟨line, ending⟩ := first
    obtain ⟨isVersion, before, after, cut, notBefore⟩ := List.find?_eq_some_iff_append.1 found
    have unversioned : ∀ line ∈ before, isVersionLine line.1 = false := fun line among =>
      Bool.not_eq_true' _ ▸ notBefore line among
    refine .inr ⟨before.map fun line => line.1 ++ line.2, line, ending,
      after.map fun line => line.1 ++ line.2, ?_, ?_, isVersion, ?_, ?_⟩
    · rw [closedLines, cut, List.map_append, List.map_cons]
    · exact isLine_of_mem_cutLines (cut ▸ List.mem_append_right _ List.mem_cons_self)
    · exact closed before (cut ▸ List.subset_append_left _ _) unversioned
    · rw [insert, cut, insertAfterVersion?_of_versioned unversioned isVersion, Option.getD_some,
        ← List.flatMap_def, ← List.flatMap_def]
      rfl

/-- Taking the block out undoes putting it in exactly for texts without a version line and those
whose first version line ends with a line feed and has no block before its end. -/
theorem strip_insert_eq_iff (text : Text) :
    strip (insert text) = text ↔
      (∀ line ∈ text.closedLines, isVersionLine line = false) ∨
        ∃ before line after, text.closedLines = before ++ line :: after ∧
          (∀ other ∈ before, isVersionLine other = false) ∧ isVersionLine line = true ∧
          line.getLast? = some (.scalar '\n') ∧ ¬block <:+: before.flatten ++ line := by
  rcases unversioned_or_exists text with ⟨unversioned, inserted⟩ |
    ⟨before, line, ending, after, closed, isLine, isVersion, unversioned, inserted⟩
  · refine iff_of_true ?_ (.inl unversioned)
    rw [inserted]
    exact removeFirst_append_of_unbordered unbordered_block block_ne_nil
      (fun occurs => block_ne_nil (List.infix_nil.1 occurs)) text
  · have closedIsVersion := (isVersionLine_append isLine).trans isVersion
    have whole : text = before.flatten ++ (line ++ ending ++ after.flatten) := by
      rw [← flatten_closedLines text, closed, List.flatten_append, List.flatten_cons]
    rw [unversioned_or_exists_iff unversioned closedIsVersion closed fun before line =>
      line.getLast? = some (.scalar '\n') ∧ ¬block <:+: before.flatten ++ line]
    rw [isLine.ends_iff, inserted]
    conv_lhs => rhs; rw [whole]
    by_cases isClosed : ending.getLast? = some (.scalar '\n')
    · rw [strip_eq_iff_of_closed isLine isVersion isClosed, and_iff_right isClosed]
    · exact iff_of_false (strip_ne_of_open isClosed) fun both => isClosed both.1

end Definitions

end ShaderReduction
