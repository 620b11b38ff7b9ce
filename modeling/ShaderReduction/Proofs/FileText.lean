/-
This file proves which texts come back from a file as they were written.

A text that was read from a file is made of characters and has line feeds for all its line ends.
Such a text has an encoding, and reading it again changes nothing. The block of macro definitions is
taken out of a text that is read, but it begins with a line of its own, so it is in no text of which
no line holds the words that it begins with.
-/

import Mathlib.Data.List.Infix
import ShaderReduction.Definitions
import ShaderReduction.Proofs.Lines
import ShaderReduction.Text.Utf8

namespace ShaderReduction

namespace Text

/-! ### Texts of files -/

/-- A text is as one that was read from a file. -/
def IsRead (text : Text) : Prop :=
  ∀ point ∈ text, (∃ character, point = .scalar character) ∧ point ≠ .scalar '\r'

theorem IsRead.mono {text part : Text} (isRead : IsRead text) (within : part ⊆ text) :
    IsRead part := fun point member => isRead point (within member)

theorem IsRead.append {text more : Text} (isRead : IsRead text) (moreIsRead : IsRead more) :
    IsRead (text ++ more) := fun point member =>
  (List.mem_append.1 member).elim (isRead point) (moreIsRead point)

theorem isRead_lineFeed : IsRead "\n" := by
  intro point member
  rw [List.mem_singleton.1 member]
  exact ⟨⟨_, rfl⟩, by decide⟩

theorem IsRead.joinWith {texts : List Text} (areRead : ∀ text ∈ texts, IsRead text) :
    IsRead (joinWith "\n" texts) := by
  fun_induction Text.joinWith "\n" texts with
  | case1 => exact fun _ member => absurd member List.not_mem_nil
  | case2 text => exact areRead text List.mem_cons_self
  | case3 text next texts inductionHypothesis =>
    obtain ⟨first, rest⟩ := List.forall_mem_cons.1 areRead
    exact (first.append isRead_lineFeed).append (inductionHypothesis rest)

theorem isRead_nil : IsRead [] := fun _ member => absurd member List.not_mem_nil

theorem isRead_ofString {string : String} (noReturn : '\r' ∉ string.toList) :
    IsRead (ofString string) := by
  intro point member
  obtain ⟨character, within, rfl⟩ := List.mem_map.1 member
  refine ⟨⟨character, rfl⟩, fun same => noReturn ?_⟩
  rwa [← CodePoint.scalar.inj same]

/-- A text can be stored in a file. -/
def IsEncodable (text : Text) : Prop := ∃ content, Utf8.encode? text = some content

/-- A text can be stored if no half of a surrogate pair stands alone in it. -/
theorem isEncodable_iff {text : Text} :
    IsEncodable text ↔ ∀ point ∈ text, ∃ character, point = .scalar character := by
  have characters : IsEncodable text ↔ ∃ characters, Utf8.characters? text = some characters := by
    simp only [IsEncodable, Utf8.encode?, Option.map_eq_some_iff]
    constructor
    · rintro ⟨_, found, isFound, -⟩
      exact ⟨found, isFound⟩
    · rintro ⟨found, isFound⟩
      exact ⟨_, found, isFound, rfl⟩
  rw [characters]
  constructor
  · rintro ⟨characters, found⟩ point member
    rw [← Utf8.map_scalar_of_characters? found] at member
    obtain ⟨character, -, rfl⟩ := List.mem_map.1 member
    exact ⟨character, rfl⟩
  · intro scalar
    clear characters
    induction text with
    | nil => exact ⟨[], rfl⟩
    | cons point text inductionHypothesis =>
      obtain ⟨⟨character, rfl⟩, rest⟩ := List.forall_mem_cons.1 scalar
      obtain ⟨characters, found⟩ := inductionHypothesis rest
      exact ⟨character :: characters, by rw [Utf8.characters?, found, Option.map_some]⟩

theorem IsRead.isEncodable {text : Text} (isRead : IsRead text) : IsEncodable text :=
  isEncodable_iff.2 fun point member => (isRead point member).1

theorem normalizeLineEnds_of_notMem {text : Text} (noReturn : .scalar '\r' ∉ text) :
    normalizeLineEnds text = text := by
  fun_induction normalizeLineEnds text with
  | case1 => rfl
  | case2 rest => exact absurd List.mem_cons_self noReturn
  | case3 rest => exact absurd List.mem_cons_self noReturn
  | case4 point rest _ _ inductionHypothesis =>
    rw [inductionHypothesis fun member => noReturn (List.mem_cons_of_mem _ member)]

theorem normalizeLineEnds_of_isRead {text : Text} (isRead : IsRead text) :
    normalizeLineEnds text = text :=
  normalizeLineEnds_of_notMem fun member => (isRead _ member).2 rfl

theorem notMem_normalizeLineEnds (text : Text) : .scalar '\r' ∉ normalizeLineEnds text := by
  fun_induction normalizeLineEnds text with
  | case1 => exact List.not_mem_nil
  | case2 rest inductionHypothesis | case3 rest _ inductionHypothesis =>
    exact fun member => (List.mem_cons.1 member).elim (by decide) inductionHypothesis
  | case4 point rest _ notReturn inductionHypothesis =>
    exact fun member => (List.mem_cons.1 member).elim (fun same => notReturn same.symm)
      inductionHypothesis

/-- Only a text without carriage returns comes back from a file as it was. -/
theorem normalizeLineEnds_eq_iff {text : Text} :
    normalizeLineEnds text = text ↔ .scalar '\r' ∉ text := by
  refine ⟨fun same => ?_, normalizeLineEnds_of_notMem⟩
  rw [← same]
  exact notMem_normalizeLineEnds text

theorem isRead_normalizeLineEnds {text : Text}
    (scalar : ∀ point ∈ text, ∃ character, point = .scalar character) :
    IsRead (normalizeLineEnds text) := by
  fun_induction normalizeLineEnds text with
  | case1 => exact fun _ member => absurd member List.not_mem_nil
  | case2 rest inductionHypothesis =>
    have rest := inductionHypothesis fun point member =>
      scalar point (List.mem_cons_of_mem _ (List.mem_cons_of_mem _ member))
    exact isRead_lineFeed.append rest
  | case3 rest _ inductionHypothesis =>
    have rest := inductionHypothesis fun point member =>
      scalar point (List.mem_cons_of_mem _ member)
    exact isRead_lineFeed.append rest
  | case4 point rest _ notReturn inductionHypothesis =>
    have rest := inductionHypothesis fun point member =>
      scalar point (List.mem_cons_of_mem _ member)
    exact List.forall_mem_cons.2 ⟨⟨scalar point List.mem_cons_self, notReturn⟩, rest⟩

theorem scalar_of_decode? {content : Bytes} {text : Text}
    (decoded : Utf8.decode? content = some text) :
    ∀ point ∈ text, ∃ character, point = .scalar character := by
  obtain ⟨characters, -, rfl⟩ := Option.map_eq_some_iff.1 decoded
  intro point member
  obtain ⟨character, -, rfl⟩ := List.mem_map.1 member
  exact ⟨character, rfl⟩

/-! ### Words within a line -/

theorem isLineBreak_of_begins {word rest : Text} {point : CodePoint} (unbroken : Unbroken word)
    (nonempty : word ≠ []) (begins : word <+: point :: rest) : point.isLineBreak = false := by
  obtain ⟨first, others, rfl⟩ := List.exists_cons_of_ne_nil nonempty
  obtain ⟨rfl, -⟩ := List.cons_prefix_cons.1 begins
  exact unbroken first List.mem_cons_self

/-- A word without breaks at the start of a text is at the start of its first line. -/
theorem exists_cutLines_of_begins {word text : Text} (unbroken : Unbroken word)
    (nonempty : word ≠ []) (begins : word <+: text) :
    ∃ line ending more, cutLines text = (line, ending) :: more ∧ word <+: line := by
  fun_induction cutLines text generalizing word with
  | case1 => exact absurd (List.prefix_nil.1 begins) nonempty
  | case2 rest =>
    have unbrokenReturn := isLineBreak_of_begins unbroken nonempty begins
    rw [isLineBreak_carriageReturn] at unbrokenReturn
    cases unbrokenReturn
  | case3 point rest _ isBreak =>
    rw [isLineBreak_of_begins unbroken nonempty begins] at isBreak
    cases isBreak
  | case4 point rest _ _ empty _ =>
    have nothing : rest = [] := by
      rw [← joinLines_cutLines rest, empty]
      rfl
    exact ⟨[point], [], [], rfl, nothing ▸ begins⟩
  | case5 point rest _ _ line ending more cut inductionHypothesis =>
    refine ⟨point :: line, ending, more, rfl, ?_⟩
    obtain ⟨first, others, rfl⟩ := List.exists_cons_of_ne_nil nonempty
    obtain ⟨rfl, later⟩ := List.cons_prefix_cons.1 begins
    refine List.cons_prefix_cons.2 ⟨rfl, ?_⟩
    by_cases alone : others = []
    · rw [alone]
      exact List.nil_prefix
    · obtain ⟨_, _, _, found, begins⟩ := inductionHypothesis
        (fun other member => unbroken other (List.mem_cons_of_mem _ member)) alone later
      cases cut.symm.trans found
      exact begins

theorem exists_line_of_mem_lines_tail (text : Text) {line : Text}
    (member : line ∈ lines text.tail) :
    ∃ longer ∈ lines text, line <:+: longer := by
  unfold lines at member ⊢
  fun_cases cutLines text with
  | case1 => exact absurd member List.not_mem_nil
  | case2 rest =>
    have fed : cutLines (.scalar '\n' :: rest) = ([], [.scalar '\n']) :: cutLines rest :=
      cutLines_unbroken_append (fun _ member => absurd member List.not_mem_nil) rest
    rw [List.tail_cons, fed] at member
    exact ⟨line, member, List.infix_rfl⟩
  | case3 => exact ⟨line, List.mem_cons_of_mem _ member, List.infix_rfl⟩
  | case4 point rest _ _ empty =>
    rw [List.tail_cons, empty] at member
    cases member
  | case5 point rest _ _ first ending more cut =>
    rw [List.tail_cons, cut] at member
    rcases List.mem_cons.1 member with rfl | later
    · exact ⟨_, List.mem_cons_self, (List.suffix_cons point _).isInfix⟩
    · exact ⟨line, List.mem_cons_of_mem _ later, List.infix_rfl⟩

/-- A word without breaks that occurs in a text occurs in a line of it. -/
theorem exists_line_of_infix {word text : Text} (unbroken : Unbroken word) (nonempty : word ≠ [])
    (occurs : word <:+: text) : ∃ line ∈ lines text, word <:+: line := by
  induction text with
  | nil => exact absurd (List.infix_nil.1 occurs) nonempty
  | cons point text inductionHypothesis =>
    rcases List.infix_cons_iff.1 occurs with begins | later
    · obtain ⟨line, ending, more, cut, begins⟩ :=
        exists_cutLines_of_begins unbroken nonempty begins
      refine ⟨line, ?_, begins.isInfix⟩
      rw [lines, cut]
      exact List.mem_cons_self
    · obtain ⟨line, member, within⟩ := inductionHypothesis later
      obtain ⟨longer, longerMember, wider⟩ := exists_line_of_mem_lines_tail (point :: text) member
      exact ⟨longer, longerMember, within.trans wider⟩

/-! ### Taking a word out -/

theorem removeFirst_sublist (word text : Text) : (removeFirst word text).Sublist text := by
  induction text with
  | nil => exact List.Sublist.slnil
  | cons point text inductionHypothesis =>
    unfold removeFirst
    split
    · next rest found =>
      rw [eq_append_of_dropWord? found]
      exact List.sublist_append_right word rest
    · exact inductionHypothesis.cons_cons point

theorem removeFirst_of_not_infix {word text : Text} (absent : ¬word <:+: text) :
    removeFirst word text = text := by
  induction text with
  | nil => rfl
  | cons point text inductionHypothesis =>
    unfold removeFirst
    split
    · next rest found =>
      exact absurd ⟨[], rest, (eq_append_of_dropWord? found).symm⟩ absent
    · rw [inductionHypothesis fun later =>
        absent (later.trans (List.suffix_cons point text).isInfix)]

/-- A word that occurs is taken out where it first stands. -/
theorem exists_removeFirst_of_infix {word text : Text} (occurs : word <:+: text) :
    ∃ before after, text = before ++ word ++ after ∧ removeFirst word text = before ++ after := by
  induction text with
  | nil =>
    obtain rfl := List.infix_nil.1 occurs
    exact ⟨[], [], rfl, rfl⟩
  | cons point text inductionHypothesis =>
    unfold removeFirst
    split
    · next rest found => exact ⟨[], rest, eq_append_of_dropWord? found, rfl⟩
    · next absent =>
      rcases List.infix_cons_iff.1 occurs with ⟨rest, begins⟩ | later
      · rw [← begins, dropWord?_append] at absent
        cases absent
      · obtain ⟨before, after, whole, removed⟩ := inductionHypothesis later
        exact ⟨point :: before, after, congrArg _ whole, congrArg _ removed⟩

end Text

namespace Definitions

open Text

/-- The words that the block of macro definitions begins with. -/
def guardWords : Text := "#ifndef REDUCER"

/-- The lines of a text hold no beginning of a block. -/
def Unguarded (lines : List Text) : Prop := ∀ line ∈ lines, ¬guardWords <:+: line

theorem guardWords_prefix_block : guardWords <+: block := by
  unfold block
  rw [List.flatMap_cons]
  exact List.IsPrefix.trans (by decide) (List.prefix_append _ _)

/-- A text without the beginning of a block is not changed when it is read. -/
theorem strip_of_unguarded {text : Text} (unguarded : Unguarded text.lines) :
    strip text = text := by
  have unbroken : Unbroken guardWords := by
    unfold Unbroken
    decide
  refine removeFirst_of_not_infix fun occurs => ?_
  obtain ⟨line, member, within⟩ := exists_line_of_infix unbroken (by decide)
    (guardWords_prefix_block.isInfix.trans occurs)
  exact unguarded line member within

/-! ### Putting the block in -/

theorem isRead_block : IsRead block := by
  intro point member
  obtain ⟨line, isLine, within⟩ := List.mem_flatMap.1 member
  refine isRead_ofString ?_ point within
  clear within
  revert line
  decide +kernel

theorem mem_of_insertAfterVersion? {lines : List (Text × Text)} {text : Text} {point : CodePoint}
    (inserted : insertAfterVersion? lines = some text) (member : point ∈ text) :
    point ∈ joinLines lines ∨ point ∈ block ∨ point = .scalar '\n' := by
  induction lines generalizing text with
  | nil => cases inserted
  | cons line lines inductionHypothesis =>
    obtain ⟨line, ending⟩ := line
    have whole : joinLines ((line, ending) :: lines) = line ++ ending ++ joinLines lines := rfl
    rw [whole]
    unfold insertAfterVersion? at inserted
    split at inserted
    · cases inserted
      unfold completed at member
      split at member <;> simp only [List.mem_append, List.mem_singleton] at member ⊢ <;> tauto
    · obtain ⟨rest, found, rfl⟩ := Option.map_eq_some_iff.1 inserted
      rcases List.mem_append.1 member with here | later
      · exact .inl (List.mem_append_left _ here)
      · exact (inductionHypothesis found later).imp_left (List.mem_append_right _)

/-- A text with the block in it is made of the text, the block and perhaps a line feed. -/
theorem mem_of_mem_insert {text : Text} {point : CodePoint} (member : point ∈ insert text) :
    point ∈ text ∨ point ∈ block ∨ point = .scalar '\n' := by
  unfold insert at member
  cases inserted : insertAfterVersion? text.cutLines with
  | none =>
    rw [inserted, Option.getD_none] at member
    exact (List.mem_append.1 member).elim (.inr ∘ .inl) .inl
  | some result =>
    rw [inserted, Option.getD_some] at member
    have parts := mem_of_insertAfterVersion? inserted member
    rwa [joinLines_cutLines] at parts

/-- A text that is put away with no new carriage return comes back exactly if it has none itself and
taking the block out of what was put away gives it. -/
theorem strip_normalizeLineEnds_eq_iff {text stored : Text}
    (within : .scalar '\r' ∈ stored → .scalar '\r' ∈ text) :
    strip stored.normalizeLineEnds = text ↔ .scalar '\r' ∉ text ∧ strip stored = text := by
  constructor
  · intro same
    have noReturn : .scalar '\r' ∉ text := fun member =>
      notMem_normalizeLineEnds stored ((removeFirst_sublist _ _).mem (same ▸ member))
    rw [normalizeLineEnds_of_notMem fun member => noReturn (within member)] at same
    exact ⟨noReturn, same⟩
  · rintro ⟨noReturn, same⟩
    rw [normalizeLineEnds_of_notMem fun member => noReturn (within member), same]

end Definitions

end ShaderReduction
