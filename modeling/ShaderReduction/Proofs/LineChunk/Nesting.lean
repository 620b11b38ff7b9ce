/-
This file proves what it means that braces are balanced, and when a part of a text may go without
harm to the rest.

A text is nested when it opens as many braces as it closes and no beginning of it closes more than
it opens. That is said of the text, while the plan counts the depth line by line; the two agree,
since no line break is a brace. A nested part may be taken out of a nested text. A part of a nested
text is itself nested if what stands before it rises by nothing and what stands after it does not
fall, and this is how a chunk that reaches over the end of a shader is cut at that end.
-/

import Mathlib.Data.List.Basic
import Mathlib.Data.List.Count
import ShaderReduction.LineChunk
import ShaderReduction.Proofs.Lines

namespace ShaderReduction

namespace LineChunk

/-! ### Braces -/

/-- How many braces a text opens more than it closes. -/
def rise (text : Text) : Int :=
  (text.count (.scalar '\x7b') : Int) - text.count (.scalar '\x7d')

theorem rise_nil : rise [] = 0 := rfl

theorem rise_append (left right : Text) : rise (left ++ right) = rise left + rise right := by
  unfold rise
  rw [List.count_append, List.count_append]
  omega

theorem rise_cons (point : CodePoint) (text : Text) :
    rise (point :: text) = rise [point] + rise text := rise_append [point] text

theorem rise_opening : rise [.scalar '\x7b'] = 1 := by decide

theorem rise_closing : rise [.scalar '\x7d'] = -1 := by decide

theorem rise_other {point : CodePoint} (notOpening : point ≠ .scalar '\x7b')
    (notClosing : point ≠ .scalar '\x7d') : rise [point] = 0 := by
  simp [rise, notOpening, notClosing]

/-- From a depth on, no beginning of a text closes a brace that is not open. -/
def Unfallen (depth : Int) (text : Text) : Prop := ∀ start, start <+: text → 0 ≤ depth + rise start

theorem unfallen_nil_iff (depth : Int) : Unfallen depth [] ↔ 0 ≤ depth := by
  simp [Unfallen, rise_nil]

theorem Unfallen.nonneg {depth : Int} {text : Text} (unfallen : Unfallen depth text) :
    0 ≤ depth := by
  have := unfallen [] List.nil_prefix
  rwa [rise_nil, Int.add_zero] at this

theorem unfallen_append_iff (depth : Int) (left right : Text) :
    Unfallen depth (left ++ right) ↔ Unfallen depth left ∧ Unfallen (depth + rise left) right := by
  constructor
  · refine fun unfallen => ⟨fun start among => ?_, fun start among => ?_⟩
    · exact unfallen start (among.trans (List.prefix_append _ _))
    · rw [Int.add_assoc, ← rise_append]
      exact unfallen _ ((List.prefix_append_right_inj left).2 among)
  · rintro ⟨first, second⟩ start ⟨rest, whole⟩
    rcases List.append_eq_append_iff.1 whole with ⟨more, rfl, rfl⟩ | ⟨more, rfl, rfl⟩
    · exact first start (List.prefix_append _ _)
    · rw [rise_append, ← Int.add_assoc]
      exact second more (List.prefix_append _ _)

theorem unfallen_cons_iff (depth : Int) (point : CodePoint) (text : Text) :
    Unfallen depth (point :: text) ↔ 0 ≤ depth ∧ Unfallen (depth + rise [point]) text := by
  rw [← List.singleton_append, unfallen_append_iff]
  refine and_congr_left fun rest => ⟨Unfallen.nonneg, fun nonneg start among => ?_⟩
  rcases List.prefix_cons_iff.1 among with rfl | ⟨tail, rfl, tailAmong⟩
  · rwa [rise_nil, Int.add_zero]
  · rw [List.prefix_nil.1 tailAmong]
    exact rest.nonneg

/-- Every brace that a text closes was opened before, and every one that it opens is closed. -/
structure Nested (text : Text) : Prop where
  level : rise text = 0
  unfallen : Unfallen 0 text

/-! ### Parts of nested texts -/

theorem nested_nil : Nested [] := ⟨rise_nil, (unfallen_nil_iff 0).2 (Int.le_refl 0)⟩

theorem Nested.append {left right : Text} (first : Nested left) (second : Nested right) :
    Nested (left ++ right) where
  level := by rw [rise_append, first.level, second.level, Int.add_zero]
  unfallen := (unfallen_append_iff 0 left right).2
    ⟨first.unfallen, by rw [first.level, Int.add_zero]; exact second.unfallen⟩

theorem nested_flatMap {Item : Type} {items : List Item} {part : Item → Text}
    (nested : ∀ item ∈ items, Nested (part item)) : Nested (items.flatMap part) := by
  induction items with
  | nil => exact nested_nil
  | cons item items inductionHypothesis =>
    rw [List.flatMap_cons]
    exact (nested item List.mem_cons_self).append
      (inductionHypothesis fun other member => nested other (List.mem_cons_of_mem _ member))

/-- A nested text stands nowhere lower than at its beginning. -/
theorem Nested.rise_left_nonneg {left right : Text} (nested : Nested (left ++ right)) :
    0 ≤ rise left := by
  have := nested.unfallen left (List.prefix_append _ _)
  rwa [Int.zero_add] at this

/-- A nested text stands nowhere lower than at its end. -/
theorem Nested.rise_right_nonpos {left right : Text} (nested : Nested (left ++ right)) :
    rise right ≤ 0 := by
  have level := nested.level
  have before := nested.rise_left_nonneg
  rw [rise_append] at level
  omega

/-- What is left of a nested text without a nested part is nested. -/
theorem Nested.remove {left middle right : Text} (nested : Nested (left ++ middle ++ right))
    (part : Nested middle) : Nested (left ++ right) := by
  obtain ⟨level, unfallen⟩ := nested
  rw [rise_append, rise_append, part.level, Int.add_zero] at level
  rw [unfallen_append_iff, unfallen_append_iff, rise_append, part.level, Int.add_zero] at unfallen
  exact ⟨by rw [rise_append, level], (unfallen_append_iff 0 left right).2
    ⟨unfallen.1.1, unfallen.2⟩⟩

/-- A part of a nested text is nested if the text does not rise before it and does not fall after
it. -/
theorem Nested.middle {left middle right : Text} (nested : Nested (left ++ middle ++ right))
    (before : rise left ≤ 0) (after : 0 ≤ rise right) : Nested middle := by
  obtain ⟨level, unfallen⟩ := nested
  rw [rise_append, rise_append] at level
  rw [unfallen_append_iff, unfallen_append_iff] at unfallen
  obtain ⟨⟨-, inside⟩, beyond⟩ := unfallen
  have start := inside.nonneg
  have stop := beyond.nonneg
  rw [rise_append] at stop
  have flat : rise left = 0 := by omega
  rw [flat, Int.add_zero] at inside
  exact ⟨by omega, inside⟩

/-! ### Only braces count -/

/-- Whether a code point is a brace. -/
def isBrace (point : CodePoint) : Bool := point == .scalar '\x7b' || point == .scalar '\x7d'

theorem rise_filter (text : Text) : rise (text.filter isBrace) = rise text := by
  unfold rise
  rw [List.count_filter (by decide), List.count_filter (by decide)]

theorem nested_filter_iff (text : Text) : Nested (text.filter isBrace) ↔ Nested text := by
  constructor
  · refine fun nested => ⟨by rw [← rise_filter, nested.level], fun start among => ?_⟩
    rw [← rise_filter]
    exact nested.unfallen _ (among.filter isBrace)
  · refine fun nested => ⟨by rw [rise_filter, nested.level], fun start among => ?_⟩
    obtain ⟨whole, wholeAmong, rfl⟩ := List.prefix_filter_iff.1 among
    rw [rise_filter]
    exact nested.unfallen _ wholeAmong

/-- Texts with the same braces in the same order are nested together. -/
theorem nested_iff_of_filter_eq {left right : Text}
    (same : left.filter isBrace = right.filter isBrace) : Nested left ↔ Nested right := by
  rw [← nested_filter_iff left, same, nested_filter_iff]

theorem isBrace_of_isLineBreak {point : CodePoint} (breaks : point.isLineBreak = true) :
    isBrace point = false := by
  rw [isBrace, Bool.or_eq_false_iff, beq_eq_false_iff_ne, beq_eq_false_iff_ne]
  constructor <;> (rintro rfl; revert breaks; decide)

theorem filter_isBrace_joinWith (lines : List Text) :
    (Text.joinWith "\n" lines).filter isBrace = lines.flatten.filter isBrace := by
  fun_induction Text.joinWith "\n" lines with
  | case1 => rfl
  | case2 line => rw [List.flatten_singleton]
  | case3 line next more inductionHypothesis =>
    have separator : ("\n" : Text).filter isBrace = [] := by decide
    rw [List.flatten_cons, List.filter_append, List.filter_append, List.filter_append, separator,
      List.append_nil, inductionHypothesis]

theorem filter_isBrace_flatten_lines (text : Text) :
    text.lines.flatten.filter isBrace = text.filter isBrace := by
  have ends : ∀ cut ∈ text.cutLines, (cut.1 ++ cut.2).filter isBrace = cut.1.filter isBrace := by
    intro cut member
    have none : cut.2.filter isBrace = [] := List.filter_eq_nil_iff.2 fun point inEnding => by
      rw [isBrace_of_isLineBreak (Text.isLineBreak_of_mem_ending member point inEnding)]
      decide
    rw [List.filter_append, none, List.append_nil]
  calc text.lines.flatten.filter isBrace
      = text.cutLines.flatMap fun cut => cut.1.filter isBrace := by
        rw [Text.lines, ← List.flatMap_def, List.filter_flatMap]
    _ = text.cutLines.flatMap fun cut => (cut.1 ++ cut.2).filter isBrace :=
        (List.flatMap_congr ends).symm
    _ = text.filter isBrace := by
        rw [← List.filter_flatMap]
        exact congrArg _ (Text.joinLines_cutLines text)

/-- A text is nested if and only if its lines in a row are. -/
theorem nested_flatten_lines_iff (text : Text) : Nested text.lines.flatten ↔ Nested text :=
  nested_iff_of_filter_eq (filter_isBrace_flatten_lines text)

/-- A shader that is put together again is nested if and only if its lines in a row are. -/
theorem nested_keepLines_iff (shader : Shader) (lines : List Text) :
    Nested (keepLines shader lines).text ↔ Nested lines.flatten := by
  refine nested_iff_of_filter_eq ?_
  have closing : ("\n" : Text).filter isBrace = [] := by decide
  unfold keepLines
  dsimp only
  split
  · rw [List.filter_append, closing, List.append_nil, filter_isBrace_joinWith]
  · exact filter_isBrace_joinWith lines

/-! ### What the plan checks -/

/-- The depth after a line is counted as long as no brace is closed that is not open. -/
theorem depthAfter?_eq_some_iff (depth final : Nat) (line : Text) :
    depthAfter? depth line = some final ↔
      Unfallen depth line ∧ (final : Int) = depth + rise line := by
  -- A depth is counted over a line if it is over the rest, from where the first point leads to.
  have step : ∀ (point : CodePoint) (line : Text) (before after : Nat),
      (after : Int) = before + rise [point] →
        (Unfallen after line ∧ (final : Int) = after + rise line ↔
          Unfallen before (point :: line) ∧ (final : Int) = before + rise (point :: line)) := by
    intro point line before after led
    rw [unfallen_cons_iff, rise_cons point line, ← Int.add_assoc, ← led]
    have nonneg : (0 : Int) ≤ before := Int.natCast_nonneg before
    simp only [nonneg, true_and]
  induction line generalizing depth with
  | nil =>
    rw [depthAfter?, Option.some.injEq, unfallen_nil_iff, rise_nil]
    omega
  | cons point line inductionHypothesis =>
    rw [depthAfter?.eq_def]
    dsimp only
    by_cases opening : point = .scalar '\x7b'
    · subst opening
      rw [if_pos rfl]
      exact (inductionHypothesis (depth + 1)).trans
        (step _ line depth (depth + 1) (by rw [rise_opening]; omega))
    · by_cases closing : point = .scalar '\x7d'
      · subst closing
        rw [if_neg opening, if_pos rfl]
        cases depth with
        | zero =>
          refine ⟨(nomatch ·), fun ⟨unfallen, _⟩ => ?_⟩
          have below := ((unfallen_cons_iff _ _ _).1 unfallen).2.nonneg
          rw [rise_closing] at below
          omega
        | succ depth =>
          exact (inductionHypothesis depth).trans
            (step _ line (depth + 1) depth (by rw [rise_closing]; omega))
      · rw [if_neg opening, if_neg closing]
        exact (inductionHypothesis depth).trans
          (step point line depth depth (by rw [rise_other opening closing]; omega))

theorem nested_iff_depthAfter? (text : Text) : Nested text ↔ depthAfter? 0 text = some 0 := by
  rw [depthAfter?_eq_some_iff, Int.natCast_zero, Int.zero_add]
  exact ⟨fun nested => ⟨nested.unfallen, nested.level.symm⟩,
    fun ⟨unfallen, level⟩ => ⟨level.symm, unfallen⟩⟩

instance (text : Text) : Decidable (Nested text) :=
  decidable_of_iff _ (nested_iff_depthAfter? text).symm

theorem removableAt_iff (depth : Nat) (lines : List Text) :
    removableAt depth lines = true ↔
      (∀ line ∈ lines, Definitions.isVersionLine line = false) ∧
        Unfallen depth lines.flatten ∧ depth + rise lines.flatten = 0 := by
  induction lines generalizing depth with
  | nil =>
    rw [removableAt, List.flatten_nil, unfallen_nil_iff, rise_nil, beq_iff_eq]
    simp only [List.not_mem_nil, false_implies, implies_true, true_and]
    omega
  | cons line lines inductionHypothesis =>
    rw [removableAt, List.forall_mem_cons, List.flatten_cons, unfallen_append_iff, rise_append]
    cases version : Definitions.isVersionLine line with
    | true => simp
    | false =>
      rw [if_neg Bool.false_ne_true]
      simp only [true_and]
      cases counted : depthAfter? depth line with
      | none =>
        constructor
        · intro impossible
          cases impossible
        · rintro ⟨-, ⟨unfallen, rest⟩, -⟩
          have reached := (depthAfter?_eq_some_iff depth (depth + rise line).toNat line).2
            ⟨unfallen, Int.toNat_of_nonneg rest.nonneg⟩
          rw [counted] at reached
          cases reached
      | some final =>
        obtain ⟨unfallen, led⟩ := (depthAfter?_eq_some_iff depth final line).1 counted
        simp only [inductionHypothesis, ← Int.add_assoc, led, unfallen, true_and]

/-- A chunk may go if and only if it has no version line and is nested. -/
theorem removable_iff (chunk : List Text) :
    removable chunk = true ↔
      (∀ line ∈ chunk, Definitions.isVersionLine line = false) ∧ Nested chunk.flatten := by
  rw [removable, removableAt_iff]
  rw [Int.natCast_zero, Int.zero_add]
  refine and_congr_right fun _ => ?_
  constructor
  · rintro ⟨unfallen, level⟩
    exact ⟨level, unfallen⟩
  · rintro ⟨level, unfallen⟩
    exact ⟨unfallen, level⟩

end LineChunk

end ShaderReduction
