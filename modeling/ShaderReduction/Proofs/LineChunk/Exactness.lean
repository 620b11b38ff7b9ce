/-
This file proves what a candidate of the plan lacks besides its chunk.

A shader is put together again from those of its lines that stay, joined by line feeds. Two things
are lost on the way. The breaks between the lines are: a text in which another break than a line
feed stands comes back changed, even if all of its lines stay. And where the text was left open, an
empty line at its end is, because nothing closes it any more. Nothing else is lost, so both can be
said by an equivalence: the candidate has the lines outside the chunk if and only if no shader is
open with an empty line at its end, and a shader without a line in the chunk is kept if and only if
only line feeds break its lines.

Numbered lines in ascending order are known from the lines with each number, which brings the lines
of a whole job down to those of one shader.
-/

import ShaderReduction.Proofs.LineChunk.Candidates
import ShaderReduction.Proofs.LineChunk.Shape
import ShaderReduction.Proofs.LineFeeds

namespace ShaderReduction

namespace Text

/-! ### Texts from their lines -/

/-- A text is closed if it ends in a line feed. -/
def Closed (text : Text) : Prop := text.getLast? = some (.scalar '\n')

instance : DecidablePred Closed := fun text =>
  inferInstanceAs (Decidable (text.getLast? = some (.scalar '\n')))

/-- Only line feeds break the lines of a text. -/
def BrokenByFeeds (text : Text) : Prop :=
  ∀ point ∈ text, point.isLineBreak = true → point = .scalar '\n'

instance : DecidablePred BrokenByFeeds := fun text =>
  inferInstanceAs (Decidable (∀ point ∈ text, point.isLineBreak = true → point = .scalar '\n'))

theorem withoutEmptyEnd_eq_self_iff (texts : List Text) :
    withoutEmptyEnd texts = texts ↔ texts.getLast? ≠ some [] := by
  fun_induction withoutEmptyEnd texts with
  | case1 => simp
  | case2 => simp
  | case3 line nonempty => simp [nonempty]
  | case4 line next more inductionHypothesis =>
    rw [List.getLast?_cons_cons, List.cons.injEq, and_iff_right rfl, inductionHypothesis]

theorem closed_append_feed (text : Text) : Closed (text ++ [.scalar '\n']) := by
  rw [Closed, List.getLast?_concat]

theorem closed_cons_iff {line rest : Text} (nonempty : rest ≠ []) :
    Closed (line ++ .scalar '\n' :: rest) ↔ Closed rest := by
  rw [Closed, Closed, List.getLast?_append, List.getLast?_cons]
  simp [List.getLast?_eq_some_getLast nonempty]

theorem lines_eq_nil_iff (text : Text) : lines text = [] ↔ text = [] := by
  refine ⟨fun none => ?_, fun empty => empty ▸ rfl⟩
  have whole := joinLines_cutLines text
  rw [List.map_eq_nil_iff.1 none] at whole
  exact whole.symm

/-- The text that lines make up, closed or not. -/
def closing (closed : Prop) [Decidable closed] (texts : List Text) : Text :=
  if closed then joinWith "\n" texts ++ ("\n" : Text) else joinWith "\n" texts

theorem closing_cons {closed : Prop} [Decidable closed] (line : Text) {texts : List Text}
    (more : texts ≠ []) :
    closing closed (line :: texts) = line ++ .scalar '\n' :: closing closed texts := by
  obtain ⟨next, rest, rfl⟩ := List.exists_cons_of_ne_nil more
  unfold closing
  split <;> simp [joinWith, ofString]

/-- A text that only line feeds break is what its lines make up, closed as it was. -/
theorem closing_lines {text : Text} (feedsOnly : FeedsOnly text) :
    closing (Closed text) text.lines = text := by
  induction feedsOnly with
  | nil => rfl
  | @last line unbroken nonempty =>
    have left : ¬Closed line := fun closed =>
      unbroken.notMem_lineFeed (List.mem_of_getLast? closed)
    rw [closing, if_neg left, lines_unbroken unbroken nonempty]
    rfl
  | @next line rest unbroken feedsOnly inductionHypothesis =>
    rw [lines_unbroken_append unbroken]
    by_cases empty : rest = []
    · subst empty
      rw [closing, if_pos (closed_append_feed line)]
      rfl
    · simp only [closed_cons_iff empty]
      rw [closing_cons line (mt (lines_eq_nil_iff rest).1 empty), inductionHypothesis]

theorem brokenByFeeds_closing {closed : Prop} [Decidable closed] {texts : List Text}
    (unbroken : ∀ line ∈ texts, Unbroken line) : BrokenByFeeds (closing closed texts) := by
  have joined := feedsOnly_joinWith unbroken
  unfold closing
  split
  · refine fun point member => (List.mem_append.1 member).elim (joined point) fun feed _ => ?_
    exact List.mem_singleton.1 feed
  · exact joined

/-- The lines of a text make it up again if and only if only line feeds break it. -/
theorem closing_lines_iff (text : Text) :
    closing (Closed text) text.lines = text ↔ BrokenByFeeds text :=
  ⟨fun same => same ▸ brokenByFeeds_closing fun _ => unbroken_of_mem_lines,
    fun feeds => closing_lines (feedsOnly_of_breaks feeds)⟩

end Text

namespace LineChunk

open ShaderReduction.Text

/-! ### Numbered lines from the lines of each shader -/

theorem linesAt_cons (index : Nat) (line : Nat × Text) (lines : List (Nat × Text)) :
    linesAt index (line :: lines) =
      if line.1 = index then line.2 :: linesAt index lines else linesAt index lines := by
  simp only [linesAt, List.filter_cons, decide_eq_true_eq]
  split <;> rfl

theorem linesAt_eq_nil {lines : List (Nat × Text)} {index : Nat}
    (others : ∀ line ∈ lines, line.1 ≠ index) : linesAt index lines = [] := by
  rw [linesAt, List.map_eq_nil_iff, List.filter_eq_nil_iff]
  exact fun line member same => others line member (of_decide_eq_true same)

/-- The number of the first line is the least of all. -/
theorem linesAt_eq_nil_of_lt {line : Nat × Text} {lines : List (Nat × Text)}
    (ordered : Ordered (line :: lines)) {index : Nat} (below : index < line.1) :
    linesAt index (line :: lines) = [] := by
  refine linesAt_eq_nil fun other member => Nat.ne_of_gt ?_
  rcases List.mem_cons.1 member with rfl | later
  · exact below
  · exact Nat.lt_of_lt_of_le below ((List.pairwise_cons.1 ordered).1 other later)

/-- Numbered lines in ascending order are known from the lines with each number. -/
theorem eq_iff_linesAt {left right : List (Nat × Text)} (leftOrdered : Ordered left)
    (rightOrdered : Ordered right) :
    left = right ↔ ∀ index, linesAt index left = linesAt index right := by
  refine ⟨fun same index => same ▸ rfl, fun same => ?_⟩
  induction left generalizing right with
  | nil =>
    cases right with
    | nil => rfl
    | cons line lines =>
      have here := same line.1
      rw [linesAt_cons, if_pos rfl] at here
      cases here
  | cons line left inductionHypothesis =>
    cases right with
    | nil =>
      have here := same line.1
      rw [linesAt_cons, if_pos rfl] at here
      cases here
    | cons other right =>
      have notBelow : ¬line.1 < other.1 := fun below => by
        have here := same line.1
        rw [linesAt_eq_nil_of_lt rightOrdered below, linesAt_cons, if_pos rfl] at here
        cases here
      have notAbove : ¬other.1 < line.1 := fun above => by
        have here := same other.1
        rw [linesAt_eq_nil_of_lt leftOrdered above, linesAt_cons, if_pos rfl] at here
        cases here
      have number : line.1 = other.1 := by omega
      have texts := same line.1
      rw [linesAt_cons, linesAt_cons, if_pos rfl, if_pos number.symm, List.cons.injEq] at texts
      obtain rfl : line = other := Prod.ext number texts.1
      refine congrArg (line :: ·) (inductionHypothesis leftOrdered.of_cons rightOrdered.of_cons ?_)
      intro index
      have rest := same index
      rw [linesAt_cons, linesAt_cons] at rest
      split at rest
      · exact (List.cons.inj rest).2
      · exact rest

/-- The flattened lines with the number of a shader are the lines of that shader. -/
theorem linesAt_flatten (job : Job) (index : Nat) :
    linesAt index (flatten job) = (job.shaders[index]?.map Shader.lines).getD [] := by
  cases found : job.shaders[index]? with
  | some shader => exact linesAt_numbered (List.mk_mem_zipIdx_iff_getElem?.2 found)
  | none =>
    refine linesAt_eq_nil fun line member same => ?_
    obtain ⟨⟨shader, number⟩, entry, lineMember⟩ := List.mem_flatMap.1 member
    obtain ⟨text, -, rfl⟩ := List.mem_map.1 lineMember
    obtain rfl : number = index := same
    rw [List.mk_mem_zipIdx_iff_getElem?, found] at entry
    cases entry

/-! ### The lines of a candidate -/

section Removal

variable {job : Job} {start stop : Int} {index : Nat} {shader : Shader}

/-- Lines come back as they are from a shader that is put together of them: its text is closed, or
the last line is not empty. -/
def Whole (shader : Shader) (kept : List Text) : Prop :=
  Closed shader.text ∨ kept.getLast? ≠ some []

instance (shader : Shader) (kept : List Text) : Decidable (Whole shader kept) :=
  inferInstanceAs (Decidable (_ ∨ _))

theorem text_keepLines (shader : Shader) (kept : List Text) :
    (keepLines shader kept).text = closing (kept ≠ [] ∧ Closed shader.text) kept := by
  refine if_congr ?_ rfl rfl
  simp [Closed]

theorem lines_keepLines_eq_iff {kept : List Text}
    (unbroken : ∀ line ∈ kept, Unbroken line) :
    (keepLines shader kept).lines = kept ↔ Whole shader kept := by
  rw [Shader.lines, text_keepLines, Whole]
  by_cases empty : kept = []
  · simp [empty, closing, joinWith, Text.lines, cutLines]
  · by_cases closed : Closed shader.text
    · simp only [closing, closed, empty, lines_joinWith_append unbroken empty, ne_eq,
        not_false_eq_true, and_self, if_true, true_or]
    · simp only [closing, closed, and_false, if_false, false_or, lines_joinWith unbroken,
        withoutEmptyEnd_eq_self_iff]

theorem getElem?_shaders_remove (job : Job) (start stop : Int) (index : Nat) :
    (remove job start stop).shaders[index]? =
      job.shaders[index]?.map fun shader => keepLines shader (staying job start stop index) := by
  simp only [remove, Job.withShaders, List.getElem?_map, List.getElem?_zipIdx, Option.map_map,
    Nat.zero_add]
  rfl

theorem staying_sublist (job : Job) (start stop : Int) (index : Nat) :
    (staying job start stop index).Sublist (linesAt index (flatten job)) :=
  ((outside_sublist start stop (flatten job)).filter _).map _

/-- The lines outside the chunk are those of the candidate if and only if those of each shader come
back as they are. -/
theorem flatten_remove_eq_outside_iff :
    flatten (remove job start stop) = outside start stop (flatten job) ↔
      ∀ index shader, job.shaders[index]? = some shader →
        Whole shader (staying job start stop index) := by
  have outsideOrdered : Ordered (outside start stop (flatten job)) :=
    (ordered_numbered 0 job.shaders).sublist (outside_sublist start stop _)
  refine (eq_iff_linesAt (ordered_numbered 0 _) outsideOrdered).trans ?_
  refine forall_congr' fun index => ?_
  change linesAt index (flatten (remove job start stop)) = staying job start stop index ↔ _
  rw [linesAt_flatten, getElem?_shaders_remove]
  cases found : job.shaders[index]? with
  | none =>
    have none := staying_sublist job start stop index
    rw [linesAt_flatten, found] at none
    simp [List.sublist_nil.1 none]
  | some shader =>
    simp only [Option.map_some, Option.getD_some, Option.some.injEq, forall_eq']
    exact lines_keepLines_eq_iff unbroken_of_mem_staying

/-! ### Shaders that a chunk does not touch -/

/-- No line of the shader at an index lies in a chunk. -/
def Untouched (job : Job) (start stop : Int) (index : Nat) : Prop :=
  ∀ entry ∈ (flatten job).zipIdx, entry.1.1 = index → ¬(start ≤ entry.2 ∧ (entry.2 : Int) < stop)

instance : Decidable (Untouched job start stop index) :=
  inferInstanceAs (Decidable (∀ entry ∈ _, _))

theorem staying_of_untouched (untouched : Untouched job start stop index) :
    staying job start stop index = linesAt index (flatten job) := by
  have entries : flatten job = (flatten job).zipIdx.map Prod.fst :=
    (List.zipIdx_map_fst 0 (flatten job)).symm
  unfold staying outside
  rw [linesAt]
  nth_rewrite 2 [entries]
  rw [List.filter_map, List.filter_map, List.filter_filter]
  refine congrArg (List.map _ <| List.map _ ·) (List.filter_congr fun entry member => ?_)
  by_cases same : entry.1.1 = index
  · have := untouched entry member same
    simp [same]
    omega
  · simp [same]

/-- A shader that the chunk does not touch stays the same if and only if only line feeds break its
lines. -/
theorem getElem?_shaders_remove_of_untouched (found : job.shaders[index]? = some shader)
    (untouched : Untouched job start stop index) :
    (remove job start stop).shaders[index]? = some shader ↔ BrokenByFeeds shader.text := by
  have lines : staying job start stop index = shader.lines := by
    rw [staying_of_untouched untouched, linesAt_flatten, found]
    rfl
  have nonempty : Closed shader.text → shader.text.lines ≠ [] := fun closed none => by
    rw [(lines_eq_nil_iff _).1 none] at closed
    cases closed
  have whole : (keepLines shader shader.lines).text =
      closing (Closed shader.text) shader.text.lines := by
    rw [text_keepLines]
    exact if_congr (and_iff_right_of_imp nonempty) rfl rfl
  rw [getElem?_shaders_remove, found, lines, Option.map_some, Option.some.injEq,
    ← closing_lines_iff, ← whole]
  exact ⟨congrArg Shader.text, fun same => by cases shader; exact congrArg (Shader.mk _) same⟩

end Removal

/-! ### Candidates -/

/-- The candidate that the plan proposes goes without the lines of its chunk, and with the license,
the uniforms and the stages of the job. It has all the other lines if and only if no shader is open
with an empty line at the end of those that stay; and a shader without a line in the chunk stays the
same if and only if only line feeds break its lines. -/
theorem removal_of_propose {job candidate : Job} {memory after : Memory}
    (proposed : (plan.propose job).startingAt memory = (.ok candidate, after)) :
    ∃ start stop, after.pending = some (start, stop) ∧
      candidate = job.withShaders candidate.shaders ∧
      candidate.shaders.map Shader.stage = job.shaders.map Shader.stage ∧
      (flatten candidate = outside start stop (flatten job) ↔
        ∀ index shader, job.shaders[index]? = some shader →
          Whole shader (staying job start stop index)) ∧
      ∀ index shader, job.shaders[index]? = some shader → Untouched job start stop index →
        (candidate.shaders[index]? = some shader ↔ BrokenByFeeds shader.text) := by
  change (propose job).startingAt memory = _ at proposed
  rw [startingAt_propose] at proposed
  split at proposed
  · next position stop _ =>
    obtain ⟨same, rfl⟩ := Prod.mk.inj proposed
    obtain rfl := Except.ok.inj same
    exact ⟨position.cursor, stop, rfl, rfl, map_stage_remove job _ _,
      flatten_remove_eq_outside_iff,
      fun _ _ found untouched => getElem?_shaders_remove_of_untouched found untouched⟩
  · cases (Prod.mk.inj proposed).1

theorem removal_of_propose_twoBlocks :
    let candidate := remove twoBlocks 2 4
    let after : Memory := ⟨some 2, some 2, 2, some (2, 4), false⟩
    (plan.propose twoBlocks).startingAt (start (some 2)) = (.ok candidate, after) ∧
      flatten candidate = outside 2 4 (flatten twoBlocks) ∧
      candidate.shaders[1]? = some ⟨.fragment, "void main() \x7b\n\x7d\nfloat depth;"⟩ := by
  intro candidate after
  have proposed : (plan.propose twoBlocks).startingAt (start (some 2)) =
      (.ok candidate, after) := by
    change (propose twoBlocks).startingAt (start (some 2)) = _
    rw [startingAt_propose, search_eq_searchTrying 10]
    rfl
  obtain ⟨first, last, pending, -, -, lines, shaders⟩ := removal_of_propose proposed
  obtain ⟨rfl, rfl⟩ := Prod.mk.inj (Option.some.inj pending)
  refine ⟨proposed, lines.2 fun index shader found => ?_, ?_⟩
  · have shown : ∀ entry ∈ twoBlocks.shaders.zipIdx,
        Whole entry.1 (staying twoBlocks 2 4 entry.2) := by decide +kernel
    exact shown (shader, index) (List.mk_mem_zipIdx_iff_getElem?.2 found)
  · exact (shaders 1 _ rfl (by decide +kernel)).2 (by decide +kernel)

/-- A job of a shader with a form feed between its lines and of one that is open and has an empty
line. -/
def formFeedAndBlankLine : Job :=
  ⟨[], ⟨.object [], List.nodup_nil⟩,
    [⟨.vertex, "in vec2 p;\x0cvoid f() \x7b \x7d\n"⟩,
      ⟨.fragment, "#version 310 es\n\nint a;\nint b;"⟩]⟩

/-- The last two lines go; so does the empty line, and the form feed, which is far from both,
becomes a line feed. -/
theorem flatten_ne_outside_formFeedAndBlankLine :
    let candidate := formFeedAndBlankLine.withShaders
      [⟨.vertex, "in vec2 p;\nvoid f() \x7b \x7d\n"⟩, ⟨.fragment, "#version 310 es\n"⟩]
    (plan.propose formFeedAndBlankLine).startingAt (start none) =
        (.ok candidate, ⟨none, some 4, 4, some (4, 6), false⟩) ∧
      flatten candidate ≠ outside 4 6 (flatten formFeedAndBlankLine) ∧
      Untouched formFeedAndBlankLine 4 6 0 ∧
      candidate.shaders[0]? ≠ formFeedAndBlankLine.shaders[0]? := by
  refine ⟨?_, by decide +kernel, by decide +kernel, by decide +kernel⟩
  change (propose formFeedAndBlankLine).startingAt (start none) = _
  rw [startingAt_propose, search_eq_searchTrying 10]
  rfl

end LineChunk

end ShaderReduction
