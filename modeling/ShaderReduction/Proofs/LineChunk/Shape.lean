/-
This file proves what every candidate of the line-chunk plan has in common with the job that the
descent began with.

The lines of a job, numbered by their shaders, are in ascending order, so the lines before a chunk,
in it and after it each fall into the lines of one shader, of those before it and of those after it.
A chunk that may go is nested as a whole. The part of it that lies in one shader is nested as well:
if there is such a part, the chunk begins in or before that shader and ends in or after it, so what
the chunk holds of other shaders is the end of the shaders before and the beginning of the shaders
after. That one step leaves of each shader what it must is carried over a descent by transitivity.
-/

import Mathlib.Data.List.Forall2
import ShaderReduction.Proofs.LineChunk.Nesting
import ShaderReduction.Proofs.LineChunk.Termination

namespace ShaderReduction

namespace LineChunk

/-! ### Numbered lines -/

/-- The lines of shaders that are numbered from an index on, each with the number of its shader. -/
def numbered (first : Nat) (shaders : List Shader) : List (Nat × Text) :=
  (shaders.zipIdx first).flatMap fun (shader, index) => shader.lines.map fun line => (index, line)

/-- The lines with the given number. -/
def linesAt (index : Nat) (lines : List (Nat × Text)) : List Text :=
  (lines.filter fun line => line.1 = index).map Prod.snd

/-- Numbered lines in a row. -/
def textOf (lines : List (Nat × Text)) : Text := lines.flatMap Prod.snd

/-- Numbered lines in ascending order. -/
def Ordered (lines : List (Nat × Text)) : Prop :=
  lines.Pairwise fun earlier later => earlier.1 ≤ later.1

variable {first index : Nat} {shaders : List Shader}

theorem numbered_cons (first : Nat) (shader : Shader) (shaders : List Shader) :
    numbered first (shader :: shaders) =
      (shader.lines.map fun line => (first, line)) ++ numbered (first + 1) shaders := rfl

theorem textOf_append (left right : List (Nat × Text)) :
    textOf (left ++ right) = textOf left ++ textOf right := List.flatMap_append

theorem linesAt_append (index : Nat) (left right : List (Nat × Text)) :
    linesAt index (left ++ right) = linesAt index left ++ linesAt index right := by
  rw [linesAt, List.filter_append, List.map_append]
  rfl

theorem flatten_linesAt (index : Nat) (lines : List (Nat × Text)) :
    (linesAt index lines).flatten = textOf (lines.filter fun line => line.1 = index) :=
  (List.flatMap_def).symm

theorem le_of_mem_numbered {line : Nat × Text} (member : line ∈ numbered first shaders) :
    first ≤ line.1 := by
  obtain ⟨⟨shader, index⟩, entry, lineMember⟩ := List.mem_flatMap.1 member
  obtain ⟨text, -, rfl⟩ := List.mem_map.1 lineMember
  exact List.le_snd_of_mem_zipIdx entry

theorem ordered_numbered (first : Nat) (shaders : List Shader) :
    Ordered (numbered first shaders) := by
  induction shaders generalizing first with
  | nil => exact List.Pairwise.nil
  | cons shader shaders inductionHypothesis =>
    rw [numbered_cons]
    refine List.pairwise_append.2 ⟨?_, inductionHypothesis (first + 1), ?_⟩
    · exact List.pairwise_map.2 (List.pairwise_of_forall fun _ _ => Nat.le_refl first)
    · intro earlier earlierMember later laterMember
      obtain ⟨text, -, rfl⟩ := List.mem_map.1 earlierMember
      exact Nat.le_of_succ_le (le_of_mem_numbered laterMember)

/-- The lines with the number of a shader are the lines of that shader. -/
theorem linesAt_numbered {entry : Shader × Nat} (member : entry ∈ shaders.zipIdx first) :
    linesAt entry.2 (numbered first shaders) = entry.1.lines := by
  have own : ∀ (number : Nat) (texts : List Text),
      linesAt number (texts.map fun line => (number, line)) = texts := by
    intro number texts
    simp [linesAt, List.filter_map, Function.comp_def]
  have foreign : ∀ {number : Nat} {lines : List (Nat × Text)},
      (∀ line ∈ lines, line.1 ≠ number) → linesAt number lines = [] := by
    intro number lines others
    rw [linesAt, List.map_eq_nil_iff, List.filter_eq_nil_iff]
    exact fun line lineMember same => others line lineMember (of_decide_eq_true same)
  induction shaders generalizing first with
  | nil => cases member
  | cons shader shaders inductionHypothesis =>
    rw [numbered_cons, linesAt_append]
    rcases List.mem_cons.1 member with rfl | later
    · rw [own, foreign fun line lineMember => Nat.ne_of_gt (le_of_mem_numbered lineMember),
        List.append_nil]
    · have above := List.le_snd_of_mem_zipIdx later
      rw [inductionHypothesis later, foreign, List.nil_append]
      intro line lineMember
      obtain ⟨text, -, rfl⟩ := List.mem_map.1 lineMember
      exact Nat.ne_of_lt above

/-- Of nested shaders, the lines of any of them in a row are nested. -/
theorem nested_filter_numbered (first : Nat) (nested : ∀ shader ∈ shaders, Nested shader.text)
    (keeps : Nat → Bool) :
    Nested (textOf ((numbered first shaders).filter fun line => keeps line.1)) := by
  rw [numbered, List.filter_flatMap, textOf, List.flatMap_assoc]
  refine nested_flatMap fun entry member => ?_
  have whole := (nested_flatten_lines_iff _).2 (nested _ (List.fst_mem_of_mem_zipIdx member))
  rw [List.filter_map, List.flatMap_map]
  cases kept : keeps entry.2 with
  | false => simpa [Function.comp_def, kept] using nested_nil
  | true => simpa [Function.comp_def, kept, List.flatMap_def, Shader.lines] using whole

/-! ### The part of a chunk in one shader -/

/-- Lines in ascending order are those below a number, those with it and those above it. -/
theorem eq_append_of_ordered {lines : List (Nat × Text)} (ordered : Ordered lines) (index : Nat) :
    lines = (lines.filter fun line => line.1 < index) ++
      (lines.filter fun line => line.1 = index) ++ lines.filter fun line => index < line.1 := by
  induction lines with
  | nil => rfl
  | cons line lines inductionHypothesis =>
    obtain ⟨above, ordered⟩ := List.pairwise_cons.1 ordered
    have rest := inductionHypothesis ordered
    have noneBelow : index ≤ line.1 → (lines.filter fun other => other.1 < index) = [] :=
      fun reached => List.filter_eq_nil_iff.2 fun other member => by
        have := above other member
        simp only [decide_eq_true_eq]
        omega
    have noneAt : index < line.1 → (lines.filter fun other => other.1 = index) = [] :=
      fun passed => List.filter_eq_nil_iff.2 fun other member => by
        have := above other member
        simp only [decide_eq_true_eq]
        omega
    rcases Nat.lt_trichotomy line.1 index with below | same | passed
    · simp only [List.filter_cons, below, Nat.ne_of_lt below, Nat.lt_asymm below, decide_true,
        decide_false, if_true, if_false, Bool.false_eq_true, List.cons_append]
      rw [← rest]
    · simp only [List.filter_cons, same, Nat.lt_irrefl, decide_true, decide_false, if_true,
        if_false, Bool.false_eq_true, noneBelow (Nat.le_of_eq same.symm), List.nil_append,
        List.cons_append]
      rw [noneBelow (Nat.le_of_eq same.symm), List.nil_append] at rest
      rw [← rest]
    · simp only [List.filter_cons, passed, Nat.ne_of_gt passed, Nat.lt_asymm passed, decide_true,
        decide_false, if_true, if_false, Bool.false_eq_true, noneBelow (Nat.le_of_lt passed),
        noneAt passed, List.nil_append]
      rw [noneBelow (Nat.le_of_lt passed), noneAt passed, List.nil_append, List.nil_append] at rest
      rw [← rest]

/-- The part of a nested chunk that lies in one shader is nested, if the shaders before that one and
those after it are. -/
theorem Nested.part {before chunk after : List (Nat × Text)}
    (nested : Nested (textOf chunk)) (ordered : Ordered (before ++ chunk ++ after))
    (below : Nested (textOf ((before ++ chunk ++ after).filter fun line => line.1 < index)))
    (above : Nested (textOf ((before ++ chunk ++ after).filter fun line => index < line.1))) :
    Nested (textOf (chunk.filter fun line => line.1 = index)) := by
  obtain ⟨orderedFront, -, acrossEnd⟩ := List.pairwise_append.1 ordered
  obtain ⟨-, orderedChunk, acrossStart⟩ := List.pairwise_append.1 orderedFront
  cases part : chunk.filter fun line => line.1 = index with
  | nil => exact nested_nil
  | cons line lines =>
    have member : line ∈ chunk.filter fun line => line.1 = index := part ▸ List.mem_cons_self
    obtain ⟨inChunk, same⟩ := List.mem_filter.1 member
    have same : line.1 = index := of_decide_eq_true same
    have noneAfter : (after.filter fun line => line.1 < index) = [] :=
      List.filter_eq_nil_iff.2 fun other otherMember => by
        have := acrossEnd line (List.mem_append_right _ inChunk) other otherMember
        simp only [decide_eq_true_eq]
        omega
    have noneBefore : (before.filter fun line => index < line.1) = [] :=
      List.filter_eq_nil_iff.2 fun other otherMember => by
        have := acrossStart other otherMember line inChunk
        simp only [decide_eq_true_eq]
        omega
    rw [List.filter_append, List.filter_append, noneAfter, List.append_nil, textOf_append] at below
    rw [List.filter_append, List.filter_append, noneBefore, List.nil_append, textOf_append] at above
    rw [eq_append_of_ordered orderedChunk index, textOf_append, textOf_append, part] at nested
    exact nested.middle below.rise_right_nonpos above.rise_left_nonneg

/-! ### What is left of a job -/

/-- What a shader must keep of what it was. -/
structure Remains (former shader : Shader) : Prop where
  stage : shader.stage = former.stage
  lines : shader.lines.Sublist former.lines
  versions : shader.lines.filter Definitions.isVersionLine =
    former.lines.filter Definitions.isVersionLine

/-- What a candidate must keep of a job. -/
structure LeftOf (job candidate : Job) : Prop where
  license : candidate.license = job.license
  uniforms : candidate.uniforms = job.uniforms
  shaders : List.Forall₂ Remains job.shaders candidate.shaders
  nested : (∀ shader ∈ job.shaders, Nested shader.text) →
    ∀ shader ∈ candidate.shaders, Nested shader.text

theorem Remains.trans {first second third : Shader} (earlier : Remains first second)
    (later : Remains second third) : Remains first third where
  stage := later.stage.trans earlier.stage
  lines := later.lines.trans earlier.lines
  versions := later.versions.trans earlier.versions

theorem LeftOf.trans {first second third : Job} (earlier : LeftOf first second)
    (later : LeftOf second third) : LeftOf first third where
  license := later.license.trans earlier.license
  uniforms := later.uniforms.trans earlier.uniforms
  shaders := by
    have chained : ∀ {firsts seconds thirds : List Shader}, List.Forall₂ Remains firsts seconds →
        List.Forall₂ Remains seconds thirds → List.Forall₂ Remains firsts thirds := by
      intro firsts seconds thirds front
      induction front generalizing thirds with
      | nil => exact id
      | cons head _ inductionHypothesis =>
        rintro (_ | ⟨next, rest⟩)
        exact .cons (head.trans next) (inductionHypothesis rest)
    exact chained earlier.shaders later.shaders
  nested := later.nested ∘ earlier.nested

variable {job : Job}

section Chunk

variable {start stop : Nat}

/-- The numbered lines of a job are those before a chunk, those in it and those after it. -/
theorem flatten_eq_append (job : Job) (ordered : start ≤ stop) :
    flatten job = (flatten job).take start ++ ((flatten job).drop start).take (stop - start) ++
      (flatten job).drop stop := by
  have rest : (flatten job).drop stop = ((flatten job).drop start).drop (stop - start) := by
    rw [List.drop_drop, show start + (stop - start) = stop by omega]
  rw [rest, List.append_assoc, List.take_append_drop, List.take_append_drop]

/-- The lines of a chunk, without their numbers. -/
theorem sliceOf_linesOf (ordered : start ≤ stop) (inside : stop ≤ (linesOf job).length) :
    sliceOf (linesOf job) start stop =
      (((flatten job).drop start).take (stop - start)).map Prod.snd := by
  have first : placeOf (linesOf job).length start = start := by
    unfold placeOf
    split <;> omega
  have last : placeOf (linesOf job).length stop = stop := by
    unfold placeOf
    split <;> omega
  rw [sliceOf, first, last, linesOf, List.map_take, List.map_drop]

theorem filter_isVersionLine_withoutEmptyEnd (texts : List Text) :
    (Text.withoutEmptyEnd texts).filter Definitions.isVersionLine =
      texts.filter Definitions.isVersionLine := by
  fun_induction Text.withoutEmptyEnd texts with
  | case1 => rfl
  | case2 => decide
  | case3 => rfl
  | case4 line next more inductionHypothesis =>
    rw [List.filter_cons, List.filter_cons, inductionHypothesis]

/-- A shader that is put together again from all of its lines but a part without version lines. -/
theorem remains_keepLines {shader : Shader} {before part after : List Text}
    (whole : shader.lines = before ++ part ++ after)
    (unversioned : part.filter Definitions.isVersionLine = []) :
    Remains shader (keepLines shader (before ++ after)) := by
  have kept : (before ++ after).Sublist shader.lines := by
    rw [whole]
    exact (List.sublist_append_left before part).append_right after
  have unbroken : ∀ line ∈ before ++ after, Text.Unbroken line :=
    fun line member => Text.unbroken_of_mem_lines (kept.mem member)
  refine ⟨rfl, (lines_keepLines_sublist unbroken).trans kept, ?_⟩
  have versions : (keepLines shader (before ++ after)).lines.filter Definitions.isVersionLine =
      (before ++ after).filter Definitions.isVersionLine := by
    rcases lines_keepLines shader unbroken with same | cut
    · rw [same]
    · rw [cut, filter_isVersionLine_withoutEmptyEnd]
  rw [versions, whole, List.filter_append, List.filter_append, List.filter_append, unversioned,
    List.append_nil]

/-- What is left of a job without a chunk that may go. -/
theorem leftOf_remove (ordered : start ≤ stop) (inside : stop ≤ (linesOf job).length)
    (mayGo : removable (sliceOf (linesOf job) start stop) = true) :
    LeftOf job (remove job start stop) := by
  rw [sliceOf_linesOf ordered inside, removable_iff] at mayGo
  obtain ⟨unversioned, nestedChunk⟩ := mayGo
  have whole := flatten_eq_append job ordered
  have outer := outside_eq start stop ordered (flatten job)
  generalize (flatten job).take start = before at *
  generalize ((flatten job).drop start).take (stop - start) = chunk at *
  generalize (flatten job).drop stop = after at *
  have linesOfShader : ∀ entry ∈ job.shaders.zipIdx, entry.1.lines =
      linesAt entry.2 before ++ linesAt entry.2 chunk ++ linesAt entry.2 after := by
    intro entry member
    have own : linesAt entry.2 (flatten job) = entry.1.lines := linesAt_numbered member
    rw [← own, whole, linesAt_append, linesAt_append]
  have stays : ∀ index,
      staying job start stop index = linesAt index before ++ linesAt index after :=
    fun index => by rw [← linesAt_append, ← outer]; rfl
  refine ⟨rfl, rfl, ?_, fun nested shader member => ?_⟩
  · show List.Forall₂ Remains job.shaders
      (job.shaders.zipIdx.map fun entry => keepLines entry.1 (staying job start stop entry.2))
    have entries : job.shaders = job.shaders.zipIdx.map Prod.fst :=
      (List.zipIdx_map_fst 0 job.shaders).symm
    rw [List.forall₂_map_right_iff]
    nth_rewrite 1 [entries]
    rw [List.forall₂_map_left_iff, List.forall₂_same]
    intro entry member
    rw [stays]
    refine remains_keepLines (linesOfShader entry member) (List.filter_eq_nil_iff.2 ?_)
    intro line inPart
    obtain ⟨numberedLine, inChunk, rfl⟩ := List.mem_map.1 inPart
    rw [unversioned _ (List.mem_map_of_mem (List.mem_filter.1 inChunk).1)]
    exact Bool.false_ne_true
  · obtain ⟨entry, entryMember, rfl⟩ := List.mem_map.1 member
    show Nested (keepLines entry.1 (staying job start stop entry.2)).text
    have ascending : Ordered (before ++ chunk ++ after) :=
      whole ▸ ordered_numbered 0 job.shaders
    have below := nested_filter_numbered 0 nested fun number => number < entry.2
    have above := nested_filter_numbered 0 nested fun number => entry.2 < number
    change Nested (textOf ((flatten job).filter _)) at below above
    rw [whole] at below above
    rw [← List.flatMap_def] at nestedChunk
    have part := Nested.part nestedChunk ascending below above
    have former := (nested_flatten_lines_iff _).2
      (nested entry.1 (List.fst_mem_of_mem_zipIdx entryMember))
    change Nested entry.1.lines.flatten at former
    rw [linesOfShader entry entryMember, List.flatten_append, List.flatten_append] at former
    rw [← flatten_linesAt] at part
    rw [nested_keepLines_iff, stays, List.flatten_append]
    exact former.remove part

end Chunk

/-! ### Descents -/

/-- The job that a descent from a job goes on from after some turns. -/
def goingOn {Memory : Type} (job : Job) (turns : List (Turn Memory)) : Job :=
  turns.foldl (fun job turn => if turn.accepted then turn.candidate else job) job

/-- What a search finds leaves of the job what it must, and fewer lines. -/
theorem leftOf_of_search {position found : Position} {stop : Int} (forward : position.Forward)
    (result : search (linesOf job) position = .chunk found stop) :
    LeftOf job (remove job found.cursor stop) := by
  obtain ⟨foundForward, inside, rfl⟩ := forward_of_search forward result
  have ends := foundForward.chunkEnd inside
  have mayGo := removable_of_search result
  obtain ⟨first, starts⟩ := Int.eq_ofNat_of_zero_le foundForward.cursor_nonneg
  obtain ⟨last, stops⟩ := Int.eq_ofNat_of_zero_le
    (Int.le_trans foundForward.cursor_nonneg (Int.le_of_lt ends.1))
  rw [stops] at ends mayGo ⊢
  rw [starts] at ends mayGo ⊢
  exact leftOf_remove (Int.ofNat_le.1 (Int.le_of_lt ends.1)) (Int.ofNat_le.1 ends.2) mayGo

theorem length_linesOf (job : Job) : (linesOf job).length = job.lineCount := by
  rw [linesOf_eq_flatMap]
  rfl

/-- Every candidate of a descent leaves of the job that the descent goes from what it must, and has
fewer lines than the job that it was made from. -/
theorem leftOf_of_turns_run {accepts : Nat → Job → Bool} {bound made : Nat} {memory : Memory}
    (forward : (standing job memory).Forward) {earlier later : List (Turn Memory)}
    {turn : Turn Memory}
    (ran : (Descent.run plan accepts bound made job memory).turns = earlier ++ turn :: later) :
    LeftOf job turn.candidate ∧ turn.candidate.lineCount < (goingOn job earlier).lineCount := by
  induction bound generalizing made job memory earlier with
  | zero => exact absurd ran.symm (List.append_ne_nil_of_right_ne_nil _ (List.cons_ne_nil _ _))
  | succ bound inductionHypothesis =>
    rw [run_plan_succ] at ran
    cases result : search (linesOf job) (standing job memory) with
    | nothing position =>
      rw [result] at ran
      exact absurd ran.symm (List.append_ne_nil_of_right_ne_nil _ (List.cons_ne_nil _ _))
    | chunk found stop =>
      rw [result] at ran
      obtain ⟨foundForward, inside, ends⟩ := forward_of_search forward result
      have left := leftOf_of_search forward result
      cases earlier with
      | nil =>
        obtain ⟨rfl, -⟩ := List.cons.inj ran
        refine ⟨left, ?_⟩
        rw [← length_linesOf, ← length_linesOf]
        exact length_candidate_lt forward result
      | cons head earlier =>
        obtain ⟨rfl, rest⟩ := List.cons.inj ran
        show _ ∧ _ < (goingOn (if _ then _ else _) earlier).lineCount
        dsimp only at rest ⊢
        cases verdict : accepts made (remove job found.cursor stop) with
        | false =>
          rw [verdict] at rest
          have onward : (standing job (memory.settled found stop false)).Forward := by
            subst ends
            exact foundForward.skip inside
          exact inductionHypothesis onward rest
        | true =>
          rw [verdict] at rest
          have onward : (standing (remove job found.cursor stop)
              (memory.settled found stop true)).Forward :=
            ⟨foundForward.size_pos, foundForward.cursor_nonneg⟩
          have next := inductionHypothesis onward rest
          exact ⟨left.trans next.1, next.2⟩

/-- Whatever a descent from a job is told, every candidate has the license, the uniforms and the
stages of the job, each of its shaders has only lines of the same shader of the job, in their order
and with all version lines among them, and braces are balanced in each shader if they were so in
each shader of the job. It has fewer lines than the job that it was made from. -/
theorem leftOf_of_turns_run_start (job : Job) (initialSize : Option Int)
    (allowed : ∀ size ∈ initialSize, 0 ≤ size) (accepts : Nat → Job → Bool) (bound : Nat)
    (earlier later : List (Turn Memory)) (turn : Turn Memory)
    (ran : (Descent.run plan accepts bound 0 job (start initialSize)).turns =
      earlier ++ turn :: later) :
    LeftOf job turn.candidate ∧
      turn.candidate.lineCount < (goingOn job earlier).lineCount := by
  have forward : (standing job (start initialSize)).Forward :=
    ⟨firstSize_pos allowed (linesOf job), Int.le_refl 0⟩
  exact leftOf_of_turns_run forward ran

/-- A job of two shaders, of which the first ends with a block and the second begins with one. -/
def twoBlocks : Job :=
  ⟨[], ⟨.object [], List.nodup_nil⟩,
    [⟨.vertex, "#version 310 es\nint a;\nint b;\nint c;\nvoid main() \x7b\n\x7d\n"⟩,
      ⟨.fragment, "void main() \x7b\n\x7d\nfloat depth;"⟩]⟩

theorem leftOf_of_turns_run_twoBlocks :
    let accepts : Nat → Job → Bool := fun made _ => made = 0
    let descent := Descent.run plan accepts 2 0 twoBlocks (start (some 4))
    (∀ size ∈ some (4 : Int), 0 ≤ size) ∧ (∀ shader ∈ twoBlocks.shaders, Nested shader.text) ∧
      ∃ first second, descent.turns = [first] ++ second :: [] ∧
        first.candidate.shaders.map Shader.lines =
          ([["#version 310 es", "int a;", "int b;", "int c;"], ["float depth;"]] :
            List (List Text)) ∧
        LeftOf twoBlocks second.candidate ∧
        second.candidate.lineCount < (goingOn twoBlocks [first]).lineCount := by
  intro accepts descent
  have allowed : ∀ size ∈ some (4 : Int), 0 ≤ size := by decide
  have candidates :
      descent.turns.map (fun turn => turn.candidate.shaders.map Shader.lines) =
        ([[["#version 310 es", "int a;", "int b;", "int c;"], ["float depth;"]],
          [["#version 310 es", "int a;", "int b;", "int c;"], []]] : List (List (List Text))) := by
    unfold descent plan propose
    rw [search_eq_searchTrying 10]
    decide +kernel
  obtain ⟨first, rest, turns, chunkGone, restCandidates⟩ := List.map_eq_cons_iff.1 candidates
  obtain ⟨second, none, rfl, -, noneCandidates⟩ := List.map_eq_cons_iff.1 restCandidates
  obtain rfl := List.map_eq_nil_iff.1 noneCandidates
  exact ⟨allowed, by decide +kernel, first, second, turns, chunkGone,
    leftOf_of_turns_run_start twoBlocks (some 4) allowed accepts 2 [first] [] second turns⟩

end LineChunk

end ShaderReduction
