/-
This file proves that the line-chunk search ends at a job from which no single line can go.

A pass with chunks of one line tries every line that may go on its own. It leaves the job as it is
unless it makes progress, and a pass that makes progress is followed by another. So what carries the
proof is said of a pass without progress only: of the lines before the cursor, each one that may go
on its own has been tried on the job as it is now and was refused (`Tried`). An acceptance changes
the job but notes progress, and the next pass begins with no line before the cursor.
-/

import ShaderReduction.Proofs.LineChunk.Termination

namespace ShaderReduction

namespace LineChunk

/-! ### What a pass of single lines has tried -/

/-- In a pass of single lines that has made no progress, every line before the cursor that may go on
its own is refused. -/
def Tried (lines : List Text) (refused : Nat → Prop) (position : Position) : Prop :=
  position.size = 1 → position.progress = false →
    ∀ (index : Nat) (inside : index < lines.length), (index : Int) < position.cursor →
      removable [lines[index]] = true → refused index

theorem tried_at_start (lines : List Text) (refused : Nat → Prop) (size : Int) (progress : Bool) :
    Tried lines refused ⟨size, 0, progress⟩ := by
  intro _ _ index _ before _
  have before : (index : Int) < 0 := before
  omega

/-- A line that is skipped or refused joins the lines that were tried. -/
theorem Tried.step {lines : List Text} {refused : Nat → Prop} {position : Position}
    (tried : Tried lines refused position) (inside : position.cursor < lines.length)
    (atCursor : position.size = 1 → ∀ (index : Nat) (bound : index < lines.length),
      (index : Int) = position.cursor → removable [lines[index]] = true → refused index) :
    Tried lines refused { position with cursor := chunkEnd lines position } := by
  intro single idle index bound before mayGo
  have next : chunkEnd lines position = position.cursor + 1 := by
    have : position.size = 1 := single
    unfold chunkEnd
    omega
  have before : (index : Int) < chunkEnd lines position := before
  rcases Int.lt_or_eq_of_le (show (index : Int) ≤ position.cursor by omega) with earlier | here
  · exact tried single idle index bound earlier mayGo
  · exact atCursor single index bound here mayGo

/-- The chunk of one line at the cursor. -/
theorem sliceOf_chunkEnd_single {lines : List Text} {position : Position}
    (single : position.size = 1) {index : Nat} (bound : index < lines.length)
    (here : (index : Int) = position.cursor) :
    sliceOf lines position.cursor (chunkEnd lines position) = [lines[index]] := by
  have next : chunkEnd lines position = (index : Int) + 1 := by
    unfold chunkEnd
    omega
  rw [next, ← here, sliceOf_single bound]

/-- A search keeps what was tried, and ends with nothing only when every line that may go on its own
was refused. -/
theorem tried_of_search {lines : List Text} {refused : Nat → Prop} {position : Position}
    (forward : position.Forward) (tried : Tried lines refused position) :
    match search lines position with
    | .chunk found _ => Tried lines refused found
    | .nothing _ => ∀ (index : Nat) (inside : index < lines.length),
        removable [lines[index]] = true → refused index := by
  fun_induction search lines position with
  | case1 position inside kept inductionHypothesis =>
    refine inductionHypothesis (forward.skip inside) (tried.step inside ?_)
    intro single index bound here mayGo
    rw [sliceOf_chunkEnd_single single bound here, mayGo] at kept
    cases kept
  | case2 position inside removed => exact tried
  | case3 position outside large inductionHypothesis =>
    exact inductionHypothesis (Position.Forward.halve large) (tried_at_start _ _ _ _)
  | case4 position outside small progress inductionHypothesis =>
    exact inductionHypothesis forward.again (tried_at_start _ _ _ _)
  | case5 position outside small idle =>
    intro index inside mayGo
    have single : position.size = 1 := by
      have := forward.size_pos
      omega
    exact tried single (Bool.eq_false_iff.2 idle) index inside (by omega) mayGo

/-! ### Descents by a fixed decision -/

/-- No job that is left of a job when a single line that may go on its own is taken is accepted. -/
def Minimal (accepts : Job → Bool) (job : Job) : Prop :=
  ∀ (index : Nat) (inside : index < (linesOf job).length),
    removable [(linesOf job)[index]] = true → accepts (remove job index (index + 1)) = false

theorem minimal_of_run {accepts : Job → Bool} {turns made : Nat} {job : Job} {memory : Memory}
    (forward : (standing job memory).Forward)
    (tried : Tried (linesOf job) (fun index => accepts (remove job index (index + 1)) = false)
      (standing job memory))
    (ended : (Descent.run plan (fun _ => accepts) turns made job memory).fault =
      some (.exhausted [])) :
    Minimal accepts (Descent.run plan (fun _ => accepts) turns made job memory).job := by
  induction turns generalizing made job memory with
  | zero => cases ended
  | succ turns inductionHypothesis =>
    rw [run_plan_succ] at ended ⊢
    have searched := tried_of_search forward tried
    cases result : search (linesOf job) (standing job memory) with
    | nothing position =>
      rw [result] at searched
      exact searched
    | chunk found stop =>
      obtain ⟨foundForward, inside, rfl⟩ := forward_of_search forward result
      simp only [result] at searched ended ⊢
      cases verdict : accepts (remove job found.cursor (chunkEnd (linesOf job) found)) with
      | false =>
        simp only [verdict, Bool.false_eq_true, if_false] at ended ⊢
        refine inductionHypothesis (foundForward.skip inside) ?_ ended
        refine searched.step inside fun single index bound here _ => ?_
        have next : chunkEnd (linesOf job) found = (index : Int) + 1 := by
          unfold chunkEnd
          omega
        rwa [← next, here]
      | true =>
        simp only [verdict, if_true] at ended ⊢
        refine inductionHypothesis ⟨foundForward.size_pos, foundForward.cursor_nonneg⟩ ?_ ended
        -- Progress is noted, so nothing is claimed of this pass any more.
        intro _ idle
        cases idle

/-- A descent by a fixed decision that ends because the plan is exhausted ends at a job from which
no single line that may go on its own can be taken. -/
theorem minimal_of_descent_exhausted (job : Job) (accepts : Job → Bool) (initialSize : Option Int)
    (allowed : ∀ size ∈ initialSize, 0 ≤ size) (turns : Nat)
    (ended : (Descent.run plan (fun _ => accepts) turns 0 job (start initialSize)).fault =
      some (.exhausted [])) :
    Minimal accepts (Descent.run plan (fun _ => accepts) turns 0 job (start initialSize)).job := by
  have positive : 0 < firstSize initialSize (linesOf job) :=
    firstSize_pos allowed _
  exact minimal_of_run ⟨positive, Int.le_refl 0⟩ (tried_at_start _ _ _ _) ended

theorem minimal_of_descent_exhausted_threeLines :
    let accepts : Job → Bool := fun job => ("float b;" : Text) ∈ linesOf job
    (∀ size ∈ some (2 : Int), 0 ≤ size) ∧
      (Descent.run plan (fun _ => accepts) 23 0 threeLines (start (some 2))).fault =
          some (.exhausted []) ∧
        Minimal accepts
          (Descent.run plan (fun _ => accepts) 23 0 threeLines (start (some 2))).job := by
  intro accepts
  have allowed : ∀ size ∈ some (2 : Int), 0 ≤ size := by decide
  have fits : (linesOf threeLines).length ≤ 3 := by decide +kernel
  have forward : (standing threeLines (start (some 2))).Forward :=
    ⟨by decide +kernel, by decide +kernel⟩
  have ended : (Descent.run plan (fun _ => accepts) 23 0 threeLines (start (some 2))).fault =
      some (.exhausted []) :=
    fault_run_of_potential_lt _ forward fits (by decide +kernel)
  exact ⟨allowed, ended, minimal_of_descent_exhausted threeLines accepts (some 2) allowed 23 ended⟩

end LineChunk

end ShaderReduction
