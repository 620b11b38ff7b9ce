/-
This file proves what one proposal of the plan finds, and from it what one turn of a descent does.

A search starts where the memory stands and ends at a chunk or with nothing. The chunk it ends at
begins at the cursor, is not empty and lies within the lines, provided that sizes are positive and
the cursor is not before the first line; both stay so. A descent takes one such step at a time: the
next search starts from the chunk that was found, with the cursor past it if the candidate was
rejected and with progress noted if it was accepted.
-/

import ShaderReduction.Descent
import ShaderReduction.LineChunk

namespace ShaderReduction

namespace LineChunk

/-! ### Sizes and slices -/

theorem firstSize_pos {initialSize : Option Int} (allowed : ∀ size ∈ initialSize, 0 ≤ size)
    (lines : List Text) : 0 < firstSize initialSize lines := by
  have power : 0 < largestPowerOfTwo lines.length := by
    unfold largestPowerOfTwo
    split
    · decide
    · exact_mod_cast Nat.two_pow_pos _
  unfold firstSize
  split
  · next size =>
    have := allowed size rfl
    split
    · exact power
    · omega
  · exact power

/-- The slice of one line is that line. -/
theorem sliceOf_single {Item : Type} {items : List Item} {index : Nat}
    (inside : index < items.length) :
    sliceOf items index (index + 1) = [items[index]] := by
  have start : placeOf items.length index = index := by
    unfold placeOf
    split <;> omega
  have stop : placeOf items.length ((index : Int) + 1) = index + 1 := by
    unfold placeOf
    split <;> omega
  rw [sliceOf, start, stop, Nat.add_sub_cancel_left, List.drop_eq_getElem_cons inside]
  rfl

/-! ### What a search finds -/

/-- A position from which chunks are not empty and begin within the lines or at their end. -/
structure Position.Forward (position : Position) : Prop where
  size_pos : 0 < position.size
  cursor_nonneg : 0 ≤ position.cursor

theorem Position.Forward.chunkEnd {position : Position} (forward : position.Forward)
    {lines : List Text} (inside : position.cursor < lines.length) :
    position.cursor < chunkEnd lines position ∧ chunkEnd lines position ≤ lines.length := by
  have := forward.size_pos
  unfold LineChunk.chunkEnd
  omega

theorem Position.Forward.skip {position : Position} (forward : position.Forward)
    {lines : List Text} (inside : position.cursor < lines.length) :
    Position.Forward { position with cursor := LineChunk.chunkEnd lines position } :=
  ⟨forward.size_pos, Int.le_of_lt <|
    Int.lt_of_le_of_lt forward.cursor_nonneg (forward.chunkEnd inside).1⟩

theorem Position.Forward.halve {position : Position} (large : 1 < position.size) :
    Position.Forward ⟨position.size / 2, 0, false⟩ :=
  ⟨show 0 < position.size / 2 by omega, Int.le_refl 0⟩

theorem Position.Forward.again {position : Position} (forward : position.Forward) :
    Position.Forward ⟨position.size, 0, false⟩ := ⟨forward.size_pos, Int.le_refl 0⟩

/-- A search that goes forward ends at a chunk that goes forward, begins within the lines and is the
one at the cursor. -/
theorem forward_of_search {lines : List Text} {position found : Position} {stop : Int}
    (forward : position.Forward) (result : search lines position = .chunk found stop) :
    found.Forward ∧ found.cursor < lines.length ∧ stop = chunkEnd lines found := by
  fun_induction search lines position with
  | case1 position inside kept inductionHypothesis =>
    exact inductionHypothesis (forward.skip inside) result
  | case2 position inside removed =>
    obtain ⟨rfl, rfl⟩ := Finding.chunk.inj result
    exact ⟨forward, inside, rfl⟩
  | case3 position outside large inductionHypothesis =>
    exact inductionHypothesis (Position.Forward.halve large) result
  | case4 position outside small progress inductionHypothesis =>
    exact inductionHypothesis forward.again result
  | case5 => cases result

/-- A search ends only at a chunk that may go. -/
theorem removable_of_search {lines : List Text} {position found : Position} {stop : Int}
    (result : search lines position = .chunk found stop) :
    removable (sliceOf lines found.cursor stop) = true := by
  fun_induction search lines position with
  | case1 position inside kept inductionHypothesis => exact inductionHypothesis result
  | case2 position inside removed =>
    obtain ⟨rfl, rfl⟩ := Finding.chunk.inj result
    exact eq_true_of_ne_false removed
  | case3 position outside large inductionHypothesis => exact inductionHypothesis result
  | case4 position outside small progress inductionHypothesis => exact inductionHypothesis result
  | case5 => cases result

/-! ### Turns -/

/-- Where the search for a proposal starts. -/
def standing (job : Job) (memory : Memory) : Position :=
  ⟨memory.size.getD (firstSize memory.initialSize (linesOf job)), memory.cursor, memory.progress⟩

/-- The memory with the place of a search. -/
def Memory.at (memory : Memory) (position : Position) : Memory :=
  { memory with
    size := some position.size
    cursor := position.cursor
    progress := position.progress }

/-- The memory once a chunk is proposed. -/
def Memory.proposing (memory : Memory) (position : Position) (stop : Int) : Memory :=
  { memory.at position with pending := some (position.cursor, stop) }

/-- The memory once a chunk that was proposed is accepted or rejected. -/
def Memory.settled (memory : Memory) (position : Position) (stop : Int) (accepted : Bool) :
    Memory :=
  { memory.at position with
    cursor := if accepted then position.cursor else stop
    pending := none
    progress := accepted || position.progress }

theorem startingAt_propose (job : Job) (memory : Memory) :
    (propose job).startingAt memory =
      match search (linesOf job) (standing job memory) with
      | .chunk position stop =>
        (.ok (remove job position.cursor stop), memory.proposing position stop)
      | .nothing position => (.error (.exhausted []), memory.at position) := by
  unfold propose
  simp only [Action.startingAt_bind, Action.startingAt_get]
  show (match search (linesOf job) (standing job memory) with
    | .chunk position stop => _
    | .nothing position => _ : Action Memory Job).startingAt memory = _
  cases search (linesOf job) (standing job memory) <;> rfl

theorem startingAt_update_proposing (memory : Memory) (position : Position) (stop : Int)
    (accepted : Bool) :
    (update accepted).startingAt (memory.proposing position stop) =
      (.ok (), memory.settled position stop accepted) := by
  cases accepted <;> rfl

/-- One turn of a descent: the plan is exhausted, or a chunk is proposed and settled. -/
theorem run_plan_succ (accepts : Nat → Job → Bool) (turns made : Nat) (job : Job)
    (memory : Memory) :
    Descent.run plan accepts (turns + 1) made job memory =
      match search (linesOf job) (standing job memory) with
      | .nothing position => ⟨[], job, memory.at position, some (.exhausted [])⟩
      | .chunk position stop =>
        let candidate := remove job position.cursor stop
        let accepted := accepts made candidate
        (Descent.run plan accepts turns (made + 1) (if accepted then candidate else job)
          (memory.settled position stop accepted)).after
            ⟨memory.proposing position stop, candidate, accepted⟩ := by
  have proposed : plan.propose job memory = _ := startingAt_propose job memory
  rw [Descent.run, proposed]
  cases search (linesOf job) (standing job memory) with
  | nothing position => rfl
  | chunk position stop =>
    have updated : plan.update (accepts made (remove job position.cursor stop))
        (memory.proposing position stop) = _ :=
      startingAt_update_proposing memory position stop _
    simp only [updated]

end LineChunk

end ShaderReduction
