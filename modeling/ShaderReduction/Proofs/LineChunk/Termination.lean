/-
This file proves that the line-chunk search ends, whatever it is told.

No single part of a position decreases: the cursor goes back to the first line in every pass, sizes
stop at one and stay there as long as passes make progress, and an acceptance leaves the cursor
where it is. `potential` weighs the lines that are left most, then the sizes that are left, then the
progress of the pass, then the lines ahead of the cursor. A search never raises it and every turn
lowers it: a rejection moves the cursor on, and an acceptance pays for the pass that it calls for
with a line, because candidates are shorter. So a descent makes no more turns than the potential it
starts with, which is within `attemptBound`.
-/

import Mathlib.Algebra.Order.Group.Nat
import ShaderReduction.Proofs.LineChunk.Removal
import ShaderReduction.Proofs.LineChunk.Search

namespace ShaderReduction

namespace LineChunk

/-! ### The turns of one search -/

/-- A search that is cut after a number of turns of its loop, if it has not ended by then. -/
def searchWithin (lines : List Text) : (turns : Nat) → Position → Option Finding
  | 0, _ => none
  | turns + 1, position =>
    if position.cursor < lines.length then
      if removable (sliceOf lines position.cursor (chunkEnd lines position)) = false then
        searchWithin lines turns { position with cursor := chunkEnd lines position }
      else some (.chunk position (chunkEnd lines position))
    else if 1 < position.size then searchWithin lines turns ⟨position.size / 2, 0, false⟩
    else if position.progress then searchWithin lines turns ⟨position.size, 0, false⟩
    else some (.nothing { position with cursor := 0 })

/-- A search ends after finitely many turns of its loop. -/
theorem exists_searchWithin_eq (lines : List Text) (position : Position) :
    ∃ turns, searchWithin lines turns position = some (search lines position) := by
  fun_induction search lines position with
  | case1 position inside kept inductionHypothesis =>
    obtain ⟨turns, ended⟩ := inductionHypothesis
    exact ⟨turns + 1, by rw [searchWithin, if_pos inside, if_pos kept, ended]⟩
  | case2 position inside removed =>
    exact ⟨1, by rw [searchWithin, if_pos inside, if_neg removed]⟩
  | case3 position outside large inductionHypothesis =>
    obtain ⟨turns, ended⟩ := inductionHypothesis
    exact ⟨turns + 1, by rw [searchWithin, if_neg outside, if_pos large, ended]⟩
  | case4 position outside small progress inductionHypothesis =>
    obtain ⟨turns, ended⟩ := inductionHypothesis
    exact ⟨turns + 1, by rw [searchWithin, if_neg outside, if_neg small, if_pos progress, ended]⟩
  | case5 position outside small idle =>
    exact ⟨1, by rw [searchWithin, if_neg outside, if_neg small, if_neg idle]⟩

theorem eq_search_of_searchWithin {lines : List Text} {turns : Nat} {position : Position}
    {finding : Finding} (found : searchWithin lines turns position = some finding) :
    finding = search lines position := by
  induction turns generalizing position with
  | zero => cases found
  | succ turns inductionHypothesis =>
    rw [searchWithin] at found
    rw [search]
    by_cases inside : position.cursor < lines.length
    · rw [if_pos inside] at found
      rw [dif_pos inside]
      split at found
      · next kept =>
        rw [if_pos kept]
        exact inductionHypothesis found
      · next removed =>
        rw [if_neg removed]
        exact (Option.some.inj found).symm
    · rw [if_neg inside] at found
      rw [dif_neg inside]
      split at found
      · next large =>
        rw [dif_pos large]
        exact inductionHypothesis found
      · next small =>
        rw [dif_neg small]
        split at found
        · next progress =>
          rw [if_pos progress]
          exact inductionHypothesis found
        · next idle =>
          rw [if_neg idle]
          exact (Option.some.inj found).symm

/-- The search, for which a number of turns of its loop are tried first. It is computed without a
look at why the search ends, if it ends within these turns. -/
def searchTrying (turns : Nat) (lines : List Text) (position : Position) : Finding :=
  (searchWithin lines turns position).getD (search lines position)

theorem search_eq_searchTrying (turns : Nat) : search = searchTrying turns := by
  funext lines position
  unfold searchTrying
  cases found : searchWithin lines turns position with
  | none => rfl
  | some finding => exact (eq_search_of_searchWithin found).symm

/-! ### The potential of a position -/

/-- What is left to do from a position on, with `count` lines left of at most `bound`. -/
def potential (bound count : Nat) (position : Position) : Nat :=
  count * (bound + 2) + position.size.toNat.log2 * (bound + 1) +
    (if position.progress then bound + 1 else 0) + (bound - position.cursor).toNat

theorem log2_halve {size : Int} (large : 1 < size) :
    size.toNat.log2 = (size / 2).toNat.log2 + 1 := by
  rw [Nat.log2_def, if_pos (by omega), show (size / 2).toNat = size.toNat / 2 by omega]

/-- A search does not raise the potential. -/
theorem potential_le_of_search {bound : Nat} {lines : List Text} {position found : Position}
    {stop : Int} (fits : lines.length ≤ bound) (forward : position.Forward)
    (result : search lines position = .chunk found stop) :
    potential bound lines.length found ≤ potential bound lines.length position := by
  fun_induction search lines position with
  | case1 position inside kept inductionHypothesis =>
    refine (inductionHypothesis (forward.skip inside) result).trans ?_
    have moved := (forward.chunkEnd inside).1
    unfold potential
    dsimp only
    omega
  | case2 position inside removed =>
    obtain ⟨rfl, rfl⟩ := Finding.chunk.inj result
    exact Nat.le_refl _
  | case3 position outside large inductionHypothesis =>
    refine (inductionHypothesis (Position.Forward.halve large) result).trans ?_
    unfold potential
    rw [log2_halve large, Nat.add_mul, Nat.one_mul]
    simp only [Bool.false_eq_true, if_false]
    omega
  | case4 position outside small progress inductionHypothesis =>
    refine (inductionHypothesis forward.again result).trans ?_
    unfold potential
    simp only [progress, Bool.false_eq_true, if_false, if_true]
    omega
  | case5 => cases result

/-- A rejection lowers the potential. -/
theorem potential_rejected_lt {bound : Nat} {lines : List Text} {found : Position}
    (fits : lines.length ≤ bound) (forward : found.Forward)
    (inside : found.cursor < lines.length) :
    potential bound lines.length { found with cursor := chunkEnd lines found } <
      potential bound lines.length found := by
  have moved := forward.chunkEnd inside
  unfold potential
  dsimp only
  omega

/-- An acceptance lowers the potential, because it takes a line away. -/
theorem potential_accepted_lt {bound count fewer : Nat} {found : Position}
    (shorter : fewer < count) :
    potential bound fewer { found with progress := true } < potential bound count found := by
  have lines : (fewer + 1) * (bound + 2) ≤ count * (bound + 2) := Nat.mul_le_mul_right _ shorter
  rw [Nat.add_mul, Nat.one_mul] at lines
  unfold potential
  simp only [if_true]
  omega

/-! ### Descents end -/

/-- The candidate of a search is shorter than its job. -/
theorem length_candidate_lt {job : Job} {position found : Position} {stop : Int}
    (forward : position.Forward) (result : search (linesOf job) position = .chunk found stop) :
    (linesOf (remove job found.cursor stop)).length < (linesOf job).length := by
  obtain ⟨foundForward, inside, rfl⟩ := forward_of_search forward result
  have ends := foundForward.chunkEnd inside
  exact length_linesOf_remove_lt ends.1 foundForward.cursor_nonneg ends.2

/-- A descent that may make more turns than its potential ends because the plan is exhausted. -/
theorem fault_run_of_potential_lt {bound : Nat} (accepts : Nat → Job → Bool) {turns made : Nat}
    {job : Job} {memory : Memory} (forward : (standing job memory).Forward)
    (fits : (linesOf job).length ≤ bound)
    (enough : potential bound (linesOf job).length (standing job memory) < turns) :
    (Descent.run plan accepts turns made job memory).fault = some (.exhausted []) := by
  induction turns generalizing made job memory with
  | zero => omega
  | succ turns inductionHypothesis =>
    rw [run_plan_succ]
    cases result : search (linesOf job) (standing job memory) with
    | nothing position => rfl
    | chunk found stop =>
      obtain ⟨foundForward, inside, rfl⟩ := forward_of_search forward result
      have unraised := potential_le_of_search fits forward result
      dsimp only
      cases accepts made (remove job found.cursor (chunkEnd (linesOf job) found)) with
      | false =>
        have lowered := potential_rejected_lt fits foundForward inside
        refine inductionHypothesis (foundForward.skip inside) fits ?_
        exact Nat.lt_of_lt_of_le lowered (unraised.trans (Nat.le_of_lt_succ enough))
      | true =>
        have shorter := length_candidate_lt forward result
        refine inductionHypothesis ⟨foundForward.size_pos, foundForward.cursor_nonneg⟩
          (shorter.le.trans fits) ?_
        exact Nat.lt_of_lt_of_le (potential_accepted_lt shorter)
          (unraised.trans (Nat.le_of_lt_succ enough))

theorem standing_start (initialSize : Option Int) (job : Job) :
    standing job (start initialSize) = ⟨firstSize initialSize (linesOf job), 0, false⟩ := rfl

/-- The potential of a plan that has proposed nothing yet is within the bound on its attempts. -/
theorem potential_start_le (initialSize : Option Int) (job : Job) :
    potential (linesOf job).length (linesOf job).length (standing job (start initialSize)) ≤
      attemptBound initialSize job := by
  rw [standing_start, potential, attemptBound]
  generalize (firstSize initialSize (linesOf job)).toNat.log2 = halvings
  generalize (linesOf job).length = count
  simp only [Bool.false_eq_true, if_false, Nat.add_mul, Nat.mul_add]
  omega

/-- Every search ends after finitely many turns of its loop, and every descent ends because the plan
is exhausted, within the bound on its attempts. -/
theorem exists_descent_exhausted (job : Job) (initialSize : Option Int)
    (allowed : ∀ size ∈ initialSize, 0 ≤ size) (accepts : Nat → Job → Bool) :
    (∀ (state : Job) (memory : Memory), ∃ turns,
      searchWithin (linesOf state) turns (standing state memory) =
        some (search (linesOf state) (standing state memory))) ∧
    ∃ turns ≤ attemptBound initialSize job + 1,
      (Descent.run plan accepts turns 0 job (start initialSize)).fault = some (.exhausted []) := by
  refine ⟨fun state memory => exists_searchWithin_eq _ _, _, Nat.le_refl _, ?_⟩
  refine fault_run_of_potential_lt accepts ⟨firstSize_pos allowed _, Int.le_refl 0⟩
    (Nat.le_refl _) ?_
  exact Nat.lt_succ_of_le (potential_start_le initialSize job)

/-- A job of three lines. -/
def threeLines : Job :=
  ⟨[], ⟨.object [], List.nodup_nil⟩, [⟨.fragment, "float a;\nfloat b;\nfloat c;\n"⟩]⟩

theorem exists_descent_exhausted_threeLines :
    (∀ size ∈ some (3 : Int), 0 ≤ size) ∧
      ∃ turns ≤ attemptBound (some 3) threeLines + 1,
        (Descent.run plan (fun made _ => made % 2 = 0) turns 0 threeLines (start (some 3))).fault =
          some (.exhausted []) :=
  have allowed : ∀ size ∈ some (3 : Int), 0 ≤ size := by decide
  ⟨allowed, (exists_descent_exhausted threeLines (some 3) allowed fun made _ => made % 2 = 0).2⟩

end LineChunk

end ShaderReduction
