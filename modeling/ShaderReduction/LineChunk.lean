/-
This file defines the plan that removes chunks of consecutive lines.

The lines of all shaders form one list. The plan starts with the largest power of two that is not
above the number of lines and walks a cursor over the list, proposing to drop a chunk of that many
lines at the cursor. After an acceptance the cursor stays, since other lines have moved under it;
after a rejection it moves past the chunk. At the end of a pass the size is halved; at size one the
passes are repeated until one makes no progress. A chunk is proposed only if it has no version line
and its braces are balanced.

The search within one proposal ends because the size, then the progress, then what is ahead of the
cursor decreases. Sizes and cursors are integers: a size that is not positive walks backwards, as a
list is cut from its end.
-/

import ShaderReduction.Plan

namespace ShaderReduction

/-! ### Cutting a list -/

/-- The place in a list of a length that an index names, one below zero counting from the end. -/
def placeOf (length : Nat) (index : Int) : Nat :=
  if index < 0 then ((length : Int) + index).toNat else min index.toNat length

/-- The items of a list between two indices. -/
def sliceOf {Item : Type} (items : List Item) (start stop : Int) : List Item :=
  (items.drop (placeOf items.length start)).take
    (placeOf items.length stop - placeOf items.length start)

theorem sliceOf_eq_nil {Item : Type} {items : List Item} {start stop : Int} (ordered : stop ≤ start)
    (sameSide : start < 0 ∨ 0 ≤ stop) : sliceOf items start stop = [] := by
  have places : placeOf items.length stop ≤ placeOf items.length start := by
    unfold placeOf
    split <;> split <;> omega
  simp [sliceOf, Nat.sub_eq_zero_of_le places]

namespace LineChunk

/-! ### Chunks -/

/-- The depth of braces after a line that starts at a depth, if it never closes a brace that is not
open. -/
def depthAfter? : (depth : Nat) → Text → Option Nat
  | depth, [] => some depth
  | depth, point :: line =>
    if point = .scalar '\x7b' then depthAfter? (depth + 1) line
    else if point = .scalar '\x7d' then
      match depth with
      | 0 => none
      | depth + 1 => depthAfter? depth line
    else depthAfter? depth line

/-- Whether lines that start at a depth of braces keep every version line and end at depth zero. -/
def removableAt : (depth : Nat) → List Text → Bool
  | depth, [] => depth == 0
  | depth, line :: lines =>
    if Definitions.isVersionLine line then false
    else
      match depthAfter? depth line with
      | none => false
      | some depth => removableAt depth lines

/-- Whether a chunk may go: it has no version line and its braces are balanced. -/
def removable (chunk : List Text) : Bool := removableAt 0 chunk

/-- The largest power of two that is at most an integer, and one if there is none. -/
def largestPowerOfTwo (bound : Int) : Int := if bound ≤ 1 then 1 else Nat.pow 2 bound.toNat.log2

/-! ### Lines of a job -/

/-- The lines of all shaders, each with the index of its shader. -/
def flatten (job : Job) : List (Nat × Text) :=
  (job.shaders.zipIdx).flatMap fun (shader, index) => shader.lines.map fun line => (index, line)

/-- The lines of all shaders. -/
def linesOf (job : Job) : List Text := (flatten job).map Prod.snd

/-- The text of a shader after some of its lines are gone. It ends in a line feed if it did so
before and has a line left. -/
def keepLines (shader : Shader) (lines : List Text) : Shader :=
  let text := Text.joinWith "\n" lines
  let closed := !lines.isEmpty && shader.text.getLast? == some (.scalar '\n')
  { shader with text := if closed then text ++ ("\n" : Text) else text }

/-- The flattened lines that stay when those from one position to before another go. -/
def outside (start stop : Int) (lines : List (Nat × Text)) : List (Nat × Text) :=
  (lines.zipIdx.filter fun (_, position) => !(start ≤ position && (position : Int) < stop)).map
    Prod.fst

/-- The job without the flattened lines from one position to before another. -/
def remove (job : Job) (start stop : Int) : Job :=
  let kept := outside start stop (flatten job)
  job.withShaders <| job.shaders.zipIdx.map fun (shader, index) =>
    keepLines shader ((kept.filter fun line => line.1 = index).map Prod.snd)

/-! ### The search for a chunk -/

/-- Where a search stands: the size of the chunks, the cursor, and whether the pass has made
progress. -/
structure Position where
  size : Int
  cursor : Int
  progress : Bool
deriving DecidableEq, Repr

/-- What a search ends with: a chunk from the cursor to before `stop`, or nothing. -/
inductive Finding where
  | chunk (position : Position) (stop : Int)
  | nothing (position : Position)

/-- The end of the chunk at the cursor. -/
def chunkEnd (lines : List Text) (position : Position) : Int :=
  min (position.cursor + position.size) lines.length

/-- How far the cursor still has to go. A cursor that walks backwards has one step to take until
every chunk is empty. -/
def ahead (lines : List Text) (position : Position) : Nat :=
  if 0 < position.size then ((lines.length : Int) - position.cursor).toNat
  else if 0 ≤ position.cursor then 1 else 0

theorem ahead_chunkEnd_lt {lines : List Text} {position : Position}
    (inside : position.cursor < lines.length)
    (kept : removable (sliceOf lines position.cursor (chunkEnd lines position)) = false) :
    ahead lines { position with cursor := chunkEnd lines position } < ahead lines position := by
  unfold ahead
  by_cases positive : 0 < position.size
  · simp only [positive, if_true]
    unfold chunkEnd
    omega
  · simp only [positive, if_false]
    have crossing : ¬(position.cursor < 0 ∨ 0 ≤ chunkEnd lines position) := by
      intro sameSide
      have ordered : chunkEnd lines position ≤ position.cursor := by
        unfold chunkEnd
        omega
      rw [sliceOf_eq_nil ordered sameSide] at kept
      simp [removable, removableAt] at kept
    split <;> split <;> omega

/-- The first chunk from a position on that may go. At the end of the lines the next pass begins,
with chunks of half the size, or of the same size if that is one already and the pass made
progress. -/
def search (lines : List Text) (position : Position) : Finding :=
  if inside : position.cursor < lines.length then
    if removable (sliceOf lines position.cursor (chunkEnd lines position)) = false then
      search lines { position with cursor := chunkEnd lines position }
    else .chunk position (chunkEnd lines position)
  else if large : 1 < position.size then search lines ⟨position.size / 2, 0, false⟩
  else if position.progress then search lines ⟨position.size, 0, false⟩
  else .nothing { position with cursor := 0 }
termination_by (position.size.toNat, position.progress.toNat, ahead lines position)
decreasing_by
  · next kept => exact .right _ (.right _ (ahead_chunkEnd_lt inside kept))
  · refine .left _ _ ?_
    show (position.size / 2).toNat < position.size.toNat
    omega
  · next progress =>
    refine .right _ (.left _ _ ?_)
    show false.toNat < position.progress.toNat
    rw [progress]
    decide

/-! ### The plan -/

/-- The memory of the plan: the size to start with, the size in use once there is one, the cursor,
the chunk proposed last, and whether the pass has made progress. -/
structure Memory where
  initialSize : Option Int
  size : Option Int
  cursor : Int
  pending : Option (Int × Int)
  progress : Bool
deriving DecidableEq, Repr

/-- The memory of a plan that has proposed nothing yet. -/
def start (initialSize : Option Int) : Memory := ⟨initialSize, none, 0, none, false⟩

/-- The size of the first chunks of a plan for some lines. -/
def firstSize (initialSize : Option Int) (lines : List Text) : Int :=
  match initialSize with
  | some size => if size = 0 then largestPowerOfTwo lines.length else size
  | none => largestPowerOfTwo lines.length

/-- Proposes the job without the next chunk that may go. -/
def propose (job : Job) : Action Memory Job := do
  let memory ← get
  let lines := linesOf job
  let size := memory.size.getD (firstSize memory.initialSize lines)
  match search lines ⟨size, memory.cursor, memory.progress⟩ with
  | .chunk position stop =>
    set { memory with
      size := some position.size
      cursor := position.cursor
      pending := some (position.cursor, stop)
      progress := position.progress }
    pure (remove job position.cursor stop)
  | .nothing position =>
    set { memory with
      size := some position.size
      cursor := position.cursor
      progress := position.progress }
    throw (.exhausted [])

/-- Notes whether the chunk proposed last was accepted. -/
def update (accepted : Bool) : Action Memory Unit := do
  let memory ← get
  match memory.pending with
  | none => throw .noPendingCandidate
  | some (_, stop) =>
    if accepted then set { memory with pending := none, progress := true }
    else set { memory with pending := none, cursor := stop }

/-- The plan that removes chunks of consecutive lines. -/
def plan : Plan Memory := ⟨propose, update⟩

/-- More candidates than the plan proposes for a job, whatever it is told: in every pass at most one
rejection for each line, at most one acceptance for each line altogether, and a pass for each
halving and for each acceptance. -/
def attemptBound (initialSize : Option Int) (job : Job) : Nat :=
  let lines := linesOf job
  let count := lines.length
  let passes := (firstSize initialSize lines).toNat.log2 + count + 3
  count + passes * (count + 1)

end LineChunk

end ShaderReduction
