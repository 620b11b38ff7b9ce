/-
This file proves what scripted judges and plans do.

A scripted judge changes no file but its result, and whatever it fails with comes from a file. A
script may hold transformations that do not apply. Those that stand between two other proposals fail
in a row; so how many fail in a row can be told for each part of a script by itself, where a
proposal that is no such transformation cuts it.
-/

import ShaderReduction.Proofs.JobFiles.Writing
import ShaderReduction.Proofs.JobFiles.Faults
import ShaderReduction.Proofs.Session.Judgements
import ShaderReduction.Replay

namespace ShaderReduction

namespace Replay

open ShaderReduction.Action Directory

/-! ### Scripted judges -/

/-- An action only reads files, and fails with faults of files only. -/
def ReadsFiles {Result : Type} (action : FileAction Result) : Prop :=
  Runs Eq Fault.OfFiles (fun _ => True) action

theorem readsFiles_fileHolds (path : Path) (word : Text) : ReadsFiles (fileHolds path word) := by
  refine (runs_of (FileAction.reads_isPresent path) (FileAction.fails_isPresent path)).bind
    fun present _ => ?_
  split
  · refine (runs_of (FileAction.reads_readBytes path) (FileAction.fails_readBytes path)).bind
      fun content _ => ?_
    split
    · exact runs_pure trivial
    · exact runs_throw trivial
  · exact runs_pure trivial

theorem readsFiles_jobHolds (job suffix word : Text) : ReadsFiles (jobHolds job suffix word) := by
  unfold jobHolds
  split
  · exact readsFiles_fileHolds _ word
  · exact runs_pure trivial

theorem readsFiles_check (job : Text) (rule : Rule) : ReadsFiles (rule.check job) := by
  cases rule with
  | holds suffix word => exact readsFiles_jobHolds job suffix word
  | lacks suffix word =>
    exact Runs.bind (readsFiles_jobHolds job suffix word) fun _ _ => runs_pure trivial

theorem readsFiles_checkAll (job : Text) (rules : List Rule) :
    ReadsFiles (checkAll job rules) := by
  induction rules with
  | nil => exact runs_pure trivial
  | cons rule rules inductionHypothesis =>
    refine Runs.bind (readsFiles_check job rule) fun fits _ => ?_
    split
    · exact inductionHypothesis
    · exact runs_pure trivial

/-- What a scripted judge does changes no file but one, and fails with faults of files only. -/
def WritesOnly (path : Path) {Result : Type} (action : Action (Bench JudgeMemory) Result) : Prop :=
  Runs (Bench.OnDirectory (ChangesAt (· = path))) Fault.OfFiles (fun _ => True) action

theorem writesOnly_get (path : Path) :
    WritesOnly path (get : Action (Bench JudgeMemory) (Bench JudgeMemory)) :=
  runs_of respects_get fails_get

theorem writesOnly_remember (path : Path) (change : JudgeMemory → JudgeMemory) :
    WritesOnly path (Bench.remember change) :=
  runs_of (fun before => ChangesAt.refl before.directory) (fails_modify _)

theorem writesOnly_writeText (path : Path) (text : Text) :
    WritesOnly path (Bench.onDirectory (FileAction.writeText path text)) :=
  runs_of (Bench.respects_onDirectory (FileAction.changesAt_writeText path text))
    (Fails.onPart (FileAction.fails_writeText path text))

theorem writesOnly_verdictByRules (path : Path) (rules : List Rule) (job : Path) :
    WritesOnly path (verdictByRules rules job) := by
  have checks : WritesOnly path (Bench.onDirectory (checkAll job.toText rules)) := fun bench =>
    (readsFiles_checkAll job.toText rules bench.directory).onPart
      fun directory same => same ▸ ChangesAt.refl bench.directory
  exact Runs.bind checks fun _ _ => runs_pure trivial

/-- A scripted judge changes no file but its result, and fails with faults of files only. -/
theorem writesOnly_report_scriptedJudge (rules : List Rule) (writesResult : Bool)
    (job result : Path) :
    WritesOnly result ((scriptedJudge rules writesResult).report job result) := by
  refine Runs.bind (writesOnly_remember result _) fun _ _ => ?_
  -- With and without a result, what comes last is the answer.
  cases writesResult
  rotate_left
  refine Runs.bind (writesOnly_get result) fun bench _ =>
    Runs.bind (writesOnly_writeText result _) fun _ _ => ?_
  all_goals
    refine Runs.bind (writesOnly_get result) fun bench _ => ?_
    split
    · exact Runs.bind (writesOnly_remember result _) fun _ _ => runs_pure trivial
    · exact Runs.bind (writesOnly_verdictByRules result rules job) fun _ _ => runs_pure trivial

theorem fails_report_scriptedJudge (rules : List Rule) (writesResult : Bool) (job result : Path) :
    Fails Fault.OfFiles ((scriptedJudge rules writesResult).report job result) :=
  fun bench fault _ failed =>
    have runs := writesOnly_report_scriptedJudge rules writesResult job result bench
    (runs.of_eq failed).2.1 fault rfl

theorem writesOnlyResult_scriptedJudge (rules : List Rule) (writesResult : Bool) :
    (scriptedJudge rules writesResult).WritesOnlyResult :=
  fun job result bench =>
    (writesOnly_report_scriptedJudge rules writesResult job result bench).related

/-! ### Transformations that do not apply -/

/-- The proposal is no transformation that does not apply. -/
def Proposal.applies : Proposal → Bool
  | inapplicable _ => false
  | _ => true

/-- A script without the transformations that do not apply. -/
def applicable (script : List Proposal) : List Proposal := script.filter Proposal.applies

/-- Somewhere among some answers of a plan, so many transformations in a row do not apply. -/
def FailsInARow (count : Nat) (answers : List Proposal) : Prop :=
  ∃ failed, failed <:+: answers ∧ failed.length = count ∧
    ∀ proposal ∈ failed, proposal.applies = false

theorem applicable_of_fails {failed : List Proposal}
    (fails : ∀ proposal ∈ failed, proposal.applies = false) : applicable failed = [] :=
  List.filter_eq_nil_iff.2 fun proposal member => by simp [fails proposal member]

/-- A script does not begin with a transformation that does not apply. -/
def StartsApplicable (script : List Proposal) : Prop :=
  ∀ proposal ∈ script.head?, proposal.applies = true

theorem startsApplicable_applicable (script : List Proposal) :
    StartsApplicable (applicable script) :=
  fun _ first => (List.mem_filter.1 (List.mem_of_mem_head? first)).2

theorem tail_applicable {script : List Proposal} (ready : StartsApplicable script) :
    (applicable script).tail = applicable script.tail := by
  cases script with
  | nil => rfl
  | cons proposal script => rw [applicable, List.filter_cons_of_pos (ready proposal rfl)]; rfl

/-- A script begins with a limited number of transformations that do not apply, and then with
another proposal unless it is at the limit. -/
theorem exists_failed_append (limit : Nat) (script : List Proposal) :
    ∃ failed left, script = failed ++ left ∧ (∀ proposal ∈ failed, proposal.applies = false) ∧
      (failed.length = limit ∨ (failed.length < limit ∧ StartsApplicable left)) := by
  induction limit generalizing script with
  | zero => exact ⟨[], script, rfl, fun _ member => absurd member List.not_mem_nil, .inl rfl⟩
  | succ limit inductionHypothesis =>
    by_cases ready : StartsApplicable script
    · exact ⟨[], script, rfl, fun _ member => absurd member List.not_mem_nil,
        .inr ⟨limit.succ_pos, ready⟩⟩
    · cases script with
      | nil => exact absurd (fun _ first => nomatch first) ready
      | cons proposal script =>
        have fails : proposal.applies = false := by
          rw [← Bool.not_eq_true]
          exact fun applies => ready fun _ first => Option.some.inj first ▸ applies
        obtain ⟨failed, left, rfl, rest, ended⟩ := inductionHypothesis script
        refine ⟨proposal :: failed, left, rfl, List.forall_mem_cons.2 ⟨fails, rest⟩, ?_⟩
        exact ended.imp (congrArg Nat.succ) (And.imp_left Nat.succ_lt_succ)

/-- A word that an item is not in stands before it or after it. -/
theorem infix_append_cons_iff {Item : Type} {word before after : List Item} {item : Item}
    (absent : item ∉ word) :
    word <:+: before ++ item :: after ↔ word <:+: before ∨ word <:+: after := by
  have isPrefix : ∀ front, word <+: front ++ item :: after → word <+: front := by
    intro front within
    rw [List.append_cons] at within
    rcases List.prefix_or_prefix_of_prefix within (List.prefix_append _ _) with short | long
    · rcases List.prefix_concat_iff.1 short with rfl | shorter
      · exact absurd (List.mem_append_right _ List.mem_cons_self) absent
      · exact shorter
    · exact absurd (long.subset (List.mem_append_right _ List.mem_cons_self)) absent
  constructor
  · intro within
    induction before with
    | nil =>
      rcases List.infix_cons_iff.1 within with first | later
      · exact .inl (isPrefix [] first).isInfix
      · exact .inr later
    | cons point before inductionHypothesis =>
      rcases List.infix_cons_iff.1 within with first | later
      · exact .inl (isPrefix (point :: before) first).isInfix
      · exact (inductionHypothesis later).imp List.infix_cons id
  · rintro (inBefore | inAfter)
    · exact inBefore.trans (List.prefix_append _ _).isInfix
    · exact inAfter.trans ((List.suffix_cons item after).trans (List.suffix_append _ _)).isInfix

section FailsInARow

variable {count : Nat} {answers more : List Proposal}

/-- A proposal that is no such transformation ends every row. -/
theorem failsInARow_append_cons_iff {proposal : Proposal} (applies : proposal.applies = true) :
    FailsInARow count (answers ++ proposal :: more) ↔
      FailsInARow count answers ∨ FailsInARow count more := by
  have absent : ∀ failed : List Proposal, (∀ other ∈ failed, other.applies = false) →
      proposal ∉ failed := by
    intro failed fails member
    rw [fails proposal member] at applies
    cases applies
  constructor
  · rintro ⟨failed, within, length, fails⟩
    exact ((infix_append_cons_iff (absent failed fails)).1 within).imp
      (fun inAnswers => ⟨failed, inAnswers, length, fails⟩)
      fun inMore => ⟨failed, inMore, length, fails⟩
  · rintro (⟨failed, within, length, fails⟩ | ⟨failed, within, length, fails⟩)
    · exact ⟨failed, (infix_append_cons_iff (absent failed fails)).2 (.inl within), length, fails⟩
    · exact ⟨failed, (infix_append_cons_iff (absent failed fails)).2 (.inr within), length, fails⟩

theorem not_failsInARow_of_length_lt (short : answers.length < count) :
    ¬FailsInARow count answers := by
  rintro ⟨failed, within, length, -⟩
  have most := within.length_le
  omega

theorem failsInARow_of_fails (fails : ∀ proposal ∈ answers, proposal.applies = false) :
    FailsInARow answers.length answers :=
  ⟨answers, List.infix_refl answers, rfl, fails⟩

end FailsInARow

end Replay

end ShaderReduction
