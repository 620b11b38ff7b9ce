/-
This file names the steps of a reduction and reads the trail that they leave.

Every attempt leaves a job named for the reduced one, with the number of the attempt in at least
four digits and the outcome. The trail is the list of the judged steps found in a folder, in the
order of their numbers; it is the record of a reduction and says where an interrupted one goes on.
The numbers are read as numbers, in the digits of any script, so longer numbers come after shorter
ones.
-/

import ShaderReduction.Scanner
import ShaderReduction.Directory

namespace ShaderReduction

/-- How a judged step ended. -/
inductive Outcome where
  | accepted
  | rejected
deriving DecidableEq, Repr

namespace Outcome

/-- The outcome of a verdict. -/
def ofVerdict (interesting : Bool) : Outcome := if interesting then accepted else rejected

/-- The tag of an outcome in the name of a step. -/
def tag : Outcome → Text
  | accepted => "success"
  | rejected => "fail"

end Outcome

/-- A judged step found in a folder. -/
structure StepRecord where
  attempt : Nat
  outcome : Outcome
  path : Path
deriving DecidableEq

namespace Trail

open Scanner

/-! ### Names -/

/-- The file that marks an input that is not interesting. -/
def notInterestingMarker : Text := "NOT_INTERESTING"

/-- The file that marks a reduction that was stopped by its step limit. -/
def incompleteMarker : Text := "REDUCTION_INCOMPLETE"

/-- The name of the job of an attempt. -/
def stepName (base : Text) (attempt : Int) : Text :=
  base ++ ("_reduced_" : Text) ++ Text.ofIntPadded 4 attempt

/-- The name of the job of an attempt with an indicator, if there is one to show. -/
def taggedName (base : Text) (attempt : Int) (indicator : Text) : Text :=
  if indicator = [] then stepName base attempt
  else stepName base attempt ++ ("_" : Text) ++ indicator

/-- The name of the job of an attempt that was judged. -/
def judgedName (base : Text) (attempt : Int) (outcome : Outcome) : Text :=
  taggedName base attempt outcome.tag

/-- The name of the final job. -/
def finalName (base : Text) : Text := base ++ ("_reduced_final" : Text)

/-- The name of the file of a job. -/
def fileName (name : Text) : Text := name ++ (".json" : Text)

/-! ### Reading names -/

/-- The number that digits of any script stand for. -/
def numberOf (digits : Text) : Nat :=
  digits.foldl (fun value digit => value * 10 + digit.digit?.getD 0) 0

/-- The number of an attempt, which has four digits or more. -/
def attemptNumber : Scanner Nat := fun text =>
  match digits text with
  | some reading =>
    if 4 ≤ reading.value.length then some { reading with value := numberOf reading.value } else none
  | none => none

/-- The tag of an outcome. -/
def outcomeTag : Scanner Outcome := fun text =>
  match literal Outcome.accepted.tag text with
  | some reading => some { reading with value := .accepted }
  | none =>
    (literal Outcome.rejected.tag text).map fun reading => { reading with value := .rejected }

/-- The end of a name, at which a line feed may still stand. -/
def nameEnd : Scanner Unit :=
  otherwise atEnd do
    let _ ← literal "\n"
    atEnd

/-- The name of the file of a judged step, as its number and outcome. -/
def stepFile (base : Text) : Scanner (Nat × Outcome) := do
  let _ ← literal base
  let _ ← literal "_reduced_"
  let attempt ← attemptNumber
  let _ ← literal "_"
  let outcome ← outcomeTag
  let _ ← literal ".json"
  let _ ← nameEnd
  pure (attempt, outcome)

/-- The number and outcome that the name of a file tells, if it is the name of a judged step. -/
def readStep? (base name : Text) : Option (Nat × Outcome) :=
  (stepFile base name).map Reading.value

/-! ### The trail in a folder -/

/-- The records of the judged steps among some names. -/
def recordsOf (folder : Path) (base : Text) (names : List Text) : List StepRecord :=
  let found := names.filterMap fun name =>
    (readStep? base name).map fun (attempt, outcome) =>
      { attempt, outcome, path := { folder with steps := folder.steps ++ [name] } : StepRecord }
  found.mergeSort fun left right => left.attempt ≤ right.attempt

/-- The records of the judged steps in a folder, in the order of their numbers. -/
def records (folder : Path) (base : Text) : FileAction (List StepRecord) := do
  return recordsOf folder base (← FileAction.list folder)

/-- Where an interrupted reduction goes on: after which attempt, and from which job. -/
structure ResumePoint where
  offset : Nat
  path : Option Path

/-- The point at which a trail ends: its greatest number, and the last step that was accepted. -/
def resumePointOf (records : List StepRecord) : ResumePoint :=
  let accepted := records.filter fun record => record.outcome = .accepted
  ⟨(records.getLast?.map StepRecord.attempt).getD 0, accepted.getLast?.map StepRecord.path⟩

/-- The point at which the trail in a folder ends. -/
def resumePoint (folder : Path) (base : Text) : FileAction ResumePoint := do
  return resumePointOf (← records folder base)

end Trail

end ShaderReduction
