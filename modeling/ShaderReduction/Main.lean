/-
This file is the program: the command line, rehearsed on a directory and a test that are given
beforehand.

The standard input holds one document with the members `files`, the texts of the files by path, and
`exits`, the exit codes of the test in the order of its runs. The program runs the command line with
its own arguments on them, prints the files that there are afterwards as one document, and exits
with the exit code of the command line, or with three and the reason if something went wrong.
-/

import ShaderReduction.CommandLine
import ShaderReduction.Replay
import ShaderReduction.Replay.Snapshot

namespace ShaderReduction

namespace Rehearsal

/-- The characters of a text, for printing. -/
def toString (text : Text) : String :=
  String.ofList (text.map fun point =>
    match point with
    | .scalar character => character
    | .surrogate _ => Char.ofNat 0xFFFD)

/-- The member of an object with a name. -/
def member (name : Text) : Document → Document
  | .object members => (Table.find? name members).getD .null
  | _ => .null

/-- The directory that a rehearsal starts in. -/
def directory (document : Document) : Directory :=
  match member "files" document with
  | .object members =>
    let files := members.filterMap fun (path, content) =>
      match content with
      | .string text => (Utf8.encode? text).map fun bytes => (Path.ofText path, bytes)
      | _ => none
    Snapshot.ofFiles files []
  | _ => Directory.empty

/-- The outcomes of the test in a rehearsal. -/
def outcomes (document : Document) : List (RunOutcome × Double) :=
  match member "exits" document with
  | .array codes =>
    codes.filterMap fun code =>
      code.integer?.map fun code => (.exited code [] [], .ofQuotient false 0 1)
  | _ => []

/-- The document of the files that there are. -/
def filesDocument (directory : Directory) : Document :=
  .object <| (Snapshot.files directory).map fun (path, bytes) =>
    (path, .string (Utf8.decodeReplacing bytes))

/-- The exit code of a rehearsal with the given arguments, and what it prints. -/
def run (arguments : List Text) (document : Document) : Nat × Text :=
  let start := CommandLine.startState (directory document)
    (Replay.LauncherMemory.start (outcomes document))
  let (result, state) := CommandLine.run (Replay.scriptedLauncher []) arguments start
  match result with
  | .ok code => (code, (filesDocument state.bench.directory).indented)
  | .error fault => (3, fault.message?.getD "The reduction failed.")

end Rehearsal

end ShaderReduction

open ShaderReduction in
/-- Runs the rehearsal that the standard input describes. -/
def main (arguments : List String) : IO UInt32 := do
  let input ← (← IO.getStdin).readToEnd
  let document := (Document.read (Text.ofString input)).toOption.getD .null
  let (code, text) := Rehearsal.run (arguments.map Text.ofString) document
  IO.println (Rehearsal.toString text)
  return UInt32.ofNat code
