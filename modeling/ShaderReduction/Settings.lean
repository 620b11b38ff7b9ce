/-
This file defines the settings of a reduction and reads them from a file.

A settings file is an object whose members are settings by name; those that it does not name keep
their defaults. Values are stored as they are and looked at only when they are used, so a step limit
that is no number is accepted here. Two settings are looked at once a file is read: the output
folder must be a text, and the parts of the command are displayed as text.
-/

import ShaderReduction.Directory

namespace ShaderReduction

/-- The settings of a reduction: the folder of its files, if it is one, the limit on its attempts,
whether it goes on from the trail in that folder, whether macro definitions are written, the command
of the test, its time limit in milliseconds, and whether a test that runs out of time finds the job
interesting. -/
structure Settings where
  outputFolder : Option Path
  stepLimit : Document
  continuePrevious : Document
  emitDefinitions : Document
  judgeCommand : Document
  judgeTimeout : Document
  timeoutIsInteresting : Document

namespace Settings

/-- The settings of a reduction that names none. -/
def default : Settings :=
  { outputFolder := some (Path.ofText "./reduction")
    stepLimit := .integer (-1)
    continuePrevious := .boolean false
    emitDefinitions := .boolean false
    judgeCommand := .array []
    judgeTimeout := .integer 60000
    timeoutIsInteresting := .boolean false }

instance : Inhabited Settings := ⟨default⟩

/-- The names of the settings. -/
def known : List Text :=
  ["output_dir", "step_limit", "continue_previous", "emit_graphicsfuzz_defines", "judge_command",
    "judge_timeout", "timeout_is_interesting"]

/-- The folder of the files of a reduction. -/
def folder (settings : Settings) : Except Fault Path :=
  match settings.outputFolder with
  | some path => .ok path
  | none => .error .unusableSetting

/-- The names of members that are no settings, in ascending order. -/
def unknownNames (members : Members) : List Text :=
  Text.sort ((Table.keys members).filter fun name => !known.contains name)

/-- The settings that members name, with their values taken as they are. -/
def ofMembers (members : Members) : Settings :=
  let given (name : Text) (otherwise : Document) : Document :=
    (Table.find? name members).getD otherwise
  { outputFolder :=
      match Table.find? ("output_dir" : Text) members with
      | some document => document.text?.map Path.ofText
      | none => default.outputFolder
    stepLimit := given "step_limit" default.stepLimit
    continuePrevious := given "continue_previous" default.continuePrevious
    emitDefinitions := given "emit_graphicsfuzz_defines" default.emitDefinitions
    judgeCommand := given "judge_command" default.judgeCommand
    judgeTimeout := given "judge_timeout" default.judgeTimeout
    timeoutIsInteresting := given "timeout_is_interesting" default.timeoutIsInteresting }

/-- The settings that members name, all of which must be known. -/
def ofKnown (members : Members) : Except Fault Settings :=
  if (unknownNames members).isEmpty then .ok (ofMembers members) else .error .unusableSetting

/-! ### Settings files -/

/-- The command that a document gives, with its parts displayed. -/
def displayedCommand (document : Document) : Except Fault Document :=
  match document.parts? with
  | some parts => .ok (.array (parts.map fun part => .string part.display))
  | none => .error .unusableSetting

/-- The settings of a file whose names are all known. -/
def ofStored (members : Members) : Except Fault Settings := do
  let settings := ofMembers members
  let _ ← settings.folder
  match Table.find? ("judge_command" : Text) members with
  | some document => return { settings with judgeCommand := ← displayedCommand document }
  | none => return settings

/-- The settings in a document, named in messages as `source`. -/
def ofDocument (source : Text) : Document → Except Fault Settings
  | .object members =>
    let unknown := unknownNames members
    if unknown.isEmpty then ofStored members else .error (.unknownSettings source unknown)
  | _ => .error (.settingsNotObject source)

/-- The settings in the file that a text names, or the defaults if none is named. The text is
followed as it is spelled, and no text names nothing. -/
def load : Option Text → FileAction Settings
  | none => pure default
  | some source => do
    if source = [] then throw .notFound
    let document ← FileAction.readDocument (Path.spelled source)
    Action.ofExcept (ofDocument source document)

end Settings

end ShaderReduction
