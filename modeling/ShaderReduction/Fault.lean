/-
This file lists what can go wrong.

A `Fault` says what was wrong and with what; `message?` is the wording of those that are reported in
the library's own words. A fault that the file system reports, or one that comes from a value of the
wrong shape, is told apart by its kind alone. Every operation of the library that can fail fails
with one of these, so that a session that stops early stops with a reason.
-/

import ShaderReduction.Path
import ShaderReduction.Document.Display

namespace ShaderReduction

/-- A reason why an operation has no result. -/
inductive Fault where
  /-- A text is no document. -/
  | malformedDocument
  /-- A document is nested too deeply to be read or copied. -/
  | nestedTooDeep
  /-- A numeral has more digits than are read. -/
  | oversizedNumeral (digits : Nat)
  /-- A text is no numeral of an integer. -/
  | invalidNumeral (text : Text)
  /-- What stands in the place of the uniforms holds no descriptors. -/
  | shapelessUniforms
  /-- What stands in the place of a uniform's name is no text. -/
  | namelessUniform
  /-- There is no uniform of the name. -/
  | unknownUniform (name : Text)
  /-- The uniform has no binding. -/
  | unboundUniform (name : Text)
  /-- Bindings were to be added to uniforms that have some. -/
  | alreadyBound
  /-- Bindings were to be removed from uniforms that have none. -/
  | nothingBound
  /-- A descriptor cannot hold a binding because it is no object. -/
  | shapelessDescriptor
  /-- A descriptor has no binding that could be removed because it is no object. -/
  | rigidDescriptor
  /-- A binding that cannot be compared with others. -/
  | unusableBinding
  /-- Bindings that are neither an object nor pairs. -/
  | bindingsNotPairs
  /-- One of the bindings given as pairs has not two parts. -/
  | unpairedBinding (index length : Nat)
  /-- The job has no shader of the stage. -/
  | missingStage
  /-- A job's uniforms file holds a document that is no object. -/
  | uniformsNotObject (path : Path)
  /-- A job has no shader on disk. -/
  | noShaderFiles (path : Path)
  /-- The job that was to be moved does not exist. -/
  | missingJob (path : Path)
  /-- The place a job was to be moved to is taken. -/
  | occupiedJob (path : Path)
  /-- A path has no last step that could be renamed. -/
  | namelessPath (path : Path)
  /-- A text cannot be the name of a file. -/
  | invalidName (name : Text)
  /-- A path holds a null character. -/
  | nullInPath
  /-- There is nothing at a path. -/
  | notFound
  /-- A folder stands where a file is needed. -/
  | isFolder
  /-- A file stands where a folder is needed. -/
  | notFolder
  /-- Something stands where a folder was to be made. -/
  | alreadyExists
  /-- A folder cannot be moved to the place named. -/
  | unmovable
  /-- A name is longer than the file system allows. -/
  | nameTooLong
  /-- The bytes of a file are no text. -/
  | undecodable
  /-- A text has no encoding in bytes. -/
  | unencodable
  /-- An accepted job was produced again. -/
  | loop
  /-- A job that was rejected was then accepted. -/
  | loopAfterRejection (fingerprint : Text)
  /-- A job that was accepted was then rejected. -/
  | loopAfterAcceptance (fingerprint : Text)
  /-- The plan has nothing left to try. -/
  | exhausted (reason : Text)
  /-- The plan's transformation could not be applied. -/
  | inapplicable (reason : Text)
  /-- The plan was told about a candidate that it did not propose. -/
  | noPendingCandidate
  /-- There is no test to run. -/
  | noJudgeCommand
  /-- A part of the command of the test is no text. -/
  | commandNotText
  /-- The test gave no verdict on a job. -/
  | judgeFailed (path : Path) (reason : Text)
  /-- The time limit of the test is no number. -/
  | timeoutNotNumber
  /-- The time limit of the test is beyond every number. -/
  | timeoutTooLarge
  /-- A duration leads out of the calendar. -/
  | durationTooLong
  /-- The step limit is no number. -/
  | limitNotNumber
  /-- A settings file holds a document that is no object. -/
  | settingsNotObject (path : Text)
  /-- A settings file has keys that are no settings. -/
  | unknownSettings (path : Text) (keys : List Text)
  /-- A setting has a value that it cannot take. -/
  | unusableSetting
  /-- A quotation in a command is not closed. -/
  | openQuotation
  /-- A command ends in an escape. -/
  | openEscape
  /-- A place lies before the start of a text. -/
  | beforeStart
  /-- The session was given too few attempts to reach its end. -/
  | outOfAttempts
deriving Repr

namespace Fault

/-- A path as it is shown inside a message. -/
def shownPath (path : Path) : Text :=
  ("PosixPath(" : Text) ++ Document.displayText path.toText ++ (")" : Text)

/-- The wording of a fault, for those that have one. -/
def message? : Fault → Option Text
  | oversizedNumeral digits => some (
    ("Exceeds the limit (" : Text) ++ Text.ofNat Text.longestNumeral ++
    (" digits) for integer string conversion: value has " : Text) ++ Text.ofNat digits ++
    (" digits; use sys.set_int_max_str_digits() to increase the limit" : Text))
  | invalidNumeral text => some (("invalid literal for int() with base 10: " : Text) ++
    (Document.displayText text).take 200)
  | unboundUniform name => some (("Uniform '" : Text) ++ name ++ ("' has no binding" : Text))
  | alreadyBound => some "Uniforms already have bindings"
  | nothingBound => some "Uniforms have no bindings to remove"
  | unpairedBinding index length => some (
    ("dictionary update sequence element #" : Text) ++ Text.ofNat index ++
    (" has length " : Text) ++ Text.ofNat length ++ ("; 2 is required" : Text))
  | uniformsNotObject path => some (path.toText ++ (": uniforms must be a JSON object" : Text))
  | noShaderFiles path => some (("No shader files found for " : Text) ++ path.toText)
  | missingJob path => some (("Shader job not found: " : Text) ++ path.toText)
  | occupiedJob path => some (("Shader job already exists: " : Text) ++ path.toText)
  | namelessPath path => some (shownPath path ++ (" has an empty name" : Text))
  | invalidName name => some (("Invalid name " : Text) ++ Document.displayText name)
  | nullInPath => some "embedded null byte"
  | loop => some "Reduction loop detected!"
  | loopAfterRejection fingerprint =>
    some (("Reduction loop detected! " : Text) ++ fingerprint.take 12 ++ (" already failed" : Text))
  | loopAfterAcceptance fingerprint =>
    some (("Reduction loop detected! " : Text) ++ fingerprint.take 12 ++ (" already passed" : Text))
  | exhausted reason => some reason
  | inapplicable reason => some reason
  | noPendingCandidate => some "No pending candidate to update"
  | noJudgeCommand => some "No judge command configured"
  | judgeFailed path reason =>
    some (("Judge failed on " : Text) ++ path.toText ++ (": " : Text) ++ reason)
  | settingsNotObject path =>
    some (("Config file " : Text) ++ path ++ (" must contain a JSON object" : Text))
  | unknownSettings path keys =>
    some (("Unknown config keys in " : Text) ++ path ++ (": " : Text) ++ Text.joinWith ", " keys)
  | openQuotation => some "No closing quotation"
  | openEscape => some "No escaped character"
  | _ => none

end Fault

end ShaderReduction
