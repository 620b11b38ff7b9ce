/-
This file is the command line of the library: from its arguments to its exit code.

The settings file comes first, then the options that override it, each over what the file says. A
command for the test must come from one of the two. The exit code is zero when a final job was
written or help was asked for, one when the input is not interesting, and two when the arguments
cannot be used. Anything else that goes wrong is a fault.
-/

import ShaderReduction.CommandLine.Arguments
import ShaderReduction.CommandLine.Words
import ShaderReduction.Reduction

namespace ShaderReduction

namespace CommandLine

/-- The exit code of a refusal. -/
def Refusal.exitCode : Refusal → Nat
  | .help => 0
  | .usage => 2

/-- The settings with the options over them. -/
def overridden (settings : Settings) (arguments : Arguments) : Except Fault Settings := do
  let judgeCommand ←
    if arguments.judge = [] then pure settings.judgeCommand
    else (words arguments.judge).map fun parts => Document.array (parts.map .string)
  let flag (isSet : Bool) (setting : Document) : Document :=
    if isSet then .boolean true else setting
  return {
    outputFolder := arguments.output.getD settings.outputFolder
    stepLimit := arguments.stepLimit.getD settings.stepLimit
    continuePrevious := flag arguments.continuePrevious settings.continuePrevious
    emitDefinitions := flag arguments.emitDefinitions settings.emitDefinitions
    judgeCommand
    judgeTimeout := arguments.judgeTimeout.getD settings.judgeTimeout
    timeoutIsInteresting := flag arguments.timeoutIsInteresting settings.timeoutIsInteresting }

/-- The settings on which the options are laid: those of the settings file, if there is one. -/
def storedSettings (arguments : Arguments) : FileAction Settings :=
  match arguments.config with
  | none => Settings.load none
  | some (some path) => Settings.load (some path.toText)
  | some none => throw .unusableSetting

/-- The state of the command line: the state of the reduction that it runs. -/
abbrev State (JudgeMemory : Type) := Reduction.State LineChunk.Memory JudgeMemory

/-- Runs the command line with its arguments: the exit code, if nothing goes wrong. -/
def run {JudgeMemory : Type} (launcher : Launcher JudgeMemory) (texts : List Text) :
    Action (State JudgeMemory) Nat := do
  match readAll texts with
  | .error refusal => pure refusal.exitCode
  | .ok (job, arguments) =>
    let stored ← Reduction.onDirectory (storedSettings arguments)
    let settings ← Action.ofExcept (overridden stored arguments)
    if settings.judgeCommand.isGiven then
      let method := Reduction.usualMethod settings launcher
      let result ← Reduction.reduce settings method job
      pure (if result.notInteresting then 1 else 0)
    else pure Refusal.usage.exitCode

/-- The state in which the command line starts. -/
def startState {JudgeMemory : Type} (directory : Directory) (memory : JudgeMemory) :
    State JudgeMemory :=
  ⟨⟨directory, memory⟩, LineChunk.start none⟩

end CommandLine

end ShaderReduction
