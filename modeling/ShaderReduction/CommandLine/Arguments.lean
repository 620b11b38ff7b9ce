/-
This file reads the arguments of the command line.

An argument that begins with a dash is an option, unless it is a lone dash, a negative number, or
follows a lone double dash; one that holds a blank and names no option is no option either. Long
options may be shortened as long as only one option begins so, and may carry their value after an
equals sign. Short options may carry it directly or after an equals sign, and what a short flag
carries are the letters of further short options. A lone double dash that an option carries gives it
nothing. A value that is expected but not there, a value that a flag does not take, a number that
cannot be read, an option that is not known or not unique, and a missing or second job are usage
errors. Asking for help ends the reading at once, but not before the options of its own argument are
known.
-/

import ShaderReduction.Numeral

namespace ShaderReduction

namespace CommandLine

/-! ### Options -/

/-- The options of the command line. -/
inductive Opt where
  | help
  | judge
  | output
  | stepLimit
  | continuePrevious
  | emitDefinitions
  | judgeTimeout
  | timeoutIsInteresting
  | config
  | verbose
deriving DecidableEq, Repr

/-- The spellings of the options. -/
def spellings : List (Text × Opt) :=
  [("-h", .help), ("--help", .help), ("--judge", .judge), ("-o", .output), ("--output", .output),
    ("--step-limit", .stepLimit), ("--continue-previous-reduction", .continuePrevious),
    ("--emit-graphicsfuzz-defines", .emitDefinitions), ("--judge-timeout", .judgeTimeout),
    ("--timeout-is-interesting", .timeoutIsInteresting), ("--config", .config),
    ("-v", .verbose), ("--verbose", .verbose)]

/-- Whether an option takes a value. -/
def Opt.takesValue : Opt → Bool
  | .judge | .output | .stepLimit | .judgeTimeout | .config => true
  | _ => false

/-- The option with exactly a spelling. -/
def spelled? (spelling : Text) : Option Opt :=
  (spellings.find? fun entry => entry.1 = spelling).map Prod.snd

/-! ### What an argument is -/

/-- An argument as it is understood by itself: a value, an option in one of its spellings with the
text that it carries, an option that is not known, or the lone double dash. -/
inductive Argument where
  | value (text : Text)
  | opt (opt : Opt) (isShort : Bool) (carried : Option Text)
  | unknown
  | separator

/-- Whether a text looks like a negative number: a minus, and digits, or digits, a point and digits.
A line feed may stand at its end. -/
def isNegativeNumber : Text → Bool
  | .scalar '-' :: rest =>
    let number := if rest.getLast? = some (.scalar '\n') then rest.dropLast else rest
    let whole := number.takeWhile CodePoint.isDigit
    match number.dropWhile CodePoint.isDigit with
    | [] => !whole.isEmpty
    | .scalar '.' :: places => !places.isEmpty && places.all CodePoint.isDigit
    | _ => false
  | _ => false

/-- A text cut at its first equals sign, if it has one. -/
def cutAtEquals (text : Text) : Text × Option Text :=
  match text.dropWhile (· ≠ .scalar '=') with
  | [] => (text, none)
  | _ :: value => (text.takeWhile (· ≠ .scalar '='), some value)

/-- Whether a spelling is of the short kind, with one dash. -/
def isShortSpelling (spelling : Text) : Bool := spelling[1]? != some (.scalar '-')

/-- The options that an argument which is no exact spelling may stand for: a short option with what
it carries, or every long option that begins so. -/
def candidates (text : Text) : List Argument :=
  if isShortSpelling text then
    spellings.filterMap fun (spelling, opt) =>
      if spelling = text.take 2 then some (.opt opt true (some (text.drop 2))) else none
  else
    let (start, carried) := cutAtEquals text
    spellings.filterMap fun (spelling, opt) =>
      if spelling.startsWith start then some (.opt opt false carried) else none

/-- What an argument before a double dash is by itself. None stands for one that may be several
options. -/
def classify? (text : Text) : Option Argument :=
  match text with
  | .scalar '-' :: _ :: _ =>
    match spelled? text with
    | some opt => some (.opt opt (isShortSpelling text) none)
    | none =>
      let (start, carried) := cutAtEquals text
      match carried.bind fun _ => spelled? start with
      | some opt => some (.opt opt (isShortSpelling start) carried)
      | none =>
        match candidates text with
        | [argument] => some argument
        | _ :: _ :: _ => none
        | [] =>
          if isNegativeNumber text || text.contains (.scalar ' ') then some (.value text)
          else some .unknown
  | _ => some (.value text)

/-- What arguments are by themselves. Everything after a double dash is a value. -/
def classifyAll? : List Text → Option (List Argument)
  | [] => some []
  | text :: texts =>
    if text = ("--" : Text) then some (.separator :: texts.map .value)
    else do
      let argument ← classify? text
      let arguments ← classifyAll? texts
      some (argument :: arguments)

/-! ### The options of one argument -/

/-- The options that one argument stands for: flags, then at most one option that takes a value,
which it may carry. -/
structure Taken where
  flags : List Opt
  valued : Option (Opt × Option Text)

/-- The taken options with one more flag before them. -/
def Taken.after (flag : Opt) (taken : Taken) : Taken := { taken with flags := flag :: taken.flags }

/-- The options that letters after a short flag stand for. Each letter must be one, up to an option
that takes a value: what follows that is its value. -/
def takeLetters? : Text → Option Taken
  | [] => some ⟨[], none⟩
  | letter :: letters => do
    let opt ← spelled? [.scalar '-', letter]
    if opt.takesValue then some ⟨[], some (opt, if letters = [] then none else some letters)⟩
    else (takeLetters? letters).map (Taken.after opt)

/-- The options that an argument stands for. A short flag carries further short options, and a long
one nothing. -/
def take? (opt : Opt) (isShort : Bool) (carried : Option Text) : Option Taken :=
  if opt.takesValue then some ⟨[], some (opt, carried)⟩
  else
    match carried with
    | none => some ⟨[opt], none⟩
    | some letters =>
      if isShort && !letters.isEmpty then (takeLetters? letters).map (Taken.after opt) else none

/-! ### Reading all arguments -/

/-- What the arguments say. The command is empty if none is given. A path may be given as nothing,
and a number is a setting, an empty array if it is given as nothing. -/
structure Arguments where
  job : Option Path
  judge : Text
  output : Option (Option Path)
  stepLimit : Option Document
  continuePrevious : Bool
  emitDefinitions : Bool
  judgeTimeout : Option Document
  timeoutIsInteresting : Bool
  config : Option (Option Path)

/-- Why arguments are not read to their end. -/
inductive Refusal where
  | help
  | usage
deriving DecidableEq, Repr

/-- Arguments that say nothing. -/
def Arguments.empty : Arguments := ⟨none, [], none, none, false, false, none, false, none⟩

/-- The text that an option is given, if it is not given nothing. -/
def given? (text : Text) : Option Text := if text = ("--" : Text) then none else some text

/-- The setting that an option for a number is given. -/
def numberGiven (text : Text) : Except Refusal Document :=
  match given? text with
  | none => .ok (.array [])
  | some numeral =>
    match Numeral.readInteger numeral with
    | .ok value => .ok (.integer value)
    | .error _ => .error .usage

/-- The arguments with an option that was given a value. -/
def Arguments.withValue (arguments : Arguments) (text : Text) : Opt → Except Refusal Arguments
  | .judge => .ok { arguments with judge := (given? text).getD [] }
  | .output => .ok { arguments with output := some ((given? text).map Path.ofText) }
  | .config => .ok { arguments with config := some ((given? text).map Path.ofText) }
  | .stepLimit => do return { arguments with stepLimit := some (← numberGiven text) }
  | .judgeTimeout => do return { arguments with judgeTimeout := some (← numberGiven text) }
  | _ => .error .usage

/-- The arguments with a flag. -/
def Arguments.withFlag (arguments : Arguments) : Opt → Except Refusal Arguments
  | .help => .error .help
  | .continuePrevious => .ok { arguments with continuePrevious := true }
  | .emitDefinitions => .ok { arguments with emitDefinitions := true }
  | .timeoutIsInteresting => .ok { arguments with timeoutIsInteresting := true }
  | .verbose => .ok arguments
  | _ => .error .usage

/-- The reading so far: what the arguments say, and whether something was given that has no
place. -/
structure Progress where
  arguments : Arguments
  surplus : Bool

/-- The arguments after the job, without a double dash that follows it directly. -/
def afterJob : List Argument → List Argument
  | .separator :: rest => rest
  | rest => rest

theorem length_afterJob_le (rest : List Argument) : (afterJob rest).length ≤ rest.length := by
  unfold afterJob
  split <;> simp

/-- Reads arguments in turn. An option that takes a value and carries none has the argument after
it, which must be a value. -/
def readEach (progress : Progress) : List Argument → Except Refusal Progress
  | [] => .ok progress
  | .value text :: rest =>
    match progress.arguments.job with
    | some _ => readEach { progress with surplus := true } rest
    | none =>
      have := length_afterJob_le rest
      readEach
        { progress with arguments := { progress.arguments with job := some (Path.ofText text) } }
        (afterJob rest)
  | .separator :: rest =>
    readEach { progress with surplus := progress.surplus || progress.arguments.job.isSome } rest
  | .unknown :: rest => readEach { progress with surplus := true } rest
  | .opt opt isShort carried :: rest =>
    match take? opt isShort carried with
    | none => .error .usage
    | some taken =>
      let flagged := taken.flags.foldlM Arguments.withFlag progress.arguments
      match taken.valued with
      | none => do readEach { progress with arguments := ← flagged } rest
      | some (valued, some text) => do
        readEach { progress with arguments := ← (← flagged).withValue text valued } rest
      | some (valued, none) =>
        match rest with
        | .value text :: others => do
          readEach { progress with arguments := ← (← flagged).withValue text valued } others
        | _ => .error .usage
termination_by arguments => arguments.length

/-- What arguments say, with the job. -/
def readAll (texts : List Text) : Except Refusal (Path × Arguments) :=
  match classifyAll? texts with
  | none => .error .usage
  | some classified => do
    let progress ← readEach ⟨Arguments.empty, false⟩ classified
    match progress.arguments.job with
    | some job => if progress.surplus then throw .usage else pure (job, progress.arguments)
    | none => throw .usage

end CommandLine

end ShaderReduction
