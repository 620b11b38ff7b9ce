/-
This file defines the directory on which the library works, and the operations on it.

A directory is a table from locations to what is there: a folder, or a file with its bytes. A
location is the list of names that lead to it from the working folder. The working folder, the
folders above it and the root always exist, and nothing else is known to be outside of it. A path is
followed step by step, as a file system follows it: every step but the last must lead through a
folder, and a step back leads to the folder above.

Each operation is an action that fails with the fault that a file system reports. A path is first
looked at as a whole: its names must have an encoding and hold no null character, and it must not be
too long. Text is written in UTF-8 as it is, and read with every line end made a line feed; a file
that is opened for writing is emptied first, so it stays empty when its text turns out to have no
encoding.
-/

import ShaderReduction.Action
import ShaderReduction.Document.Reader
import ShaderReduction.Table
import ShaderReduction.Text.Utf8
import ShaderReduction.Text.Lines

namespace ShaderReduction

/-- What may stand at a location. -/
inductive Node where
  | folder
  | file (content : Bytes)
deriving DecidableEq, Repr

/-- The names that lead from the working folder to a node. Locations above the working folder are
made of steps back, and those that do not lead from it begin with the root. -/
abbrev Location := List Text

/-- The nodes that are not above the working folder. -/
structure Directory where
  nodes : Table Location Node
deriving Repr, Inhabited

namespace Directory

/-- The directory with nothing in it. -/
def empty : Directory := ⟨[]⟩

/-- The location of the root. -/
def root : Location := ["/"]

/-- Whether a location is made of steps back, as those of the working folder and above it are. -/
def isAbove (location : Location) : Bool := location.all (· = (".." : Text))

/-- What stands at a location. -/
def node? (directory : Directory) (location : Location) : Option Node :=
  if isAbove location || location == root then some .folder
  else Table.find? location directory.nodes

/-- The location of the folder that holds what is at a location. -/
def above (location : Location) : Location :=
  if location = root then root
  else if isAbove location then location ++ [(".." : Text)]
  else location.dropLast

/-- The directory with a node at a location. -/
def put (location : Location) (node : Node) (directory : Directory) : Directory :=
  ⟨Table.put location node directory.nodes⟩

/-- The directory without what stands at a location. -/
def erase (location : Location) (directory : Directory) : Directory :=
  ⟨Table.erase location directory.nodes⟩

/-- The names in the folder at a location, in ascending order. -/
def namesIn (directory : Directory) (location : Location) : List Text :=
  Text.sort <| directory.nodes.filterMap fun entry =>
    match entry.1.getLast? with
    | some name => if entry.1.dropLast = location then some name else none
    | none => none

/-- The rest of a location that leads on from another one. -/
def below? (upper : Location) (location : Location) : Option Location :=
  if upper.isPrefixOf location then some (location.drop upper.length) else none

/-- The directory with what stands at and below a location moved to another one, and nothing else
there. -/
def transfer (source target : Location) (directory : Directory) : Directory :=
  if source = target then directory
  else
    let moved := directory.nodes.filterMap fun entry =>
      (below? source entry.1).map fun rest => (target ++ rest, entry.2)
    let kept := directory.nodes.filter fun entry =>
      (below? source entry.1).isNone && (below? target entry.1).isNone
    ⟨kept ++ moved⟩

/-- The files of a directory with their locations. -/
def files (directory : Directory) : List (Location × Bytes) :=
  directory.nodes.filterMap fun entry =>
    match entry.2 with
    | .folder => none
    | .file content => some (entry.1, content)

/-! ### Following a path -/

/-- The longest name of a node, in bytes. -/
def longestName : Nat := 255

/-- The longest path, in bytes. -/
def longestPath : Nat := 4095

/-- How many bytes a name takes. -/
def nameSize (name : Text) : Nat :=
  name.foldl (fun size point =>
    match point with
    | .scalar character => size + character.utf8Size
    | .surrogate _ => size + 1) 0

/-- Whether a name has an encoding: the halves of surrogate pairs from U+DC80 to U+DCFF stand for
single bytes, and the others for nothing. -/
def isEncodable (name : Text) : Bool :=
  name.all fun point =>
    match point with
    | .scalar _ => true
    | .surrogate offset => 0x480 ≤ offset.val && offset.val ≤ 0x4FF

/-- Whether a name holds a null character. -/
def hasNull (name : Text) : Bool := name.contains (.scalar (Char.ofNat 0))

/-- What is wrong with a name, if anything is. -/
def nameFault? (name : Text) : Option Fault :=
  if !isEncodable name then some .unencodable
  else if hasNull name then some .nullInPath
  else none

/-- The location that steps lead to from a location on. Every step needs a folder to start from. -/
def follow (directory : Directory) (location : Location) : List Text → Except Fault Location
  | [] => .ok location
  | step :: steps =>
    match directory.node? location with
    | none => .error .notFound
    | some (.file _) => .error .notFolder
    | some .folder =>
      if step = ("." : Text) then directory.follow location steps
      else if step = (".." : Text) then directory.follow (above location) steps
      else if longestName < nameSize step then .error .nameTooLong
      else directory.follow (location ++ [step]) steps

/-- The location that a path names. -/
def locate (directory : Directory) (path : Path) : Except Fault Location :=
  if !path.steps.all isEncodable then .error .unencodable
  else if path.steps.any hasNull then .error .nullInPath
  else if longestPath < nameSize path.toText then .error .nameTooLong
  else directory.follow (if path.slashes = 0 then [] else root) path.steps

end Directory

/-- An action on the directory. -/
abbrev FileAction (Result : Type) := Action Directory Result

namespace FileAction

open Directory

/-- The location that a path names now. -/
def locate (path : Path) : FileAction Location := do
  Action.ofExcept ((← get).locate path)

/-- What stands at a path, if anything. -/
def find (path : Path) : FileAction (Option Node) := do
  let directory ← get
  match directory.locate path with
  | .ok location => pure (directory.node? location)
  | .error .nameTooLong => throw .nameTooLong
  | .error _ => pure none

/-- What stands at a path, if that can be found out. -/
def findAtAll (path : Path) : FileAction (Option Node) := do
  let directory ← get
  match directory.locate path with
  | .ok location => pure (directory.node? location)
  | .error _ => pure none

/-- Whether anything stands at a path. -/
def isPresent (path : Path) : FileAction Bool := do return (← find path).isSome

/-- The bytes of the file at a path. -/
def readBytes (path : Path) : FileAction Bytes := do
  let location ← locate path
  match (← get).node? location with
  | none => throw .notFound
  | some .folder => throw .isFolder
  | some (.file content) => pure content

/-- The text of the file at a path. -/
def readText (path : Path) : FileAction Text := do
  match Utf8.decode? (← readBytes path) with
  | some text => pure text.normalizeLineEnds
  | none => throw .undecodable

/-- The document in the file at a path. -/
def readDocument (path : Path) : FileAction Document := do
  Action.ofExcept (Document.read (← readText path))

/-- Makes the file at a path hold some bytes, in a folder that exists. -/
def writeBytes (path : Path) (content : Bytes) : FileAction Unit := do
  let location ← locate path
  match (← get).node? location with
  | some .folder => throw .isFolder
  | _ => modify (Directory.put location (.file content))

/-- Makes the file at a path hold a text. -/
def writeText (path : Path) (text : Text) : FileAction Unit := do
  writeBytes path []
  match Utf8.encode? text with
  | some content => writeBytes path content
  | none => throw .unencodable

/-- Makes the file at a path hold a document on many lines. -/
def writeDocument (path : Path) (document : Document) : FileAction Unit :=
  writeText path (document.indented ++ [.scalar '\n'])

/-- Removes the file at a path. -/
def remove (path : Path) : FileAction Unit := do
  let location ← locate path
  match (← get).node? location with
  | none => throw .notFound
  | some .folder => throw .isFolder
  | some (.file _) => modify (Directory.erase location)

/-- Removes the file at a path if anything is there. -/
def removeIfPresent (path : Path) : FileAction Unit := do
  if ← isPresent path then remove path

/-- Makes an empty file at a path, unless something is there. -/
def touch (path : Path) : FileAction Unit := do
  let location ← locate path
  match (← get).node? location with
  | none => modify (Directory.put location (.file []))
  | some _ => pure ()

/-- The names in the folder at a path, in ascending order. -/
def list (path : Path) : FileAction (List Text) := do
  let location ← locate path
  let directory ← get
  match directory.node? location with
  | none => throw .notFound
  | some (.file _) => throw .notFolder
  | some .folder => pure (directory.namesIn location)

/-! ### Folders -/

/-- Makes one folder, for which the folder above must exist. -/
def makeFolder (path : Path) : FileAction Unit := do
  let location ← locate path
  match (← get).node? location with
  | some _ => throw .alreadyExists
  | none => modify (Directory.put location .folder)

/-- Fails with a fault unless there is a folder at a path. -/
def failUnlessFolder (path : Path) (fault : Fault) : FileAction Unit := do
  match ← find path with
  | some .folder => pure ()
  | _ => throw fault

/-- Makes a folder with the given number of the steps of a path. If the way to it is missing, that
is made first, step by step and also where a later step leads back. -/
def ensureSteps (path : Path) : (count : Nat) → FileAction Unit
  | 0 =>
    let here : Path := { path with steps := [] }
    tryCatch (makeFolder here) (failUnlessFolder here)
  | count + 1 =>
    let here : Path := { path with steps := path.steps.take (count + 1) }
    tryCatch (makeFolder here) fun fault =>
      match fault with
      | .notFound => do
        ensureSteps path count
        tryCatch (makeFolder here) (failUnlessFolder here)
      | other => failUnlessFolder here other

/-- Makes the folder at a path and every folder above it that is missing. A folder that exists is
left alone. -/
def ensureFolder (path : Path) : FileAction Unit := ensureSteps path path.steps.length

/-! ### Moving -/

/-- The place at which something that is moved to a path ends: inside a folder that is there, under
its own name. -/
def destination (source target : Path) : FileAction Path := do
  match ← findAtAll target with
  | some .folder =>
    if (← locate source) = (← locate target) then pure target
    else
      let inside := target.join source.name
      if (← findAtAll inside).isSome then throw .unmovable
      pure inside
  | _ => pure target

/-- Moves a file with its content over whatever file is at its destination. -/
def moveFile (source target : Location) (content : Bytes) : FileAction Unit :=
  if source = target then pure ()
  else modify fun directory => (directory.erase source).put target (.file content)

/-- Moves a folder to a location in a folder that exists. -/
def moveFolderTo (source target : Location) : FileAction Unit := do
  let directory ← get
  if target = source then pure ()
  else if (below? source target).isSome then throw .unmovable
  else if (directory.node? target).isSome then throw .alreadyExists
  else set (directory.transfer source target)

/-- Moves a folder to a path whose way is missing, making the folders on it. -/
def moveFolderFar (source : Location) (target : Path) : FileAction Unit := do
  ensureFolder target.parent
  makeFolder target
  let location ← locate target
  modify (Directory.transfer source location)

/-- Moves a folder to a path. A path that leads on from the folder is no place for it. -/
def moveFolder (source target final : Path) : FileAction Unit := do
  let location ← locate source
  match (← get).locate final with
  | .ok place => moveFolderTo location place
  | .error .unencodable => throw .unencodable
  | .error .nullInPath => throw .nullInPath
  | .error fault =>
    if target.straighten.isWithin source.straighten then throw .unmovable
    match fault with
    | .notFound => moveFolderFar location final
    | other => throw other

/-- Moves what stands at a path to another path. -/
def move (source target : Path) : FileAction Unit := do
  let final ← destination source target
  let location ← locate source
  match (← get).node? location with
  | none => throw .notFound
  | some .folder => moveFolder source target final
  | some (.file content) => moveFile location (← locate final) content

end FileAction

end ShaderReduction
