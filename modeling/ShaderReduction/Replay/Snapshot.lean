/-
This file makes directories from lists of files and lists the files of a directory.

It is how a directory enters the library and leaves it: each file is written to its path in folders
that are made for it, and what comes out is every file in the working folder with its path.
-/

import ShaderReduction.Directory

namespace ShaderReduction

namespace Snapshot

/-- The directory with a folder at a path. -/
def withFolder (path : Path) (directory : Directory) : Directory :=
  ((FileAction.ensureFolder path).startingAt directory).2

/-- Writes a file, in folders that are made for it. -/
def writeFile (path : Path) (content : Bytes) : FileAction Unit := do
  FileAction.ensureFolder path.parent
  FileAction.writeBytes path content

/-- The directory with a file at a path. -/
def withFile (path : Path) (content : Bytes) (directory : Directory) : Directory :=
  ((writeFile path content).startingAt directory).2

/-- The directory of some files and folders. -/
def ofFiles (files : List (Path × Bytes)) (folders : List Path) : Directory :=
  let filled := files.foldl (fun directory file => withFile file.1 file.2 directory) Directory.empty
  folders.foldl (fun directory path => withFolder path directory) filled

/-- Whether a location is in the working folder. -/
def isInside (location : Location) : Bool :=
  location.head? != some (".." : Text) && location.head? != some ("/" : Text)

/-- The files in the working folder with the spellings of their paths. -/
def files (directory : Directory) : List (Text × Bytes) :=
  (directory.files.filter fun file => isInside file.1).map fun file =>
    (Text.joinWith "/" file.1, file.2)

end Snapshot

end ShaderReduction
