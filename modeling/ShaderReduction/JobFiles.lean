/-
This file stores shader jobs in the directory.

The job named by a path has up to six files: its uniforms at the path, which ends in `.json`; beside
them the license and the three stages under the same base name, of which only those exist that the
job has; and the result that a judge leaves. `read` and `write` pass between a job and its files,
`move` renames a job with its result and leaves nothing of a job that was in its place, and
`fingerprint` is the digest of the files without the result.

What is fed to the digest is `fingerprintInput`: for every file that exists, in a fixed order, its
suffix and its content, each closed by a zero byte.
-/

import ShaderReduction.Directory
import ShaderReduction.Digest
import ShaderReduction.Job

namespace ShaderReduction

/-- How jobs are stored: whether the block of macro definitions is put into the shaders that are
written, and by which digest the contents of jobs are told apart. -/
structure Storage where
  emitDefinitions : Bool
  digest : Bytes → Text

namespace Storage

/-- Storage with the usual digest. -/
def usual (emitDefinitions : Bool) : Storage := ⟨emitDefinitions, Digest.hexadecimal⟩

end Storage

namespace JobFiles

/-! ### The files of a job -/

/-- The suffix of a license file. -/
def licenseSuffix : Text := ".license"

/-- The ending of the name of a result file. -/
def resultEnding : Text := ".info.json"

/-- The path without the suffix of its name. -/
def base (path : Path) : Except Fault Path :=
  if path.name = [] then .error (.namelessPath path) else .ok (path.rename path.stem)

/-- The path beside another one whose name has something more at its end. -/
def sibling (base : Path) (ending : Text) : Except Fault Path :=
  if base.name = [] then .error (.namelessPath base)
  else if Path.isName (base.name ++ ending) then .ok (base.rename (base.name ++ ending))
  else .error (.invalidName (base.name ++ ending))

/-- The path of the result that a judge leaves of a job. -/
def result (path : Path) : Except Fault Path :=
  if path.name = [] then .error (.namelessPath path)
  else .ok (path.rename (path.stem ++ resultEnding))

/-- The suffixes of the files beside the uniforms, in order. -/
def suffixes : List Text := licenseSuffix :: Stage.all.map Stage.suffix

/-! ### Reading -/

/-- The shaders of the given stages that exist. -/
def readShaders (base : Path) : List Stage → FileAction (List Shader)
  | [] => pure []
  | stage :: stages => do
    let path ← Action.ofExcept (sibling base stage.suffix)
    if ← FileAction.isPresent path then
      let text ← FileAction.readText path
      let shaders ← readShaders base stages
      pure (⟨stage, Definitions.strip text⟩ :: shaders)
    else readShaders base stages

/-- The job at a path. -/
def read (path : Path) : FileAction Job := do
  match ← FileAction.readDocument path with
  | .object members =>
    let base ← Action.ofExcept (base path)
    let shaders ← readShaders base Stage.all
    if shaders.isEmpty then throw (.noShaderFiles path)
    let licensePath ← Action.ofExcept (sibling base licenseSuffix)
    let license ←
      if ← FileAction.isPresent licensePath then FileAction.readText licensePath else pure []
    let uniforms ← Action.ofExcept (Uniforms.ofDocument (.object members))
    pure ⟨license, uniforms, shaders⟩
  | _ => throw (.uniformsNotObject path)

/-! ### Writing -/

/-- Removes the shaders of the given stages. -/
def removeShaders (base : Path) : List Stage → FileAction Unit
  | [] => pure ()
  | stage :: stages => do
    FileAction.removeIfPresent (← Action.ofExcept (sibling base stage.suffix))
    removeShaders base stages

/-- The text of a shader as it is stored. -/
def storedText (storage : Storage) (shader : Shader) : Text :=
  if storage.emitDefinitions then Definitions.insert shader.text else shader.text

/-- Writes shaders, each to the file of its stage. -/
def writeShaders (storage : Storage) (base : Path) : List Shader → FileAction Unit
  | [] => pure ()
  | shader :: shaders => do
    let path ← Action.ofExcept (sibling base shader.stage.suffix)
    FileAction.writeText path (storedText storage shader)
    writeShaders storage base shaders

/-- Writes a job to a path, in place of any job there. -/
def write (storage : Storage) (job : Job) (path : Path) : FileAction Unit := do
  let base ← Action.ofExcept (base path)
  FileAction.writeDocument path job.uniforms.document
  removeShaders base Stage.all
  writeShaders storage base job.shaders
  let licensePath ← Action.ofExcept (sibling base licenseSuffix)
  if job.license = [] then FileAction.removeIfPresent licensePath
  else FileAction.writeText licensePath job.license

/-! ### Listing and fingerprints -/

/-- The files of a job that may exist, the result apart, in order. -/
def candidates (path : Path) : Except Fault (List Path) := do
  let base ← base path
  let others ← suffixes.mapM (sibling base)
  return path :: others

/-- Those of the paths at which something is. -/
def present : List Path → FileAction (List Path)
  | [] => pure []
  | path :: paths => do
    if ← FileAction.isPresent path then return path :: (← present paths) else present paths

/-- The files of a job that exist, the result apart, in order. -/
def list (path : Path) : FileAction (List Path) := do
  present (← Action.ofExcept (candidates path))

/-- What files contribute to a fingerprint. -/
def fingerprintParts : List Path → FileAction Bytes
  | [] => pure []
  | path :: paths => do
    let suffix ←
      match Utf8.encode? path.suffix with
      | some bytes => pure bytes
      | none => throw .unencodable
    let content ← FileAction.readBytes path
    return suffix ++ [0] ++ content ++ [0] ++ (← fingerprintParts paths)

/-- The bytes from which the fingerprint of a job is taken. -/
def fingerprintInput (path : Path) : FileAction Bytes := do fingerprintParts (← list path)

/-- The fingerprint of the job at a path, which depends on the contents of its files alone. -/
def fingerprint (storage : Storage) (path : Path) : FileAction Text := do
  return storage.digest (← fingerprintInput path)

/-! ### Moving -/

/-- Removes the files at some paths. -/
def removeAll : List Path → FileAction Unit
  | [] => pure ()
  | path :: paths => do
    FileAction.remove path
    removeAll paths

/-- Moves what is at the first path of each pair to the second. -/
def moveAll : List (Path × Path) → FileAction Unit
  | [] => pure ()
  | (source, target) :: moves => do
    if ← FileAction.isPresent source then FileAction.move source target
    moveAll moves

/-- The pairs of paths between which the files of a job are moved. -/
def moves (source target : Path) : Except Fault (List (Path × Path)) := do
  let sourceBase ← base source
  let targetBase ← base target
  let results := (← result source, ← result target)
  let others ← suffixes.mapM fun suffix =>
    return (← sibling sourceBase suffix, ← sibling targetBase suffix)
  return (source, target) :: results :: others

/-- Moves a job and its result to another path. A job that is there is removed if `overwrite` allows
it. -/
def move (source target : Path) (overwrite : Bool) : FileAction Unit := do
  unless ← FileAction.isPresent source do throw (.missingJob source)
  if ← FileAction.isPresent target then
    unless overwrite do throw (.occupiedJob target)
  removeAll (← list target)
  moveAll (← Action.ofExcept (moves source target))

end JobFiles

end ShaderReduction
