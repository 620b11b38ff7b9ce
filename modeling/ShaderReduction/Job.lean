/-
This file defines shader jobs: one program variant with everything that is stored of it.

A job has a license text, its uniforms and the texts of its shaders, each of one stage. Jobs are
values; every step of a reduction makes a new one. A job is bound when its uniforms are, and its
bound and free forms differ in the declarations of its shaders as well as in the descriptors of its
uniforms.
-/

import ShaderReduction.Uniforms
import ShaderReduction.Declaration
import ShaderReduction.Macro

namespace ShaderReduction

/-- A stage of the graphics pipeline. -/
inductive Stage where
  | vertex
  | fragment
  | compute
deriving DecidableEq, Repr

namespace Stage

/-- The stages in the order in which their files are read and listed. -/
def all : List Stage := [vertex, fragment, compute]

/-- The suffix of the file of a stage. -/
def suffix : Stage → Text
  | vertex => ".vert"
  | fragment => ".frag"
  | compute => ".comp"

/-- The stage with a suffix. -/
def ofSuffix? (suffix : Text) : Option Stage := all.find? fun stage => stage.suffix = suffix

end Stage

/-- The text of one stage. -/
structure Shader where
  stage : Stage
  text : Text
deriving DecidableEq

namespace Shader

/-- The lines of a shader. -/
def lines (shader : Shader) : List Text := shader.text.lines

end Shader

/-- One program variant. -/
structure Job where
  license : Text
  uniforms : Uniforms
  shaders : List Shader
deriving Inhabited

namespace Job

/-- Whether a uniform of the job is bound. -/
def hasBindings (job : Job) : Except Fault Bool := job.uniforms.hasBindings

/-- The job with other shaders. -/
def withShaders (job : Job) (shaders : List Shader) : Job := { job with shaders }

/-- The job with the text of every shader changed. -/
def mapTexts (job : Job) (change : Text → Text) : Job :=
  job.withShaders (job.shaders.map fun shader => { shader with text := change shader.text })

/-- The job with uniforms in their bound form, and with its declarations bound as they are. -/
def boundBy (job : Job) (uniforms : Uniforms) : Except Fault Job := do
  let bindings ← uniforms.bindings
  return { job with uniforms }.mapTexts (Declaration.bindPlain bindings)

/-- The bound form of a free job. -/
def withBindings (job : Job) (given : Bindings) : Except Fault Job := do
  job.boundBy (← job.uniforms.withBindings given)

/-- The bound form of a free job, with the bindings that a document gives. -/
def withBindingsBy (job : Job) (document : Document) : Except Fault Job := do
  job.boundBy (← job.uniforms.withBindingsBy document)

/-- The free form of a bound job. -/
def withoutBindings (job : Job) : Except Fault Job := do
  let uniforms ← job.uniforms.withoutBindings
  return { job with uniforms }.mapTexts (Declaration.unbindBlocks (← uniforms.names))

/-- The first shader of a stage. -/
def shader (job : Job) (stage : Stage) : Except Fault Shader :=
  match job.shaders.find? fun shader => shader.stage = stage with
  | some shader => .ok shader
  | none => .error .missingStage

/-- How many lines the shaders have together. -/
def lineCount (job : Job) : Nat := (job.shaders.flatMap Shader.lines).length

/-- The job without the macros of transformed shaders. -/
def simplify (job : Job) : Job := job.mapTexts Macro.simplify

/-- Whether two jobs have the same license, the same shaders and equal uniforms. -/
def equals (left right : Job) : Bool :=
  left.license == right.license && left.uniforms.equals right.uniforms &&
    left.shaders == right.shaders

/-- Whether two jobs have the same parts to take a hash from. -/
def sameHash (left right : Job) : Bool :=
  left.license == right.license && left.uniforms.hashText == right.uniforms.hashText &&
    left.shaders == right.shaders

end Job

end ShaderReduction
