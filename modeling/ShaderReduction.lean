import ShaderReduction.Descent
import ShaderReduction.Main
import ShaderReduction.Proofs.Allocation
import ShaderReduction.Proofs.Bindings
import ShaderReduction.Proofs.Conversion
import ShaderReduction.Proofs.Declaration.Rebinding
import ShaderReduction.Proofs.Directory.Distinct
import ShaderReduction.Proofs.Directory.Faults
import ShaderReduction.Proofs.Directory.Files
import ShaderReduction.Proofs.Directory.Folder
import ShaderReduction.Proofs.Document.Canonical
import ShaderReduction.Proofs.FileText
import ShaderReduction.Proofs.Insertion
import ShaderReduction.Proofs.JobFiles.Moving
import ShaderReduction.Proofs.JobFiles.Names
import ShaderReduction.Proofs.JobFiles.Reading
import ShaderReduction.Proofs.JobFiles.Renaming
import ShaderReduction.Proofs.JobFiles.Replacement
import ShaderReduction.Proofs.JobFiles.Restoring
import ShaderReduction.Proofs.JobFiles.RoundTrip
import ShaderReduction.Proofs.JobFiles.Separation
import ShaderReduction.Proofs.JobFiles.Writing
import ShaderReduction.Proofs.LineChunk.Candidates
import ShaderReduction.Proofs.LineChunk.Exactness
import ShaderReduction.Proofs.LineChunk.Minimality
import ShaderReduction.Proofs.LineChunk.Shape
import ShaderReduction.Proofs.LineChunk.Termination
import ShaderReduction.Proofs.Macro.Nesting
import ShaderReduction.Proofs.Macro.Simplification
import ShaderReduction.Proofs.Macro.Splitting
import ShaderReduction.Proofs.Macro.Trees
import ShaderReduction.Proofs.Reduction.Noting
import ShaderReduction.Proofs.Reduction.Requests
import ShaderReduction.Proofs.Reduction.Results
import ShaderReduction.Proofs.Reduction.Resumption
import ShaderReduction.Proofs.Reduction.Reuse
import ShaderReduction.Proofs.Reduction.Sizes
import ShaderReduction.Proofs.Reduction.Stages
import ShaderReduction.Proofs.Replay
import ShaderReduction.Proofs.Session.Accounting
import ShaderReduction.Proofs.Session.Advancing
import ShaderReduction.Proofs.Session.BoundForms
import ShaderReduction.Proofs.Session.Confinement
import ShaderReduction.Proofs.Session.Course
import ShaderReduction.Proofs.Session.Detection
import ShaderReduction.Proofs.Session.FinalJob
import ShaderReduction.Proofs.Session.Gains
import ShaderReduction.Proofs.Session.GivingUp
import ShaderReduction.Proofs.Session.Noting
import ShaderReduction.Proofs.Session.Record
import ShaderReduction.Proofs.Session.Results
import ShaderReduction.Proofs.Session.Retrying
import ShaderReduction.Proofs.Session.Shrinking
import ShaderReduction.Proofs.Session.Sizes
import ShaderReduction.Proofs.Session.Steps
import ShaderReduction.Proofs.Session.Transparency
import ShaderReduction.Proofs.Session.Watching
import ShaderReduction.Proofs.Thinning
import ShaderReduction.Proofs.Trail.Gains
import ShaderReduction.Proofs.Trail.Keeping
import ShaderReduction.Proofs.Trail.Leaving
import ShaderReduction.Proofs.Trail.Names
import ShaderReduction.Proofs.Trail.Records
import ShaderReduction.Proofs.Trail.Results
import ShaderReduction.Proofs.Trail.Resuming
import ShaderReduction.Proofs.Uniforms
