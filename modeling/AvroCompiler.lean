import AvroCompiler.Wire.Sample
import AvroCompiler.Wire.LinkedNode
import AvroCompiler.Program
import AvroCompiler.Main
import AvroCompiler.Proofs.Wire.RoundTrip
import AvroCompiler.Proofs.Registration.Collision
import AvroCompiler.Proofs.Registration.Content
import AvroCompiler.Proofs.Registration.Linking
import AvroCompiler.Proofs.Registration.Outcome
import AvroCompiler.Proofs.Wire.Equations
import AvroCompiler.Proofs.Wire.Streaming
import AvroCompiler.Proofs.Wire.Size
import AvroCompiler.Proofs.Identifier
import AvroCompiler.Proofs.Wire.Canonical
import AvroCompiler.Proofs.Emit.Prelude
import AvroCompiler.Proofs.Registration.Exports
import AvroCompiler.Proofs.Schema.DocumentOrder
import AvroCompiler.Proofs.Package.Insertion
import AvroCompiler.Proofs.Registration.Termination
import AvroCompiler.Proofs.Schema.Soundness
import AvroCompiler.Proofs.Wire.Capacity
import AvroCompiler.Proofs.Wire.Grammar
import AvroCompiler.Proofs.Emit.Agreement
import AvroCompiler.Proofs.Loop
import AvroCompiler.Proofs.Wire.Acceptance
import AvroCompiler.Proofs.Wire.Bounds
import AvroCompiler.Proofs.Registration.Repetition
import AvroCompiler.Proofs.Registration.Separation
import AvroCompiler.Proofs.Emit.CodeName
import AvroCompiler.Proofs.Schema.Reference
import AvroCompiler.Proofs.Emit.Documentation
import AvroCompiler.Proofs.Registration.Index
import AvroCompiler.Proofs.Registration.Modules
import AvroCompiler.Proofs.Disk.Collection
import AvroCompiler.Proofs.Schema.Writing
import AvroCompiler.Proofs.Program
