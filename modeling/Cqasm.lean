import Cqasm.Number.Power
import Cqasm.Number.Decimal
import Cqasm.Text.Quoted
import Cqasm.Text.CasePolicy
import Cqasm.Version
import Cqasm.Location.Excerpt
import Cqasm.Ty.Promotion
import Cqasm.Ty.Shorthand
import Cqasm.Ty.Extent
import Cqasm.Diagnostic
import Cqasm.Value.Promotion
import Cqasm.Value.Text
import Cqasm.Overload
import Cqasm.VariableTable
import Cqasm.Builtin.Functions
import Cqasm.InstructionSet.Standard
import Cqasm.Gate.Rules
import Cqasm.Graph.WellFormed
import Cqasm.Analyzer
import Cqasm.Proofs.Promotion
import Cqasm.Proofs.Coherence
import Cqasm.Proofs.Overload
import Cqasm.Proofs.Fallible
import Cqasm.Proofs.Origins
import Cqasm.Proofs.Letters
import Cqasm.Proofs.Keyed
import Cqasm.Proofs.Composition
import Cqasm.Proofs.Builtin
import Cqasm.Proofs.Standard
import Cqasm.Proofs.FunctionResolution
import Cqasm.Proofs.Occurrence
import Cqasm.Proofs.Elaboration
import Cqasm.Proofs.Run
import Cqasm.Proofs.Provenance
import Cqasm.Proofs.Bindings
import Cqasm.Proofs.References
import Cqasm.Proofs.Scoping
import Cqasm.Proofs.WellFormed
import Cqasm.Proofs.Typing
import Cqasm.Proofs.Clean
import Cqasm.Proofs.Recovery
import Cqasm.Proofs.Correspondence
import Cqasm.Proofs.Forms
import Cqasm.Proofs.Environment
import Cqasm.Proofs.Revision
import Cqasm.Proofs.RevisedRun
import Cqasm.Proofs.NonInterference
import Cqasm.Proofs.Modifiers
import Cqasm.Proofs.Parameters
import Cqasm.Proofs.Validation
import Cqasm.Proofs.Blame
import Cqasm.Proofs.Selection
import Cqasm.Proofs.Arithmetic
import Cqasm.Proofs.Constness
import Cqasm.Proofs.Confinement
import Cqasm.Proofs.Indexing
import Cqasm.Proofs.Initialization
import Cqasm.Proofs.Narrowest
import Cqasm.Proofs.StorageOperands
import Cqasm.Proofs.Rekeying
import Cqasm.Proofs.Ranges
import Cqasm.Proofs.Offsets
import Cqasm.Proofs.Hulls
import Cqasm.Proofs.Shorthand
import Cqasm.Proofs.Versions
import Cqasm.Proofs.Counts
