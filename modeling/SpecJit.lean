import SpecJit.Capability
import SpecJit.Codegen
import SpecJit.Deopt
import SpecJit.Graph.Builder
import SpecJit.Lir.Builder
import SpecJit.Lowering
import SpecJit.Options
import SpecJit.Profile
import SpecJit.Report.Graph
import SpecJit.Report.Lowering
import SpecJit.Report.Native
import SpecJit.Report.Profile
import SpecJit.Report.Tables
import SpecJit.Report.Value
import SpecJit.Report.Worklist
import SpecJit.Simulation
import SpecJit.Worklist.Pool
import SpecJit.Proofs.Lir.Growth
import SpecJit.Proofs.Lowering.Laws.Basic
import SpecJit.Proofs.Lowering.Laws.Forms
import SpecJit.Proofs.Lowering.Laws.Elements
import SpecJit.Proofs.AbstractState
import SpecJit.Proofs.Lowering.Checks
import SpecJit.Proofs.Lowering.DeadEnds
import SpecJit.Proofs.Graph.Valid
import SpecJit.Proofs.Lowering.FloatElements
import SpecJit.Proofs.Lowering.TypedElements
import SpecJit.Proofs.Lowering.ArrayReads
import SpecJit.Proofs.Lowering.RoundTrip
import SpecJit.Proofs.Lowering.Uses
import SpecJit.Proofs.Graph.Dominators
import SpecJit.Proofs.Lir.Scope
import SpecJit.Proofs.Lir.Building
import SpecJit.Proofs.Lir.Scoped
import SpecJit.Proofs.Lowering.Scoped.Basic
import SpecJit.Proofs.Lowering.Scoped.Forms
import SpecJit.Proofs.Lowering.Scoped.Operations
import SpecJit.Proofs.Lowering.Scoped.Elements
import SpecJit.Proofs.Lowering.Scoped.Control
import SpecJit.Proofs.Lowering.Scoped.Switch
import SpecJit.Proofs.Lowering.Scoped.Node
import SpecJit.Proofs.Lowering.Scoped.Prologue
import SpecJit.Proofs.Lowering.Scoped.Block
import SpecJit.Proofs.Lowering.Scoped.Run
import SpecJit.Proofs.Execution
import SpecJit.Proofs.Lowering.CellStores
import SpecJit.Proofs.Lowering.Folding
import SpecJit.Proofs.Lowering.CellUses
import SpecJit.Proofs.Lowering.Upsilons
import SpecJit.Proofs.Lir.Memory
import SpecJit.Proofs.Lir.Effects
import SpecJit.Proofs.Lowering.Transitions
import SpecJit.Proofs.KnownStructures
import SpecJit.Proofs.Tables
import SpecJit.Proofs.Exits.Table
import SpecJit.Proofs.Lowering.Exits.Record
import SpecJit.Proofs.Lowering.Exits.Missing
import SpecJit.Proofs.Lowering.Switch.Cases
import SpecJit.Proofs.Lowering.Switch.Strings
import SpecJit.Proofs.Lowering.UserCode
import SpecJit.Proofs.Availability.Step
import SpecJit.Proofs.Availability.Rounds
import SpecJit.Proofs.Availability.Sound
import SpecJit.Proofs.Lir.InStep
import SpecJit.Proofs.Lowering.InStep.Basic
import SpecJit.Proofs.Lowering.InStep.Exits
import SpecJit.Proofs.Decoding
import SpecJit.Proofs.Json.Faithful
import SpecJit.Proofs.Json.Interchange
import SpecJit.Proofs.Worklist.Consistency
import SpecJit.Proofs.Worklist.Delivery
import SpecJit.Proofs.Exits.Agreement
import SpecJit.Proofs.Lir.PairedRuns
import SpecJit.Proofs.Lowering.Exits.Modes
import SpecJit.Proofs.StructureSet
import SpecJit.Proofs.Graph.Representation
import SpecJit.Proofs.Graph.Dominance
import SpecJit.Proofs.Fixpoint.Rounds
import SpecJit.Proofs.Analyses
import SpecJit.Proofs.Exits.Taking
import SpecJit.Proofs.ExactNumber
import SpecJit.Proofs.Lowering.Leaving
import SpecJit.Proofs.Lowering.Evaluation
import SpecJit.Proofs.Lowering.Int32Arithmetic
import SpecJit.Proofs.Lowering.Int52Arithmetic
import SpecJit.Proofs.IntegralDouble
import SpecJit.Proofs.Lir.Yields
import SpecJit.Proofs.Lowering.Boxing
import SpecJit.Proofs.Lowering.MachineInt
import SpecJit.Proofs.Kind
import SpecJit.Proofs.Lowering.Truth
import SpecJit.Proofs.Admission
import SpecJit.Proofs.ExactFacts
import SpecJit.Proofs.Lowering.Admitted
import SpecJit.Proofs.Lowering.ArrayStores
import SpecJit.Proofs.Lowering.SpreadArguments
import SpecJit.Proofs.Lowering.Switch.Numbers
import SpecJit.Proofs.Lowering.Switch.Keys
import SpecJit.Proofs.Lowering.ArrayEnds
import SpecJit.Proofs.Lowering.Dispatch
import SpecJit.Proofs.Lowering.Polymorphic
import SpecJit.Proofs.Lowering.Repetition
import SpecJit.Proofs.Profile
import SpecJit.Proofs.Fixpoint.Merging
import SpecJit.Proofs.Codegen
import SpecJit.Proofs.Lowering.FreshMemory
import SpecJit.Proofs.Lowering.NewObjects
import SpecJit.Proofs.Lowering.Allocations
import SpecJit.Proofs.Lowering.Exits.Fidelity
