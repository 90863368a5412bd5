import WasmToLlvm.Library.Computation
import WasmToLlvm.Library.Lists
import WasmToLlvm.Library.Simulation
import WasmToLlvm.Library.Lanes
import WasmToLlvm.Library.Dominance
import WasmToLlvm.Llvm.Function
import WasmToLlvm.Llvm.Building
import WasmToLlvm.Llvm.Growth
import WasmToLlvm.Llvm.Numbering
import WasmToLlvm.Llvm.WellFormed
import WasmToLlvm.Llvm.Dominance
import WasmToLlvm.Llvm.Agreement
import WasmToLlvm.Llvm.Execution
import WasmToLlvm.Wasm.Syntax
import WasmToLlvm.Wasm.Validation
import WasmToLlvm.Wasm.Heights
import WasmToLlvm.Wasm.Execution
import WasmToLlvm.Wasm.Safety
import WasmToLlvm.Block.Context
import WasmToLlvm.Block.Visit
import WasmToLlvm.Block.Places
import WasmToLlvm.Block.LabelStack
import WasmToLlvm.Block.AllPlaces
import WasmToLlvm.Block.Straight
import WasmToLlvm.Block.Operations
import WasmToLlvm.Block.Labels
import WasmToLlvm.Block.Runs
import WasmToLlvm.Block.Success
import WasmToLlvm.Block.BlockNames
import WasmToLlvm.Block.DeadCode
import WasmToLlvm.Block.Structure
import WasmToLlvm.Block.Phis
import WasmToLlvm.Block.PhiAgreement
import WasmToLlvm.Block.Extension
import WasmToLlvm.Block.Standing
import WasmToLlvm.Block.Progress
import WasmToLlvm.Block.Opaque
import WasmToLlvm.Block.Invariants
import WasmToLlvm.Block.ValidRuns
import WasmToLlvm.Block.Layout
import WasmToLlvm.Block.Dataflow
import WasmToLlvm.Block.Dominance
import WasmToLlvm.Block.Ssa
import WasmToLlvm.Block.Retyping
import WasmToLlvm.Block.Typing
import WasmToLlvm.Block.TypedRuns
import WasmToLlvm.Block.TypedPlaces
import WasmToLlvm.Block.Lowering
import WasmToLlvm.Block.Denotation
import WasmToLlvm.Block.Refinement
import WasmToLlvm.Llvm.Operation
import WasmToLlvm.Llvm.Evaluation
import WasmToLlvm.Instruction.Opcode
import WasmToLlvm.Instruction.Builder
import WasmToLlvm.Instruction.Visit
import WasmToLlvm.Instruction.Dispatch
import WasmToLlvm.Instruction.Emission
import WasmToLlvm.Instruction.StackEffect
import WasmToLlvm.Instruction.LabelStack
import WasmToLlvm.Instruction.Dataflow
import WasmToLlvm.Instruction.Ssa
import WasmToLlvm.Wasm.Float
import WasmToLlvm.Wasm.Memory
import WasmToLlvm.Llvm.FloatLaws
import WasmToLlvm.Instruction.Running
import WasmToLlvm.Instruction.Integer
import WasmToLlvm.Instruction.Vector
import WasmToLlvm.Instruction.Typing
import WasmToLlvm.Instruction.TypedCode
import WasmToLlvm.Instruction.TypedVisits
import WasmToLlvm.Instruction.TypedFunctions
import WasmToLlvm.Llvm.Refinement
import WasmToLlvm.Llvm.Folding
import WasmToLlvm.Instruction.Folding
import WasmToLlvm.Instruction.LaneArithmetic
import WasmToLlvm.Instruction.LaneComparison
import WasmToLlvm.Instruction.FloatChoice
import WasmToLlvm.Instruction.Address
import WasmToLlvm.Instruction.Memory
import WasmToLlvm.Instruction.BulkMemory
import WasmToLlvm.Instruction.Pointwise
import WasmToLlvm.Instruction.Expansion
import WasmToLlvm.Instruction.Widening
import WasmToLlvm.Instruction.WideningVisits
import WasmToLlvm.Instruction.LaneAccess
import WasmToLlvm.Instruction.LaneMemory
import WasmToLlvm.Library.Names
import WasmToLlvm.Library.Effects
import WasmToLlvm.Library.TwoRuns
import WasmToLlvm.Library.Overwriting
import WasmToLlvm.Library.SharedCells
import WasmToLlvm.Llvm.Intrinsics
import WasmToLlvm.Llvm.Module
import WasmToLlvm.Modules.Syntax
import WasmToLlvm.Modules.Context
import WasmToLlvm.Modules.Segments
import WasmToLlvm.Modules.Reading
import WasmToLlvm.Modules.Visit
import WasmToLlvm.Modules.MemoryImage
import WasmToLlvm.Modules.IndexSpaces
import WasmToLlvm.Modules.Elements
import WasmToLlvm.Modules.Frames
import WasmToLlvm.Modules.DataPhase
import WasmToLlvm.Modules.SplitMemory
import WasmToLlvm.Modules.SharedArrays
import WasmToLlvm.Modules.Symbols
import WasmToLlvm.Modules.Naming
import WasmToLlvm.Modules.ExportNames
import WasmToLlvm.Modules.FixedNames
import WasmToLlvm.Modules.Objects
import WasmToLlvm.Modules.Declarations
import WasmToLlvm.Modules.Formation
import WasmToLlvm.Modules.Compiled
import WasmToLlvm.Modules.TableImage
import WasmToLlvm.Modules.Nameless
import WasmToLlvm.Modules.Visibility
