import PslCompiler.Flow.Search
import PslCompiler.Flow.Fixpoint
import PslCompiler.Flow.Dominance
import PslCompiler.Flow.Definedness
import PslCompiler.Stage0.Syntax
import PslCompiler.Stage0.VerifyLir
import PslCompiler.Stage0.LirSafety
import PslCompiler.Stage0.VerifySsa
import PslCompiler.Stage0.SsaSafety
import PslCompiler.Native.Syntax
import PslCompiler.Native.VerifyOperations
import PslCompiler.Native.OperandTypes
import PslCompiler.Native.VerifySsa
import PslCompiler.Native.SsaSafety
import PslCompiler.Native.LirSafety
import PslCompiler.Flow.Behaviour
import PslCompiler.Flow.SsaMachine
import PslCompiler.Flow.FlatMachine
import PslCompiler.Flow.Linearize
import PslCompiler.Native.Execution
import PslCompiler.Native.LowerLir
import PslCompiler.Native.LirLowering
import PslCompiler.Native.LirPreservation
import PslCompiler.Stage0.Execution
import PslCompiler.Stage0.Lower
import PslCompiler.Stage0.LoweringShape
import PslCompiler.Stage0.LoweringMeaning
import PslCompiler.Stage0.FunctionLowering
import PslCompiler.Stage0.LoweringPreservation
import PslCompiler.Stage0.MachineIntegers
import PslCompiler.Flow.Availability
import PslCompiler.Flow.Rewriting
import PslCompiler.Stage0.SsaScope
import PslCompiler.Flow.Certification
import PslCompiler.Stage0.Effects
import PslCompiler.Native.EffectCertification
import PslCompiler.Native.Layout
import PslCompiler.Stage0.LayoutExact
import PslCompiler.Native.LayoutExact
import PslCompiler.Flow.Typestate
import PslCompiler.Stage0.Roots
import PslCompiler.Stage0.LinearizedCode
import PslCompiler.Stage0.RootFrames
import PslCompiler.Buffers.Expansion
import PslCompiler.Native.LowerRoots
import PslCompiler.Native.RootLowering
import PslCompiler.Loops.Measured
import PslCompiler.Native.Reader
import PslCompiler.Native.Tokens
import PslCompiler.Native.Parser
import PslCompiler.Native.Grammar
import PslCompiler.Native.Parsing
import PslCompiler.Native.SyntaxArena
import PslCompiler.Chains.Linked
import PslCompiler.Native.Environment
import PslCompiler.Native.PackageOperations
import PslCompiler.Native.PackageTables
import PslCompiler.Native.PackageChanges
import PslCompiler.Native.PresenceRemoval
import PslCompiler.Native.TableGrowth
import PslCompiler.Native.PackageOutcomes
import PslCompiler.Native.PackageChecks
import PslCompiler.Native.PackageReading
import PslCompiler.Native.Seed
import PslCompiler.Native.SeedPackages
import PslCompiler.Native.SeedExports
import PslCompiler.Native.SeedVisibility
import PslCompiler.Native.SeedStandard
import PslCompiler.Native.PackageRuns
import PslCompiler.Native.SeedRoom
import PslCompiler.Calling.Assignment
import PslCompiler.Native.AggregateTypes
import PslCompiler.Native.ArgumentLocations
import PslCompiler.Native.AggregateLeaves
import PslCompiler.Calling.Conventions
import PslCompiler.Native.ArgumentPlacement
import PslCompiler.Native.ArgumentConventions
import PslCompiler.Native.ArgumentPassing
import PslCompiler.Native.ClosureForms
import PslCompiler.Native.CaptureSearch
import PslCompiler.Native.LexicalAnalysis
import PslCompiler.Native.ClosureCaptures
import PslCompiler.Heaps.Objects
import PslCompiler.Heaps.Mirror
import PslCompiler.Stage0.Lambdas
import PslCompiler.Stage0.HostedExecution
import PslCompiler.Stage0.ClosureConversion
import PslCompiler.Stage0.ClosureMeaning
import PslCompiler.Stage0.ClosurePreservation
import PslCompiler.Stage0.ClosurePrograms
import PslCompiler.Buffers.Rearrangement
import PslCompiler.Native.ScalarFolding
import PslCompiler.Native.StartupPlacement
import PslCompiler.Native.IntegerTokens
import PslCompiler.Native.CompileTimeEquality
import PslCompiler.Buffers.Insertion
import PslCompiler.Native.Inlining
import PslCompiler.Native.ArenaInsertion
import PslCompiler.Native.InlinedCalls
import PslCompiler.Native.SharedLayouts
import PslCompiler.Native.RecordLeaves
import PslCompiler.Native.RecordClasses
import PslCompiler.Native.AbiAgreement
import PslCompiler.Native.AbiResults
import PslCompiler.Loading.DepthFirst
import PslCompiler.Stage0.SourceReading
import PslCompiler.Native.SourceUnit
import PslCompiler.Native.IntegerSpans
import PslCompiler.Native.TokenPartition
import PslCompiler.Machines.Arm
import PslCompiler.Machines.Intel
import PslCompiler.Machines.RiscV
import PslCompiler.Buffers.Patching
import PslCompiler.Native.CallPatching
import PslCompiler.Native.CallTransfers
import PslCompiler.Native.CodeEmission
import PslCompiler.Native.FunctionAddresses
import PslCompiler.Native.AddressSequences
import PslCompiler.Native.AddressTransfers
import PslCompiler.Machines.Unwinding
import PslCompiler.Native.WindowsFrames
import PslCompiler.Native.WindowsEmission
import PslCompiler.Native.WindowsPrologue
import PslCompiler.Heaps.Tracing
import PslCompiler.Runtime.Collector
import PslCompiler.Runtime.Collection
import PslCompiler.Heaps.Agreement
import PslCompiler.Runtime.Constructors
import PslCompiler.Runtime.IdealHeap
import PslCompiler.Runtime.Programs
import PslCompiler.Runtime.Refinement
import PslCompiler.Runtime.Safety
import PslCompiler.Native.FloatDecimal
import PslCompiler.Native.FloatLiterals
import PslCompiler.Native.FloatRounding
import PslCompiler.Native.FloatTokens
import PslCompiler.Native.FloatReading
