import NesEmulator.Lib.Bits
import NesEmulator.Lib.Blocks
import NesEmulator.Lib.LittleEndian
import NesEmulator.Lib.MirroredMemory
import NesEmulator.Lib.RingStack
import NesEmulator.Lib.Runs
import NesEmulator.Lib.Shifts
import NesEmulator.Lib.Sweep
import NesEmulator.Lib.Traces
import NesEmulator.Cartridge
import NesEmulator.Cpu
import NesEmulator.Bus
import NesEmulator.Stack
import NesEmulator.Instructions
import NesEmulator.Opcode
import NesEmulator.RunCpu
import NesEmulator.Disassembler
import NesEmulator.Listing
import NesEmulator.Loader
import NesEmulator.INesImage
import NesEmulator.ReadAfterWrite
import NesEmulator.Decoding
import NesEmulator.Frames
import NesEmulator.PrgWindow
import NesEmulator.PrgBounds
import NesEmulator.StackRefinement
import NesEmulator.SubroutineLinkage
import NesEmulator.InterruptLinkage
import NesEmulator.PullOrder
import NesEmulator.StatusInvariant
import NesEmulator.TraceTruth
import NesEmulator.MemoryFrame
import NesEmulator.Alike
import NesEmulator.TwoRuns
import NesEmulator.CycleCount
import NesEmulator.BranchTiming
import NesEmulator.EffectiveAddress
import NesEmulator.Arithmetic
import NesEmulator.CombinedInstructions
import NesEmulator.RegisterDiscipline
import NesEmulator.MultiByteArithmetic
import NesEmulator.MultiByteShifts
import NesEmulator.ProgramSteps
import NesEmulator.TenTimesThree
import NesEmulator.ListingCoverage
import NesEmulator.ListingAgreement
import NesEmulator.HexFormat
import NesEmulator.ListingDecoding
import NesEmulator.NumberMachine
import NesEmulator.MachineRefinement
import NesEmulator.ImageRuns
import NesEmulator.Locality
import NesEmulator.Bracketing
import NesEmulator.Lib.Text
import NesEmulator.TraceText
import NesEmulator.Halting
import NesEmulator.ListingImage
import NesEmulator.Lib.Contracts
import NesEmulator.ProgramLogic
import NesEmulator.TestCode
