import Rv64Emu.Machine.Fields
import Rv64Emu.Library.Rv64i
import Rv64Emu.Machine.BusRouting
import Rv64Emu.Sequential.NonPipelined
import Rv64Emu.Pipelined.Cycle
import Rv64Emu.Accounting
import Rv64Emu.Machine.Formatter
import Rv64Emu.Agreement
import Rv64Emu.Computational
import Rv64Emu.Library.ByteMemory
import Rv64Emu.LoadStore
import Rv64Emu.Pipelined.Flight
import Rv64Emu.Pipelined.Tracking
import Rv64Emu.Pipelined.Refinement
import Rv64Emu.Pipelined.Thrown
import Rv64Emu.Pipelined.EndMarker
import Rv64Emu.Pipelined.Faults
import Rv64Emu.Sequential.Effect
import Rv64Emu.SignExtension
import Rv64Emu.SignedArithmetic
import Rv64Emu.UpperImmediate
import Rv64Emu.ControlFlow
import Rv64Emu.Pipelined.Interlock
import Rv64Emu.MemoryBounds
import Rv64Emu.BusAccesses
import Rv64Emu.Disassembly
import Rv64Emu.Frontend.Sections
import Rv64Emu.ElfBounds
import Rv64Emu.ElfImage
import Rv64Emu.CodeListing
import Rv64Emu.ConfigParsing
import Rv64Emu.Frontend.Testing
import Rv64Emu.RegisterInitialisers
import Rv64Emu.TestValidation
import Rv64Emu.Library.SignedOps
import Rv64Emu.Frontend.Disassembler
import Rv64Emu.Library.Outcomes
import Rv64Emu.Machine.Framebuffer
import Rv64Emu.FramebufferRuns
import Rv64Emu.FramebufferInvariant
import Rv64Emu.Library.Hart
import Rv64Emu.Machine.Console
import Rv64Emu.BusRuns
import Rv64Emu.Machine.Platform
import Rv64Emu.Conformance
import Rv64Emu.Pipelined.Conformance
import Rv64Emu.Pipelined.Progress
import Rv64Emu.MemorySafety
import Rv64Emu.FileExecution
import Rv64Emu.Statistics
import Rv64Emu.BusStore
import Rv64Emu.FramebufferScreen
import Rv64Emu.Library.Mealy
import Rv64Emu.FramebufferRefinement
import Rv64Emu.Frontend.Launcher
import Rv64Emu.UnitTests
import Rv64Emu.TestNotation
import Rv64Emu.WrittenTests
import Rv64Emu.Library.TextLines
import Rv64Emu.Frontend.DisasmFile
import Rv64Emu.ListingFiles
import Rv64Emu.Pipelined.ReadAhead
import Rv64Emu.Pipelined.Spacing
import Rv64Emu.SpacedPrograms
import Rv64Emu.Machine.DebugMode
import Rv64Emu.DebugTrace
import Rv64Emu.Pipelined.Listing
import Rv64Emu.Frontend.Transcript
import Rv64Emu.Transcripts
import Rv64Emu.Library.Options
import Rv64Emu.Frontend.CommandLine
import Rv64Emu.CommandLines
import Rv64Emu.Frontend.Process
import Rv64Emu.ProcessRuns
