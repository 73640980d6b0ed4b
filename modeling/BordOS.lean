import BordOS.Library.Transition
import BordOS.Library.BitTable
import BordOS.Library.Allocator
import BordOS.Kernel.Fault
import BordOS.Kernel.Pmm
import BordOS.Kernel.PmmSpec
import BordOS.Kernel.PmmAlloc
import BordOS.Kernel.PmmInit
import BordOS.Kernel.PmmRefinement
import BordOS.Kernel.PmmRuns
import BordOS.Kernel.PmmCalls
import BordOS.Kernel.PmmDrain
import BordOS.Library.FirstFit
import BordOS.Kernel.PmmFirstFit
import BordOS.Kernel.PmmRange
import BordOS.Kernel.Spinlock
import BordOS.Kernel.SpinlockExclusion
import BordOS.Library.Tally
import BordOS.Kernel.SpinlockAssert
import BordOS.Kernel.SpinlockCalls
import BordOS.Library.Program
import BordOS.Arch.Ports
import BordOS.Drivers.Cmos
import BordOS.Drivers.CmosSnapshot
import BordOS.Drivers.CmosReads
import BordOS.Drivers.CmosDecode
import BordOS.Drivers.CmosModes
import BordOS.Drivers.CmosPreempt
import BordOS.Drivers.CmosImage
import BordOS.Library.ProgramSpec
import BordOS.Drivers.Ata
import BordOS.Drivers.AtaBus
import BordOS.Drivers.AtaSpec
import BordOS.Drivers.AtaTransfer
import BordOS.Drivers.AtaRoundTrip
import BordOS.Drivers.AtaBusySafety
import BordOS.Drivers.AtaAddress
import BordOS.Drivers.AtaResponses
import BordOS.Library.ByteMemory
import BordOS.Library.PairSwap
import BordOS.Drivers.AtaIdentify
import BordOS.Libc.String
import BordOS.Drivers.Device
import BordOS.Drivers.DeviceBounds
import BordOS.Drivers.DeviceHistory
import BordOS.Drivers.Vga
import BordOS.Drivers.VgaCells
import BordOS.Drivers.VgaTerminal
import BordOS.Drivers.VgaBlank
import BordOS.Library.X86
import BordOS.Arch.Interrupts
import BordOS.Arch.CommonStub
import BordOS.Arch.IrqSetup
import BordOS.Arch.IrqDispatch
import BordOS.Arch.Isr
import BordOS.Arch.Exceptions
import BordOS.Arch.Pic
import BordOS.Library.Format
import BordOS.Drivers.Console
import BordOS.Drivers.Serial
import BordOS.Drivers.VgaText
import BordOS.Libc.Stdio
import BordOS.Libc.Printf
import BordOS.Libc.PrintfGrammar
import BordOS.Libc.NumberBases
import BordOS.Libc.SignedNumbers
import BordOS.Library.Positional
import BordOS.Libc.Numbers
import BordOS.Kernel.Logger
import BordOS.Kernel.LoggerBounds
import BordOS.Kernel.LoggerRuns
import BordOS.Kernel.LoggerCalls
import BordOS.Drivers.AtaFailures
import BordOS.Drivers.AtaReports
import BordOS.Drivers.VgaCode
import BordOS.Drivers.VgaBounds
import BordOS.Library.ProgramRefinement
import BordOS.Drivers.SerialChip
import BordOS.Drivers.SerialSessions
import BordOS.Kernel.LoggerOperations
import BordOS.Drivers.Hardware
import BordOS.Kernel.LoggerHardware
import BordOS.Library.ProgramStops
import BordOS.Library.ProgramParts
import BordOS.Kernel.System
import BordOS.Libc.Stdlib
import BordOS.Kernel.LoggerSessions
import BordOS.Library.X86Calls
import BordOS.Arch.ExceptionStops
import BordOS.Libc.Memory
import BordOS.Kernel.UBSan
import BordOS.Arch.Sse
import BordOS.Kernel.Platform
import BordOS.Kernel.BootSteps
import BordOS.Kernel.Boot
import BordOS.Kernel.BootOutcome
import BordOS.Kernel.KernelMain
import BordOS.Kernel.BootedInterrupts
import BordOS.Drivers.VgaLines
import BordOS.Kernel.BootScreen
import BordOS.Library.Store
import BordOS.Drivers.AtaSessions
import BordOS.Kernel.SpinlockProgress
import BordOS.Library.Segments
import BordOS.Arch.Start
