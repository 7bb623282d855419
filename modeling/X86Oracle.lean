import X86Oracle.Lib.Bytes
import X86Oracle.Lib.Words
import X86Oracle.Lib.Text
import X86Oracle.Lib.Lines
import X86Oracle.Lib.Rounding
import X86Oracle.Lib.Paging
import X86Oracle.Lib.Interrupts
import X86Oracle.Lib.Run
import X86Oracle.Lib.Reactive
import X86Oracle.Lib.Raising
import X86Oracle.Lib.Carries
import X86Oracle.Lib.Shifts
import X86Oracle.Lib.Division
import X86Oracle.Lib.Deposit
import X86Oracle.Lib.Component
import X86Oracle.Lib.Cells
import X86Oracle.Lib.LinkedBlocks
import X86Oracle.Oracle.Snapshot
import X86Oracle.Oracle.RegisterNames
import X86Oracle.Hw.Layout
import X86Oracle.Hw.Touched
import X86Oracle.Hw.Bulk
import X86Oracle.Hw.Fault
import X86Oracle.Hw.Image
import X86Oracle.Hw.Decode
import X86Oracle.Hw.Undo
import X86Oracle.Hw.Step
import X86Oracle.Hw.Xsave
import X86Oracle.Hw.XsaveProbe
import X86Oracle.Hw.XsaveLocate
import X86Oracle.Hw.XsaveBounds
import X86Oracle.Hw.XsaveInit
import X86Oracle.Hw.XsaveWidth
import X86Oracle.Hw.Registers
import X86Oracle.Bochs.Memory
import X86Oracle.Bochs.AddressSpace
import X86Oracle.Bochs.HostMemory
import X86Oracle.Bochs.Mapped
import X86Oracle.Bochs.Clock
import X86Oracle.Bochs.ICache
import X86Oracle.Bochs.Coherence
import X86Oracle.Bochs.Singleton
import X86Oracle.Bochs.LazyFlags
import X86Oracle.Bochs.Mode
import X86Oracle.Bochs.Registers
import X86Oracle.Bochs.RegisterFile
import X86Oracle.Bochs.Machine
import X86Oracle.Bochs.StepReport
import X86Oracle.Bochs.Delivery
import X86Oracle.Bochs.Exception
import X86Oracle.Bochs.FaultRuns
import X86Oracle.Bochs.StatusFlags
import X86Oracle.Bochs.Shift
import X86Oracle.Bochs.WideInt
import X86Oracle.Bochs.Mult
import X86Oracle.Bochs.Alu
import X86Oracle.Bochs.CarryChains
import X86Oracle.Bochs.BitScan
import X86Oracle.Bochs.Bmi
import X86Oracle.Bochs.FlagUnit
import X86Oracle.Bochs.FlagControl
import X86Oracle.Bochs.Integer
import X86Oracle.Bochs.Amx
import X86Oracle.Bochs.Fp8
import X86Oracle.Bochs.SoftFloat
import X86Oracle.Bochs.Fp8Product
import X86Oracle.Bochs.Bf16
import X86Oracle.Sail.Registers
import X86Oracle.Sail.RegisterFile
import X86Oracle.Sail.Runtime
import X86Oracle.Sail.Instances
import X86Oracle.Sail.Mapped
import X86Oracle.Oracle.RegisterCells
import X86Oracle.Oracle.Transfer
import X86Oracle.Whp.MappingSlot
import X86Oracle.Whp.Xcr0
import X86Oracle.Oracle.FaultMsg
import X86Oracle.Bochs.Lifetimes
import X86Oracle.Bochs.PdptrCache
import X86Oracle.Oracle.IsMapped
import X86Oracle.Build.Archive
import X86Oracle.Scripts.RefcountScratch
