import XyronOS.Arch.DescriptorTables
import XyronOS.Arch.ExceptionRuns
import XyronOS.Arch.Exceptions
import XyronOS.Arch.Serial
import XyronOS.Boot.BootAddressSpace
import XyronOS.Boot.ConsoleOutput
import XyronOS.Boot.EfiMain
import XyronOS.Boot.ExitBootServices
import XyronOS.Boot.Handover
import XyronOS.Boot.KernelHandoff
import XyronOS.Boot.KernelImage
import XyronOS.Boot.KernelLoader
import XyronOS.Boot.LoadedImage
import XyronOS.Boot.LoaderReads
import XyronOS.Boot.LoaderTrace
import XyronOS.Boot.LoaderWrites
import XyronOS.Boot.Paging
import XyronOS.Kernel.BringUp
import XyronOS.Kernel.InterruptsTest
import XyronOS.Kernel.SelfTests
import XyronOS.Library.Atomicity
import XyronOS.Library.ByteMemory
import XyronOS.Library.Chunks
import XyronOS.Library.ExceptionDelivery
import XyronOS.Library.Executions
import XyronOS.Library.FirstFit
import XyronOS.Library.Locking
import XyronOS.Library.PackedBits
import XyronOS.Library.PortIo
import XyronOS.Library.RadixTree
import XyronOS.Library.Regions
import XyronOS.Library.Runs
import XyronOS.Library.WalkCaches
import XyronOS.Library.WordBits
import XyronOS.Mm.AddressSpace
import XyronOS.Mm.Addresses
import XyronOS.Mm.FaithfulMap
import XyronOS.Mm.FrameAllocator
import XyronOS.Mm.FrameInit
import XyronOS.Mm.FrameInitExact
import XyronOS.Mm.FrameRuns
import XyronOS.Mm.FrameSet
import XyronOS.Mm.FreeBytes
import XyronOS.Mm.FreeListAlloc
import XyronOS.Mm.FreeListLinks
import XyronOS.Mm.FreeListRefinement
import XyronOS.Mm.GrowthSuffices
import XyronOS.Mm.HeapArithmetic
import XyronOS.Mm.HeapBacking
import XyronOS.Mm.HeapChurn
import XyronOS.Mm.HeapGrowth
import XyronOS.Mm.HeapLedger
import XyronOS.Mm.HeapRuns
import XyronOS.Mm.HeldFrames
import XyronOS.Mm.KernelAccess
import XyronOS.Mm.KernelHeap
import XyronOS.Mm.KernelHeapRuns
import XyronOS.Mm.KernelHeapSafety
import XyronOS.Mm.LayoutBounds
import XyronOS.Mm.LinkedListAllocator
import XyronOS.Mm.MapReads
import XyronOS.Mm.MemoryMap
import XyronOS.Mm.NullFrame
import XyronOS.Mm.PageTableEntry
import XyronOS.Mm.PageTables
import XyronOS.Mm.Permissions
import XyronOS.Mm.ReservedFrames
import XyronOS.Mm.TableOwnership
import XyronOS.Mm.Tlb
import XyronOS.Mm.Vmm
import XyronOS.Mm.VmmRuns
import XyronOS.Mm.WalkAgreement
import XyronOS.Sync.ConcurrentHeap
import XyronOS.Sync.KernelLocks
import XyronOS.Sync.SpinLock
