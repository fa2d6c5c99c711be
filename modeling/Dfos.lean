import Dfos.Lib.AvlTree
import Dfos.Lib.Bitmap
import Dfos.Lib.EvenSplit
import Dfos.Lib.IntrusiveList
import Dfos.Lib.Ledger
import Dfos.Lib.Partition
import Dfos.Lib.Word
import Dfos.Lib.WordMemory
import Dfos.Lib.TableForest
import Dfos.Lib.PageTrees
import Dfos.Lib.Matching
import Dfos.Lib.ByteMemory
import Dfos.Lib.Result
import Dfos.Lib.Numeral
import Dfos.Vma.Tree
import Dfos.Vma.Balance
import Dfos.Vma.Order
import Dfos.Vma.Invariant
import Dfos.Vma.IntervalSet
import Dfos.Vma.Gap
import Dfos.Vma.FirstFit
import Dfos.Pmm.Frames
import Dfos.Pmm.Init
import Dfos.Pmm.Invariant
import Dfos.Pmm.Search
import Dfos.Pmm.Accounting
import Dfos.Pmm.FreeSet
import Dfos.Pmm.BootRanges
import Dfos.Pmm.Stock
import Dfos.Pmm.Supply
import Dfos.Pmm.NodeChoice
import Dfos.Pmm.Contiguous
import Dfos.Boot.Bootinfo
import Dfos.Boot.FrameMap
import Dfos.Boot.FreeFrames
import Dfos.Boot.MemoryMap
import Dfos.Boot.Fallback
import Dfos.Sync.Mutex
import Dfos.Sync.Exclusion
import Dfos.Sync.Wakeup
import Dfos.Paging.Tables
import Dfos.Paging.Kernel
import Dfos.Paging.Lookup
import Dfos.Paging.Boot
import Dfos.Paging.Pages
import Dfos.Paging.Contract
import Dfos.Paging.Switch
import Dfos.Paging.Spaces
import Dfos.Paging.UserPages
import Dfos.Paging.UserTables
import Dfos.Paging.UserMaps
import Dfos.Paging.UserSpaces
import Dfos.Paging.UserLookup
import Dfos.Paging.UserWorld
import Dfos.Paging.UserRuns
import Dfos.Paging.UserBoot
import Dfos.Paging.Isolation
import Dfos.Paging.Aperture
import Dfos.Paging.KernelMap
import Dfos.Paging.Loadable
import Dfos.Paging.KernelRoot
import Dfos.Vfs.Tar
import Dfos.Vfs.Initrd
import Dfos.Vfs.Files
import Dfos.Scheduler.State
import Dfos.Scheduler.Queues
import Dfos.Scheduler.Operations
import Dfos.Scheduler.Placement
import Dfos.Scheduler.Invariant
import Dfos.Scheduler.RunQueue
import Dfos.Scheduler.Select
import Dfos.Scheduler.Dispatch
import Dfos.Scheduler.Sweeps
import Dfos.Scheduler.Slots
import Dfos.Scheduler.Boot
import Dfos.Scheduler.Sections
import Dfos.Scheduler.Consistency
import Dfos.Scheduler.Interleaving
import Dfos.Scheduler.OneCpu
import Dfos.Scheduler.Drift
import Dfos.Scheduler.Outcome
import Dfos.Scheduler.Effects
import Dfos.Scheduler.Join
import Dfos.Scheduler.IdleTasks
import Dfos.Scheduler.Timers
import Dfos.Scheduler.Lifetimes
import Dfos.Scheduler.TaskIds
import Dfos.Sync.Preemption
import Dfos.Libc.Printf
import Dfos.Libc.Expansion
import Dfos.Libc.Formatting
import Dfos.Libc.Integers
import Dfos.Libc.Debugger
import Dfos.Lib.Thread
import Dfos.Heap.Slabs
import Dfos.Heap.Lists
import Dfos.Heap.Objects
import Dfos.Heap.Contents
import Dfos.Heap.Calls
import Dfos.Heap.Invariant
import Dfos.Heap.Interface
import Dfos.Heap.World
import Dfos.Heap.Room
import Dfos.Heap.Probe
import Dfos.Heap.DoubleFree
import Dfos.Heap.SlabAllocator
import Dfos.Lib.Ring
import Dfos.Drivers.Keyboard
import Dfos.Panic.Message
import Dfos.Panic.Log
import Dfos.Drivers.Console
import Dfos.Modules.Registry
import Dfos.Cpu.MpTable
import Dfos.Cpu.Topology
