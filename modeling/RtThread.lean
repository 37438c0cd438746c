import RtThread.Dfs.FdThreads
import RtThread.Dfs.Mount
import RtThread.Dfs.RamfsContents
import RtThread.Dfs.RamfsNames
import RtThread.Dfs.RomfsLookup
import RtThread.Dfs.Workdir
import RtThread.Drivers.AlarmArmed
import RtThread.Drivers.Completion
import RtThread.Drivers.DataQueueWaiters
import RtThread.Drivers.PipeWakeup
import RtThread.Drivers.Portal
import RtThread.Drivers.RingBufferForce
import RtThread.Drivers.Serial
import RtThread.Drivers.SerialDmaTx
import RtThread.Drivers.SerialRx
import RtThread.Drivers.WorkqueueOrder
import RtThread.Finsh.Increments
import RtThread.Finsh.Operators
import RtThread.Finsh.Session
import RtThread.Finsh.ShellRefines
import RtThread.Finsh.Strings
import RtThread.Finsh.SymbolLookup
import RtThread.Ipc.EventPaths
import RtThread.Ipc.MailboxWakeup
import RtThread.Ipc.MessageQueueSlots
import RtThread.Ipc.MutexOwnership
import RtThread.Ipc.PriorityInheritance
import RtThread.Ipc.SemaphoreCount
import RtThread.Ipc.WaitOrder
import RtThread.Kernel.IdleCleanup
import RtThread.Kernel.MallocAlign
import RtThread.Kernel.MemoryRoutines
import RtThread.Kernel.PrintfBounds
import RtThread.Kernel.TimeSlice
import RtThread.Kernel.TimerCheck
import RtThread.Kernel.TimerThread
import RtThread.Mem.MemHeapDrained
import RtThread.Mem.MemHeapsRuns
import RtThread.Mem.SlabHeap
import RtThread.Mem.SlabLock
import RtThread.Mem.SmallMemDrained
import RtThread.Module.Destroy
import RtThread.Module.Load
import RtThread.Module.MemoryConserved
import RtThread.Module.Relocate
import RtThread.Pthreads.Barrier
import RtThread.Pthreads.Cleanup
import RtThread.Pthreads.ClockTime
import RtThread.Pthreads.CondWakeup
import RtThread.Pthreads.Create
import RtThread.Pthreads.Lifetime
import RtThread.Pthreads.NamedObjectLaw
import RtThread.Pthreads.Once
import RtThread.Pthreads.RwlockDestroy
import RtThread.Pthreads.RwlockWakeup
import RtThread.Pthreads.ThreadKeysLaw
import RtThread.Utilities.YmodemStream
import RtThread.Vbus.Agreement
import RtThread.Vbus.ChannelStatus
import RtThread.Vbus.PrioQueueCreate
import RtThread.Vbus.ReceiveMarks
import RtThread.Vbus.RingTransport
import RtThread.Vbus.Watermark
