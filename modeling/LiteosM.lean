import LiteosM.Heap.Separation
import LiteosM.Heap.Complete
import LiteosM.Heap.Classes
import LiteosM.Heap.Aligned
import LiteosM.Heap.DoubleFree
import LiteosM.Heap.Resize
import LiteosM.Heap.Floor
import LiteosM.Heap.Accounting
import LiteosM.Heap.Coalesce
import LiteosM.Heap.Registry
import LiteosM.Heap.Integrity
import LiteosM.Heap.Statistics
import LiteosM.Kernel.EnqueueOnce
import LiteosM.Kernel.ReadyRun
import LiteosM.Kernel.RoundRobin
import LiteosM.Kernel.SliceRun
import LiteosM.Kernel.SortLink
import LiteosM.Ipc.EventWait
import LiteosM.Ipc.MuxOwner
import LiteosM.Ipc.MuxRecursion
import LiteosM.Ipc.SemCount
import LiteosM.Ipc.QueueAtomic
import LiteosM.Ipc.QueueDeque
import LiteosM.Ipc.Blocking
import LiteosM.Ipc.EventForever
import LiteosM.Ipc.MailFree
import LiteosM.Membox.Geometry
import LiteosM.Tick.Clock
import LiteosM.Tick.Latency
import LiteosM.Tick.Serve
import LiteosM.Riscv.Timer
import LiteosM.Cpup.Usage
import LiteosM.Cpup.Conservation
import LiteosM.Cmsis.EventFlags
import LiteosM.Cmsis.KernelLock
import LiteosM.Cmsis.MessageQueue
import LiteosM.Cmsis.PoolGeometry
import LiteosM.Cmsis.ThreadState
import LiteosM.Vfs.FileSystems
import LiteosM.Ramfs.Bytes
import LiteosM.Ramfs.Mount
import LiteosM.Ramfs.Readdir
import LiteosM.Exchook.Registry
import LiteosM.Fat.Accounts
import LiteosM.Fat.CanonicalPath
import LiteosM.Fat.ReadOnly
import LiteosM.Posix.MutexOnce
import LiteosM.Posix.Deadline
import LiteosM.Posix.Malloc
import LiteosM.Posix.Mktime
import LiteosM.Posix.MqueueEnd
import LiteosM.Posix.RealTime
import LiteosM.Posix.Sleep
import LiteosM.Posix.Timer
import LiteosM.Stack.Create
import LiteosM.Stack.Lifetime
import LiteosM.Swtmr.AlignRun
import LiteosM.Swtmr.HandlerQueue
import LiteosM.Swtmr.InitAtomic
