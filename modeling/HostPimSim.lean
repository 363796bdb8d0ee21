import HostPimSim.Lib.Threads
import HostPimSim.Lib.Transition
import HostPimSim.Lib.Fallible
import HostPimSim.Lib.Spans
import HostPimSim.Lib.Loop
import HostPimSim.Lib.Transducer
import HostPimSim.Lib.Schedule
import HostPimSim.Lib.Glob
import HostPimSim.Lib.DecisionTree
import HostPimSim.Lib.DirectMapped
import HostPimSim.Core.Register
import HostPimSim.Core.Monitor
import HostPimSim.Core.MonitorDispatch
import HostPimSim.Core.MonitorSample
import HostPimSim.Core.Sigsegv
import HostPimSim.Core.SigsegvPair
import HostPimSim.Core.StoreDecode
import HostPimSim.Core.X86Store
import HostPimSim.Core.Arm64Store
import HostPimSim.Core.SigsegvSignal
import HostPimSim.Core.SigsegvList
import HostPimSim.Core.SigsegvControl
import HostPimSim.Core.SigsegvWalk
import HostPimSim.Core.Pool
import HostPimSim.Core.PoolTasks
import HostPimSim.Core.PoolService
import HostPimSim.Core.PoolRest
import HostPimSim.Core.PoolSize
import HostPimSim.Core.BarrierCounts
import HostPimSim.Core.Barrier
import HostPimSim.Core.PoolRollback
import HostPimSim.Core.Topology
import HostPimSim.Core.TopologyTasks
import HostPimSim.Core.Access
import HostPimSim.Core.Layout
import HostPimSim.Core.RegisterCache
import HostPimSim.Core.RegionMemory
import HostPimSim.Core.HandlerTable
import HostPimSim.Core.MonitorShards
import HostPimSim.Core.MonitorPolling
import HostPimSim.Core.MonitorDelivery
import HostPimSim.Upmem.Memory
import HostPimSim.Upmem.Decode
import HostPimSim.Upmem.DecodeTable
import HostPimSim.Upmem.DecodeCache
import HostPimSim.Upmem.Pipeline
import HostPimSim.Upmem.Execute
import HostPimSim.Upmem.Tasklets
import HostPimSim.Upmem.Effects
import HostPimSim.Upmem.Control
import HostPimSim.Upmem.DpuInvariant
import HostPimSim.Upmem.Locks
import HostPimSim.Upmem.Destination
import HostPimSim.Upmem.TaskletStep
import HostPimSim.Upmem.MemoryStep
import HostPimSim.Upmem.DmaWindow
import HostPimSim.Upmem.PerfCounter
import HostPimSim.Upmem.WramWidth
import HostPimSim.Upmem.LoadStore
import HostPimSim.Upmem.IramDma
import HostPimSim.Upmem.Ci
import HostPimSim.Upmem.Chip
import HostPimSim.Upmem.Commit
import HostPimSim.Upmem.Selection
import HostPimSim.Upmem.Agreement
import HostPimSim.Upmem.Color
import HostPimSim.Upmem.Populate
import HostPimSim.Upmem.Transfer
import HostPimSim.Upmem.TransferCopies
import HostPimSim.Upmem.Independence
import HostPimSim.Upmem.Slice
import HostPimSim.Lib.FirstFree
import HostPimSim.Lib.Limbs
import HostPimSim.Lib.ShiftSteps
import HostPimSim.Upmem.Multiword
import HostPimSim.Upmem.Conditions
import HostPimSim.Upmem.Comparisons
import HostPimSim.Upmem.StepChains
import HostPimSim.Upmem.WramWords
import HostPimSim.Upmem.ProgramLoad
import HostPimSim.Upmem.RunState
import HostPimSim.Upmem.RankDevice
import HostPimSim.Upmem.RankCalls
import HostPimSim.Upmem.Bank
import HostPimSim.Upmem.Replies
import HostPimSim.Upmem.Polling
import HostPimSim.Upmem.PrivateTurn
import HostPimSim.Upmem.Schedules
import HostPimSim.Vfile.FdTable
import HostPimSim.Vfile.Session
import HostPimSim.Vfile.SessionOnce
import HostPimSim.Vfile.SessionRows
import HostPimSim.Vfile.Descriptors
import HostPimSim.Vfile.Mirror
import HostPimSim.Vfile.OwnerFd
import HostPimSim.Vfile.FdFlags
import HostPimSim.Vfile.Attribute
import HostPimSim.Vfile.AttrCalls
import HostPimSim.Vfile.AttrSections
import HostPimSim.Vfile.AttrAccess
import HostPimSim.Vfile.RootWrite
import HostPimSim.Vfile.AttrRevision
import HostPimSim.Vfile.AttrFile
import HostPimSim.Lib.Table
import HostPimSim.Vfile.Snapshot
import HostPimSim.Vfile.Reachable
import HostPimSim.Vfile.ReachableRuns
import HostPimSim.Vfile.InstanceCleanup
import HostPimSim.Vfile.Registry
import HostPimSim.Vfile.Freshness
import HostPimSim.Vfile.InstanceNames
import HostPimSim.Vfile.Links
import HostPimSim.Vfile.RootDefaults
import HostPimSim.Vfile.TextSnapshot
import HostPimSim.Vfile.CanonicalSnapshot
import HostPimSim.Vfile.Tree
import HostPimSim.Vfile.DeviceNumbers
import HostPimSim.Vfile.DirScan
import HostPimSim.Lib.ByteMemory
import HostPimSim.Vfile.Dirents
import HostPimSim.Vfile.Listing
import HostPimSim.Vfile.Names
import HostPimSim.Vfile.ObjectPaths
import HostPimSim.Vfile.PathText
import HostPimSim.Vfile.VirtualState
import HostPimSim.Vfile.Stat
import HostPimSim.Vfile.Metadata
import HostPimSim.Vfile.SymlinkViews
import HostPimSim.Vfile.MappingRuns
import HostPimSim.Vfile.Mappings
import HostPimSim.Vfile.Dispatch
import HostPimSim.Vfile.PathScan
import HostPimSim.Vfile.ForeignCalls
import HostPimSim.Vfile.GlobMatch
import HostPimSim.Vfile.ProcessGroup
import HostPimSim.Core.Services
import HostPimSim.Core.Teardown
