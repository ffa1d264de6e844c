import DmsBlkdev.Lib.Atomic
import DmsBlkdev.Lib.Interleaving
import DmsBlkdev.Lib.RunLength
import DmsBlkdev.AllocationFlag
import DmsBlkdev.DIO.Basic
import DmsBlkdev.DIO.Split
import DmsBlkdev.DIO.SplitLoop
import DmsBlkdev.DIO.SetUp
import DmsBlkdev.DIO.SplitFailure
import DmsBlkdev.DIO.SplitExact
import DmsBlkdev.Completion.Commit
import DmsBlkdev.Completion.Result
import DmsBlkdev.Completion.Interleaving
import DmsBlkdev.Completion.ExactlyOnce
import DmsBlkdev.Completion.MadeRequest
import DmsBlkdev.Core.Policy
import DmsBlkdev.Core.LocationPrint
import DmsBlkdev.Core.MemoryRule
import DmsBlkdev.Core.Commiter
import DmsBlkdev.Core.Once
import DmsBlkdev.Core.FailedSend
import DmsBlkdev.Core.Counting
import DmsBlkdev.Lib.Run
import DmsBlkdev.Payload.Tags
import DmsBlkdev.Metadata.Triple
import DmsBlkdev.Core.Spared
import DmsBlkdev.Payload.Sender
import DmsBlkdev.Lib.Wire
import DmsBlkdev.Namenode.Parse
import DmsBlkdev.Namenode.Response
import DmsBlkdev.Namenode.Protocol
import DmsBlkdev.Namenode.WellFormed
import DmsBlkdev.Namenode.Pack
import DmsBlkdev.Namenode.Stream
import DmsBlkdev.Payload.Translate
import DmsBlkdev.Lib.OrderedMap
import DmsBlkdev.Cache.Leaves
import DmsBlkdev.Cache.Volume
import DmsBlkdev.Cache.Invariant
import DmsBlkdev.Cache.Find
import DmsBlkdev.Cache.Representation
import DmsBlkdev.Cache.Scatter
import DmsBlkdev.Cache.PartialFailure
import DmsBlkdev.Cache.Size
import DmsBlkdev.Lib.Recency
import DmsBlkdev.Cache.Threaded
import DmsBlkdev.Cache.LeastRecent
import DmsBlkdev.Cache.Volumes
import DmsBlkdev.VolumeManager.Attach
import DmsBlkdev.VolumeManager.AttachOnce
import DmsBlkdev.VolumeManager.Reserved
import DmsBlkdev.Core.NeverDone
import DmsBlkdev.DList.Ring
import DmsBlkdev.DList.Iterator
import DmsBlkdev.Lib.Visit
import DmsBlkdev.DList.Iteration
import DmsBlkdev.LogicalBlock.Ring
import DmsBlkdev.LogicalBlock.Ascending
import DmsBlkdev.Node.Table
import DmsBlkdev.Node.Keyed
import DmsBlkdev.Node.Connection
import DmsBlkdev.Node.Stranded
import DmsBlkdev.Node.Refused
import DmsBlkdev.Node.Freed
import DmsBlkdev.Node.GivenUp
import DmsBlkdev.Node.Requeue
import DmsBlkdev.VolumeManager.Detach
import DmsBlkdev.Lib.Replies
import DmsBlkdev.VolumeManager.Calls
import DmsBlkdev.VolumeManager.Refinement
import DmsBlkdev.Lib.ByteOrder
import DmsBlkdev.Protocol.Header
import DmsBlkdev.Datanode.Protocol
import DmsBlkdev.Payload.Xmit
import DmsBlkdev.LogicalBlock.Parts
import DmsBlkdev.LogicalBlock.Search
import DmsBlkdev.LogicalBlock.Freeing
import DmsBlkdev.LogicalBlock.Iterator
import DmsBlkdev.DIO.ContinuousRange
import DmsBlkdev.DIO.Segments
import DmsBlkdev.Node.SockXmit
import DmsBlkdev.Lib.Stdio
import DmsBlkdev.Lib.NullTerminated
import DmsBlkdev.UserDaemon.AttachList
import DmsBlkdev.UserDaemon.AttachFile
import DmsBlkdev.UserDaemon.Commands
import DmsBlkdev.UserDaemon.Agreement
import DmsBlkdev.UserDaemon.Survival
import DmsBlkdev.UserDaemon.ControlPlane
import DmsBlkdev.UserDaemon.Sessions
import DmsBlkdev.Namenode.ResponseBuffer
import DmsBlkdev.Payload.ReadPolicy
import DmsBlkdev.UserDaemon.BufferRead
import DmsBlkdev.UserDaemon.ReadEnds
import DmsBlkdev.UserDaemon.ReadExactly
import DmsBlkdev.UserDaemon.TailPointer
import DmsBlkdev.UserDaemon.Termination
import DmsBlkdev.Volume.CommitQueue
import DmsBlkdev.Node.FailedBuild
import DmsBlkdev.VolumeManager.Growth
import DmsBlkdev.Lib.Trace
import DmsBlkdev.Lib.Lockstep
import DmsBlkdev.Lib.HashChains
import DmsBlkdev.Lib.DigitTree
import DmsBlkdev.Cache.RadixTree
import DmsBlkdev.Cache.RadixStored
import DmsBlkdev.Cache.RadixInsert
import DmsBlkdev.Cache.RadixDelete
import DmsBlkdev.Cache.RadixLookup
import DmsBlkdev.Cache.RadixForest
import DmsBlkdev.Cache.RadixRuns
import DmsBlkdev.Cache.RadixCache
import DmsBlkdev.Cache.RadixLockstep
import DmsBlkdev.Cache.RadixModule
import DmsBlkdev.Cache.RadixModuleSteps
import DmsBlkdev.Cache.RadixModuleRuns
