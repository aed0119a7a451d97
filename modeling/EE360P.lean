import EE360P.JavaText
import EE360P.ListEntries
import EE360P.GuardedRuns
import EE360P.FairReadWriteLock
import EE360P.LockWakeups
import EE360P.LockTurns
import EE360P.LockHindrances
import EE360P.LockObjects
import EE360P.MonitorBarrier
import EE360P.BarrierObjects
import EE360P.SemaphoreBarrier
import EE360P.Garden
import EE360P.GardenOrder
import EE360P.GardenProgress
import EE360P.OnlineStore
import EE360P.OrderLedger
import EE360P.StoreLedger
import EE360P.StockBalance
import EE360P.CoOccurrence
import EE360P.Collectives
import EE360P.MatrixProduct
import EE360P.MatrixTraces
import EE360P.MatrixResult
import EE360P.ReplicatedServer
import EE360P.ServerCluster
import EE360P.ServerLoops
import EE360P.ProtocolLines
import EE360P.ClusterSteps
import EE360P.ClusterWiring
import EE360P.PriorityExclusion
import EE360P.SectionExclusion
import EE360P.CommandTokens
import EE360P.LegibleReplies
import EE360P.SubmittedOnce
import EE360P.CarriedCommands
import EE360P.SequencedReplicas
import EE360P.ReliableDelivery
import EE360P.ReplicaAgreement
import EE360P.RequestRounds
import EE360P.QueueAgreement
import EE360P.ObservedCluster
import EE360P.RecordedRequests
import EE360P.VisibleUpdates
import EE360P.StrandedCommands
import EE360P.ReturnedSections
import EE360P.SortedPrefixes
import EE360P.ParallelSort
import EE360P.SortedArrays
import EE360P.RestoredBarrier
import EE360P.DecodedLines
import EE360P.CausalLogs
import EE360P.BufferedTexts
import EE360P.TransportAnswers
import EE360P.RequestOrder
import EE360P.WinningCommands
import EE360P.CommandGrammar
import EE360P.PendingCommands
import EE360P.ClientFailover
import EE360P.RefusedCommands
import EE360P.InventoryFile
import EE360P.UndonePurchases
import EE360P.ListedReplies
import EE360P.EmittedPairs
import EE360P.MatrixBounds
import EE360P.SortedRanges
import EE360P.ForkedTasks
import EE360P.SortPool
import EE360P.ArrivalIndices
import EE360P.ParallelSearch
import EE360P.LocalPriority
import EE360P.PartitionScans
import EE360P.ConfluentRuns
import EE360P.PointToPoint
import EE360P.MessageRules
import EE360P.BroadcastTree
import EE360P.DisseminationBarrier
import EE360P.NodeCollectives
import EE360P.LinearTransfers
import EE360P.LoweredCollectives
import EE360P.MatrixMessages
import EE360P.ClusterWork
import EE360P.ClusterRest
import EE360P.BarrierProgram
import EE360P.BarrierRounds
import EE360P.LockDrains
import EE360P.CoOccurrenceTable
import EE360P.MemoryBlocks
import EE360P.ScatteredBroadcast
import EE360P.BlockAllgathers
import EE360P.BufferTree
import EE360P.SizedBroadcast
