import LatencyBenchmark.TransitionSystem
import LatencyBenchmark.ThreadFamily
import LatencyBenchmark.BoundedQueue
import LatencyBenchmark.IndexRange
import LatencyBenchmark.StrideCycle
import LatencyBenchmark.MachineInteger
import LatencyBenchmark.Binary64
import LatencyBenchmark.EntryMap
import LatencyBenchmark.ByteFrames
import LatencyBenchmark.ByteMemory
import LatencyBenchmark.ExceptTraversal
import LatencyBenchmark.TicketCas
import LatencyBenchmark.TicketCasInvariant
import LatencyBenchmark.TicketCasPublication
import LatencyBenchmark.RingWrite
import LatencyBenchmark.Handle
import LatencyBenchmark.LatencyReport
import LatencyBenchmark.RecordArrays
import LatencyBenchmark.MissingRecords
import LatencyBenchmark.OrderStatistics
import LatencyBenchmark.ReportColumns
import LatencyBenchmark.ReportRanking
import LatencyBenchmark.ReportAverage
import LatencyBenchmark.ThreadTrans
import LatencyBenchmark.ThreadTransMoves
import LatencyBenchmark.ThreadTransPhases
import LatencyBenchmark.ThreadTransWork
import LatencyBenchmark.ProducerProgress
import LatencyBenchmark.MessageIds
import LatencyBenchmark.WriteCallback
import LatencyBenchmark.ArrayBlockingQueue
import LatencyBenchmark.ArrayBlockingQueueDelivery
import LatencyBenchmark.ArrayBlockingQueueProgress
import LatencyBenchmark.ArrayBlockingQueueSweep
import LatencyBenchmark.CausalTimestamps
import LatencyBenchmark.Disruptor
import LatencyBenchmark.DisruptorReport
import LatencyBenchmark.ThreadTransChannel
import LatencyBenchmark.ThreadTransChannelMoves
import LatencyBenchmark.ThreadTransChannelPhases
import LatencyBenchmark.ThreadTransChannelTraffic
import LatencyBenchmark.ThreadTransChannelStamps
import LatencyBenchmark.ThreadTransChannelConsumers
import LatencyBenchmark.ThreadTransChannelSlots
import LatencyBenchmark.ThreadTransChannelRuns
import LatencyBenchmark.ThreadTransChannelSignals
import LatencyBenchmark.ThreadTransChannelReport
import LatencyBenchmark.ThreadTransChannelReadiness
import LatencyBenchmark.ThreadTransChannelProgress
import LatencyBenchmark.ThreadTransChannelWork
import LatencyBenchmark.ThreadTransChannelSingleReader
import LatencyBenchmark.ProducerRanges
import LatencyBenchmark.PointerTransport
import LatencyBenchmark.PointerTransportDelivery
import LatencyBenchmark.JsonMessage
import LatencyBenchmark.FillBuffer
import LatencyBenchmark.WsRecorder
import LatencyBenchmark.RecorderAgreement
import LatencyBenchmark.WsMalformedMessages
import LatencyBenchmark.WsServiceRace
import LatencyBenchmark.WsReport
import LatencyBenchmark.ThreadTransReport
import LatencyBenchmark.WsDisconnect
import LatencyBenchmark.SortedRows
import LatencyBenchmark.QuantileAccuracy
import LatencyBenchmark.SweepResults
import LatencyBenchmark.GolangConfig
import LatencyBenchmark.ReportLoops
import LatencyBenchmark.CppConfig
import LatencyBenchmark.WsConfigMemory
import LatencyBenchmark.EventFilter
import LatencyBenchmark.WsTransServer
import LatencyBenchmark.WriteVaToFile
import LatencyBenchmark.LockedCounter
import LatencyBenchmark.LockedRingWrite
import LatencyBenchmark.AllocationReport
import LatencyBenchmark.WsSessionFile
import LatencyBenchmark.ThreadTransFiles
import LatencyBenchmark.PointerTransportProgress
import LatencyBenchmark.ThreadTransChannelFile
import LatencyBenchmark.ArrayBlockingQueueFiles
import LatencyBenchmark.DisruptorHandling
