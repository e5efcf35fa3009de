import LatencyBenchmark.BoundedQueue
import LatencyBenchmark.ThreadTrans

/-!
# The ArrayBlockingQueue benchmark

The thread transfer benchmark over one `ArrayBlockingQueue`: a write puts the
message, a read takes the oldest one, and once the producers are joined the
completed callback puts one message with id -1 for each consumer.  The sweep
runs it for every pair of producer and consumer numbers.
-/

namespace LatencyBenchmark

namespace ArrayBlockingQueue

/-- The id of the messages that tell consumers to stop. -/
def poison : Int :=
  -1

/-- `ArrayBlockingQueueWrite`, `ArrayBlockingQueueRead` and
`ArrayBlockingQueueCompleted`. -/
def callbacks (capacity : Nat) :
    ThreadTrans.Callbacks (BoundedQueue Int capacity) where
  write := BoundedQueue.put
  read := BoundedQueue.take
  completed := some fun queue => queue.put poison

/-- One case of the benchmark, over an empty queue. -/
def system (config : LatencyBenchmarkConfig) :=
  ThreadTrans.system (callbacks config.capacity.toNat) BoundedQueue.empty
    config

/-- The states of one case. -/
abbrev State (config : LatencyBenchmarkConfig) :=
  ThreadTrans.State (BoundedQueue Int config.capacity.toNat)
    config.producer.toNat config.consumer.toNat

/-- `producerNums`, which is also `consumerNums`, on a machine whose
`availableProcessors()` is `hc`. -/
def sweepNums (hc : Int) : List Int :=
  let hc := if hc ≤ 0 then 2 else hc
  [1, 2, 4, hc.tdiv 2, hc, toInt32 (hc * 2), toInt32 (hc * 4)]

/-- The configuration of one case of the sweep. -/
def caseConfig (config : LatencyBenchmarkConfig)
    (producerNum consumerNum : Int) : LatencyBenchmarkConfig :=
  { config with producer := producerNum, consumer := consumerNum }

end ArrayBlockingQueue

end LatencyBenchmark
