import LatencyBenchmark.Binary64
import LatencyBenchmark.EntryMap
import LatencyBenchmark.MachineInteger

/-!
# Timestamp records and the latency report

`LatencyBenchmarkHandle` keeps one record array for each registered action.
`genTimestampRecordsReport` dumps them, `genLatencyReport` writes, for each
pair of actions, a row of latencies in record order and one in sorted order.

A writer is the list of the strings written to it, and the report methods
return that list or the unchecked exception they end with.
-/

namespace LatencyBenchmark

/-- The unchecked exceptions the modelled methods can end with. -/
inductive JavaException where
  | arithmetic
  | arrayIndexOutOfBounds
  | negativeArraySize
  | nullPointer
  deriving DecidableEq, Repr

/-- `LatencyBenchmarkRecord`, all fields zero when created. -/
structure LatencyBenchmarkRecord where
  action : Int := 0
  id : Int := 0
  sec : Int := 0
  nsec : Int := 0
  deriving DecidableEq, Repr

/-- The fields of `LatencyBenchmarkConfig` that the benchmarks and their
reports read, with their defaults. -/
structure LatencyBenchmarkConfig where
  totalRounds : Int := 100
  recordPerRound : Int := 10
  intervalBetweenRound : Int := 1
  capacity : Int := 1024
  producer : Int := 1
  consumer : Int := 1
  reportStep : Int := 10
  deriving DecidableEq, Repr

/-- A `LatencyBenchmarkRecord[]`; `none` is a null slot. -/
abbrev RecordArray :=
  List (Option LatencyBenchmarkRecord)

/-- `LatencyBenchmarkHandle`.  The entries of `actionTimeRecords` stand in
the order in which `entrySet` yields them. -/
structure LatencyBenchmarkHandle where
  recordCount : Int
  actionMap : EntryMap Int String
  actionTimeRecords : EntryMap Int RecordArray

namespace LatencyBenchmarkHandle

/-- `new LatencyBenchmarkHandle(recordCount)`. -/
def new (recordCount : Int) : LatencyBenchmarkHandle where
  recordCount := recordCount
  actionMap := []
  actionTimeRecords := []

/-- `addAction`: name an action and allocate its array of null slots. -/
def addAction (handle : LatencyBenchmarkHandle) (id : Int)
    (actionName : String) : Except JavaException LatencyBenchmarkHandle :=
  if handle.recordCount < 0 then
    throw .negativeArraySize
  else
    return { handle with
      actionMap := handle.actionMap.put id actionName
      actionTimeRecords := handle.actionTimeRecords.put id
        (List.replicate handle.recordCount.toNat none) }

/-- `getActionName` as `%s` prints it, null included. -/
def getActionName (handle : LatencyBenchmarkHandle) (id : Int) : String :=
  (handle.actionMap.get id).getD "null"

/-- `getActionTimestampRecords`; `none` is a null array. -/
def getActionTimestampRecords (handle : LatencyBenchmarkHandle)
    (action : Int) : Option RecordArray :=
  handle.actionTimeRecords.get action

/-- `records[index]` and a method call on it. -/
def recordAt (records : RecordArray) (index : Int) :
    Except JavaException LatencyBenchmarkRecord :=
  if index < 0 then
    throw .arrayIndexOutOfBounds
  else
    match records[index.toNat]? with
    | none => throw .arrayIndexOutOfBounds
    | some none => throw .nullPointer
    | some (some record) => return record

/-- `getActionTimestampRecords(action)[index] = record`. -/
def storeRecord (handle : LatencyBenchmarkHandle) (action index : Int)
    (record : LatencyBenchmarkRecord) :
    Except JavaException LatencyBenchmarkHandle :=
  match handle.getActionTimestampRecords action with
  | none => throw .nullPointer
  | some records =>
      if 0 ≤ index ∧ index.toNat < records.length then
        return { handle with
          actionTimeRecords := handle.actionTimeRecords.put action
            (records.set index.toNat (some record)) }
      else
        throw .arrayIndexOutOfBounds

/-- One line of the record dump. -/
def recordLine (handle : LatencyBenchmarkHandle) (index : Nat) (action : Int)
    (record : LatencyBenchmarkRecord) : String :=
  s!"{index},{handle.getActionName action},{record.sec},{record.nsec}\n"

/-- `genTimestampRecordsReport(BufferedWriter)`. -/
def genTimestampRecordsReport (handle : LatencyBenchmarkHandle) :
    Except JavaException (List String) := do
  let lines ← (List.range handle.recordCount.toNat).mapM fun index : Nat =>
    handle.actionTimeRecords.mapM fun entry => do
      let record ← recordAt entry.2 index
      return handle.recordLine index entry.1 record
  return lines.flatten

/-- The first values of `i` in `for (int i = 0; i < 100; i += step)`. -/
def loopValues (step : Int) : Nat → Int → List Int
  | 0, _ => []
  | count + 1, i =>
      if i < 100 then i :: loopValues step count (toInt32 (i + step)) else []

/-- All values of `i` in that loop, for a positive step. -/
def quantiles (step : Int) : List Int :=
  loopValues step 100 0

/-- `(int) ((i / 100.0) * cnt)` in double arithmetic. -/
def quantilePosition (rounding : ℚ → ℚ) (i cnt : Int) : Int :=
  truncateDouble (rounding (rounding (i / 100) * cnt))

/-- The end record of a message that was not read: both fields still zero. -/
def IsMissing (record : LatencyBenchmarkRecord) : Prop :=
  record.sec = 0 ∧ record.nsec = 0

instance (record : LatencyBenchmarkRecord) : Decidable (IsMissing record) :=
  inferInstanceAs (Decidable (_ ∧ _))

/-- `(end.getSec() - beg.getSec()) * 1000000000 + end.getNsec() -
beg.getNsec()` in `long` arithmetic. -/
def elapsedTime (beg end_ : LatencyBenchmarkRecord) : Int :=
  toInt64 (toInt64 (toInt64 (toInt64 (end_.sec - beg.sec) * 1000000000) +
    end_.nsec) - beg.nsec)

/-- The loop that fills `elapsed` and accumulates `sum`, from some index on:
the remaining `elapsed` values and the final `sum`. -/
def measure : RecordArray → RecordArray → Int →
    Except JavaException (List Int × Int)
  | [], _, sum => return ([], sum)
  | _ :: _, [], _ => throw .arrayIndexOutOfBounds
  | _ :: _, none :: _, _ => throw .nullPointer
  | beg :: begs, some end_ :: ends, sum =>
      if IsMissing end_ then do
        let (elapsed, total) ← measure begs ends sum
        return (maxInt32 :: elapsed, total)
      else
        match beg with
        | none => throw .nullPointer
        | some beg => do
            let value := elapsedTime beg end_
            let (elapsed, total) ← measure begs ends (toInt64 (sum + value))
            return (value :: elapsed, total)

/-- `elapsed[index]`. -/
def elapsedAt (elapsed : List Int) (index : Int) :
    Except JavaException Int :=
  if index < 0 then
    throw .arrayIndexOutOfBounds
  else
    match elapsed[index.toNat]? with
    | none => throw .arrayIndexOutOfBounds
    | some value => return value

/-- What is written for one quantile column. -/
def quantileCell (value : Int) : String :=
  if value = maxInt32 then "-" else s!"{value},"

/-- What is written for the last column. -/
def lastCell (value : Int) : String :=
  if value = maxInt32 then "-" else s!"{value}"

/-- The columns in front of the quantiles. -/
def rowPrefix (config : LatencyBenchmarkConfig) (caseName : String)
    (avg : Int) : String :=
  s!"{caseName},{config.totalRounds},{config.recordPerRound}," ++
    s!"{config.intervalBetweenRound},{config.capacity}," ++
      s!"{config.producer},{config.consumer},{avg},"

/-- The quantile columns, the last column and the line end. -/
def rowCells (config : LatencyBenchmarkConfig) (elapsed : List Int) :
    Except JavaException (List String) := do
  let cnt : Int := elapsed.length
  let cells ← (quantiles config.reportStep).mapM fun i => do
    let value ← elapsedAt elapsed (quantilePosition roundBinary64 i cnt)
    return quantileCell value
  let last ← elapsedAt elapsed (cnt - 1)
  return cells ++ [lastCell last, "\n"]

/-- `genLatencyReportBody`. -/
def genLatencyReportBody (handle : LatencyBenchmarkHandle)
    (latencyPair : Int × Int) (config : LatencyBenchmarkConfig)
    (caseName : String) (sort : Bool) :
    Except JavaException (List String) :=
  match handle.getActionTimestampRecords latencyPair.1,
    handle.getActionTimestampRecords latencyPair.2 with
  | some begRecords, some endRecords => do
      let (elapsed, sum) ← measure begRecords endRecords 0
      if elapsed.length = 0 then
        throw .arithmetic
      let avg := sum.tdiv elapsed.length
      let elapsed := if sort then elapsed.mergeSort else elapsed
      let cells ← rowCells config elapsed
      return rowPrefix config caseName avg :: cells
  | none, _ => throw .nullPointer
  | some begRecords, none =>
      if begRecords.length = 0 then throw .arithmetic
      else throw .nullPointer

/-- The two header lines of `genLatencyReport`. -/
def reportHead (config : LatencyBenchmarkConfig) : List String :=
  ["elapsed unit[ns]\n",
    "case_name,rounds,record_per_round,interval_ms,capacity,producer," ++
      "consumer,avg,"] ++
    ((quantiles config.reportStep).map fun i => s!"{i},") ++ ["100\n"]

/-- `"%s->%s by ..."` for a pair of actions. -/
def caseName (handle : LatencyBenchmarkHandle) (latencyPair : Int × Int)
    (order : String) : String :=
  s!"{handle.getActionName latencyPair.1}->" ++
    s!"{handle.getActionName latencyPair.2} by {order}"

/-- `genLatencyReport(BufferedWriter, latencyPairs, config)`. -/
def genLatencyReport (handle : LatencyBenchmarkHandle)
    (latencyPairs : List (Int × Int)) (config : LatencyBenchmarkConfig) :
    Except JavaException (List String) := do
  let bodies ← latencyPairs.mapM fun latencyPair => do
    let byIdx ← handle.genLatencyReportBody latencyPair config
      (handle.caseName latencyPair "idx") false
    let byElapsed ← handle.genLatencyReportBody latencyPair config
      (handle.caseName latencyPair "elapsed") true
    return byIdx ++ byElapsed
  return reportHead config ++ bodies.flatten

end LatencyBenchmarkHandle

end LatencyBenchmark
