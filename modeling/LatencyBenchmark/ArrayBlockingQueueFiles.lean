import LatencyBenchmark.CausalTimestamps
import LatencyBenchmark.RecordDump

/-!
# The files of a finished run

After a run `genReport` writes the record dump and the latency report.  Read
back, the dump has three stamps for every message, and the latency report
shows the differences of these stamps.
-/

namespace LatencyBenchmark

namespace ThreadTrans

open LatencyBenchmarkHandle

/-! ## Names of the actions -/

variable {Channel : Type} {producers consumers : Nat}
variable {callbacks : Callbacks Channel} {config : LatencyBenchmarkConfig}
variable {state next : State Channel producers consumers}

/-- The three stamps of a message. -/
structure MessageStamps where
  writeBegin : Int
  writeEnd : Int
  read : Int

/-- The lines of the dump about a message. -/
def MessageStamps.entries (stamps : MessageStamps) (id : Nat) :
    List DumpEntry :=
  [⟨id, "write_begin", 0, stamps.writeBegin⟩,
    ⟨id, "write_end", 0, stamps.writeEnd⟩, ⟨id, "read", 0, stamps.read⟩]

variable {handle : LatencyBenchmarkHandle} {count : Nat}
  {records : Int → List LatencyBenchmarkRecord}

/-- The arrays of a handle are these records, without null slots. -/
def ArraysAre (handle : LatencyBenchmarkHandle) (count : Nat)
    (records : Int → List LatencyBenchmarkRecord) : Prop :=
  ∀ action ∈ recordedActions,
    handle.getActionTimestampRecords action =
        some ((records action).map some) ∧
      (records action).length = count

theorem ArraysAre.holds (arrays : ArraysAre handle count records)
    {action : Int} (mem : action ∈ recordedActions) {id : Nat}
    (inside : id < count) :
    handle.Holds action id ((records action).getD id {}) := by
  obtain ⟨present, length⟩ := arrays action mem
  have bound : id < (records action).length := length ▸ inside
  refine ⟨_, present, ?_⟩
  rw [List.getElem?_map, List.getD_eq_getElem?_getD,
    List.getElem?_eq_getElem bound]
  rfl

end ThreadTrans

namespace ArrayBlockingQueue

open ThreadTrans LatencyBenchmarkHandle

variable {config : LatencyBenchmarkConfig} {state : State config}
  {lower : Int}

end ArrayBlockingQueue

end LatencyBenchmark
