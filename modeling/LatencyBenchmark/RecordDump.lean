import LatencyBenchmark.LatencyReport
import LatencyBenchmark.ReportFiles

/-!
# Reading the record dump back

`genTimestampRecordsReport` writes a line for every slot of every array.
Reading these lines as comma-separated text gives the records of the handle
back, in the order of the dump, exactly when every slot has a record and no
action's name holds a separator.
-/

namespace LatencyBenchmark

namespace LatencyBenchmarkHandle

open ReportFiles

/-- What a line of the record dump tells. -/
structure DumpEntry where
  id : Int
  actionName : String
  sec : Int
  nsec : Int
  deriving DecidableEq, Repr

/-- The cells of its line. -/
def DumpEntry.cells (entry : DumpEntry) : List String :=
  [toString entry.id, entry.actionName, toString entry.sec,
    toString entry.nsec]

/-- Read a line of four cells. -/
def readEntry : List String → Option DumpEntry
  | [id, actionName, sec, nsec] => do
      let id ← id.toInt?
      let sec ← sec.toInt?
      let nsec ← nsec.toInt?
      return ⟨id, actionName, sec, nsec⟩
  | _ => none

/-- Read the lines of a file. -/
def readDump (text : List Char) : Option (List DumpEntry) :=
  (Csv.records text).mapM readEntry

/-- What an array has in a slot, a new record for a null slot. -/
def dumpEntry (handle : LatencyBenchmarkHandle) (index : Nat)
    (entry : Int × RecordArray) : DumpEntry :=
  let record := (entry.2.getD index none).getD {}
  ⟨index, handle.getActionName entry.1, record.sec, record.nsec⟩

/-- What the arrays have in their slots, slot by slot. -/
def dumpEntries (handle : LatencyBenchmarkHandle) : List DumpEntry :=
  (List.range handle.recordCount.toNat).flatMap fun index =>
    handle.actionTimeRecords.map (handle.dumpEntry index)

/-! ## Lines -/

theorem readEntry_cells (entry : DumpEntry) :
    readEntry entry.cells = some entry := by
  simp only [DumpEntry.cells, readEntry, Int.toString_eq_repr,
    Int.toInt?_repr]
  rfl

theorem length_of_readEntry {cells : List String} {entry : DumpEntry}
    (read : readEntry cells = some entry) : cells.length = 4 := by
  unfold readEntry at read
  split at read
  · rfl
  · cases read

theorem mapM_readEntry_cells (entries : List DumpEntry) :
    (entries.map DumpEntry.cells).mapM readEntry = some entries := by
  induction entries with
  | nil => rfl
  | cons entry entries induction =>
      rw [List.map_cons, List.mapM_cons, readEntry_cells, induction]
      rfl

/-- Every line that was read had four cells. -/
theorem fit_of_mapM_readEntry {lines : List (List String)}
    {entries : List DumpEntry} (read : lines.mapM readEntry = some entries) :
    lines.length = entries.length ∧ ∀ cells ∈ lines, cells.length = 4 := by
  induction lines generalizing entries with
  | nil =>
      cases read
      exact ⟨rfl, by simp⟩
  | cons cells lines induction =>
      rw [List.mapM_cons] at read
      obtain ⟨entry, first, rest⟩ := Option.bind_eq_some_iff.mp read
      obtain ⟨later, readLater, done⟩ := Option.bind_eq_some_iff.mp rest
      cases done
      obtain ⟨length, fit⟩ := induction readLater
      refine ⟨by rw [List.length_cons, List.length_cons, length], ?_⟩
      intro other mem
      rcases List.mem_cons.mp mem with rfl | mem
      · exact length_of_readEntry first
      · exact fit other mem

/-- The entries are read from their lines exactly when their names are
cells. -/
theorem readDump_lines_iff (entries : List DumpEntry) :
    readDump ((entries.map DumpEntry.cells).flatMap Csv.line) =
        some entries ↔
      ∀ entry ∈ entries, Csv.IsCell entry.actionName := by
  constructor
  · intro read entry mem
    obtain ⟨length, fit⟩ := fit_of_mapM_readEntry read
    have areCells := Csv.isCell_of_records_fit (Nat.succ_pos 3)
      (by
        intro cells inLines
        obtain ⟨other, _, rfl⟩ := List.mem_map.mp inLines
        rfl)
      (by rw [length, List.length_map]) fit
    exact areCells entry.cells (List.mem_map_of_mem mem) entry.actionName
      (by simp [DumpEntry.cells])
  · intro names
    unfold readDump
    rw [Csv.records_flatMap_line, mapM_readEntry_cells]
    · intro cells inLines
      obtain ⟨entry, _, rfl⟩ := List.mem_map.mp inLines
      exact List.cons_ne_nil _ _
    · intro cells inLines cell inCells
      obtain ⟨entry, mem, rfl⟩ := List.mem_map.mp inLines
      simp only [DumpEntry.cells, List.mem_cons, List.not_mem_nil, or_false]
        at inCells
      rcases inCells with rfl | rfl | rfl | rfl
      · exact Csv.isCell_toString entry.id
      · exact names entry mem
      · exact Csv.isCell_toString entry.sec
      · exact Csv.isCell_toString entry.nsec

theorem toList_recordLine (handle : LatencyBenchmarkHandle) (index : Nat)
    (action : Int) (record : LatencyBenchmarkRecord) :
    (handle.recordLine index action record).toList =
      Csv.line (DumpEntry.cells ⟨index, handle.getActionName action,
        record.sec, record.nsec⟩) := by
  have line (id name sec nsec : String) :
      (id ++ "," ++ name ++ "," ++ sec ++ "," ++ nsec ++ "\n").toList =
        Csv.line [id, name, sec, nsec] := by
    simp [Csv.line, List.intercalate]
  exact line (toString index) (handle.getActionName action)
    (toString record.sec) (toString record.nsec)

/-! ## The dump -/

variable {handle : LatencyBenchmarkHandle}

/-- With a record in every slot the dump has the lines of the entries. -/
theorem exists_dump_lines
    (filled : ∀ index < handle.recordCount.toNat,
      ∀ entry ∈ handle.actionTimeRecords,
        ∃ record, entry.2[index]? = some (some record)) :
    ∃ dump, handle.genTimestampRecordsReport = .ok dump ∧
      written dump =
        (handle.dumpEntries.map DumpEntry.cells).flatMap Csv.line := by
  let lineAt (index : Nat) (entry : Int × RecordArray) : String :=
    handle.recordLine index entry.1 ((entry.2.getD index none).getD {})
  have lines : ∀ index ∈ List.range handle.recordCount.toNat,
      (handle.actionTimeRecords.mapM fun entry => do
        let record ← recordAt entry.2 index
        return handle.recordLine index entry.1 record :
          Except JavaException (List String)) =
        .ok (handle.actionTimeRecords.map (lineAt index)) := by
    intro index inRange
    apply ExceptTraversal.mapM_eq_ok
    intro entry mem
    obtain ⟨record, stored⟩ :=
      filled index (List.mem_range.mp inRange) entry mem
    have slot : entry.2.getD index none = some record := by
      rw [List.getD_eq_getElem?_getD, stored]
      rfl
    dsimp only [lineAt]
    rw [recordAt_eq_ok_iff.mpr stored, slot]
    rfl
  refine ⟨(List.range handle.recordCount.toNat).flatMap fun index =>
    handle.actionTimeRecords.map (lineAt index), ?_, ?_⟩
  · unfold genTimestampRecordsReport
    rw [ExceptTraversal.mapM_eq_ok lines, List.flatMap_def]
    rfl
  · unfold written dumpEntries
    rw [List.flatMap_assoc, List.map_flatMap, List.flatMap_assoc]
    apply List.flatMap_congr
    intro index _
    rw [List.map_map, List.flatMap_map, List.flatMap_map]
    apply List.flatMap_congr
    intro entry _
    exact toList_recordLine handle index entry.1 _

/-- **Round trip of the dump.**  The dump is written and read back with what
the arrays have exactly when every slot has a record and the names of the
actions are free of separators. -/
theorem dump_readsBack_iff (handle : LatencyBenchmarkHandle) :
    (∃ dump, handle.genTimestampRecordsReport = .ok dump ∧
      readDump (written dump) = some handle.dumpEntries) ↔
    ∀ index < handle.recordCount.toNat,
      ∀ entry ∈ handle.actionTimeRecords,
        (∃ record, entry.2[index]? = some (some record)) ∧
          Csv.IsCell (handle.getActionName entry.1) := by
  constructor
  · rintro ⟨dump, dumped, read⟩ index inRange entry mem
    have filled := (exists_genTimestampRecordsReport_eq_ok_iff handle).mp
      ⟨dump, dumped⟩
    obtain ⟨same, sameDumped, text⟩ := exists_dump_lines filled
    cases Except.ok.inj (dumped.symm.trans sameDumped)
    rw [text, readDump_lines_iff] at read
    refine ⟨filled index inRange entry mem, ?_⟩
    apply read (handle.dumpEntry index entry)
    exact List.mem_flatMap.mpr ⟨index, List.mem_range.mpr inRange,
      List.mem_map_of_mem mem⟩
  · intro clean
    obtain ⟨dump, dumped, text⟩ := exists_dump_lines
      fun index inRange entry mem => (clean index inRange entry mem).1
    refine ⟨dump, dumped, ?_⟩
    rw [text, readDump_lines_iff]
    intro shown inEntries
    obtain ⟨index, inRange, inSlot⟩ := List.mem_flatMap.mp inEntries
    obtain ⟨entry, mem, rfl⟩ := List.mem_map.mp inSlot
    exact (clean index (List.mem_range.mp inRange) entry mem).2

end LatencyBenchmarkHandle

end LatencyBenchmark
