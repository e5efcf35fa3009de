import LatencyBenchmark.SeparatedFields

/-!
# Tables of numbers as comma-separated text

A table has a header and rows.  The first columns of a row hold texts, the
others integers, and all rows are as wide as the header.  Written as lines of
cells with commas between them, a table is read back as it was: a line of
another width, or a cell that is not a number where one belongs, is refused.

Nothing here mentions a particular program.
-/

namespace LatencyBenchmark

namespace Csv

/-- A text without separators. -/
def IsCell (cell : String) : Prop :=
  ',' ∉ cell.toList ∧ '\n' ∉ cell.toList

instance (cell : String) : Decidable (IsCell cell) :=
  inferInstanceAs (Decidable (_ ∧ _))

/-- The line of some cells. -/
def line (cells : List String) : List Char :=
  List.intercalate [','] (cells.map String.toList) ++ ['\n']

/-- The cells of every line. -/
def records (text : List Char) : List (List String) :=
  (text.splitOn '\n').dropLast.map fun line =>
    (line.splitOn ',').map String.ofList

/-! ## Texts of integers -/

theorem isDigit_or_minus_of_mem_toString {value : Int} {symbol : Char}
    (mem : symbol ∈ (toString value).toList) :
    symbol.isDigit = true ∨ symbol = '-' := by
  have digits : ∀ number : Nat, symbol ∈ number.repr.toList →
      symbol.isDigit = true := by
    intro number inNumber
    rw [Nat.toList_repr] at inNumber
    exact Nat.isDigit_of_mem_toDigits (by decide) (by decide) inNumber
  rw [Int.toString_eq_repr, Int.repr_eq_if] at mem
  split at mem
  · exact .inl (digits _ mem)
  · rw [String.toList_append, List.mem_append] at mem
    rcases mem with sign | later
    · exact .inr (List.mem_singleton.mp sign)
    · exact .inl (digits _ later)

/-- An integer is a cell. -/
theorem isCell_toString (value : Int) : IsCell (toString value) := by
  constructor <;> intro mem <;>
    rcases isDigit_or_minus_of_mem_toString mem with digit | minus
  · exact absurd digit (by decide)
  · exact absurd minus (by decide)
  · exact absurd digit (by decide)
  · exact absurd minus (by decide)

theorem mapM_toInt?_map_toString (values : List Int) :
    (values.map toString).mapM String.toInt? = some values := by
  induction values with
  | nil => rfl
  | cons value values induction =>
      rw [List.map_cons, List.mapM_cons, induction,
        Int.toString_eq_repr, Int.toInt?_repr]
      rfl

/-! ## Lines -/

theorem newline_notMem_intercalate {cells : List String}
    (areCells : ∀ cell ∈ cells, IsCell cell) :
    '\n' ∉ List.intercalate [','] (cells.map String.toList) := by
  induction cells with
  | nil => simp
  | cons cell cells induction =>
      have free := (areCells cell List.mem_cons_self).2
      have later := induction fun other mem =>
        areCells other (List.mem_cons_of_mem _ mem)
      cases cells with
      | nil => simpa using free
      | cons next cells =>
          rw [List.map_cons, List.map_cons, List.intercalate_cons_cons,
            List.mem_append, List.mem_append]
          rintro ((inCell | comma) | inLater)
          · exact free inCell
          · exact absurd comma (by decide)
          · exact later inLater

/-- Cells closed by commas, and a last one closed by the end of the line, are
a line. -/
theorem line_append_singleton (cells : List String) (last : String) :
    line (cells ++ [last]) =
      cells.flatMap (fun cell => cell.toList ++ [',']) ++
        (last.toList ++ ['\n']) := by
  induction cells with
  | nil => simp [line]
  | cons cell cells induction =>
      have nonempty : ∃ next rest,
          (cells ++ [last]).map String.toList = next :: rest := by
        cases cells <;> exact ⟨_, _, rfl⟩
      obtain ⟨next, rest, split⟩ := nonempty
      unfold line at induction ⊢
      rw [split] at induction
      rw [List.cons_append, List.map_cons, split, List.intercalate_cons_cons,
        List.flatMap_cons, List.append_assoc, List.append_assoc, induction]
      simp only [List.append_assoc]

/-- Without newlines in the cells the lines are found again. -/
theorem records_flatMap_line_of_newline_free {rows : List (List String)}
    (free : ∀ row ∈ rows,
      '\n' ∉ List.intercalate [','] (row.map String.toList)) :
    records (rows.flatMap line) = rows.map fun row =>
      ((List.intercalate [','] (row.map String.toList)).splitOn ',').map
        String.ofList := by
  have fieldsFree : ∀ joined ∈ rows.map fun row =>
      List.intercalate [','] (row.map String.toList), '\n' ∉ joined := by
    intro joined mem
    obtain ⟨row, inRows, rfl⟩ := List.mem_map.mp mem
    exact free row inRows
  have lines := SeparatedFields.splitOn_closed_fields fieldsFree
    (List.not_mem_nil : '\n' ∉ [])
  rw [List.flatMap_map, List.append_nil] at lines
  unfold records
  change (((rows.flatMap fun row => _ ++ ['\n']).splitOn '\n').dropLast.map
    _) = _
  rw [lines, List.dropLast_concat, List.map_map]
  rfl

/-- **Lines are read as they were written.** -/
theorem records_flatMap_line {rows : List (List String)}
    (nonempty : ∀ row ∈ rows, row ≠ [])
    (areCells : ∀ row ∈ rows, ∀ cell ∈ row, IsCell cell) :
    records (rows.flatMap line) = rows := by
  rw [records_flatMap_line_of_newline_free fun row inRows =>
    newline_notMem_intercalate (areCells row inRows)]
  conv_rhs => rw [← List.map_id rows]
  apply List.map_congr_left
  intro row inRows
  have commaFree : ∀ cell ∈ row.map String.toList, ',' ∉ cell := by
    intro cell mem
    obtain ⟨text, inRow, rfl⟩ := List.mem_map.mp mem
    exact (areCells row inRows text inRow).1
  have split := List.splitOn_intercalate ',' commaFree
    (by simpa using nonempty row inRows)
  rw [split, List.map_map]
  simp [Function.comp_def]

/-- A text has as many lines as newlines. -/
theorem length_records (text : List Char) :
    (records text).length = text.count '\n' := by
  rw [records, List.length_map, List.length_dropLast,
    SeparatedFields.length_splitOn]
  omega

/-- A symbol other than the comma stands in the cells of a row. -/
theorem notMem_of_notMem_intercalate {symbol : Char} {row : List String}
    (free : symbol ∉ List.intercalate [','] (row.map String.toList)) :
    ∀ cell ∈ row, symbol ∉ cell.toList := by
  have none := List.count_eq_zero.mpr free
  rw [SeparatedFields.count_intercalate_singleton, Nat.add_eq_zero_iff,
    List.sum_eq_zero_iff] at none
  intro cell inRow
  exact List.count_eq_zero.mp (none.1 _ (List.mem_map_of_mem
    (List.mem_map_of_mem inRow)))

/-- A file with one line for each row has no newline in a row. -/
theorem newline_notMem_of_length_records {rows : List (List String)}
    (length : (records (rows.flatMap line)).length = rows.length) :
    ∀ row ∈ rows,
      '\n' ∉ List.intercalate [','] (row.map String.toList) := by
  have newlines : (rows.flatMap line).count '\n' =
      (rows.map fun row => (List.intercalate [','] (row.map
        String.toList)).count '\n').sum + rows.length := by
    clear length
    induction rows with
    | nil => rfl
    | cons row rows induction =>
        rw [List.flatMap_cons, List.count_append, induction, line,
          List.count_append, List.count_singleton_self, List.map_cons,
          List.sum_cons, List.length_cons]
        omega
  rw [length_records, newlines] at length
  have none := Nat.add_eq_right.mp length
  rw [List.sum_eq_zero_iff] at none
  intro row inRows
  exact List.count_eq_zero.mp (none _ (List.mem_map_of_mem inRows))

/-- **Only cells are read back.**  Rows of one width are found again at that
width only when no cell holds a separator. -/
theorem isCell_of_records_fit {rows : List (List String)} {width : Nat}
    (positive : 1 ≤ width) (wide : ∀ row ∈ rows, row.length = width)
    (length : (records (rows.flatMap line)).length = rows.length)
    (fit : ∀ record ∈ records (rows.flatMap line), record.length = width) :
    ∀ row ∈ rows, ∀ cell ∈ row, IsCell cell := by
  have free := newline_notMem_of_length_records length
  rw [records_flatMap_line_of_newline_free free] at fit
  intro row inRows cell inRow
  refine ⟨?_, notMem_of_notMem_intercalate (free row inRows) cell inRow⟩
  have commas := fit _ (List.mem_map_of_mem inRows)
  rw [List.length_map, SeparatedFields.length_splitOn,
    SeparatedFields.count_intercalate_singleton, if_pos rfl, List.length_map,
    wide row inRows] at commas
  have none : ((row.map String.toList).map (List.count ',')).sum = 0 := by
    omega
  rw [List.sum_eq_zero_iff] at none
  exact List.count_eq_zero.mp (none _ (List.mem_map_of_mem
    (List.mem_map_of_mem inRow)))

end Csv

/-! ## Tables -/

/-- The texts and the numbers of a row. -/
abbrev Csv.Row :=
  List String × List Int

open Csv

/-- A table whose rows are as wide as its header. -/
structure CsvTable where
  /-- The names of the columns of texts. -/
  names : List String
  /-- The numbers in the header of the other columns, at least one. -/
  columns : List Int
  rows : List Row
  columns_ne_nil : columns ≠ []
  names_cells : ∀ name ∈ names, IsCell name
  rows_fit : ∀ row ∈ rows,
    row.1.length = names.length ∧ row.2.length = columns.length
  rows_cells : ∀ row ∈ rows, ∀ cell ∈ row.1, IsCell cell

namespace CsvTable

/-- The cells of a row, texts first. -/
def rowCells (row : Row) : List String :=
  row.1 ++ row.2.map toString

/-- The text of a table. -/
def write (table : CsvTable) : List Char :=
  ((table.names, table.columns) :: table.rows).flatMap fun row =>
    line (rowCells row)

/-- Read a row whose first cells are texts. -/
def readRow (texts : Nat) (cells : List String) : Option Row := do
  let numbers ← (cells.drop texts).mapM String.toInt?
  return (cells.take texts, numbers)

/-- Read a table whose first columns are texts. -/
def read (texts : Nat) (text : List Char) : Option CsvTable :=
  match (records text).mapM (readRow texts) with
  | some ((names, columns) :: rows) =>
      if nonempty : columns ≠ [] then
        if namesCells : ∀ name ∈ names, IsCell name then
          if fit : ∀ row ∈ rows,
              row.1.length = names.length ∧
                row.2.length = columns.length then
            if rowsCells : ∀ row ∈ rows, ∀ cell ∈ row.1, IsCell cell then
              some ⟨names, columns, rows, nonempty, namesCells, fit,
                rowsCells⟩
            else none
          else none
        else none
      else none
  | _ => none

theorem readRow_rowCells (row : Row) :
    readRow row.1.length (rowCells row) = some row := by
  unfold readRow rowCells
  rw [List.drop_left, List.take_left, mapM_toInt?_map_toString]
  rfl

theorem mapM_readRow_rowCells {texts : Nat} {rows : List Row}
    (fit : ∀ row ∈ rows, row.1.length = texts) :
    (rows.map rowCells).mapM (readRow texts) = some rows := by
  induction rows with
  | nil => rfl
  | cons row rows induction =>
      have later := induction fun other mem =>
        fit other (List.mem_cons_of_mem _ mem)
      have first := readRow_rowCells row
      rw [fit row List.mem_cons_self] at first
      rw [List.map_cons, List.mapM_cons, first, later]
      rfl

/-- **Round trip.**  A table is read back from its text. -/
theorem read_write (table : CsvTable) :
    read table.names.length table.write = some table := by
  obtain ⟨names, columns, rows, nonempty, namesCells, fit, rowsCells⟩ := table
  have widths : ∀ row ∈ (names, columns) :: rows,
      row.1.length = names.length ∧ row.2.length = columns.length := by
    intro row mem
    rcases List.mem_cons.mp mem with rfl | later
    · exact ⟨rfl, rfl⟩
    · exact fit row later
  have wrote : records (write ⟨names, columns, rows, nonempty, namesCells,
      fit, rowsCells⟩) = ((names, columns) :: rows).map rowCells := by
    unfold write
    rw [← List.flatMap_map]
    apply records_flatMap_line
    · intro cells mem
      obtain ⟨row, inRows, rfl⟩ := List.mem_map.mp mem
      apply List.ne_nil_of_length_pos
      have positive := List.length_pos_of_ne_nil nonempty
      rw [rowCells, List.length_append, List.length_map, (widths row inRows).2]
      omega
    · intro cells mem cell inCells
      obtain ⟨row, inRows, rfl⟩ := List.mem_map.mp mem
      rcases List.mem_append.mp inCells with text | number
      · rcases List.mem_cons.mp inRows with rfl | later
        · exact namesCells cell text
        · exact rowsCells row later cell text
      · obtain ⟨value, _, rfl⟩ := List.mem_map.mp number
        exact isCell_toString value
  unfold read
  rw [wrote, mapM_readRow_rowCells fun row mem => (widths row mem).1]
  simp only [dif_pos nonempty, dif_pos namesCells]
  rw [dif_pos fit, dif_pos rowsCells]

end CsvTable

end LatencyBenchmark
