import Mathlib

/-!
# Separated fields

A line of text whose fields are separated by one symbol, as a list of
symbols.  Splitting the line gives the fields back when the symbol is in none
of them.

Nothing here mentions a particular program.
-/

namespace LatencyBenchmark

namespace SeparatedFields

variable {Symbol : Type*} [DecidableEq Symbol]

/-- A line has one field more than separators. -/
theorem length_splitOn (separator : Symbol) (line : List Symbol) :
    (line.splitOn separator).length = line.count separator + 1 := by
  induction line with
  | nil => rfl
  | cons symbol line induction =>
      rw [List.splitOn_cons_eq_if_modifyHead]
      by_cases same : symbol = separator
      · simp [same, induction]
      · simp [same, induction, List.length_modifyHead]

/-- Fields that are each closed by a separator, and a last one that is not,
are the fields of the line. -/
theorem splitOn_closed_fields {separator : Symbol}
    {fields : List (List Symbol)} {last : List Symbol}
    (fieldsFree : ∀ field ∈ fields, separator ∉ field)
    (lastFree : separator ∉ last) :
    (fields.flatMap (· ++ [separator]) ++ last).splitOn separator =
      fields ++ [last] := by
  induction fields with
  | nil => exact List.splitOn_eq_singleton lastFree
  | cons field fields induction =>
      have later := induction fun other mem =>
        fieldsFree other (List.mem_cons_of_mem _ mem)
      rw [List.flatMap_cons, List.append_assoc, List.append_assoc,
        List.singleton_append, List.splitOn_append_cons_self_of_not_mem
          (fieldsFree field List.mem_cons_self), later]
      rfl

/-- Fields that are each closed by a separator bring as many separators. -/
theorem count_closed_fields {separator : Symbol}
    {fields : List (List Symbol)}
    (fieldsFree : ∀ field ∈ fields, separator ∉ field) :
    (fields.flatMap (· ++ [separator])).count separator = fields.length := by
  induction fields with
  | nil => rfl
  | cons field fields induction =>
      have later := induction fun other mem =>
        fieldsFree other (List.mem_cons_of_mem _ mem)
      rw [List.flatMap_cons, List.count_append, later, List.count_append,
        List.count_eq_zero.mpr (fieldsFree field List.mem_cons_self),
        List.count_singleton_self, List.length_cons]
      omega

/-- Joining fields puts one separator between two of them. -/
theorem count_intercalate_singleton (separator symbol : Symbol)
    (fields : List (List Symbol)) :
    (List.intercalate [separator] fields).count symbol =
      (fields.map (List.count symbol)).sum +
        if symbol = separator then fields.length - 1 else 0 := by
  induction fields with
  | nil => simp
  | cons field fields induction =>
      cases fields with
      | nil => simp
      | cons next fields =>
          rw [List.intercalate_cons_cons, List.count_append,
            List.count_append, induction]
          conv_rhs => rw [List.map_cons, List.sum_cons]
          by_cases same : symbol = separator
          · subst same
            simp only [List.count_singleton_self, if_true, List.length_cons]
            omega
          · have other : [separator].count symbol = 0 :=
              List.count_eq_zero.mpr fun mem =>
                same (List.mem_singleton.mp mem)
            simp only [other, same, if_false]
            omega

end SeparatedFields

end LatencyBenchmark
