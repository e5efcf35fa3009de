import Mathlib.Data.List.Basic

/-!
# Traversals that may fail

`List.mapM` in `Except`: it succeeds exactly when every element does.
-/

namespace LatencyBenchmark

namespace ExceptTraversal

universe u v

variable {Error : Type u} {Input Output : Type v}

/-- A computation that succeeded continues with its result. -/
@[simp]
theorem ok_bind (input : Input) (rest : Input → Except Error Output) :
    (Except.ok input >>= rest) = rest input :=
  rfl

/-- A sequence that succeeded went through a result of its first part. -/
theorem exists_of_bind_eq_ok {call : Except Error Input}
    {rest : Input → Except Error Output} {output : Output}
    (done : (call >>= rest) = .ok output) :
    ∃ input, call = .ok input ∧ rest input = .ok output := by
  cases call with
  | error error => cases done
  | ok input => exact ⟨input, rfl, done⟩

/-- A traversal all of whose calls succeed returns the list of results. -/
theorem mapM_eq_ok {call : Input → Except Error Output}
    {result : Input → Output} {inputs : List Input}
    (succeeds : ∀ input ∈ inputs, call input = .ok (result input)) :
    inputs.mapM call = .ok (inputs.map result) := by
  induction inputs with
  | nil => rfl
  | cons input inputs induction =>
      have later := induction fun other mem =>
        succeeds other (List.mem_cons_of_mem _ mem)
      rw [List.mapM_cons, succeeds input List.mem_cons_self, later]
      rfl

/-- A traversal whose calls all succeed succeeds. -/
theorem exists_mapM_eq_ok {call : Input → Except Error Output}
    {inputs : List Input}
    (succeeds : ∀ input ∈ inputs, ∃ output, call input = .ok output) :
    ∃ outputs, inputs.mapM call = .ok outputs := by
  induction inputs with
  | nil => exact ⟨[], rfl⟩
  | cons input inputs induction =>
      obtain ⟨output, first⟩ := succeeds input List.mem_cons_self
      obtain ⟨outputs, later⟩ := induction fun other mem =>
        succeeds other (List.mem_cons_of_mem _ mem)
      refine ⟨output :: outputs, ?_⟩
      rw [List.mapM_cons, first, later]
      rfl

/-- Every call of a successful traversal succeeded. -/
theorem exists_eq_ok_of_mapM {call : Input → Except Error Output}
    {inputs : List Input} {outputs : List Output}
    (traversed : inputs.mapM call = .ok outputs) :
    ∀ input ∈ inputs, ∃ output, call input = .ok output := by
  induction inputs generalizing outputs with
  | nil => simp
  | cons input inputs induction =>
      rw [List.mapM_cons] at traversed
      cases first : call input with
      | error error =>
          rw [first] at traversed
          cases traversed
      | ok output =>
          rw [first] at traversed
          cases later : inputs.mapM call with
          | error error =>
              simp only [later] at traversed
              cases traversed
          | ok rest =>
              intro other mem
              rcases List.mem_cons.mp mem with rfl | mem
              · exact ⟨output, first⟩
              · exact induction later other mem

/-- A traversal that failed failed in one of its calls. -/
theorem exists_eq_error_of_mapM {call : Input → Except Error Output}
    {inputs : List Input} {error : Error}
    (failed : inputs.mapM call = .error error) :
    ∃ input ∈ inputs, call input = .error error := by
  induction inputs with
  | nil => cases failed
  | cons input inputs induction =>
      rw [List.mapM_cons] at failed
      cases first : call input with
      | error own =>
          rw [first] at failed
          cases failed
          exact ⟨input, List.mem_cons_self, first⟩
      | ok output =>
          cases later : inputs.mapM call with
          | error own =>
              rw [first, later] at failed
              cases failed
              obtain ⟨other, mem, failing⟩ := induction later
              exact ⟨other, List.mem_cons_of_mem _ mem, failing⟩
          | ok outputs =>
              rw [first, later] at failed
              cases failed

/-- A successful traversal returns one result for each input. -/
theorem length_of_mapM {call : Input → Except Error Output}
    {inputs : List Input} {outputs : List Output}
    (traversed : inputs.mapM call = .ok outputs) :
    outputs.length = inputs.length := by
  induction inputs generalizing outputs with
  | nil =>
      cases traversed
      rfl
  | cons input inputs induction =>
      rw [List.mapM_cons] at traversed
      obtain ⟨output, _, rest⟩ := exists_of_bind_eq_ok traversed
      obtain ⟨later, traversedLater, done⟩ := exists_of_bind_eq_ok rest
      cases done
      rw [List.length_cons, List.length_cons, induction traversedLater]

end ExceptTraversal

end LatencyBenchmark
