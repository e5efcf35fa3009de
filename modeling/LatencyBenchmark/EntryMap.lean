import Mathlib.Data.List.Basic

/-!
# Maps as entry lists

A map given by its entries in iteration order.  Putting a key replaces the
value of its entry, or adds a new entry at the end.
-/

namespace LatencyBenchmark

/-- A map with its entries in iteration order. -/
abbrev EntryMap (Key Value : Type*) :=
  List (Key × Value)

namespace EntryMap

variable {Key Value : Type*} [DecidableEq Key]

/-- The value of a key. -/
def get (map : EntryMap Key Value) (key : Key) : Option Value :=
  match map with
  | [] => none
  | entry :: rest => if entry.1 = key then some entry.2 else get rest key

/-- Replace the value of a key, or add the key at the end.  A Java `HashMap`
may iterate in another order; for the keys 0, 1 and 2 put in this order it is
the same. -/
def put (map : EntryMap Key Value) (key : Key) (value : Value) :
    EntryMap Key Value :=
  match map with
  | [] => [(key, value)]
  | entry :: rest =>
      if entry.1 = key then (key, value) :: rest
      else entry :: put rest key value

@[simp]
theorem get_nil (key : Key) : get ([] : EntryMap Key Value) key = none :=
  rfl

@[simp]
theorem get_put_self (map : EntryMap Key Value) (key : Key) (value : Value) :
    (map.put key value).get key = some value := by
  induction map with
  | nil => simp [put, get]
  | cons entry rest induction =>
      by_cases same : entry.1 = key
      · simp [put, get, same]
      · simp [put, get, same, induction]

@[simp]
theorem get_put_of_ne (map : EntryMap Key Value) {key other : Key}
    (value : Value) (different : key ≠ other) :
    (map.put key value).get other = map.get other := by
  induction map with
  | nil => simp [put, get, different]
  | cons entry rest induction =>
      by_cases same : entry.1 = key
      · simp [put, get, same, different]
      · by_cases there : entry.1 = other
        · simp [put, get, there, different.symm]
        · simp [put, get, same, there, induction]

/-- Putting the value a key already has changes nothing. -/
theorem put_of_get_eq_some {map : EntryMap Key Value} {key : Key}
    {value : Value} (present : map.get key = some value) :
    map.put key value = map := by
  induction map with
  | nil => simp at present
  | cons entry rest induction =>
      by_cases same : entry.1 = key
      · simp only [get, same, if_true, Option.some.injEq] at present
        simp [put, ← same, ← present]
      · simp only [get, same, if_false] at present
        simp [put, same, induction present]

/-- Of two values put for one key the second stays. -/
@[simp]
theorem put_put (map : EntryMap Key Value) (key : Key)
    (first second : Value) :
    (map.put key first).put key second = map.put key second := by
  induction map with
  | nil => simp [put]
  | cons entry rest induction =>
      by_cases same : entry.1 = key
      · simp [put, same]
      · simp [put, same, induction]

/-- Putting a key that has a value keeps the keys and their order. -/
theorem keys_put {map : EntryMap Key Value} {key : Key} {value : Value}
    (present : (map.get key).isSome) :
    (map.put key value).map Prod.fst = map.map Prod.fst := by
  induction map with
  | nil => simp at present
  | cons entry rest induction =>
      by_cases same : entry.1 = key
      · simp [put, same]
      · simp only [get, same, if_false] at present
        simp [put, same, induction present]

/-- Every key has a value. -/
theorem isSome_get_of_mem_keys {map : EntryMap Key Value} {key : Key}
    (mem : key ∈ map.map Prod.fst) : (map.get key).isSome := by
  induction map with
  | nil => simp at mem
  | cons entry rest induction =>
      by_cases same : entry.1 = key
      · simp [get, same]
      · rcases List.mem_cons.mp mem with here | later
        · exact absurd here.symm same
        · simp [get, same, induction later]

/-- The value of a key stands in an entry of that key. -/
theorem mem_of_get {map : EntryMap Key Value} {key : Key} {value : Value}
    (present : map.get key = some value) : (key, value) ∈ map := by
  induction map with
  | nil => simp at present
  | cons entry rest induction =>
      by_cases same : entry.1 = key
      · rw [get, if_pos same, Option.some.injEq] at present
        exact List.mem_cons.mpr (Or.inl (Prod.ext same.symm present.symm))
      · rw [get, if_neg same] at present
        exact List.mem_cons_of_mem _ (induction present)

/-- With distinct keys, every entry is what its key is mapped to. -/
theorem get_of_mem {map : EntryMap Key Value} {entry : Key × Value}
    (distinct : (map.map Prod.fst).Nodup) (mem : entry ∈ map) :
    map.get entry.1 = some entry.2 := by
  induction map with
  | nil => simp at mem
  | cons first rest induction =>
      rw [List.map_cons, List.nodup_cons] at distinct
      rcases List.mem_cons.mp mem with rfl | later
      · simp [get]
      · have different : first.1 ≠ entry.1 := by
          intro same
          exact distinct.1 (same ▸ List.mem_map_of_mem later)
        simp [get, different, induction distinct.2 later]

end EntryMap

end LatencyBenchmark
