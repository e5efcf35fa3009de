import LatencyBenchmark.LatencyReport

/-!
# Record arrays under concurrent stores

A handle whose arrays all have `recordCount` slots accepts every store at a
message id in range, and a store never removes a record.  Once every slot is
filled, the reports complete.
-/

namespace LatencyBenchmark

namespace LatencyBenchmarkHandle

/-- The handle has one array of `count` slots for each of the actions. -/
structure Allocated (handle : LatencyBenchmarkHandle) (actions : List Int)
    (count : Nat) : Prop where
  recordCount_eq : handle.recordCount = count
  actions_eq : handle.actionTimeRecords.map Prod.fst = actions
  actions_nodup : actions.Nodup
  arrays : ∀ action ∈ actions, ∃ records,
    handle.getActionTimestampRecords action = some records ∧
      records.length = count

/-- The slot of a message holds a record of that message and that action. -/
def Recorded (handle : LatencyBenchmarkHandle) (action : Int) (id : Nat) :
    Prop :=
  ∃ records record, handle.getActionTimestampRecords action = some records ∧
    records[id]? = some (some record) ∧ record.id = id ∧
      record.action = action

/-- The slot of a message holds this record. -/
def Holds (handle : LatencyBenchmarkHandle) (action : Int) (id : Nat)
    (record : LatencyBenchmarkRecord) : Prop :=
  ∃ records, handle.getActionTimestampRecords action = some records ∧
    records[id]? = some (some record)

/-- The slot of a message holds some record. -/
def HoldsRecord (handle : LatencyBenchmarkHandle) (action : Int) (id : Nat) :
    Prop :=
  ∃ record, handle.Holds action id record

variable {handle : LatencyBenchmarkHandle} {actions : List Int} {count : Nat}

theorem Recorded.holdsRecord {action : Int} {id : Nat}
    (recorded : handle.Recorded action id) : handle.HoldsRecord action id := by
  obtain ⟨records, record, present, stored, _, _⟩ := recorded
  exact ⟨record, records, present, stored⟩

/-- Only slots of the array hold records. -/
theorem Allocated.lt_of_holdsRecord
    (allocated : handle.Allocated actions count) {action : Int}
    (mem : action ∈ actions) {id : Nat}
    (holds : handle.HoldsRecord action id) : id < count := by
  obtain ⟨records, present, length⟩ := allocated.arrays action mem
  obtain ⟨record, same, samePresent, stored⟩ := holds
  cases Option.some.inj (present.symm.trans samePresent)
  obtain ⟨inside, _⟩ := List.getElem?_eq_some_iff.mp stored
  omega

/-- Storing the record of a message in range succeeds, keeps the arrays
allocated and every earlier record recorded. -/
theorem Allocated.storeRecord (allocated : handle.Allocated actions count)
    {action : Int} (mem : action ∈ actions) {id : Nat} (inside : id < count)
    (record : LatencyBenchmarkRecord) (ownId : record.id = id)
    (ownAction : record.action = action) :
    ∃ stored, handle.storeRecord action id record = .ok stored ∧
      stored.Allocated actions count ∧ stored.Recorded action id ∧
        ∀ other earlier, handle.Recorded other earlier →
          stored.Recorded other earlier := by
  obtain ⟨records, present, length⟩ := allocated.arrays action mem
  let stored : LatencyBenchmarkHandle := { handle with
    actionTimeRecords := handle.actionTimeRecords.put action
      (records.set id (some record)) }
  have storedArray : stored.getActionTimestampRecords action =
      some (records.set id (some record)) :=
    EntryMap.get_put_self _ _ _
  have otherArray : ∀ other, action ≠ other →
      stored.getActionTimestampRecords other =
        handle.getActionTimestampRecords other :=
    fun other different => EntryMap.get_put_of_ne _ _ different
  refine ⟨stored, ?_, ⟨allocated.recordCount_eq, ?_, allocated.actions_nodup,
    ?_⟩, ?_, ?_⟩
  · have range : (0 : Int) ≤ id ∧ (id : Int).toNat < records.length := by
      omega
    rw [LatencyBenchmarkHandle.storeRecord, present]
    simp only [range, and_self, if_true]
    rfl
  · rw [← allocated.actions_eq]
    apply EntryMap.keys_put
    apply EntryMap.isSome_get_of_mem_keys
    rw [allocated.actions_eq]
    exact mem
  · intro other otherMem
    by_cases same : action = other
    · subst same
      exact ⟨_, storedArray, by rw [List.length_set, length]⟩
    · rw [otherArray other same]
      exact allocated.arrays other otherMem
  · refine ⟨_, record, storedArray, ?_, ownId, ownAction⟩
    rw [List.getElem?_set_self (length ▸ inside)]
  · rintro other earlier ⟨slots, kept, earlierArray, slotAt, keptId,
      keptAction⟩
    by_cases same : action = other
    · subst same
      cases Option.some.inj (present.symm.trans earlierArray)
      by_cases here : id = earlier
      · subst here
        refine ⟨_, record, storedArray, ?_, ownId, ownAction⟩
        rw [List.getElem?_set_self (length ▸ inside)]
      · refine ⟨_, kept, storedArray, ?_, keptId, keptAction⟩
        rw [List.getElem?_set_ne here, slotAt]
    · exact ⟨slots, kept, (otherArray other same).trans earlierArray, slotAt,
        keptId, keptAction⟩

/-- A store that succeeds was at a slot of the array. -/
theorem Allocated.inside_of_storeRecord
    (allocated : handle.Allocated actions count) {action index : Int}
    (mem : action ∈ actions) {record : LatencyBenchmarkRecord}
    {stored : LatencyBenchmarkHandle}
    (done : handle.storeRecord action index record = .ok stored) :
    ∃ id : Nat, index = id ∧ id < count := by
  obtain ⟨records, present, length⟩ := allocated.arrays action mem
  rw [LatencyBenchmarkHandle.storeRecord, present] at done
  dsimp only at done
  split at done
  · next inside => exact ⟨index.toNat, by omega, by omega⟩
  · cases done

/-- A record of a message that finds a slot, at whatever index, keeps the
arrays allocated and every earlier record recorded. -/
theorem Allocated.of_storeRecord
    (allocated : handle.Allocated actions count) {action index : Int}
    (mem : action ∈ actions) {record : LatencyBenchmarkRecord}
    {stored : LatencyBenchmarkHandle}
    (done : handle.storeRecord action index record = .ok stored)
    (ownId : record.id = index) (ownAction : record.action = action) :
    stored.Allocated actions count ∧ ∀ other earlier,
      handle.Recorded other earlier → stored.Recorded other earlier := by
  obtain ⟨id, rfl, inside⟩ := allocated.inside_of_storeRecord mem done
  obtain ⟨same, sameDone, kept, _, recorded⟩ :=
    allocated.storeRecord mem inside record ownId ownAction
  cases Except.ok.inj (done.symm.trans sameDone)
  exact ⟨kept, recorded⟩

theorem not_holds_new (recordCount : Int) {action : Int} {id : Nat}
    {record : LatencyBenchmarkRecord} :
    ¬(LatencyBenchmarkHandle.new recordCount).Holds action id record := by
  rintro ⟨records, present, _⟩
  cases present

/-- A new array holds no records. -/
theorem holds_of_addAction {added : LatencyBenchmarkHandle} {action : Int}
    {actionName : String}
    (done : handle.addAction action actionName = .ok added)
    {other : Int} {id : Nat} {record : LatencyBenchmarkRecord}
    (holds : added.Holds other id record) : handle.Holds other id record := by
  obtain ⟨records, present, slotAt⟩ := holds
  unfold addAction at done
  split at done
  · cases done
  · cases done
    by_cases same : action = other
    · subst same
      have here := EntryMap.get_put_self handle.actionTimeRecords action
        (List.replicate handle.recordCount.toNat none)
      cases Option.some.inj (present.symm.trans here)
      obtain ⟨_, slot⟩ := List.getElem?_eq_some_iff.mp slotAt
      rw [List.getElem_replicate] at slot
      cases slot
    · have there := EntryMap.get_put_of_ne handle.actionTimeRecords
        (List.replicate handle.recordCount.toNat none) same
      exact ⟨records, there.symm.trans present, slotAt⟩

/-- A store puts its record into its slot and leaves the others alone. -/
theorem holds_of_storeRecord {handle stored : LatencyBenchmarkHandle}
    {action index : Int} {new : LatencyBenchmarkRecord}
    (done : handle.storeRecord action index new = .ok stored)
    {other : Int} {id : Nat} {record : LatencyBenchmarkRecord}
    (holds : stored.Holds other id record) :
    handle.Holds other id record ∨
      (other = action ∧ (id : Int) = index ∧ record = new) := by
  obtain ⟨records, present, slotAt⟩ := holds
  unfold storeRecord at done
  split at done
  · cases done
  · next original originalPresent =>
      split at done
      · next inside =>
          cases done
          by_cases same : action = other
          · subst same
            have here := EntryMap.get_put_self handle.actionTimeRecords
              action (original.set index.toNat (some new))
            cases Option.some.inj (present.symm.trans here)
            by_cases slot : index.toNat = id
            · subst slot
              rw [List.getElem?_set_self inside.2] at slotAt
              exact Or.inr ⟨rfl, by omega,
                (Option.some.inj (Option.some.inj slotAt)).symm⟩
            · rw [List.getElem?_set_ne slot] at slotAt
              exact Or.inl ⟨original, originalPresent, slotAt⟩
          · have there := EntryMap.get_put_of_ne handle.actionTimeRecords
              (original.set index.toNat (some new)) same
            exact Or.inl ⟨records, there.symm.trans present, slotAt⟩
      · cases done

theorem exists_eq_map_some {slots : RecordArray}
    (filled : ∀ slot ∈ slots, slot ≠ none) :
    ∃ records : List LatencyBenchmarkRecord, slots = records.map some := by
  induction slots with
  | nil => exact ⟨[], rfl⟩
  | cons slot slots induction =>
      obtain ⟨records, rfl⟩ := induction fun other mem =>
        filled other (List.mem_cons_of_mem _ mem)
      obtain ⟨record, rfl⟩ := Option.ne_none_iff_exists'.mp
        (filled slot List.mem_cons_self)
      exact ⟨record :: records, rfl⟩

/-- A fully recorded array holds a record in every slot. -/
theorem Allocated.exists_records (allocated : handle.Allocated actions count)
    {action : Int} (mem : action ∈ actions)
    (recorded : ∀ id < count, handle.Recorded action id) :
    ∃ records : List LatencyBenchmarkRecord,
      handle.getActionTimestampRecords action = some (records.map some) ∧
        records.length = count := by
  obtain ⟨slots, present, length⟩ := allocated.arrays action mem
  have filled : ∀ slot ∈ slots, slot ≠ none := by
    intro slot slotMem
    obtain ⟨id, inside, slotAt⟩ := List.mem_iff_getElem.mp slotMem
    obtain ⟨sameSlots, record, samePresent, stored, _, _⟩ :=
      recorded id (length ▸ inside)
    cases Option.some.inj (present.symm.trans samePresent)
    rw [List.getElem?_eq_getElem inside, slotAt, Option.some.injEq] at stored
    rw [stored]
    exact Option.some_ne_none record
  obtain ⟨records, rfl⟩ := exists_eq_map_some filled
  exact ⟨records, present, by rw [← length, List.length_map]⟩

/-- With every slot of every action recorded the record dump completes. -/
theorem Allocated.exists_dump (allocated : handle.Allocated actions count)
    (recorded : ∀ action ∈ actions, ∀ id < count,
      handle.Recorded action id) :
    ∃ dump, handle.genTimestampRecordsReport = .ok dump := by
  rw [exists_genTimestampRecordsReport_eq_ok_iff]
  intro index inRange entry mem
  have entryAction : entry.1 ∈ actions := by
    rw [← allocated.actions_eq]
    exact List.mem_map_of_mem mem
  have present : handle.getActionTimestampRecords entry.1 = some entry.2 := by
    apply EntryMap.get_of_mem _ mem
    rw [allocated.actions_eq]
    exact allocated.actions_nodup
  rw [allocated.recordCount_eq, Int.toNat_natCast] at inRange
  obtain ⟨records, record, samePresent, stored, _, _⟩ :=
    recorded entry.1 entryAction index inRange
  cases Option.some.inj (present.symm.trans samePresent)
  exact ⟨record, stored⟩

/-- With every slot of every action recorded the latency report over pairs of
these actions completes. -/
theorem Allocated.exists_latencyReport
    (allocated : handle.Allocated actions count) (positive : 0 < count)
    (recorded : ∀ action ∈ actions, ∀ id < count, handle.Recorded action id)
    {config : LatencyBenchmarkConfig} (positiveStep : 1 ≤ config.reportStep)
    (isInt : config.reportStep < 2 ^ 31) (latencyPairs : List (Int × Int))
    (known : ∀ latencyPair ∈ latencyPairs,
      latencyPair.1 ∈ actions ∧ latencyPair.2 ∈ actions) :
    ∃ report, handle.genLatencyReport latencyPairs config = .ok report := by
  apply exists_genLatencyReport_eq_ok positiveStep isInt
  intro latencyPair mem
  obtain ⟨begKnown, endKnown⟩ := known latencyPair mem
  obtain ⟨begs, begRecords, begLength⟩ :=
    allocated.exists_records begKnown (recorded _ begKnown)
  obtain ⟨ends, endRecords, endLength⟩ :=
    allocated.exists_records endKnown (recorded _ endKnown)
  refine ⟨begs, ends, begRecords, endRecords, begLength.trans endLength.symm,
    ?_⟩
  apply List.ne_nil_of_length_pos
  omega

end LatencyBenchmarkHandle

end LatencyBenchmark
