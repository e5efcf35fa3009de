import LatencyBenchmark.EntryMap
import LatencyBenchmark.MachineInteger

/-!
# Timestamp messages as JSON

A message of the websocket benchmark is a JSON object with the members `s`
and `ns`.  The Go programs read it with `json.Unmarshal`, whose error they
ignore, the C++ program with rapidjson, whose accessors assert that a member
is there and has the type asked for.  The two differ on every message that is
not such an object.
-/

namespace LatencyBenchmark

/-- A JSON document.  A number is an `integer` unless it has a fraction or an
exponent; the members of an object stand in the order of the text. -/
inductive JsonValue where
  | null
  | bool (value : Bool)
  | integer (value : Int)
  | decimal
  | string (value : String)
  | array (values : List JsonValue)
  | object (members : List (String × JsonValue))

/-- A received message: the document it parses as, if it is JSON. -/
structure Message where
  document : Option JsonValue

/-- `TimestampBlock`. -/
structure TimestampBlock where
  sec : Int
  nSec : Int
  deriving DecidableEq, Repr

namespace TimestampBlock

def nanoseconds (block : TimestampBlock) : Int :=
  block.sec * 1000000000 + block.nSec

/-- Two blocks that 64-bit arithmetic on nanoseconds cannot tell apart. -/
def SameTime (first second : TimestampBlock) : Prop :=
  toInt64 first.nanoseconds = toInt64 second.nanoseconds

end TimestampBlock

/-- The value of a number that fits `int64`. -/
def JsonValue.int64 : JsonValue → Option Int
  | .integer value =>
      if -2 ^ 63 ≤ value ∧ value < 2 ^ 63 then some value else none
  | _ => none

/-! ## Well-formed messages -/

/-- The block a well-formed message carries: a JSON object whose members `s`
and `ns` are both present and 64-bit integers. -/
def Message.block (message : Message) : Option TimestampBlock :=
  match message.document with
  | some (.object members) => do
      let s ← (EntryMap.get members "s").bind JsonValue.int64
      let ns ← (EntryMap.get members "ns").bind JsonValue.int64
      return { sec := s, nSec := ns }
  | _ => none

def Message.WellFormed (message : Message) : Prop :=
  message.block.isSome

instance : DecidablePred Message.WellFormed := fun message =>
  inferInstanceAs (Decidable (message.block.isSome = true))

/-- The message `{"s":1700000000,"ns":5}`. -/
def timestampMessage : Message where
  document := some (.object [("s", .integer 1700000000), ("ns", .integer 5)])

example : timestampMessage.block = some ⟨1700000000, 5⟩ := by decide

/-! ## Reading a message in C++ -/

/-- `doc[name].GetInt64()`; `none` when an assertion of rapidjson fails. -/
def JsonValue.getInt64 (root : JsonValue) (name : String) : Option Int :=
  match root with
  | .object members => (EntryMap.get members name).bind JsonValue.int64
  | _ => none

/-- rapidjson reads a block from a document exactly when the message is
well-formed. -/
theorem Message.block_eq {message : Message} {root : JsonValue}
    (parsed : message.document = some root) :
    message.block = do
      let s ← root.getInt64 "s"
      let ns ← root.getInt64 "ns"
      return { sec := s, nSec := ns } := by
  unfold Message.block
  rw [parsed]
  cases root with
  | object members => rfl
  | null | bool | integer | decimal | string | array => rfl

theorem Message.block_eq_none {message : Message}
    (unparsed : message.document = none) : message.block = none := by
  unfold Message.block
  rw [unparsed]

/-! ## Reading a message in Go -/

/-- Names that `encoding/json` takes for the same field have the same
folding; the long s folds to `s`. -/
def foldName (name : String) : List Char :=
  name.toList.map fun char => if char = 'ſ' then 's' else char.toLower

/-- What `json.Unmarshal` leaves in an integer field of a zero block: each
member taken for the field overwrites it, unless it does not fit. -/
def unmarshalField (members : List (String × JsonValue)) (name : String)
    (field : Int) : Int :=
  match members with
  | [] => field
  | member :: rest =>
      if foldName member.1 = foldName name then
        unmarshalField rest name (member.2.int64.getD field)
      else
        unmarshalField rest name field

/-- `json.Unmarshal(message, &block)` on a zero block, its error ignored. -/
def jsonUnmarshal (message : Message) : TimestampBlock :=
  match message.document with
  | some (.object members) =>
      { sec := unmarshalField members "s" 0
        nSec := unmarshalField members "ns" 0 }
  | _ => { sec := 0, nSec := 0 }

/-- The message is well-formed, and Go reads from it the time of its block.
Since Go ignores the case of names and lets the last member win, the second
is more than the first for an object with, say, both an `s` and an `S`. -/
def Message.ReadsAsBlock (message : Message) : Prop :=
  ∃ block ∈ message.block, (jsonUnmarshal message).SameTime block

theorem Message.ReadsAsBlock.wellFormed {message : Message}
    (reads : message.ReadsAsBlock) : message.WellFormed := by
  obtain ⟨block, present, _⟩ := reads
  unfold Message.WellFormed
  rw [Option.mem_def.mp present]
  rfl

/-- A field no member is taken for keeps its value. -/
theorem unmarshalField_of_not_mem {members : List (String × JsonValue)}
    {name : String} (field : Int)
    (absent : foldName name ∉ members.map fun member => foldName member.1) :
    unmarshalField members name field = field := by
  induction members with
  | nil => rfl
  | cons member rest induction =>
      rw [List.map_cons, List.mem_cons, not_or] at absent
      rw [unmarshalField, if_neg (Ne.symm absent.1), induction absent.2]

/-- Without members that differ in case only, the field gets the value of the
member of its name. -/
theorem unmarshalField_of_get {members : List (String × JsonValue)}
    {name : String} {value : Int} (field : Int)
    (distinct : (members.map fun member => foldName member.1).Nodup)
    (present : (EntryMap.get members name).bind JsonValue.int64 =
      some value) : unmarshalField members name field = value := by
  induction members with
  | nil => cases present
  | cons member rest induction =>
      obtain ⟨first, later⟩ := List.nodup_cons.mp distinct
      by_cases here : member.1 = name
      · rw [EntryMap.get, if_pos here, Option.bind_some] at present
        rw [unmarshalField, if_pos (congrArg foldName here), present]
        have absent : foldName name ∉
            rest.map fun member => foldName member.1 := here ▸ first
        exact unmarshalField_of_not_mem value absent
      · rw [EntryMap.get, if_neg here] at present
        have elsewhere : foldName member.1 ≠ foldName name := by
          intro same
          obtain ⟨json, got, _⟩ := Option.bind_eq_some_iff.mp present
          have named : foldName name ∈
              rest.map fun member => foldName member.1 :=
            List.mem_map_of_mem (EntryMap.mem_of_get got)
          rw [← same] at named
          exact first named
        rw [unmarshalField, if_neg elsewhere]
        exact induction later present

/-- A well-formed message without members that differ in case only is read
as its block. -/
theorem Message.WellFormed.readsAsBlock {message : Message}
    {members : List (String × JsonValue)} (wellFormed : message.WellFormed)
    (parsed : message.document = some (.object members))
    (distinct : (members.map fun member => foldName member.1).Nodup) :
    message.ReadsAsBlock := by
  obtain ⟨block, carried⟩ := Option.isSome_iff_exists.mp wellFormed
  have accessed := carried
  rw [Message.block_eq parsed] at accessed
  obtain ⟨s, gotS, accessed⟩ := Option.bind_eq_some_iff.mp accessed
  obtain ⟨ns, gotNs, accessed⟩ := Option.bind_eq_some_iff.mp accessed
  have same : jsonUnmarshal message = block := by
    unfold jsonUnmarshal
    rw [parsed]
    dsimp only
    rw [unmarshalField_of_get 0 distinct gotS,
      unmarshalField_of_get 0 distinct gotNs]
    exact Option.some.inj accessed
  exact ⟨block, carried,
    congrArg (fun read : TimestampBlock => toInt64 read.nanoseconds) same⟩

end LatencyBenchmark
