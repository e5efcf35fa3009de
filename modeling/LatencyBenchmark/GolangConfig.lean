import LatencyBenchmark.ThreadTransReport

/-!
# Configuration files in Go

`LoadWsConfig` and `LoadThreadTransConfig` read a file into a zero struct with
`json.Unmarshal`.  A member that is absent or null leaves its field zero, a
member of the wrong type fails the whole file, and no value of an integer
field is checked.
-/

namespace LatencyBenchmark

/-- What a configuration file holds. -/
inductive ConfigFile where
  | unreadable
  | malformed
  | document (root : JsonValue)

namespace GolangConfig

/-- The value of a string. -/
def stringValue : JsonValue → Option String
  | .string value => some value
  | _ => none

/-- What `json.Unmarshal` leaves in one field: each member taken for the field
overwrites it, a null leaves it, and a value of another type is an error. -/
def unmarshalMember {Field : Type} (decode : JsonValue → Option Field)
    (name : String) : List (String × JsonValue) → Field → Option Field
  | [], field => some field
  | member :: rest, field =>
      if foldName member.1 = foldName name then
        match member.2 with
        | .null => unmarshalMember decode name rest field
        | value => do
            let decoded ← decode value
            unmarshalMember decode name rest decoded
      else
        unmarshalMember decode name rest field

def unmarshalInt (members : List (String × JsonValue)) (name : String) :
    Option Int :=
  unmarshalMember JsonValue.int64 name members 0

def unmarshalString (members : List (String × JsonValue)) (name : String) :
    Option String :=
  unmarshalMember stringValue name members ""

/-- `json.Unmarshal` into a zero struct; a null document changes nothing. -/
def unmarshal {Config : Type}
    (fields : List (String × JsonValue) → Option Config) :
    JsonValue → Option Config
  | .null => fields []
  | .object members => fields members
  | _ => none

/-- The fields of `WsConfig`. -/
def wsConfigFields (members : List (String × JsonValue)) :
    Option WsConfig := do
  let host ← unmarshalString members "host"
  let port ← unmarshalInt members "port"
  let url ← unmarshalString members "url"
  let loop ← unmarshalInt members "loop"
  let cntPerLoop ← unmarshalInt members "cnt_per_loop"
  let loopInterval ← unmarshalInt members "loop_interval_ms"
  let reportStep ← unmarshalInt members "report_step"
  let dir ← unmarshalString members "dir"
  return { host, port, url, loop, cntPerLoop, loopInterval, reportStep, dir }

/-- The fields of `ThreadTransConfig`. -/
def threadTransConfigFields (members : List (String × JsonValue)) :
    Option ThreadTransReport.ThreadTransConfig := do
  let loop ← unmarshalInt members "loop"
  let cntPerLoop ← unmarshalInt members "cnt_per_loop"
  let loopInterval ← unmarshalInt members "loop_interval_ms"
  let reportStep ← unmarshalInt members "report_step"
  return { loop, cntPerLoop, loopInterval, reportStep }

/-- A loader: the configuration, or the line it logs before it returns the
error. -/
def load {Config : Type}
    (fields : List (String × JsonValue) → Option Config) (confPath : String)
    (file : ConfigFile) : Except String Config :=
  match file with
  | .unreadable => throw s!"[Error] failed read config file: {confPath}\n"
  | .malformed => throw s!"[Error] failed parse config file: {confPath}\n"
  | .document root =>
      match unmarshal fields root with
      | none => throw s!"[Error] failed parse config file: {confPath}\n"
      | some config => return config

/-- `LoadWsConfig`. -/
def loadWsConfig (confPath : String) (file : ConfigFile) :
    Except String WsConfig :=
  load wsConfigFields confPath file

/-- `LoadThreadTransConfig`. -/
def loadThreadTransConfig (confPath : String) (file : ConfigFile) :
    Except String ThreadTransReport.ThreadTransConfig :=
  load threadTransConfigFields confPath file

/-! ## What is accepted -/

/-- The value of an `int`. -/
def IsInt64 (value : Int) : Prop :=
  -2 ^ 63 ≤ value ∧ value < 2 ^ 63

theorem isInt64_of_int64 {value : JsonValue} {number : Int}
    (fits : value.int64 = some number) : IsInt64 number := by
  cases value with
  | integer value =>
      unfold JsonValue.int64 at fits
      dsimp only at fits
      split at fits
      · next inside =>
          cases fits
          exact inside
      · cases fits
  | null | bool | decimal | string | array | object => cases fits

/-- A property of all decoded values and of the initial one holds of the
field. -/
theorem unmarshalMember_holds {Field : Type} {holds : Field → Prop}
    {decode : JsonValue → Option Field} {name : String}
    {members : List (String × JsonValue)} {field final : Field}
    (decoded : ∀ value number, decode value = some number → holds number)
    (initial : holds field)
    (done : unmarshalMember decode name members field = some final) :
    holds final := by
  induction members generalizing field with
  | nil =>
      cases done
      exact initial
  | cons member rest induction =>
      unfold unmarshalMember at done
      split at done
      · split at done
        · exact induction initial done
        · obtain ⟨number, fits, later⟩ := Option.bind_eq_some_iff.mp done
          exact induction (decoded _ _ fits) later
      · exact induction initial done

theorem isInt64_of_unmarshalInt {members : List (String × JsonValue)}
    {name : String} {value : Int}
    (done : unmarshalInt members name = some value) : IsInt64 value :=
  unmarshalMember_holds (fun _ _ => isInt64_of_int64)
    (by constructor <;> decide) done

theorem exists_fields_of_load {Config : Type}
    {fields : List (String × JsonValue) → Option Config} {confPath : String}
    {file : ConfigFile} {config : Config}
    (loaded : load fields confPath file = .ok config) :
    ∃ members, fields members = some config := by
  unfold load at loaded
  cases file with
  | unreadable => cases loaded
  | malformed => cases loaded
  | document root =>
      dsimp only at loaded
      cases unmarshalled : unmarshal fields root with
      | none =>
          rw [unmarshalled] at loaded
          cases loaded
      | some found =>
          rw [unmarshalled] at loaded
          cases loaded
          cases root with
          | null => exact ⟨[], unmarshalled⟩
          | object members => exact ⟨members, unmarshalled⟩
          | bool | integer | decimal | string | array => cases unmarshalled

/-- The step of an accepted websocket configuration is an `int`. -/
theorem isInt64_wsConfig_reportStep {confPath : String} {file : ConfigFile}
    {config : WsConfig} (loaded : loadWsConfig confPath file = .ok config) :
    IsInt64 config.reportStep := by
  obtain ⟨members, done⟩ := exists_fields_of_load loaded
  simp only [wsConfigFields, Option.bind_eq_bind,
    Option.bind_eq_some_iff] at done
  obtain ⟨_, _, _, _, _, _, _, _, _, _, _, _, step, stepDone, _, _, done⟩ :=
    done
  cases done
  exact isInt64_of_unmarshalInt stepDone

/-- The step of an accepted channel configuration is an `int`. -/
theorem isInt64_threadTransConfig_reportStep {confPath : String}
    {file : ConfigFile} {config : ThreadTransReport.ThreadTransConfig}
    (loaded : loadThreadTransConfig confPath file = .ok config) :
    IsInt64 config.reportStep := by
  obtain ⟨members, done⟩ := exists_fields_of_load loaded
  simp only [threadTransConfigFields, Option.bind_eq_bind,
    Option.bind_eq_some_iff] at done
  obtain ⟨_, _, _, _, _, _, step, stepDone, done⟩ := done
  cases done
  exact isInt64_of_unmarshalInt stepDone

end GolangConfig

end LatencyBenchmark
