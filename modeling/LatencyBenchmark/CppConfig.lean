import LatencyBenchmark.ByteFrames
import LatencyBenchmark.ByteMemory
import LatencyBenchmark.JsonMessage
import Mathlib.Tactic.Linarith

/-!
# Configuration files in C++

`LoadWsConfig`, `LoadThreadTransConfig` and `load_benchmark_config` read a
file into a buffer, parse it with rapidjson and copy the members they need
one after another; a member that is absent or has another type makes them
throw and return false.  None of them asks whether the root of the document
is an object, which `HasMember` asserts, so a file such as `[]` ends the
process.
-/

namespace LatencyBenchmark

namespace CppConfig

open ByteMemory (Store cString strncpy)

/-- What `fopen` and `fread` give. -/
inductive FileRead where
  /-- `fopen` fails. -/
  | unopened
  /-- Fewer bytes are read than the file has. -/
  | short
  | content (bytes : List UInt8)

/-- `doc.Parse`: the document, or the code of the error. -/
abbrev Parse :=
  List UInt8 → Except Nat JsonValue

/-! ## Values of members -/

/-- The bytes of a string. -/
def utf8 (text : String) : List UInt8 :=
  text.toUTF8.data.toList

/-- `GetString()`, guarded by `IsString()`. -/
def getString : JsonValue → Option (List UInt8)
  | .string text => some (utf8 text)
  | _ => none

/-- `GetInt()`, guarded by `IsInt()`. -/
def getInt : JsonValue → Option Int
  | .integer value =>
      if -2 ^ 31 ≤ value ∧ value < 2 ^ 31 then some value else none
  | _ => none

/-- A member that a loader requires, with what the loader does with its
value. -/
inductive Member (Config : Type) where
  | string (name : String) (store : List UInt8 → Config → Config)
  | int (name : String) (store : Int → Config → Config)

variable {Config : Type}

namespace Member

def name : Member Config → String
  | .string name _ | .int name _ => name

/-- The store of a value that has the type of the member. -/
def read : Member Config → JsonValue → Option (Config → Config)
  | .string _ store, value => (getString value).map store
  | .int _ store, value => (getInt value).map store

end Member

/-! ## Loading -/

/-- How the statements in the `try` block end. -/
inductive Outcome (Config : Type) where
  | finished (config : Config)
  /-- A `std::runtime_error` with its text. -/
  | thrown (config : Config) (what : String)
  /-- An assertion of rapidjson fails. -/
  | aborted

/-- `if (doc.HasMember(name) && doc[name].IsInt())` with its two branches, or
the same for a string. -/
def readMember (root : JsonValue) (member : Member Config) (config : Config) :
    Outcome Config :=
  match root with
  | .object members =>
      match (EntryMap.get members member.name).bind member.read with
      | some store => .finished (store config)
      | none => .thrown config s!"can't find '{member.name}' in config file"
  | _ => .aborted

/-- The members are read in order. -/
def readMembers (root : JsonValue) :
    List (Member Config) → Config → Outcome Config
  | [], config => .finished config
  | member :: rest, config =>
      match readMember root member config with
      | .finished config => readMembers root rest config
      | .thrown config what => .thrown config what
      | .aborted => .aborted

/-- What differs between the loaders. -/
structure Loader (Config : Type) where
  /-- The text before the path when `fopen` fails. -/
  unopenedText : String
  /-- The code of a parse error is logged. -/
  logsParseError : Bool
  members : List (Member Config)

/-- What a loader returns, leaves in the configuration and logs. -/
structure Loaded (Config : Type) where
  ret : Bool
  config : Config
  log : List String

/-- A loader; `none` when an assertion fails. -/
def Loader.load (loader : Loader Config) (parse : Parse) (path : String)
    (file : FileRead) (config : Config) : Option (Loaded Config) :=
  match file with
  | .unopened =>
      some ⟨false, config, [loader.unopenedText ++ path]⟩
  | .short => some ⟨false, config, ["failed read config file"]⟩
  | .content bytes =>
      match parse (cString bytes) with
      | .error code =>
          let codeLines :=
            if loader.logsParseError then [s!"parse json error: {code}"]
            else []
          some ⟨false, config,
            codeLines ++ ["failed parse json from config file"]⟩
      | .ok root =>
          match readMembers root loader.members config with
          | .finished config => some ⟨true, config, []⟩
          | .thrown config what => some ⟨false, config, [what]⟩
          | .aborted => none

/-! ## The loaders -/

/-- The offsets of the members of `WsConfig`. -/
def hostOffset : Int := 0
def portOffset : Int := 32
def urlOffset : Int := 36
def loopOffset : Int := 164
def cntPerLoopOffset : Int := 168
def loopIntervalMsOffset : Int := 172
def reportStepOffset : Int := 176
def dirOffset : Int := 180

/-- `sizeof(config->host)`. -/
def hostSize : Nat := 32

/-- `sizeof(config->url)`. -/
def urlSize : Nat := 128

/-- `sizeof(config->dir)`. -/
def dirSize : Nat := 8

/-- `sizeof(WsConfig)`. -/
def wsConfigSize : Nat := 188

/-- The assignment of an `int`. -/
def storeInt (offset : Int) (value : Int) : Store where
  start := offset
  bytes := leBytes 4 (value % 2 ^ 32).toNat

/-- The members that `LoadWsConfig` copies.  The configuration is memory with
the struct at address 0; the copy of `dir` is bounded by the size of
`host`. -/
def wsConfigMembers : List (Member ByteMemory) := [
  .string "host" fun text => (strncpy hostOffset text (hostSize - 1)).apply,
  .int "port" fun value => (storeInt portOffset value).apply,
  .string "url" fun text => (strncpy urlOffset text (urlSize - 1)).apply,
  .int "loop" fun value => (storeInt loopOffset value).apply,
  .int "cnt_per_loop" fun value => (storeInt cntPerLoopOffset value).apply,
  .int "loop_interval_ms" fun value =>
    (storeInt loopIntervalMsOffset value).apply,
  .int "report_step" fun value => (storeInt reportStepOffset value).apply,
  .string "dir" fun text => (strncpy dirOffset text (hostSize - 1)).apply]

/-- `LoadWsConfig`. -/
def loadWsConfig : Loader ByteMemory where
  unopenedText := "failed read ws config file: "
  logsParseError := false
  members := wsConfigMembers

/-- `ThreadTransConfig`. -/
structure ThreadTransConfig where
  loop : Int
  cntPerLoop : Int
  loopIntervalMs : Int
  reportStep : Int
  singleThreadWrite : Int
  spinRead : Int

/-- `LoadThreadTransConfig`. -/
def loadThreadTransConfig : Loader ThreadTransConfig where
  unopenedText := "failed read config file: "
  logsParseError := true
  members := [
    .int "loop" fun value config => { config with loop := value },
    .int "cnt_per_loop" fun value config => { config with cntPerLoop := value },
    .int "loop_interval_ms" fun value config =>
      { config with loopIntervalMs := value },
    .int "report_step" fun value config => { config with reportStep := value },
    .int "single_thread_write" fun value config =>
      { config with singleThreadWrite := value },
    .int "spin_read" fun value config => { config with spinRead := value }]

/-- The members of `muggle::BenchmarkConfig` that are loaded. -/
structure BenchmarkConfig where
  loop : Int
  cntPerLoop : Int
  loopIntervalMs : Int
  reportStep : Int

/-- `load_benchmark_config`. -/
def loadBenchmarkConfig : Loader BenchmarkConfig where
  unopenedText := "failed read config file: "
  logsParseError := true
  members := [
    .int "loop" fun value config => { config with loop := value },
    .int "cnt_per_loop" fun value config => { config with cntPerLoop := value },
    .int "loop_interval_ms" fun value config =>
      { config with loopIntervalMs := value },
    .int "report_step" fun value config =>
      { config with reportStep := value }]

/-! ## Valid documents -/

/-- The object has the member, of the type required: a string, or an integer
of 32 bits. -/
def Member.PresentIn (object : List (String × JsonValue)) :
    Member Config → Prop
  | .string name _ =>
      ∃ text, EntryMap.get object name = some (.string text)
  | .int name _ =>
      ∃ value, EntryMap.get object name = some (.integer value) ∧
        -2 ^ 31 ≤ value ∧ value < 2 ^ 31

/-- The content up to its first NUL is a JSON object with every member that
the loader requires. -/
def Loader.Valid (loader : Loader Config) (parse : Parse)
    (bytes : List UInt8) : Prop :=
  ∃ object, parse (cString bytes) = .ok (.object object) ∧
    ∀ member ∈ loader.members, member.PresentIn object

/-- The loader returns, and returns true exactly for a valid content. -/
def Loader.AcceptsValid (loader : Loader Config) (parse : Parse)
    (path : String) (bytes : List UInt8) (config : Config) : Prop :=
  ∃ loaded, loader.load parse path (.content bytes) config = some loaded ∧
    (loaded.ret = true ↔ loader.Valid parse bytes)

/-- What the content is parsed as, if it is, is an object. -/
def HasObjectRoot (parse : Parse) (bytes : List UInt8) : Prop :=
  ∀ root, parse (cString bytes) = .ok root →
    ∃ object, root = .object object

variable {object : List (String × JsonValue)} {member : Member Config}
variable {members : List (Member Config)} {config : Config}

theorem getString_eq_some_iff {value : JsonValue} {bytes : List UInt8} :
    getString value = some bytes ↔
      ∃ text, value = .string text ∧ utf8 text = bytes := by
  cases value with
  | string text => simp [getString]
  | null | bool | integer | decimal | array | object => simp [getString]

theorem getInt_eq_some_iff {value : JsonValue} {number : Int} :
    getInt value = some number ↔
      value = .integer number ∧ -2 ^ 31 ≤ number ∧ number < 2 ^ 31 := by
  cases value with
  | integer value =>
      simp only [getInt, JsonValue.integer.injEq]
      constructor
      · intro got
        split at got
        · next inside =>
            cases got
            exact ⟨rfl, inside⟩
        · cases got
      · rintro ⟨rfl, inside⟩
        exact if_pos inside
  | null | bool | decimal | string | array | object => simp [getInt]

/-- A member is read exactly when it is present with its type. -/
theorem Member.presentIn_iff :
    member.PresentIn object ↔
      ∃ store, (EntryMap.get object member.name).bind member.read =
        some store := by
  cases member with
  | string name store =>
      simp only [Member.PresentIn, Member.name, Member.read,
        Option.bind_eq_some_iff, Option.map_eq_some_iff, getString_eq_some_iff]
      constructor
      · rintro ⟨text, got⟩
        exact ⟨_, _, got, _, ⟨text, rfl, rfl⟩, rfl⟩
      · rintro ⟨_, _, got, _, ⟨text, rfl, rfl⟩, rfl⟩
        exact ⟨text, got⟩
  | int name store =>
      simp only [Member.PresentIn, Member.name, Member.read,
        Option.bind_eq_some_iff, Option.map_eq_some_iff, getInt_eq_some_iff]
      constructor
      · rintro ⟨value, got, inside⟩
        exact ⟨_, _, got, value, ⟨rfl, inside⟩, rfl⟩
      · rintro ⟨_, _, got, value, ⟨rfl, inside⟩, rfl⟩
        exact ⟨value, got, inside⟩

/-! ## What the loaders accept -/

theorem readMember_of_get {store : Config → Config}
    (got : (EntryMap.get object member.name).bind member.read = some store) :
    readMember (.object object) member config = .finished (store config) := by
  simp only [readMember, got]

theorem readMember_of_not_presentIn (absent : ¬ member.PresentIn object) :
    readMember (.object object) member config =
      .thrown config s!"can't find '{member.name}' in config file" := by
  have missing :
      (EntryMap.get object member.name).bind member.read = none := by
    rw [Option.eq_none_iff_forall_ne_some]
    intro store got
    exact absent (Member.presentIn_iff.mpr ⟨store, got⟩)
  simp only [readMember, missing]

/-- In an object either all members are read, or the loader throws for one
that is not there. -/
theorem readMembers_object (object : List (String × JsonValue))
    (members : List (Member Config)) (config : Config) :
    (∃ last, readMembers (.object object) members config =
        .finished last ∧
      ∀ member ∈ members, member.PresentIn object) ∨
    (∃ last, ∃ member ∈ members, ¬ member.PresentIn object ∧
      readMembers (.object object) members config =
        .thrown last s!"can't find '{member.name}' in config file") := by
  induction members generalizing config with
  | nil => exact Or.inl ⟨config, rfl, by simp⟩
  | cons member rest induction =>
      by_cases present : member.PresentIn object
      · obtain ⟨store, got⟩ := Member.presentIn_iff.mp present
        have step : readMembers (.object object) (member :: rest) config =
            readMembers (.object object) rest (store config) := by
          simp only [readMembers, readMember_of_get got]
        rw [step]
        rcases induction (store config) with
          ⟨last, finished, all⟩ | ⟨last, missing, mem, absent, thrown⟩
        · refine Or.inl ⟨last, finished, ?_⟩
          intro other mem
          rcases List.mem_cons.mp mem with rfl | later
          · exact present
          · exact all other later
        · exact Or.inr
            ⟨last, missing, List.mem_cons_of_mem _ mem, absent, thrown⟩
      · refine Or.inr ⟨config, member, List.mem_cons_self, present, ?_⟩
        simp only [readMembers, readMember_of_not_presentIn present]

/-- Asking a value that is not an object for a member fails the
assertion. -/
theorem readMembers_of_not_object {root : JsonValue}
    (notObject : ¬ ∃ object, root = .object object)
    (some_member : members ≠ []) :
    readMembers root members config = .aborted := by
  cases members with
  | nil => exact absurd rfl some_member
  | cons member rest =>
      have first : readMember root member config = .aborted := by
        cases root with
        | object object => exact absurd ⟨object, rfl⟩ notObject
        | null | bool | integer | decimal | string | array => rfl
      simp only [readMembers, first]

variable {loader : Loader Config} {parse : Parse} {path : String}
variable {bytes : List UInt8}

theorem load_of_error {code : Nat}
    (failed : parse (cString bytes) = .error code) :
    ∃ log, loader.load parse path (.content bytes) config =
      some ⟨false, config, log⟩ := by
  simp only [Loader.load, failed]
  exact ⟨_, rfl⟩

theorem load_of_finished {root : JsonValue} {last : Config}
    (parsed : parse (cString bytes) = .ok root)
    (finished : readMembers root loader.members config = .finished last) :
    loader.load parse path (.content bytes) config =
      some ⟨true, last, []⟩ := by
  simp only [Loader.load, parsed, finished]

theorem load_of_thrown {root : JsonValue} {last : Config} {what : String}
    (parsed : parse (cString bytes) = .ok root)
    (thrown : readMembers root loader.members config = .thrown last what) :
    loader.load parse path (.content bytes) config =
      some ⟨false, last, [what]⟩ := by
  simp only [Loader.load, parsed, thrown]

theorem load_of_not_object {root : JsonValue}
    (parsed : parse (cString bytes) = .ok root)
    (notObject : ¬ ∃ object, root = .object object)
    (some_member : loader.members ≠ []) :
    loader.load parse path (.content bytes) config = none := by
  simp only [Loader.load, parsed,
    readMembers_of_not_object notObject some_member]

theorem acceptsValid_of_error {code : Nat}
    (failed : parse (cString bytes) = .error code) :
    loader.AcceptsValid parse path bytes config := by
  have invalid : ¬ loader.Valid parse bytes := by
    rintro ⟨object, parsed, -⟩
    rw [failed] at parsed
    cases parsed
  obtain ⟨log, returned⟩ := load_of_error failed
  refine ⟨_, returned, ?_⟩
  simpa using invalid

theorem acceptsValid_of_object
    (parsed : parse (cString bytes) = .ok (.object object)) :
    loader.AcceptsValid parse path bytes config := by
  rcases readMembers_object object loader.members config with
    ⟨last, finished, all⟩ | ⟨last, missing, mem, absent, thrown⟩
  · refine ⟨_, load_of_finished parsed finished, ?_⟩
    exact ⟨fun _ => ⟨object, parsed, all⟩, fun _ => rfl⟩
  · have invalid : ¬ loader.Valid parse bytes := by
      rintro ⟨other, otherParsed, all⟩
      have roots := parsed.symm.trans otherParsed
      have same : object = other := by simpa using roots
      subst other
      exact absent (all missing mem)
    refine ⟨_, load_of_thrown parsed thrown, ?_⟩
    simpa using invalid

/-- A loader that requires a member accepts exactly the valid contents as long
as the content is no other JSON value than an object. -/
theorem acceptsValid_iff_hasObjectRoot (some_member : loader.members ≠ []) :
    loader.AcceptsValid parse path bytes config ↔
      HasObjectRoot parse bytes := by
  constructor
  · rintro ⟨loaded, returned, -⟩ root parsed
    by_contra notObject
    rw [load_of_not_object parsed notObject some_member] at returned
    cases returned
  · intro hasObject
    cases parsed : parse (cString bytes) with
    | error code => exact acceptsValid_of_error parsed
    | ok root =>
        obtain ⟨object, rfl⟩ := hasObject root parsed
        exact acceptsValid_of_object parsed

/-- **The C++ loaders.**  Each loader returns true for the valid contents and
false for all others, exactly when the content does not parse as a JSON value
other than an object. -/
theorem loaders_acceptValid_iff (parse : Parse) (path : String)
    (bytes : List UInt8) :
    (∀ config, loadWsConfig.AcceptsValid parse path bytes config ↔
      HasObjectRoot parse bytes) ∧
    (∀ config, loadThreadTransConfig.AcceptsValid parse path bytes config ↔
      HasObjectRoot parse bytes) ∧
    (∀ config, loadBenchmarkConfig.AcceptsValid parse path bytes config ↔
      HasObjectRoot parse bytes) :=
  ⟨fun _ => acceptsValid_iff_hasObjectRoot (List.cons_ne_nil _ _),
    fun _ => acceptsValid_iff_hasObjectRoot (List.cons_ne_nil _ _),
    fun _ => acceptsValid_iff_hasObjectRoot (List.cons_ne_nil _ _)⟩

/-- The text `[]` parses as an array, and every loader ends the process. -/
theorem array_aborts_loaders :
    ∃ (parse : Parse) (bytes : List UInt8),
      bytes = "[]".toList.map (fun char => UInt8.ofNat char.toNat) ∧
      parse (cString bytes) = .ok (.array []) ∧
      (∀ path config, loadWsConfig.load parse path (.content bytes) config =
          none ∧
        ¬ loadWsConfig.AcceptsValid parse path bytes config) ∧
      (∀ path config,
        loadThreadTransConfig.load parse path (.content bytes) config = none ∧
        ¬ loadThreadTransConfig.AcceptsValid parse path bytes config) ∧
      (∀ path config,
        loadBenchmarkConfig.load parse path (.content bytes) config = none ∧
        ¬ loadBenchmarkConfig.AcceptsValid parse path bytes config) := by
  let parse : Parse := fun bytes =>
    if bytes = [91, 93] then .ok (.array []) else .error 3
  have parsed : parse (cString [91, 93]) = .ok (.array []) := rfl
  have notObject :
      ¬ ∃ object, JsonValue.array [] = JsonValue.object object := by
    rintro ⟨object, same⟩
    cases same
  have aborts : ∀ {Config : Type} (loader : Loader Config),
      loader.members ≠ [] → ∀ path config,
        loader.load parse path (.content [91, 93]) config = none ∧
        ¬ loader.AcceptsValid parse path [91, 93] config := by
    intro Config loader some_member path config
    refine ⟨load_of_not_object parsed notObject some_member, ?_⟩
    rw [acceptsValid_iff_hasObjectRoot some_member]
    intro hasObject
    exact notObject (hasObject _ parsed)
  exact ⟨parse, [91, 93], by decide, parsed,
    aborts loadWsConfig (List.cons_ne_nil _ _),
    aborts loadThreadTransConfig (List.cons_ne_nil _ _),
    aborts loadBenchmarkConfig (List.cons_ne_nil _ _)⟩

end CppConfig

end LatencyBenchmark
