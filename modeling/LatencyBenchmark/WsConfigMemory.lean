import LatencyBenchmark.CppConfig
import Mathlib.Data.List.Pairwise

/-!
# The memory of a C++ websocket configuration

`LoadWsConfig` copies three strings into arrays of `WsConfig` with `strncpy`.
The copies of `host` and `url` leave the last byte of their arrays to the
caller, who passes a struct that is not initialised, and the copy of `dir` is
as long as that of `host`, past the end of the struct.
-/

namespace LatencyBenchmark

namespace CppConfig

open ByteMemory (Store HoldsString applyAll strncpy)

/-- The string of a member. -/
def stringOf (object : List (String × JsonValue)) (name : String) :
    List UInt8 :=
  ((EntryMap.get object name).bind getString).getD []

/-- The integer of a member. -/
def intOf (object : List (String × JsonValue)) (name : String) : Int :=
  ((EntryMap.get object name).bind getInt).getD 0

/-- What is done for a member that is present. -/
def Member.assign {Config : Type} (object : List (String × JsonValue)) :
    Member Config → Config → Config
  | .string name store => store (stringOf object name)
  | .int name store => store (intOf object name)

variable {Config : Type} {object : List (String × JsonValue)}

theorem Member.assign_of_get {member : Member Config}
    {store : Config → Config}
    (got : (EntryMap.get object member.name).bind member.read = some store) :
    member.assign object = store := by
  obtain ⟨value, present, read⟩ := Option.bind_eq_some_iff.mp got
  cases member with
  | string name copy =>
      obtain ⟨text, isText, rfl⟩ := Option.map_eq_some_iff.mp read
      have found : EntryMap.get object name = some value := present
      simp only [Member.assign, stringOf, found, Option.bind_some, isText,
        Option.getD_some]
  | int name copy =>
      obtain ⟨number, isNumber, rfl⟩ := Option.map_eq_some_iff.mp read
      have found : EntryMap.get object name = some value := present
      simp only [Member.assign, intOf, found, Option.bind_some, isNumber,
        Option.getD_some]

/-- A loader that finishes has done its assignments in order. -/
theorem readMembers_finished {members : List (Member Config)}
    {config last : Config}
    (finished : readMembers (.object object) members config =
      .finished last) :
    last = members.foldl (fun config member => member.assign object config)
      config := by
  induction members generalizing config with
  | nil =>
      cases finished
      rfl
  | cons member rest induction =>
      by_cases present : member.PresentIn object
      · obtain ⟨store, got⟩ := Member.presentIn_iff.mp present
        simp only [readMembers, readMember_of_get got] at finished
        rw [List.foldl_cons, Member.assign_of_get got]
        exact induction finished
      · simp only [readMembers, readMember_of_not_presentIn present]
          at finished
        cases finished

/-! ## The fields of the struct -/

structure Field where
  name : String
  offset : Int
  size : Nat
  deriving DecidableEq, Repr

/-- The address belongs to the field. -/
def Field.Contains (field : Field) (address : Int) : Prop :=
  field.offset ≤ address ∧ address < field.offset + field.size

/-- The fields of `WsConfig` in the order of the struct. -/
def wsConfigFields : List Field := [
  ⟨"host", hostOffset, hostSize⟩,
  ⟨"port", portOffset, 4⟩,
  ⟨"url", urlOffset, urlSize⟩,
  ⟨"loop", loopOffset, 4⟩,
  ⟨"cnt_per_loop", cntPerLoopOffset, 4⟩,
  ⟨"loop_interval_ms", loopIntervalMsOffset, 4⟩,
  ⟨"report_step", reportStepOffset, 4⟩,
  ⟨"dir", dirOffset, dirSize⟩]

/-- The stores that `LoadWsConfig` makes, one for each field. -/
def wsConfigStores (object : List (String × JsonValue)) : List Store := [
  strncpy hostOffset (stringOf object "host") (hostSize - 1),
  storeInt portOffset (intOf object "port"),
  strncpy urlOffset (stringOf object "url") (urlSize - 1),
  storeInt loopOffset (intOf object "loop"),
  storeInt cntPerLoopOffset (intOf object "cnt_per_loop"),
  storeInt loopIntervalMsOffset (intOf object "loop_interval_ms"),
  storeInt reportStepOffset (intOf object "report_step"),
  strncpy dirOffset (stringOf object "dir") (hostSize - 1)]

/-- The memory that `LoadWsConfig` leaves: the bytes outside the struct and
those of other fields are not touched, and the strings are stored whole or
cut to what their arrays hold. -/
structure StoredWhole (object : List (String × JsonValue))
    (initial last : ByteMemory) : Prop where
  outside : ∀ address : Int, address < 0 ∨ wsConfigSize ≤ address →
    last address = initial address
  apart : ∀ pair ∈ wsConfigFields.zip (wsConfigStores object),
    ∀ other ∈ wsConfigFields, other ≠ pair.1 →
      ∀ (memory : ByteMemory) (address : Int), other.Contains address →
        pair.2.apply memory address = memory address
  host : HoldsString last hostOffset
    ((stringOf object "host").take (hostSize - 1))
  url : HoldsString last urlOffset
    ((stringOf object "url").take (urlSize - 1))
  dir : HoldsString last dirOffset
    ((stringOf object "dir").take (dirSize - 1))

/-- What is needed of the strings and of the memory before. -/
structure Fits (object : List (String × JsonValue)) (initial : ByteMemory) :
    Prop where
  host : (stringOf object "host").length < hostSize - 1 ∨
    initial (hostOffset + (hostSize - 1 : Nat)) = 0
  url : (stringOf object "url").length < urlSize - 1 ∨
    initial (urlOffset + (urlSize - 1 : Nat)) = 0
  dir : (stringOf object "dir").length ≤ dirSize - 1
  behind : ∀ address : Int, wsConfigSize ≤ address →
    address < dirOffset + (hostSize - 1 : Nat) → initial address = 0

/-! ## What the stores reach -/

theorem strncpy_avoids_iff {start address : Int} {text : List UInt8}
    {count : Nat} :
    (strncpy start text count).Avoids address ↔
      address < start ∨ start + count ≤ address := by
  unfold Store.Avoids strncpy
  rw [ByteMemory.length_strncpyBytes]

theorem storeInt_avoids_iff {offset value address : Int} :
    (storeInt offset value).Avoids address ↔
      address < offset ∨ offset + 4 ≤ address := by
  unfold Store.Avoids storeInt
  rw [length_leBytes]
  rfl

/-- A store reaches only its field and what follows the struct. -/
theorem avoids_of_not_contains {pair : Field × Store} {address : Int}
    (mem : pair ∈ wsConfigFields.zip (wsConfigStores object))
    (outside : ¬ pair.1.Contains address) (inside : address < wsConfigSize) :
    pair.2.Avoids address := by
  simp only [wsConfigFields, wsConfigStores, List.zip_cons_cons,
    List.zip_nil_left, List.mem_cons, List.not_mem_nil, or_false] at mem
  rcases mem with rfl | rfl | rfl | rfl | rfl | rfl | rfl | rfl
  all_goals
    simp only [Field.Contains, strncpy_avoids_iff, storeInt_avoids_iff,
      hostOffset, portOffset, urlOffset, loopOffset, cntPerLoopOffset,
      loopIntervalMsOffset, reportStepOffset, dirOffset, hostSize, urlSize,
      dirSize, wsConfigSize] at outside inside ⊢
    omega

/-- The fields follow one another. -/
theorem wsConfigFields_ordered :
    wsConfigFields.Pairwise fun field later : Field =>
      field.offset + field.size ≤ later.offset := by
  decide

/-- No address belongs to two fields. -/
theorem not_contains_of_ne {field other : Field} {address : Int}
    (mem : field ∈ wsConfigFields) (otherMem : other ∈ wsConfigFields)
    (distinct : other ≠ field) (contains : other.Contains address) :
    ¬ field.Contains address := by
  have apart : wsConfigFields.Pairwise fun field later : Field =>
      ¬ (field.Contains address ∧ later.Contains address) := by
    refine wsConfigFields_ordered.imp ?_
    rintro field later ordered ⟨first, second⟩
    unfold Field.Contains at first second
    omega
  have symmetric : Std.Symm fun field later : Field =>
      ¬ (field.Contains address ∧ later.Contains address) :=
    ⟨fun _ _ notBoth both => notBoth both.symm⟩
  intro containsToo
  exact apart.forall otherMem mem distinct ⟨contains, containsToo⟩

theorem lt_wsConfigSize {field : Field} {address : Int}
    (mem : field ∈ wsConfigFields) (contains : field.Contains address) :
    address < wsConfigSize := by
  have ends : ∀ field ∈ wsConfigFields,
      field.offset + field.size ≤ wsConfigSize := by decide
  exact lt_of_lt_of_le contains.2 (ends field mem)

/-- No store changes a byte of another field. -/
theorem stores_apart {pair : Field × Store} {other : Field}
    (mem : pair ∈ wsConfigFields.zip (wsConfigStores object))
    (otherMem : other ∈ wsConfigFields) (distinct : other ≠ pair.1)
    (memory : ByteMemory) {address : Int} (contains : other.Contains address) :
    pair.2.apply memory address = memory address :=
  Store.apply_of_avoids (avoids_of_not_contains mem
    (not_contains_of_ne (List.of_mem_zip mem).1 otherMem distinct contains)
    (lt_wsConfigSize otherMem contains))

/-- Bytes before the struct and behind the last copy are not reached. -/
theorem stores_avoid_outside {address : Int}
    (outside : address < 0 ∨ dirOffset + (hostSize - 1 : Nat) ≤ address) :
    ∀ store ∈ wsConfigStores object, store.Avoids address := by
  simp only [wsConfigStores, List.forall_mem_cons, strncpy_avoids_iff,
    storeInt_avoids_iff, hostOffset, portOffset, urlOffset, loopOffset,
    cntPerLoopOffset, loopIntervalMsOffset, reportStepOffset, dirOffset,
    hostSize, urlSize] at outside ⊢
  refine ⟨?_, ?_, ?_, ?_, ?_, ?_, ?_, ?_, by simp⟩
  all_goals omega

/-! ## The strings that are left -/

variable {initial : ByteMemory}

/-- The bytes of `host` are those of its copy. -/
theorem applyAll_host {address : Int}
    (inside : address < hostOffset + hostSize) :
    applyAll initial (wsConfigStores object) address =
      (strncpy hostOffset (stringOf object "host") (hostSize - 1)).apply
        initial address := by
  have split : wsConfigStores object =
      [] ++ strncpy hostOffset (stringOf object "host") (hostSize - 1) ::
        (wsConfigStores object).drop 1 := rfl
  rw [split]
  refine ByteMemory.applyAll_append_cons ?_
  simp only [wsConfigStores, List.drop_succ_cons, List.drop_zero,
    List.forall_mem_cons, strncpy_avoids_iff, storeInt_avoids_iff, hostOffset,
    portOffset, urlOffset, loopOffset, cntPerLoopOffset, loopIntervalMsOffset,
    reportStepOffset, dirOffset, hostSize, urlSize] at inside ⊢
  refine ⟨?_, ?_, ?_, ?_, ?_, ?_, ?_, by simp⟩
  all_goals omega

/-- The bytes of `url` are those of its copy. -/
theorem applyAll_url {address : Int} (inside : address < urlOffset + urlSize) :
    applyAll initial (wsConfigStores object) address =
      (strncpy urlOffset (stringOf object "url") (urlSize - 1)).apply
        (applyAll initial ((wsConfigStores object).take 2)) address := by
  have split : wsConfigStores object =
      (wsConfigStores object).take 2 ++
        strncpy urlOffset (stringOf object "url") (urlSize - 1) ::
          (wsConfigStores object).drop 3 := rfl
  rw [split]
  refine ByteMemory.applyAll_append_cons ?_
  simp only [wsConfigStores, List.drop_succ_cons, List.drop_zero,
    List.forall_mem_cons, strncpy_avoids_iff, storeInt_avoids_iff, urlOffset,
    loopOffset, cntPerLoopOffset, loopIntervalMsOffset, reportStepOffset,
    dirOffset, hostSize, urlSize] at inside ⊢
  refine ⟨?_, ?_, ?_, ?_, ?_, by simp⟩
  all_goals omega

/-- The stores before that of `url` do not reach its last byte. -/
theorem applyAll_take_url_end :
    applyAll initial ((wsConfigStores object).take 2)
        (urlOffset + (urlSize - 1 : Nat)) =
      initial (urlOffset + (urlSize - 1 : Nat)) := by
  apply ByteMemory.applyAll_of_avoids
  simp only [wsConfigStores, List.take_succ_cons, List.take_zero,
    List.forall_mem_cons, strncpy_avoids_iff, storeInt_avoids_iff, hostOffset,
    portOffset, urlOffset, hostSize, urlSize]
  refine ⟨?_, ?_, by simp⟩
  all_goals omega

/-- The copy of `dir` is the last store. -/
theorem applyAll_dir :
    applyAll initial (wsConfigStores object) =
      (strncpy dirOffset (stringOf object "dir") (hostSize - 1)).apply
        (applyAll initial ((wsConfigStores object).take 7)) := by
  have split : wsConfigStores object =
      (wsConfigStores object).take 7 ++
        [strncpy dirOffset (stringOf object "dir") (hostSize - 1)] := rfl
  rw [split]
  exact List.foldl_concat _ _ _ _

/-- `host` is stored whole or cut exactly when it leaves room for its NUL or
finds one in the last byte. -/
theorem holdsString_host_iff (nulFree : 0 ∉ stringOf object "host") :
    HoldsString (applyAll initial (wsConfigStores object)) hostOffset
        ((stringOf object "host").take (hostSize - 1)) ↔
      (stringOf object "host").length < hostSize - 1 ∨
        initial (hostOffset + (hostSize - 1 : Nat)) = 0 := by
  rw [← ByteMemory.holdsString_strncpy_iff nulFree (hostSize - 1)]
  apply HoldsString.congr
  intro index inside
  rw [List.length_take] at inside
  refine applyAll_host ?_
  unfold hostSize at inside ⊢
  omega

theorem holdsString_url_iff (nulFree : 0 ∉ stringOf object "url") :
    HoldsString (applyAll initial (wsConfigStores object)) urlOffset
        ((stringOf object "url").take (urlSize - 1)) ↔
      (stringOf object "url").length < urlSize - 1 ∨
        initial (urlOffset + (urlSize - 1 : Nat)) = 0 := by
  have before : applyAll initial ((wsConfigStores object).take 2)
      (urlOffset + (urlSize - 1 : Nat)) =
        initial (urlOffset + (urlSize - 1 : Nat)) := applyAll_take_url_end
  rw [← before, ← ByteMemory.holdsString_strncpy_iff nulFree (urlSize - 1)]
  apply HoldsString.congr
  intro index inside
  rw [List.length_take] at inside
  refine applyAll_url ?_
  unfold urlSize at inside ⊢
  omega

/-- `dir` is terminated inside its array only when it fits. -/
theorem holdsString_dir_iff (nulFree : 0 ∉ stringOf object "dir") :
    HoldsString (applyAll initial (wsConfigStores object)) dirOffset
        ((stringOf object "dir").take (dirSize - 1)) ↔
      (stringOf object "dir").length ≤ dirSize - 1 := by
  rw [applyAll_dir]
  exact ByteMemory.holdsString_strncpy_iff_of_lt nulFree (by decide)

/-- A short `dir` is followed by NULs up to the end of its copy, behind the
struct. -/
theorem applyAll_behind (nulFree : 0 ∉ stringOf object "dir")
    (short : (stringOf object "dir").length ≤ dirSize - 1) {address : Int}
    (behind : wsConfigSize ≤ address)
    (copied : address < dirOffset + (hostSize - 1 : Nat)) :
    applyAll initial (wsConfigStores object) address = 0 := by
  obtain ⟨index, index_eq⟩ : ∃ index : Nat, address = dirOffset + index := by
    refine ⟨(address - dirOffset).toNat, ?_⟩
    unfold dirOffset wsConfigSize at *
    omega
  subst address
  have past : (stringOf object "dir").length ≤ index := by
    unfold dirOffset wsConfigSize dirSize at *
    omega
  rw [applyAll_dir, ByteMemory.strncpy_apply nulFree (by omega)]
  exact List.getD_eq_default _ _ past

/-! ## The configuration that is left -/

theorem StoredWhole.fits
    (nulFree : ∀ name ∈ ["host", "url", "dir"], 0 ∉ stringOf object name)
    (stored : StoredWhole object initial
      (applyAll initial (wsConfigStores object))) :
    Fits object initial := by
  have dirFree : 0 ∉ stringOf object "dir" := nulFree _ (by decide)
  have short := (holdsString_dir_iff dirFree).mp stored.dir
  refine ⟨(holdsString_host_iff (nulFree _ (by decide))).mp stored.host,
    (holdsString_url_iff (nulFree _ (by decide))).mp stored.url, short, ?_⟩
  intro address behind copied
  rw [← stored.outside address (Or.inr behind)]
  exact applyAll_behind dirFree short behind copied

theorem Fits.storedWhole
    (nulFree : ∀ name ∈ ["host", "url", "dir"], 0 ∉ stringOf object name)
    (fits : Fits object initial) :
    StoredWhole object initial
      (applyAll initial (wsConfigStores object)) where
  outside address outside := by
    by_cases copied : wsConfigSize ≤ address ∧
        address < dirOffset + (hostSize - 1 : Nat)
    · rw [fits.behind address copied.1 copied.2]
      exact applyAll_behind (nulFree _ (by decide)) fits.dir copied.1 copied.2
    · apply ByteMemory.applyAll_of_avoids
      apply stores_avoid_outside
      omega
  apart _ mem _ otherMem distinct memory _ contains :=
    stores_apart mem otherMem distinct memory contains
  host := (holdsString_host_iff (nulFree _ (by decide))).mpr fits.host
  url := (holdsString_url_iff (nulFree _ (by decide))).mpr fits.url
  dir := (holdsString_dir_iff (nulFree _ (by decide))).mpr fits.dir

variable {parse : Parse} {path : String} {bytes : List UInt8}
variable {last : ByteMemory} {log : List String}

/-- When `LoadWsConfig` returns true it has made all its stores. -/
theorem eq_applyAll_of_load
    (parsed : parse (ByteMemory.cString bytes) = .ok (.object object))
    (returned : loadWsConfig.load parse path (.content bytes) initial =
      some ⟨true, last, log⟩) :
    last = applyAll initial (wsConfigStores object) := by
  rcases readMembers_object object loadWsConfig.members initial with
    ⟨final, finished, -⟩ | ⟨final, missing, -, -, thrown⟩
  · rw [load_of_finished parsed finished] at returned
    cases returned
    exact readMembers_finished finished
  · rw [load_of_thrown parsed thrown] at returned
    cases returned

/-- **The websocket configuration in memory.**  The strings of an accepted
document are stored whole or cut inside their fields, and nothing else
changes, exactly when `dir` fits its array, the copy of it finds NULs behind
the struct, and `host` and `url` leave room for their NUL or find it there. -/
theorem loadWsConfig_storedWhole_iff
    (parsed : parse (ByteMemory.cString bytes) = .ok (.object object))
    (returned : loadWsConfig.load parse path (.content bytes) initial =
      some ⟨true, last, log⟩)
    (nulFree : ∀ name ∈ ["host", "url", "dir"], 0 ∉ stringOf object name) :
    StoredWhole object initial last ↔ Fits object initial := by
  rw [eq_applyAll_of_load parsed returned]
  exact ⟨StoredWhole.fits nulFree, Fits.storedWhole nulFree⟩

/-! ## The configuration file of the repository -/

/-- The members of `config/ws_conf.json`. -/
def wsConf : List (String × JsonValue) := [
  ("host", .string "127.0.0.1"),
  ("port", .integer 10102),
  ("url", .string "/ws"),
  ("loop", .integer 100),
  ("cnt_per_loop", .integer 10000),
  ("loop_interval_ms", .integer 1),
  ("report_step", .integer 5),
  ("dir", .string "cts")]

/-- The text of the file. -/
def wsConfBytes : List UInt8 :=
  utf8 ("\x7b\n\t\"host\": \"127.0.0.1\",\n\t\"port\": 10102,\n" ++
    "\t\"url\": \"/ws\",\n\t\"loop\": 100,\n\t\"cnt_per_loop\": 10000,\n" ++
    "\t\"loop_interval_ms\": 1,\n\t\"report_step\": 5,\n" ++
    "\t\"dir\": \"cts\"\n\x7d\n")

/-- A parser of this text. -/
def parseWsConf : Parse := fun bytes =>
  if bytes = ByteMemory.cString wsConfBytes then .ok (.object wsConf)
  else .error 3

theorem parseWsConf_eq_ok :
    parseWsConf (ByteMemory.cString wsConfBytes) = .ok (.object wsConf) :=
  if_pos rfl

theorem load_wsConf (initial : ByteMemory) :
    loadWsConfig.load parseWsConf "ws_conf.json" (.content wsConfBytes)
        initial =
      some ⟨true, applyAll initial (wsConfigStores wsConf), []⟩ :=
  load_of_finished parseWsConf_eq_ok rfl

theorem nulFree_wsConf :
    ∀ name ∈ ["host", "url", "dir"], 0 ∉ stringOf wsConf name := by
  decide

theorem loadWsConfig_storedWhole_iff_wsConf :
    StoredWhole wsConf (fun _ => 0)
        (applyAll (fun _ => 0) (wsConfigStores wsConf)) ↔
      Fits wsConf (fun _ => 0) :=
  loadWsConfig_storedWhole_iff parseWsConf_eq_ok (load_wsConf _)
    nulFree_wsConf

/-- Loading the file of the repository into a struct that is followed by
bytes other than NUL clears the first of them. -/
theorem wsConf_clears_byte_behind :
    ∃ last : ByteMemory,
      loadWsConfig.load parseWsConf "ws_conf.json" (.content wsConfBytes)
        (fun _ => 1) = some ⟨true, last, []⟩ ∧
      (∀ name ∈ ["host", "url", "dir"], 0 ∉ stringOf wsConf name) ∧
      last wsConfigSize = 0 ∧
      ¬ StoredWhole wsConf (fun _ => 1) last := by
  have short : (stringOf wsConf "dir").length ≤ dirSize - 1 := by decide
  have cleared : applyAll (fun _ => 1) (wsConfigStores wsConf)
      wsConfigSize = 0 :=
    applyAll_behind (nulFree_wsConf _ (by decide)) short (by decide)
      (by decide)
  refine ⟨_, load_wsConf _, nulFree_wsConf, cleared, ?_⟩
  intro stored
  have kept := stored.outside wsConfigSize (Or.inr (le_refl _))
  rw [cleared] at kept
  exact absurd kept (by decide)

end CppConfig

end LatencyBenchmark
