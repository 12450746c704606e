import Qwin.Config.Json
import Qwin.Limiter.Model

/-!
`loadConfig` of src/utils.cpp: which configuration it makes of which document. Its
eight plain fields must all be there; the list of excluded addresses need not.
-/

set_option autoImplicit false

namespace Qwin

/-- `jsonConfig[key]` and a conversion of what is found there. -/
def field {α : Type} (key : String) (convert : Json → Except LoadException α) :
    StateT Json (Except LoadException) α := do
  let value ← Json.subscript key
  convert value

/-- The loop over the array. -/
def pushExcludedIps (excludedIps : List Ip) : List Json → Except LoadException (List Ip)
  | [] => .ok excludedIps
  | ip :: rest => do
    let value ← ip.getString
    pushExcludedIps (excludedIps ++ [value]) rest

def readExcludedIps : StateT Json (Except LoadException) (List Ip) := do
  if (← get).contains "excluded_ips" then
    match ← Json.subscript "excluded_ips" with
    | .array items => pushExcludedIps [] items
    | _ => pure []
  else pure []

def readConfig : StateT Json (Except LoadException) Config := do
  let serverIp ← field "server_ip" Json.getString
  let serverPortStart ← field "server_port_start" Json.getInt
  let serverPortEnd ← field "server_port_end" Json.getInt
  let remoteServerIp ← field "remote_server_ip" Json.getString
  let remoteServerPort ← field "remote_server_port" Json.getInt
  let logDirectory ← field "log_directory" Json.getString
  let maxConnectionsPerIp ← field "max_connections_per_ip" Json.getInt
  let blockDurationMinutes ← field "block_duration_minutes" Json.getInt
  let excludedIps ← readExcludedIps
  pure ⟨serverIp, serverPortStart, serverPortEnd, remoteServerIp, remoteServerPort, logDirectory,
    maxConnectionsPerIp, blockDurationMinutes, excludedIps⟩

/-- What opening and parsing the file comes to. -/
inductive ConfigFile where
  | unopened
  | malformed (what : String)
  | document (jsonConfig : Json)

def loadConfig (configPath : String) : ConfigFile → Except LoadException Config
  | .unopened => .error (.runtimeError ("Не удалось открыть конфигурационный файл: " ++ configPath))
  | .malformed what => .error (.parseError what)
  | .document jsonConfig => (readConfig.run jsonConfig).map (·.1)

section Members
variable (members : List (String × Json))

/-- The value under the key, or one or zero for a boolean, modulo the wrap of an `int`. -/
def ReadsInt (key : String) (n : Int32) : Prop :=
  ∃ value z, members.lookup key = some value ∧ value.arithmetic = some z ∧ n = .ofInt z

def ReadsString (key : String) (s : String) : Prop := members.lookup key = some (.string s)

def ReadsExcludedIps (ips : List Ip) : Prop :=
  match members.lookup "excluded_ips" with
  | some (.array items) => items = ips.map .string
  | _ => ips = []

structure Reads (config : Config) : Prop where
  serverIp : ReadsString members "server_ip" config.serverIp
  serverPortStart : ReadsInt members "server_port_start" config.serverPortStart
  serverPortEnd : ReadsInt members "server_port_end" config.serverPortEnd
  remoteServerIp : ReadsString members "remote_server_ip" config.remoteServerIp
  remoteServerPort : ReadsInt members "remote_server_port" config.remoteServerPort
  logDirectory : ReadsString members "log_directory" config.logDirectory
  maxConnectionsPerIp : ReadsInt members "max_connections_per_ip" config.maxConnectionsPerIp
  blockDurationMinutes : ReadsInt members "block_duration_minutes" config.blockDurationMinutes
  excludedIps : ReadsExcludedIps members config.excludedIps

end Members

section Fields
variable {members : List (String × Json)} {key : String} {β : Type} {b : β × Json}

theorem except_bind_ok {ε α γ : Type} {x : Except ε α} {f : α → Except ε γ} {c : γ} :
    x >>= f = .ok c ↔ ∃ a, x = .ok a ∧ f a = .ok c := by
  cases x with
  | error e => simp [bind, Except.bind]
  | ok a => simp [bind, Except.bind]

theorem subscript_object (key : String) (members : List (String × Json)) :
    (Json.subscript key).run (.object members) =
      match members.lookup key with
      | some value => .ok (value, .object members)
      | none => .ok (.null, .object (members ++ [(key, .null)])) := rfl

/-- A field that is there is converted; an absent one reads as null, which no
field is converted from. -/
theorem field_bind_ok {α : Type} {convert : Json → Except LoadException α}
    {f : α → StateT Json (Except LoadException) β} (hnull : ∀ a, convert .null ≠ .ok a) :
    (field key convert >>= f).run (.object members) = .ok b ↔
      ∃ value a, members.lookup key = some value ∧ convert value = .ok a ∧
        (f a).run (.object members) = .ok b := by
  unfold field
  rw [StateT.run_bind, StateT.run_bind, subscript_object]
  cases members.lookup key with
  | none =>
    cases hconvert : convert .null with
    | ok a => exact absurd hconvert (hnull a)
    | error e => simp [hconvert, bind, Except.bind]
  | some value =>
    cases hconvert : convert value with
    | ok a => simp [hconvert, bind, Except.bind, pure, Except.pure]
    | error e => simp [hconvert, bind, Except.bind]

theorem string_bind_ok {f : String → StateT Json (Except LoadException) β} :
    (field key Json.getString >>= f).run (.object members) = .ok b ↔
      ∃ s, ReadsString members key s ∧ (f s).run (.object members) = .ok b := by
  rw [field_bind_ok fun a h => by cases h]
  simp [getString_eq_ok, ReadsString]

theorem int_bind_ok {f : Int32 → StateT Json (Except LoadException) β} :
    (field key Json.getInt >>= f).run (.object members) = .ok b ↔
      ∃ n, ReadsInt members key n ∧ (f n).run (.object members) = .ok b := by
  rw [field_bind_ok fun a h => by cases h]
  simp only [getInt_eq_ok, ReadsInt]
  constructor
  · rintro ⟨value, n, hvalue, ⟨z, hz, hn⟩, hrest⟩
    exact ⟨n, ⟨value, z, hvalue, hz, hn⟩, hrest⟩
  · rintro ⟨n, ⟨value, z, hvalue, hz, hn⟩, hrest⟩
    exact ⟨value, n, hvalue, ⟨z, hz, hn⟩, hrest⟩

theorem pushExcludedIps_eq_ok {items : List Json} {excludedIps ips : List Ip} :
    pushExcludedIps excludedIps items = .ok ips ↔
      ∃ read, items = read.map .string ∧ ips = excludedIps ++ read := by
  induction items generalizing excludedIps with
  | nil => simp [pushExcludedIps, eq_comm]
  | cons item items ih =>
    unfold pushExcludedIps
    rw [except_bind_ok]
    simp only [getString_eq_ok, ih]
    constructor
    · rintro ⟨value, rfl, read, rfl, rfl⟩
      exact ⟨value :: read, rfl, by simp⟩
    · rintro ⟨read, hitems, rfl⟩
      obtain ⟨value, read', rfl, rfl, rfl⟩ := List.map_eq_cons_iff.mp hitems.symm
      exact ⟨value, rfl, read', rfl, by simp⟩

theorem readExcludedIps_object (members : List (String × Json)) :
    readExcludedIps.run (.object members) =
      match members.lookup "excluded_ips" with
      | some (.array items) => (pushExcludedIps [] items).map fun ips => (ips, .object members)
      | _ => .ok ([], .object members) := by
  unfold readExcludedIps
  cases hvalue : members.lookup "excluded_ips" with
  | none =>
    simp only [StateT.run_bind, StateT.run_get, pure_bind, Json.contains, hvalue,
      Option.isSome_none, Bool.false_eq_true, if_false]
    rfl
  | some value =>
    simp only [StateT.run_bind, StateT.run_get, pure_bind, Json.contains, hvalue,
      Option.isSome_some, if_true, subscript_object]
    cases value with
    | array items =>
      cases hpush : pushExcludedIps [] items with
      | ok ips => simp [hpush, bind, Except.bind, Except.map, pure, Except.pure]
      | error e => simp [hpush, bind, Except.bind, Except.map]
    | _ => rfl

theorem excludedIps_bind_ok {f : List Ip → StateT Json (Except LoadException) β} :
    (readExcludedIps >>= f).run (.object members) = .ok b ↔
      ∃ ips, ReadsExcludedIps members ips ∧ (f ips).run (.object members) = .ok b := by
  rw [StateT.run_bind, readExcludedIps_object, except_bind_ok]
  unfold ReadsExcludedIps
  split
  · rename_i items _
    cases hpush : pushExcludedIps [] items with
    | ok ips =>
      obtain ⟨read, rfl, rfl⟩ := pushExcludedIps_eq_ok.mp hpush
      have hinj : Function.Injective Json.string := fun _ _ h => by cases h; rfl
      simp [Except.map, List.map_inj_right hinj]
    | error e =>
      simp only [Except.map, reduceCtorEq, false_and, exists_false, false_iff, not_exists, not_and]
      rintro ips rfl
      rw [pushExcludedIps_eq_ok.mpr ⟨ips, rfl, rfl⟩] at hpush
      cases hpush
  · simp

end Fields

theorem readConfig_object {members : List (String × Json)} {config : Config} {j : Json} :
    readConfig.run (.object members) = .ok (config, j) ↔
      Reads members config ∧ j = .object members := by
  unfold readConfig
  simp only [string_bind_ok, int_bind_ok, excludedIps_bind_ok]
  constructor
  · rintro ⟨serverIp, hserverIp, serverPortStart, hserverPortStart, serverPortEnd, hserverPortEnd,
      remoteServerIp, hremoteServerIp, remoteServerPort, hremoteServerPort, logDirectory,
      hlogDirectory, maxConnectionsPerIp, hmaxConnectionsPerIp, blockDurationMinutes,
      hblockDurationMinutes, excludedIps, hexcludedIps, hpure⟩
    cases hpure
    exact ⟨⟨hserverIp, hserverPortStart, hserverPortEnd, hremoteServerIp, hremoteServerPort,
      hlogDirectory, hmaxConnectionsPerIp, hblockDurationMinutes, hexcludedIps⟩, rfl⟩
  · rintro ⟨h, rfl⟩
    exact ⟨_, h.serverIp, _, h.serverPortStart, _, h.serverPortEnd, _, h.remoteServerIp, _,
      h.remoteServerPort, _, h.logDirectory, _, h.maxConnectionsPerIp, _, h.blockDurationMinutes,
      _, h.excludedIps, rfl⟩

/-- A document of another kind fails at its first field. -/
theorem readConfig_not_object {jsonConfig : Json} (h : ∀ members, jsonConfig ≠ .object members)
    (b : Config × Json) : readConfig.run jsonConfig ≠ .ok b := by
  have hfield : ∀ {f : String → StateT Json (Except LoadException) Config},
      (field "server_ip" Json.getString >>= f).run jsonConfig ≠ .ok b := by
    intro f hok
    cases jsonConfig with
    | object members => exact h members rfl
    | _ => cases hok
  exact hfield

theorem loadConfig_ok_iff {configPath : String} {file : ConfigFile} {config : Config} :
    loadConfig configPath file = .ok config ↔
      ∃ members, file = .document (.object members) ∧ Reads members config := by
  constructor
  · intro hok
    cases file with
    | unopened | malformed what => cases hok
    | document jsonConfig =>
      unfold loadConfig at hok
      dsimp only at hok
      cases hread : readConfig.run jsonConfig with
      | error e =>
        rw [hread] at hok
        cases hok
      | ok b =>
        rw [hread] at hok
        cases hok
        cases jsonConfig with
        | object members => exact ⟨members, rfl, (readConfig_object.mp hread).1⟩
        | _ => exact absurd hread (readConfig_not_object (by simp) b)
  · rintro ⟨members, rfl, hreads⟩
    unfold loadConfig
    dsimp only
    rw [readConfig_object.mpr ⟨hreads, rfl⟩]
    rfl

section Faithfulness
variable (members : List (String × Json))

/-- The document has the number `n` itself under the key. -/
def HoldsInt (key : String) (n : Int32) : Prop :=
  ∃ value, members.lookup key = some value ∧ value.number = some n.toInt

/-- Every field of the configuration is the value of its key, as it stands. -/
structure Faithful (config : Config) : Prop where
  serverIp : ReadsString members "server_ip" config.serverIp
  serverPortStart : HoldsInt members "server_port_start" config.serverPortStart
  serverPortEnd : HoldsInt members "server_port_end" config.serverPortEnd
  remoteServerIp : ReadsString members "remote_server_ip" config.remoteServerIp
  remoteServerPort : HoldsInt members "remote_server_port" config.remoteServerPort
  logDirectory : ReadsString members "log_directory" config.logDirectory
  maxConnectionsPerIp : HoldsInt members "max_connections_per_ip" config.maxConnectionsPerIp
  blockDurationMinutes : HoldsInt members "block_duration_minutes" config.blockDurationMinutes
  excludedIps : members.lookup "excluded_ips" = some (.array (config.excludedIps.map .string)) ∨
    members.lookup "excluded_ips" = none ∧ config.excludedIps = []

def intKeys : List String :=
  ["server_port_start", "server_port_end", "remote_server_port", "max_connections_per_ip",
    "block_duration_minutes"]

/-- No boolean and no number beyond an `int` stands for an `int`, and nothing but
an array for the list of addresses. -/
structure Exact : Prop where
  ints : ∀ key ∈ intKeys, ∀ value, members.lookup key = some value →
    ∃ z, value.number = some z ∧ -2147483648 ≤ z ∧ z ≤ 2147483647
  excludedIps : ∀ value, members.lookup "excluded_ips" = some value → value.isArray = true

variable {members} {config : Config}

theorem toInt_ofInt_iff (z : Int) :
    (Int32.ofInt z).toInt = z ↔ -2147483648 ≤ z ∧ z ≤ 2147483647 := by
  have hsize : (Int32.size : Int) = 4294967296 := rfl
  rw [Int32.toInt_ofInt, Int.bmod_def, hsize]
  omega

theorem holdsInt_iff {key : String} {n : Int32} (h : ReadsInt members key n) :
    HoldsInt members key n ↔ ∀ value, members.lookup key = some value →
      ∃ z, value.number = some z ∧ -2147483648 ≤ z ∧ z ≤ 2147483647 := by
  obtain ⟨value, z, hvalue, harithmetic, rfl⟩ := h
  unfold HoldsInt
  rw [hvalue]
  constructor
  · rintro ⟨value', hvalue', hnumber⟩ value'' hvalue''
    obtain rfl := Option.some.inj hvalue'
    obtain rfl := Option.some.inj hvalue''
    have hz : z = (Int32.ofInt z).toInt :=
      Option.some.inj (harithmetic.symm.trans (arithmetic_of_number hnumber))
    exact ⟨z, by rw [hnumber, ← hz], (toInt_ofInt_iff z).mp hz.symm⟩
  · intro hall
    obtain ⟨z', hnumber, hrange⟩ := hall value rfl
    obtain rfl : z = z' :=
      Option.some.inj (harithmetic.symm.trans (arithmetic_of_number hnumber))
    exact ⟨value, rfl, by rw [hnumber, (toInt_ofInt_iff z).mpr hrange]⟩

theorem holdsExcludedIps_iff {ips : List Ip} (h : ReadsExcludedIps members ips) :
    (members.lookup "excluded_ips" = some (.array (ips.map .string)) ∨
      members.lookup "excluded_ips" = none ∧ ips = []) ↔
      ∀ value, members.lookup "excluded_ips" = some value → value.isArray = true := by
  unfold ReadsExcludedIps at h
  cases hvalue : members.lookup "excluded_ips" with
  | none =>
    rw [hvalue] at h
    simpa using h
  | some value =>
    rw [hvalue] at h
    cases value with
    | array items =>
      obtain rfl : items = ips.map .string := h
      simp [Json.isArray]
    | _ => simp [Json.isArray]

theorem faithful_iff (h : Reads members config) : Faithful members config ↔ Exact members := by
  constructor
  · intro hf
    refine ⟨?_, (holdsExcludedIps_iff h.excludedIps).mp hf.excludedIps⟩
    simp only [intKeys, List.forall_mem_cons, List.not_mem_nil, false_implies, implies_true,
      and_true]
    exact ⟨(holdsInt_iff h.serverPortStart).mp hf.serverPortStart,
      (holdsInt_iff h.serverPortEnd).mp hf.serverPortEnd,
      (holdsInt_iff h.remoteServerPort).mp hf.remoteServerPort,
      (holdsInt_iff h.maxConnectionsPerIp).mp hf.maxConnectionsPerIp,
      (holdsInt_iff h.blockDurationMinutes).mp hf.blockDurationMinutes⟩
  · intro he
    have hint : ∀ {key n}, ReadsInt members key n → key ∈ intKeys → HoldsInt members key n :=
      fun hreads hkey => (holdsInt_iff hreads).mpr (he.ints _ hkey)
    exact ⟨h.serverIp, hint h.serverPortStart (by decide), hint h.serverPortEnd (by decide),
      h.remoteServerIp, hint h.remoteServerPort (by decide), h.logDirectory,
      hint h.maxConnectionsPerIp (by decide), hint h.blockDurationMinutes (by decide),
      (holdsExcludedIps_iff h.excludedIps).mpr he.excludedIps⟩

end Faithfulness

/-- A configuration is loaded exactly from a document that has its strings, its
numbers up to the wrap of an `int`, and its addresses where there is an array of
them. It is what the document says exactly when nothing had to be converted. -/
theorem loadConfig_reads (configPath : String) (file : ConfigFile) (config : Config) :
    (loadConfig configPath file = .ok config ↔
      ∃ members, file = .document (.object members) ∧ Reads members config) ∧
    ∀ members, Reads members config → (Faithful members config ↔ Exact members) :=
  ⟨loadConfig_ok_iff, fun _ => faithful_iff⟩

/-- config/config.json. -/
def shippedMembers : List (String × Json) :=
  [("server_ip", .string "192.168.1.249"), ("server_port_start", .numberUnsigned 27015),
    ("server_port_end", .numberUnsigned 28014), ("remote_server_ip", .string "89.223.121.95"),
    ("remote_server_port", .numberUnsigned 27015), ("log_directory", .string "./logs/"),
    ("max_connections_per_ip", .numberUnsigned 10), ("block_duration_minutes", .numberUnsigned 10),
    ("excluded_ips", .array [.string "127.0.0.1", .string "192.168.1.1"])]

def shippedConfig : Config :=
  ⟨"192.168.1.249", 27015, 28014, "89.223.121.95", 27015, "./logs/", 10, 10,
    ["127.0.0.1", "192.168.1.1"]⟩

example : loadConfig "config.json" (.document (.object shippedMembers)) = .ok shippedConfig := rfl

/-- The shipped document with another value under one key. -/
def shippedBut (key : String) (value : Json) : List (String × Json) :=
  shippedMembers.map fun member => if member.1 = key then (key, value) else member

/-- A port of 2^32 + 27015, a limit of `true`, and one address instead of a list. -/
theorem unfaithful_configs_are_loaded :
    (loadConfig "config.json" (.document (.object
        (shippedBut "server_port_start" (.numberUnsigned 4294994311)))) = .ok shippedConfig ∧
    ¬ Faithful (shippedBut "server_port_start" (.numberUnsigned 4294994311)) shippedConfig) ∧
    (loadConfig "config.json" (.document (.object
        (shippedBut "max_connections_per_ip" (.boolean true)))) =
      .ok { shippedConfig with maxConnectionsPerIp := 1 } ∧
    ¬ Faithful (shippedBut "max_connections_per_ip" (.boolean true))
      { shippedConfig with maxConnectionsPerIp := 1 }) ∧
    loadConfig "config.json" (.document (.object
        (shippedBut "excluded_ips" (.string "127.0.0.1")))) =
      .ok { shippedConfig with excludedIps := [] } ∧
    ¬ Faithful (shippedBut "excluded_ips" (.string "127.0.0.1"))
      { shippedConfig with excludedIps := [] } := by
  refine ⟨⟨rfl, fun h => ?_⟩, ⟨rfl, fun h => ?_⟩, rfl, fun h => ?_⟩
  · obtain ⟨value, hvalue, hnumber⟩ := h.serverPortStart
    cases hvalue
    revert hnumber
    decide
  · obtain ⟨value, hvalue, hnumber⟩ := h.maxConnectionsPerIp
    cases hvalue
    cases hnumber
  · obtain hvalue | ⟨hvalue, -⟩ := h.excludedIps <;> cases hvalue

end Qwin
