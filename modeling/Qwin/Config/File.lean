import Qwin.Config.Document
import Qwin.Config.Load
import Qwin.Library.JsonWriter

/-!
`loadConfig` of src/utils.cpp from the bytes of the file on: which files it makes a
configuration of, and that it reads a configuration back from a file that is laid
out as config/config.json is.
-/

set_option autoImplicit false

namespace Qwin

open JsonText Utf8

variable {Double : Type}

section
variable (Double) [Strtod Double]

/-- Opening the file and `file >> jsonConfig`; what an exception says, with a character for
each byte. None where the document has a floating point number, which `loadConfig` would
take, or one out of range. -/
def openConfig : Option (List UInt8) → Option ConfigFile
  | none => some .unopened
  | some bytes =>
    match (parse bytes : Except JsonException (Value Double)) with
    | .ok value => value.document.map .document
    | .error (.parseError _ _ what) =>
      some (.malformed (String.ofList (what.map fun b => .ofNat b.toNat)))
    | .error (.outOfRange _ _) => none

def loadFile (configPath : String) (file : Option (List UInt8)) :
    Option (Except LoadException Config) :=
  (openConfig Double file).map (loadConfig configPath)

variable {Double} {configPath : String} {bytes : List UInt8} {config : Config}

theorem loads_iff :
    loadFile Double configPath (some bytes) = some (.ok config) ↔
      ∃ (value : Value Double) (members : List (String × Json)), parse bytes = .ok value ∧
        value.document = some (.object members) ∧ Reads members config := by
  unfold loadFile openConfig
  simp only [Option.map_eq_some_iff, loadConfig_ok_iff]
  constructor
  · rintro ⟨file, hfile, members, rfl, hreads⟩
    split at hfile
    · rename_i value hparse
      obtain ⟨document, hdocument, heq⟩ := Option.map_eq_some_iff.mp hfile
      cases heq
      exact ⟨value, members, hparse, hdocument, hreads⟩
    · cases hfile
    · cases hfile
  · rintro ⟨value, members, hparse, hdocument, hreads⟩
    rw [hparse]
    exact ⟨_, congrArg (Option.map _) hdocument, members, rfl, hreads⟩

end

/-! Writing a configuration -/

theorem content_quoted (s : String) : content (quoted s) = utf8 s := by
  rw [content_eq, chars_quoted, String.ofList_toList]

inductive Field where
  | string (value : String)
  | int (value : Int32)
  | strings (values : List String)

def Field.tree : Field → Tree
  | .string value => .leaf (spaces 1) (.string (quoted value))
  | .int value => .leaf (spaces 1) (.number (.ofInt value.toInt))
  | .strings values => .ofScalars (spaces 1) (values.map fun value => .string (quoted value))

def fields (config : Config) : List (String × Field) :=
  [("server_ip", .string config.serverIp),
    ("server_port_start", .int config.serverPortStart),
    ("server_port_end", .int config.serverPortEnd),
    ("remote_server_ip", .string config.remoteServerIp),
    ("remote_server_port", .int config.remoteServerPort),
    ("log_directory", .string config.logDirectory),
    ("max_connections_per_ip", .int config.maxConnectionsPerIp),
    ("block_duration_minutes", .int config.blockDurationMinutes),
    ("excluded_ips", .strings config.excludedIps)]

/-- A line for each field, as in config/config.json. -/
def configTree (config : Config) : Tree :=
  .ofPairs (newline 4) (newline 0) ((fields config).map fun field => (field.1, field.2.tree))

def render (config : Config) : List UInt8 := (configTree config).text

example : render shippedConfig ++ [0x0A] =
    ["\x7b",
      "    \"server_ip\": \"192.168.1.249\",",
      "    \"server_port_start\": 27015,",
      "    \"server_port_end\": 28014,",
      "    \"remote_server_ip\": \"89.223.121.95\",",
      "    \"remote_server_port\": 27015,",
      "    \"log_directory\": \"./logs/\",",
      "    \"max_connections_per_ip\": 10,",
      "    \"block_duration_minutes\": 10,",
      "    \"excluded_ips\": [\"127.0.0.1\", \"192.168.1.1\"]",
      "\x7d"].flatMap fun line => utf8 line ++ [0x0A] := by
  decide +kernel

/-- An `int` as the parser stores it. -/
def Json.ofInt32 (n : Int32) : Json :=
  if n.toInt < 0 then .numberInteger (.ofInt n.toInt) else .numberUnsigned (.ofNat n.toInt.toNat)

def Field.json : Field → Json
  | .string value => .string value
  | .int value => .ofInt32 value
  | .strings values => .array (values.map .string)

theorem int32_bounds (n : Int32) : -2147483648 ≤ n.toInt ∧ n.toInt ≤ 2147483647 := by
  rw [← toInt_ofInt_iff, Int32.ofInt_toInt]

theorem arithmetic_ofInt32 (n : Int32) : (Json.ofInt32 n).arithmetic = some n.toInt := by
  obtain ⟨hlow, hhigh⟩ := int32_bounds n
  refine arithmetic_of_number ?_
  unfold Json.ofInt32
  split
  · rw [Json.number, Int64.toInt_ofInt_of_le (by omega) (by omega)]
  · have hsize : n.toInt.toNat < UInt64.size := by
      unfold UInt64.size
      omega
    rw [Json.number, UInt64.toNat_ofNat_of_lt' hsize, Int.toNat_of_nonneg (by omega)]

theorem readsInt_ofInt32 {members : List (String × Json)} {key : String} {n : Int32}
    (h : members.lookup key = some (.ofInt32 n)) : ReadsInt members key n :=
  ⟨_, _, h, arithmetic_ofInt32 n, (Int32.ofInt_toInt n).symm⟩

theorem reads_fields (config : Config) :
    Reads ((fields config).map fun field => (field.1, field.2.json)) config where
  serverIp := rfl
  serverPortStart := readsInt_ofInt32 rfl
  serverPortEnd := readsInt_ofInt32 rfl
  remoteServerIp := rfl
  remoteServerPort := readsInt_ofInt32 rfl
  logDirectory := rfl
  maxConnectionsPerIp := readsInt_ofInt32 rfl
  blockDurationMinutes := readsInt_ofInt32 rfl
  excludedIps := rfl

section Documents
variable [Strtod Double]

theorem document_string (s : String) :
    (scalarMeaning (.string (quoted s)) : Value Double).document = some (.string s) := by
  rw [scalarMeaning, content_quoted, Value.document, decode_eq_some.mpr rfl]
  rfl

theorem numberMeaning_int (n : Int32) :
    (numberMeaning (.ofInt n.toInt) : Value Double) =
      if n.toInt < 0 then .numberInteger (.ofInt n.toInt)
      else .numberUnsigned (.ofNat n.toInt.toNat) := by
  obtain ⟨hlow, hhigh⟩ := int32_bounds n
  have hinteger : (numberMeaning (.ofInt n.toInt) : Value Double) =
      if decide (n.toInt < 0) then
        if -9223372036854775808 ≤ (Number.ofInt n.toInt).integer then
          .numberInteger (.ofInt (Number.ofInt n.toInt).integer)
        else .numberFloat (Strtod.strtod (Number.ofInt n.toInt).text)
      else if (Number.ofInt n.toInt).integer ≤ 18446744073709551615 then
        .numberUnsigned (.ofNat (Number.ofInt n.toInt).integer.toNat)
      else .numberFloat (Strtod.strtod (Number.ofInt n.toInt).text) := rfl
  rw [hinteger, Number.integer_ofInt, if_pos (c := -9223372036854775808 ≤ _) (by omega),
    if_pos (c := _ ≤ 18446744073709551615) (by omega)]
  simp only [decide_eq_true_eq]

theorem document_int (n : Int32) :
    (scalarMeaning (.number (.ofInt n.toInt)) : Value Double).document = some (.ofInt32 n) := by
  rw [scalarMeaning, numberMeaning_int, Json.ofInt32]
  split <;> rfl

theorem finite_int (n : Int32) : Finite Double (.ofInt n.toInt) := by
  intro d hd
  rw [numberMeaning_int] at hd
  split at hd <;> cases hd

theorem itemsMeaning_ofScalars (items : List Scalar) :
    (itemsMeaning (.ofScalars items) : List (Value Double)) = items.map scalarMeaning := by
  induction items with
  | nil => rfl
  | cons item items ih => rw [Items.ofScalars, itemsMeaning, ih, treeMeaning, List.map_cons]

theorem treeMeaning_ofScalars (before : Space) (items : List Scalar) :
    (treeMeaning (.ofScalars before items) : Value Double) =
      .array (items.map scalarMeaning) := by
  cases items with
  | nil => rfl
  | cons item items =>
    rw [Tree.ofScalars, treeMeaning, itemsMeaning_ofScalars, treeMeaning, List.map_cons]

theorem documents_strings (strings : List String) :
    Value.documents (strings.map fun s => (scalarMeaning (.string (quoted s)) : Value Double)) =
      some (strings.map .string) := by
  induction strings with
  | nil => rfl
  | cons s strings ih =>
    rw [List.map_cons, Value.documents, document_string, ih]
    rfl

theorem document_field (field : Field) :
    (treeMeaning field.tree : Value Double).document = some field.json := by
  cases field with
  | string value => exact document_string value
  | int value => exact document_int value
  | strings values =>
    rw [Field.tree, treeMeaning_ofScalars, List.map_map, Value.document]
    exact congrArg (Option.map _) (documents_strings values)

theorem membersMeaning_ofPairs (before close : Space) (pairs : List (String × Tree)) :
    (membersMeaning (.ofPairs before close pairs) : List (List UInt8 × Value Double)) =
      pairs.map fun pair => (utf8 pair.1, treeMeaning pair.2) := by
  induction pairs with
  | nil => rfl
  | cons pair pairs ih =>
    rw [Members.ofPairs, membersMeaning, ih, Key.ofString, content_quoted, List.map_cons]

theorem treeMeaning_ofPairs (before close : Space) (pairs : List (String × Tree)) :
    (treeMeaning (.ofPairs before close pairs) : Value Double) =
      .object (collect (pairs.map fun pair => (utf8 pair.1, treeMeaning pair.2))) := by
  cases pairs with
  | nil => rfl
  | cons pair pairs =>
    rw [Tree.ofPairs, treeMeaning, membersMeaning_ofPairs, Key.ofString, content_quoted,
      List.map_cons]

theorem memberDocuments_fields (fields : List (String × Field)) :
    Value.memberDocuments (fields.map fun field =>
        (utf8 field.1, (treeMeaning field.2.tree : Value Double))) =
      some (fields.map fun field => (field.1, field.2.json)) := by
  induction fields with
  | nil => rfl
  | cons field fields ih =>
    rw [List.map_cons, Value.memberDocuments, ih,
      Value.memberDocument_eq_some.mpr ⟨rfl, document_field field.2⟩]
    rfl

theorem document_configTree (config : Config) :
    (treeMeaning (configTree config) : Value Double).document =
      some (.object ((fields config).map fun field => (field.1, field.2.json))) := by
  have hkeys : ((fields config).map fun field => utf8 field.1).Nodup := by
    have hnames : ((fields config).map Prod.fst).Nodup := by
      change ["server_ip", "server_port_start", "server_port_end", "remote_server_ip",
        "remote_server_port", "log_directory", "max_connections_per_ip",
        "block_duration_minutes", "excluded_ips"].Nodup
      decide
    have hmap := hnames.map utf8_injective
    rwa [List.map_map] at hmap
  rw [configTree, treeMeaning_ofPairs, List.map_map, collect_of_nodup, Value.document]
  · exact congrArg (Option.map _) (memberDocuments_fields (fields config))
  · rw [List.map_map]
    exact hkeys

theorem finite_field (field : Field) : ∀ n ∈ field.tree.numbers, Finite Double n := by
  intro n hn
  cases field with
  | string value => cases hn
  | int value =>
    rw [show n = .ofInt value.toInt from List.mem_singleton.mp hn]
    exact finite_int value
  | strings values =>
    rw [Field.tree, Tree.numbers_ofScalars, List.flatMap_map] at hn
    obtain ⟨value, -, hn⟩ := List.mem_flatMap.mp hn
    cases hn

theorem holds_render (config : Config) (rest : List UInt8) :
    Parser.Holds Double (render config ++ rest) (configTree config) rest where
  text := .inl rfl
  finite := by
    intro n hn
    rw [configTree, Tree.numbers_ofPairs, List.flatMap_map] at hn
    obtain ⟨field, -, hn⟩ := List.mem_flatMap.mp hn
    exact finite_field field.2 n hn
  stops := trivial

end Documents

/-- Which files `loadConfig` makes which configuration of: one text of an object begins
the file, and each field is what the object has under its key. -/
theorem loadFile_ok_iff (Double : Type) [Strtod Double] (configPath : String) (bytes : List UInt8)
    (config : Config) :
    loadFile Double configPath (some bytes) = some (.ok config) ↔
      ∃ (t : Tree) (rest : List UInt8) (members : List (String × Json)),
        Parser.Holds Double bytes t rest ∧
        (treeMeaning t : Value Double).document = some (.object members) ∧
        Reads members config := by
  rw [loads_iff]
  constructor
  · rintro ⟨value, members, hparse, hdocument, hreads⟩
    obtain ⟨t, rest, hholds, rfl⟩ := Parser.holds_of_parse hparse
    exact ⟨t, rest, members, hholds, hdocument, hreads⟩
  · rintro ⟨t, rest, members, hholds, hdocument, hreads⟩
    exact ⟨_, members, hholds.parse, hdocument, hreads⟩

/-- A configuration that is written as config/config.json is laid out is read back,
whatever stands behind it in the file. -/
theorem written_config_is_read_back (Double : Type) [Strtod Double] (configPath : String)
    (config : Config) (rest : List UInt8) :
    loadFile Double configPath (some (render config ++ rest)) = some (.ok config) :=
  loads_iff.mpr ⟨_, _, (holds_render config rest).parse, document_configTree config,
    reads_fields config⟩

/-! Prefixes of a file -/

section Prefixes
variable [Strtod Double] {configPath : String} {bytes : List UInt8} {config : Config} {t : Tree}

theorem isObject_of_meaning {members : List (List UInt8 × Value Double)}
    (h : treeMeaning t = .object members) : t.isObject = true := by
  cases t with
  | leaf before scalar =>
    exfalso
    rw [treeMeaning] at h
    cases scalar with
    | number n =>
      rw [scalarMeaning, numberMeaning] at h
      split_ifs at h
    | null | boolean value | string pieces => cases h
  | emptyArray before inside | array before first rest => cases h
  | emptyObject before inside | object before key first rest => rfl

/-- The text of an object ends in its brace, and may be followed by anything. -/
theorem text_of_object (h : t.isObject = true) :
    (∃ front, t.text = front ++ [0x7D]) ∧ ∀ rest, t.StopsBefore rest := by
  cases t with
  | leaf before scalar | emptyArray before inside | array before first rest => cases h
  | emptyObject before inside =>
    exact ⟨⟨before.bytes ++ 0x7B :: inside.bytes, rfl⟩, fun _ => trivial⟩
  | object before key first rest =>
    obtain ⟨front, hfront⟩ := rest.exists_text
    refine ⟨⟨before.bytes ++ 0x7B :: (key.text ++ first.text ++ front), ?_⟩, fun _ => trivial⟩
    rw [Tree.text, hfront]
    simp only [List.append_assoc, List.cons_append]

/-- An object at the beginning of a file is parsed as soon as its last brace is there. -/
theorem parse_object {rest : List UInt8} (h : Parser.Holds Double bytes t rest)
    (hobject : t.isObject = true) :
    ∃ document, document <+: bytes ∧ document.getLast? = some 0x7D ∧
      ∀ rest, parse (document ++ rest) = .ok (treeMeaning t : Value Double) := by
  obtain ⟨htext, hfinite, -⟩ := h
  obtain ⟨⟨front, hfront⟩, hstops⟩ := text_of_object hobject
  have hlast : ∀ before : List UInt8, (before ++ t.text).getLast? = some 0x7D := by
    intro before
    rw [hfront, ← List.append_assoc, List.getLast?_concat]
  rcases htext with rfl | rfl
  · exact ⟨t.text, List.prefix_append _ _, hlast [],
      fun rest => Parser.Holds.parse ⟨.inl rfl, hfinite, hstops rest⟩⟩
  · refine ⟨Parser.byteOrderMark ++ t.text, ?_, hlast _, fun rest => ?_⟩
    · rw [← List.append_assoc]
      exact List.prefix_append _ _
    · exact Parser.Holds.parse ⟨.inr (List.append_assoc _ _ _), hfinite, hstops rest⟩

/-- The first `n` bytes of the file are parsed. -/
def ParsesUpTo (Double : Type) [Strtod Double] (bytes : List UInt8) (n : Nat) : Prop :=
  ∃ value : Value Double, parse (bytes.take n) = .ok value

/-- A file that is loaded has a document in it, and any beginning of the file that has
it too is loaded alike. Without the last brace of the document no beginning is parsed. -/
theorem cut_file_loads (h : loadFile Double configPath (some bytes) = some (.ok config)) :
    ∃ document, document <+: bytes ∧ document.getLast? = some 0x7D ∧
      ∀ p, p <+: bytes →
        (document <+: p → loadFile Double configPath (some p) = some (.ok config)) ∧
        (¬ document <+: p → ∃ e, (parse p : Except JsonException (Value Double)) = .error e) := by
  classical
  obtain ⟨value, members, hparse, hdocument, hreads⟩ := loads_iff.mp h
  obtain ⟨t, rest, hholds, rfl⟩ := Parser.holds_of_parse hparse
  obtain ⟨members', hmeaning⟩ := Value.object_of_document hdocument
  -- the shortest beginning that is parsed ends where its text does
  have hex : ∃ n, ParsesUpTo Double bytes n :=
    ⟨bytes.length, treeMeaning t, by rwa [List.take_length]⟩
  obtain ⟨value₁, hfirst⟩ := Nat.find_spec hex
  obtain ⟨t₁, rest₁, hholds₁, rfl⟩ := Parser.holds_of_parse hfirst
  have hobject : t₁.isObject = true := by
    rw [← hholds.isObject_congr hholds₁ (List.take_append_drop _ bytes).symm]
    exact isObject_of_meaning hmeaning
  obtain ⟨document, hbegin, hlast, hparses⟩ := parse_object hholds₁ hobject
  have hbegins : document <+: bytes := hbegin.trans (List.take_prefix _ _)
  have hsame : (treeMeaning t₁ : Value Double) = treeMeaning t := by
    obtain ⟨more, rfl⟩ := hbegins
    exact Except.ok.inj ((hparses more).symm.trans hparse)
  refine ⟨document, hbegins, hlast, fun p hp => ⟨fun hle => ?_, fun hnot => ?_⟩⟩
  · obtain ⟨rest, rfl⟩ := hle
    exact loads_iff.mpr ⟨_, members, hparses rest, hsame ▸ hdocument, hreads⟩
  · cases hp' : (parse p : Except JsonException (Value Double)) with
    | error e => exact ⟨e, rfl⟩
    | ok value' =>
      refine absurd (List.prefix_of_prefix_length_le hbegins hp ?_) hnot
      refine Nat.le_trans hbegin.length_le ?_
      rw [List.length_take]
      refine Nat.le_trans (Nat.min_le_left _ _) (Nat.find_min' hex ⟨value', ?_⟩)
      rwa [← List.prefix_iff_eq_take.mp hp]

end Prefixes

/-- The shipped file with a line behind it. -/
theorem cut_file_loads_shipped :
    ∃ document, document <+: render shippedConfig ++ [0x0A] ∧ document.getLast? = some 0x7D ∧
      ∀ p, p <+: render shippedConfig ++ [0x0A] →
        (document <+: p →
          @loadFile Int wholeNumbers "config.json" (some p) = some (.ok shippedConfig)) ∧
        (¬ document <+: p → ∃ e, @parse Int wholeNumbers p = .error e) :=
  letI := wholeNumbers
  cut_file_loads (loads_iff.mpr ⟨_, _, (holds_render shippedConfig [0x0A]).parse,
    document_configTree shippedConfig, reads_fields shippedConfig⟩)

end Qwin
