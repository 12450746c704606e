import Mathlib.Data.List.Basic

/-!
What `loadConfig` uses of nlohmann/json.hpp: values as the parser stores them,
`operator[]`, and the conversions to `std::string` and `int`. No number of a
document is out of the 64-bit ranges, so none is stored as a floating point one.
-/

set_option autoImplicit false

namespace Qwin

/-- The parser takes `numberUnsigned` for a number without a sign. An object is a
map: only the first member under a key counts. -/
inductive Json where
  | null
  | boolean (value : Bool)
  | numberInteger (value : Int64)
  | numberUnsigned (value : UInt64)
  | string (value : String)
  | array (items : List Json)
  | object (members : List (String × Json))

inductive LoadException where
  | runtimeError (what : String)
  | parseError (what : String)
  | typeError (id : Nat) (what : String)
  deriving DecidableEq, Repr

def typeError (id : Nat) (what : String) : LoadException :=
  .typeError id ("[json.exception.type_error." ++ toString id ++ "] " ++ what)

def Json.typeName : Json → String
  | .null => "null"
  | .object _ => "object"
  | .array _ => "array"
  | .string _ => "string"
  | .boolean _ => "boolean"
  | .numberInteger _ | .numberUnsigned _ => "number"

def Json.isArray : Json → Bool
  | .array _ => true
  | _ => false

def Json.contains (key : String) : Json → Bool
  | .object members => (members.lookup key).isSome
  | _ => false

/-- `operator[]` on a value that is not const: an absent key is inserted with a
null, and a null becomes an object first. -/
def Json.subscript (key : String) : StateT Json (Except LoadException) Json
  | .null => .ok (.null, .object [(key, .null)])
  | .object members =>
    match members.lookup key with
    | some value => .ok (value, .object members)
    | none => .ok (.null, .object (members ++ [(key, .null)]))
  | j =>
    .error (typeError 305 ("cannot use operator[] with a string argument with " ++ j.typeName))

def Json.getString : Json → Except LoadException String
  | .string value => .ok value
  | j => .error (typeError 302 ("type must be string, but is " ++ j.typeName))

/-- `static_cast<int>` of what is stored, for numbers and for booleans. -/
def Json.getInt : Json → Except LoadException Int32
  | .numberUnsigned value => .ok (.ofNat value.toNat)
  | .numberInteger value => .ok value.toInt32
  | .boolean value => .ok (if value then 1 else 0)
  | j => .error (typeError 302 ("type must be number, but is " ++ j.typeName))

/-- The value that a number of the document stands for. -/
def Json.number : Json → Option Int
  | .numberInteger value => some value.toInt
  | .numberUnsigned value => some value.toNat
  | _ => none

/-- What a conversion to `int` is given: for a boolean, one or zero. -/
def Json.arithmetic : Json → Option Int
  | .boolean value => some (if value then 1 else 0)
  | j => j.number

theorem getString_eq_ok {j : Json} {s : String} : j.getString = .ok s ↔ j = .string s := by
  cases j <;> simp [Json.getString]

theorem getInt_eq_ok {j : Json} {n : Int32} :
    j.getInt = .ok n ↔ ∃ z, j.arithmetic = some z ∧ n = .ofInt z := by
  cases j with
  | numberUnsigned value =>
    simp [Json.getInt, Json.arithmetic, Json.number, Int32.ofInt_eq_ofNat, eq_comm]
  | numberInteger value => simp [Json.getInt, Json.arithmetic, Json.number, eq_comm]
  | boolean value => cases value <;> simp [Json.getInt, Json.arithmetic, eq_comm]
  | _ => simp [Json.getInt, Json.arithmetic, Json.number]

theorem arithmetic_of_number {j : Json} {z : Int} (h : j.number = some z) :
    j.arithmetic = some z := by
  cases j with
  | boolean value => cases h
  | _ => exact h

end Qwin
