import Mathlib.Data.List.Basic

/-!
Values as nlohmann/json.hpp stores them, and `json_sax_dom_parser`, which builds one
from the events of a parse. Its pointers into the document are paths here.
-/

set_option autoImplicit false

namespace Qwin

/-- An object is a map: it holds no key twice. -/
inductive Value (Double : Type) where
  | null
  | boolean (value : Bool)
  | numberInteger (value : Int64)
  | numberUnsigned (value : UInt64)
  | numberFloat (value : Double)
  | string (value : List UInt8)
  | array (items : List (Value Double))
  | object (members : List (List UInt8 × Value Double))

section
variable {Double : Type}

/-- `operator[]` of the map, and the assignment to what it refers to. -/
def assign (key : List UInt8) (value : Value Double) :
    List (List UInt8 × Value Double) → List (List UInt8 × Value Double)
  | [] => [(key, value)]
  | member :: members =>
    if member.1 = key then (key, value) :: members else member :: assign key value members

theorem lookup_assign (key key' : List UInt8) (value : Value Double)
    (members : List (List UInt8 × Value Double)) :
    (assign key value members).lookup key' =
      if key' = key then some value else members.lookup key' := by
  have hlookup : ∀ (k : List UInt8) (v : Value Double) (members : List (List UInt8 × Value Double)),
      List.lookup key' ((k, v) :: members) = if key' = k then some v else members.lookup key' := by
    intro k v members
    rw [List.lookup_cons]
    by_cases h : key' = k
    · rw [if_pos h, h, beq_self_eq_true]
    · rw [if_neg h, beq_eq_false_iff_ne.mpr h]
  induction members with
  | nil => exact hlookup key value []
  | cons member members ih =>
    obtain ⟨k, v⟩ := member
    unfold assign
    split
    · rename_i hkey
      obtain rfl : k = key := hkey
      rw [hlookup, hlookup]
      by_cases h : key' = k
      · rw [if_pos h, if_pos h]
      · rw [if_neg h, if_neg h, if_neg h]
    · rename_i hkey
      rw [hlookup, hlookup, ih]
      by_cases h : key' = k
      · rw [if_pos h, if_pos h, if_neg (h ▸ hkey)]
      · rw [if_neg h, if_neg h]

end

/-- What the parser calls of a SAX handler. There is one method for each kind of value,
and `handle_value` for all of them in the handler that builds documents. -/
class Sax (Double : outParam Type) (S : Type) where
  constructed : S
  root : S → Value Double
  handleValue (v : Value Double) : S → S
  startObject : S → S
  key (val : List UInt8) : S → S
  endObject : S → S
  startArray : S → S
  endArray : S → S

inductive PathStep where
  | item (index : Nat)
  | member (key : List UInt8)
  deriving DecidableEq, Repr

/-- From the root on. -/
abbrev Path := List PathStep

namespace Value

variable {Double : Type}

def isObject : Value Double → Bool
  | .object _ => true
  | _ => false

def isArray : Value Double → Bool
  | .array _ => true
  | _ => false

/-- What a pointer points to. -/
def deref : Path → Value Double → Option (Value Double)
  | [], v => some v
  | .item index :: path, .array items => items[index]?.bind (deref path)
  | .member key :: path, .object members => (members.lookup key).bind (deref path)
  | _ :: _, _ => none

/-- An assignment through a pointer. -/
def store (new : Value Double) : Path → Value Double → Value Double
  | [], _ => new
  | .item index :: path, .array items => .array (items.modify index (store new path))
  | .member key :: path, .object members =>
    .object (assign key (store new path ((members.lookup key).getD .null)) members)
  | _ :: _, v => v

end Value

/-- The `operator[]` of the map alone: an absent key gets a null. -/
def insertNull {Double : Type} (key : List UInt8) (members : List (List UInt8 × Value Double)) :
    List (List UInt8 × Value Double) :=
  if (members.lookup key).isSome then members else members ++ [(key, .null)]

structure SaxDom (Double : Type) where
  root : Value Double
  /-- The innermost one first. -/
  refStack : List Path
  objectElement : Option Path
  /-- No `JSON_ASSERT` has failed. -/
  asserted : Bool

namespace SaxDom

variable {Double : Type}

def fail (dom : SaxDom Double) : SaxDom Double := { dom with asserted := false }

/-- What the innermost pointer points to. -/
def back (dom : SaxDom Double) : Option (Value Double) :=
  dom.refStack.head?.bind fun path => dom.root.deref path

/-- Also gives where the value is then. -/
def handleValueAt (v : Value Double) (dom : SaxDom Double) : Path × SaxDom Double :=
  match dom.refStack with
  | [] => ([], { dom with root := v })
  | path :: _ =>
    match dom.root.deref path with
    | some (.array items) =>
      (path ++ [.item items.length],
        { dom with root := Value.store (.array (items ++ [v])) path dom.root })
    | some (.object _) =>
      match dom.objectElement with
      | some element => (element, { dom with root := Value.store v element dom.root })
      | none => ([], dom.fail)
    | _ => ([], dom.fail)

def handleValue (v : Value Double) (dom : SaxDom Double) : SaxDom Double := (handleValueAt v dom).2

/-- `start_object` and `start_array`. -/
def start (v : Value Double) (dom : SaxDom Double) : SaxDom Double :=
  let (path, dom) := handleValueAt v dom
  { dom with refStack := path :: dom.refStack }

def startObject (dom : SaxDom Double) : SaxDom Double := start (.object []) dom

def startArray (dom : SaxDom Double) : SaxDom Double := start (.array []) dom

def key (val : List UInt8) (dom : SaxDom Double) : SaxDom Double :=
  match dom.refStack with
  | [] => dom.fail
  | path :: _ =>
    match dom.root.deref path with
    | some (.object members) =>
      { dom with
        root := Value.store (.object (insertNull val members)) path dom.root
        objectElement := some (path ++ [.member val]) }
    | _ => dom.fail

/-- `end_object` and `end_array`, which assert what they close. -/
def close (expected : Value Double → Bool) (dom : SaxDom Double) : SaxDom Double :=
  { dom with
    refStack := dom.refStack.tail
    asserted := dom.asserted && dom.back.any expected }

def endObject (dom : SaxDom Double) : SaxDom Double := close Value.isObject dom

def endArray (dom : SaxDom Double) : SaxDom Double := close Value.isArray dom

end SaxDom

instance (Double : Type) : Sax Double (SaxDom Double) where
  constructed := ⟨.null, [], none, true⟩
  root := SaxDom.root
  handleValue := SaxDom.handleValue
  startObject := SaxDom.startObject
  key := SaxDom.key
  endObject := SaxDom.endObject
  startArray := SaxDom.startArray
  endArray := SaxDom.endArray

end Qwin
