import Qwin.Parser.Document

/-!
What `json_sax_dom_parser` does, without pointers: the arrays and objects that are not
closed yet are a stack of their own, and the rest of the document is complete.
-/

set_option autoImplicit false

namespace Qwin

/-- An array or object that is not closed yet. It enters the one below it when it is
closed. The element of an object is the member that its next value is for. -/
inductive Frame (Double : Type) where
  | array (items : List (Value Double))
  | object (members : List (List UInt8 × Value Double)) (objectElement : Option (List UInt8))

structure Dom (Double : Type) where
  root : Value Double
  refStack : List (Frame Double)

namespace Dom

variable {Double : Type}

def handleValue (v : Value Double) (dom : Dom Double) : Dom Double :=
  match dom.refStack with
  | [] => { dom with root := v }
  | .array items :: refStack => { dom with refStack := .array (items ++ [v]) :: refStack }
  | .object members (some key) :: refStack =>
    { dom with refStack := .object (assign key v members) (some key) :: refStack }
  | .object _ none :: _ => dom

def startObject (dom : Dom Double) : Dom Double :=
  { dom with refStack := .object [] none :: dom.refStack }

def key (val : List UInt8) (dom : Dom Double) : Dom Double :=
  match dom.refStack with
  | .object members _ :: refStack => { dom with refStack := .object members (some val) :: refStack }
  | _ => dom

def endObject (dom : Dom Double) : Dom Double :=
  match dom.refStack with
  | .object members _ :: refStack => handleValue (.object members) { dom with refStack := refStack }
  | _ => dom

def startArray (dom : Dom Double) : Dom Double :=
  { dom with refStack := .array [] :: dom.refStack }

def endArray (dom : Dom Double) : Dom Double :=
  match dom.refStack with
  | .array items :: refStack => handleValue (.array items) { dom with refStack := refStack }
  | _ => dom

end Dom

variable {Double : Type}

/-- The two stacks of the parser agree. Outside of keys, every open object has a
member to assign to. -/
inductive Agree : List Bool → List (Frame Double) → Prop where
  | nil : Agree [] []
  | array {states : List Bool} {stack : List (Frame Double)} (items : List (Value Double))
      (h : Agree states stack) : Agree (true :: states) (.array items :: stack)
  | object {states : List Bool} {stack : List (Frame Double)}
      (members : List (List UInt8 × Value Double)) (key : List UInt8) (h : Agree states stack) :
      Agree (false :: states) (.object members (some key) :: stack)

theorem Agree.handleValue {states : List Bool} (sax : Dom Double) (v : Value Double)
    (h : Agree states sax.refStack) : Agree states (sax.handleValue v).refStack := by
  obtain ⟨root, stack⟩ := sax
  cases h with
  | nil => exact .nil
  | array items h => exact .array _ h
  | object members key h => exact .object _ key h

instance (Double : Type) : Sax Double (Dom Double) where
  constructed := ⟨.null, []⟩
  root := Dom.root
  handleValue := Dom.handleValue
  startObject := Dom.startObject
  key := Dom.key
  endObject := Dom.endObject
  startArray := Dom.startArray
  endArray := Dom.endArray

end Qwin
