import Qwin.Library.Decimal
import Qwin.Library.Utf8

/-!
JSON texts in UTF-8 as syntax trees (RFC 8259): every tree keeps the text it was
written as, white space and escapes included.
-/

set_option autoImplicit false

namespace JsonText

open Decimals

structure HexDigit where
  upper : Bool
  value : Fin 16

def HexDigit.byte (d : HexDigit) : UInt8 :=
  .ofNat (d.value + if d.value.val < 10 then 0x30 else if d.upper then 0x37 else 0x57)

structure Hex4 where
  first : HexDigit
  second : HexDigit
  third : HexDigit
  fourth : HexDigit

def Hex4.value (h : Hex4) : Nat :=
  h.first.value * 4096 + h.second.value * 256 + h.third.value * 16 + h.fourth.value

theorem Hex4.value_lt (hex : Hex4) : hex.value < 0x10000 := by
  have h1 := hex.first.value.isLt
  have h2 := hex.second.value.isLt
  have h3 := hex.third.value.isLt
  have h4 := hex.fourth.value.isLt
  unfold Hex4.value
  omega

def Hex4.text (h : Hex4) : List UInt8 :=
  [h.first.byte, h.second.byte, h.third.byte, h.fourth.byte]

inductive Escape where
  | quotationMark
  | reverseSolidus
  | solidus
  | backspace
  | formFeed
  | lineFeed
  | carriageReturn
  | tab
  deriving DecidableEq, Repr

def Escape.letter : Escape → UInt8
  | .quotationMark => 0x22
  | .reverseSolidus => 0x5C
  | .solidus => 0x2F
  | .backspace => 0x62
  | .formFeed => 0x66
  | .lineFeed => 0x6E
  | .carriageReturn => 0x72
  | .tab => 0x74

def Escape.code : Escape → Nat
  | .quotationMark => 0x22
  | .reverseSolidus => 0x5C
  | .solidus => 0x2F
  | .backspace => 0x08
  | .formFeed => 0x0C
  | .lineFeed => 0x0A
  | .carriageReturn => 0x0D
  | .tab => 0x09

def Plain (c : Char) : Prop := 0x20 ≤ c.toNat ∧ c.toNat ≠ 0x22 ∧ c.toNat ≠ 0x5C

/-- One character of a string, in one of the ways to write it. The grammar of RFC 8259 has
escapes of single surrogates as well, which stand for no character and are left out. -/
inductive Piece where
  | plain (c : Char) (h : Plain c)
  | escape (e : Escape)
  | unicode (hex : Hex4) (h : hex.value.isValidChar)
  | surrogates (high low : Hex4) (hhigh : 0xD800 ≤ high.value ∧ high.value ≤ 0xDBFF)
      (hlow : 0xDC00 ≤ low.value ∧ low.value ≤ 0xDFFF)

def Piece.char : Piece → Char
  | .plain c _ => c
  | .escape e => .ofNat e.code
  | .unicode hex _ => .ofNat hex.value
  | .surrogates high low _ _ =>
    .ofNat (0x10000 + (high.value - 0xD800) * 0x400 + (low.value - 0xDC00))

def Piece.text : Piece → List UInt8
  | .plain c _ => String.utf8EncodeChar c
  | .escape e => [0x5C, e.letter]
  | .unicode hex _ => 0x5C :: 0x75 :: hex.text
  | .surrogates high low _ _ => 0x5C :: 0x75 :: (high.text ++ 0x5C :: 0x75 :: low.text)

/-- The bytes of the characters. -/
def content (pieces : List Piece) : List UInt8 :=
  pieces.flatMap fun piece => String.utf8EncodeChar piece.char

/-- After the opening quotation mark. -/
def bodyText (pieces : List Piece) : List UInt8 := pieces.flatMap Piece.text ++ [0x22]

structure Digits where
  bytes : List UInt8
  ne_nil : bytes ≠ []
  digits : ∀ b ∈ bytes, isDigit b = true

structure Exponent where
  letter : UInt8
  isLetter : letter = 0x65 ∨ letter = 0x45
  sign : Option UInt8
  isSign : ∀ b ∈ sign, b = 0x2B ∨ b = 0x2D
  digits : Digits

structure Number where
  minus : Bool
  int : Digits
  noLeadingZero : int.bytes.head? = some 0x30 → int.bytes = [0x30]
  fraction : Option Digits
  exponent : Option Exponent

def Exponent.text (e : Exponent) : List UInt8 := e.letter :: (e.sign.toList ++ e.digits.bytes)

def fractionText : Option Digits → List UInt8
  | none => []
  | some digits => 0x2E :: digits.bytes

def exponentText : Option Exponent → List UInt8
  | none => []
  | some exponent => exponent.text

def Number.text (n : Number) : List UInt8 :=
  (if n.minus then [0x2D] else []) ++ n.int.bytes ++ fractionText n.fraction ++
    exponentText n.exponent

/-- The integer that a number without fraction and exponent is. -/
def Number.integer (n : Number) : Int :=
  let magnitude : Nat := n.int.bytes.foldl (fun m b => 10 * m + (b.toNat - 48)) 0
  if n.minus then -magnitude else magnitude

/-- The byte `b` after the number is not one more byte of it. -/
def Number.StopsAt (n : Number) (b : UInt8) : Prop :=
  (isDigit b = true → n.int.bytes = [0x30] ∧ n.fraction.isNone ∧ n.exponent.isNone) ∧
    (b = 0x2E → n.fraction.isSome ∨ n.exponent.isSome) ∧
    (b = 0x65 ∨ b = 0x45 → n.exponent.isSome)

def isSpace (b : UInt8) : Bool := b == 0x20 || b == 0x09 || b == 0x0A || b == 0x0D

structure Space where
  bytes : List UInt8
  spaces : ∀ b ∈ bytes, isSpace b = true

inductive Scalar where
  | null
  | boolean (value : Bool)
  | string (pieces : List Piece)
  | number (n : Number)

def Scalar.text : Scalar → List UInt8
  | .null => [0x6E, 0x75, 0x6C, 0x6C]
  | .boolean true => [0x74, 0x72, 0x75, 0x65]
  | .boolean false => [0x66, 0x61, 0x6C, 0x73, 0x65]
  | .string pieces => 0x22 :: bodyText pieces
  | .number n => n.text

/-- A key and the colon after it. -/
structure Key where
  before : Space
  pieces : List Piece
  after : Space

def Key.text (key : Key) : List UInt8 :=
  key.before.bytes ++ 0x22 :: bodyText key.pieces ++ key.after.bytes ++ [0x3A]

mutual

/-- A value and the space before it. -/
inductive Tree where
  | leaf (before : Space) (scalar : Scalar)
  | emptyArray (before inside : Space)
  | array (before : Space) (first : Tree) (rest : Items)
  | emptyObject (before inside : Space)
  | object (before : Space) (key : Key) (first : Tree) (rest : Members)

/-- What stands after an item of an array. -/
inductive Items where
  | close (before : Space)
  | comma (before : Space) (item : Tree) (rest : Items)

/-- What stands after a member of an object. -/
inductive Members where
  | close (before : Space)
  | comma (before : Space) (key : Key) (value : Tree) (rest : Members)

end

mutual

def Tree.text : Tree → List UInt8
  | .leaf before scalar => before.bytes ++ scalar.text
  | .emptyArray before inside => before.bytes ++ 0x5B :: inside.bytes ++ [0x5D]
  | .array before first rest => before.bytes ++ 0x5B :: (first.text ++ rest.text)
  | .emptyObject before inside => before.bytes ++ 0x7B :: inside.bytes ++ [0x7D]
  | .object before key first rest =>
    before.bytes ++ 0x7B :: (key.text ++ first.text ++ rest.text)

def Items.text : Items → List UInt8
  | .close before => before.bytes ++ [0x5D]
  | .comma before item rest => before.bytes ++ 0x2C :: (item.text ++ rest.text)

def Members.text : Members → List UInt8
  | .close before => before.bytes ++ [0x7D]
  | .comma before key value rest =>
    before.bytes ++ 0x2C :: (key.text ++ value.text ++ rest.text)

end

theorem Members.exists_text : (members : Members) → ∃ front, members.text = front ++ [0x7D]
  | .close before => ⟨before.bytes, rfl⟩
  | .comma before key value rest => by
    obtain ⟨front, hfront⟩ := rest.exists_text
    refine ⟨before.bytes ++ 0x2C :: (key.text ++ value.text ++ front), ?_⟩
    rw [Members.text, hfront]
    simp only [List.append_assoc, List.cons_append]

mutual

def Tree.numbers : Tree → List Number
  | .leaf _ (.number n) => [n]
  | .leaf _ _ | .emptyArray _ _ | .emptyObject _ _ => []
  | .array _ first rest => first.numbers ++ rest.numbers
  | .object _ _ first rest => first.numbers ++ rest.numbers

def Items.numbers : Items → List Number
  | .close _ => []
  | .comma _ item rest => item.numbers ++ rest.numbers

def Members.numbers : Members → List Number
  | .close _ => []
  | .comma _ _ value rest => value.numbers ++ rest.numbers

end

def Tree.isObject : Tree → Bool
  | .emptyObject _ _ | .object _ _ _ _ => true
  | _ => false

def Scalar.StopsAt : Scalar → UInt8 → Prop
  | .number n, b => n.StopsAt b
  | _, _ => True

/-- Only a number may go on with what is written after it. -/
def Tree.StopsBefore : Tree → List UInt8 → Prop
  | .leaf _ scalar, rest => ∀ b, rest.head? = some b → scalar.StopsAt b
  | _, _ => True

end JsonText
