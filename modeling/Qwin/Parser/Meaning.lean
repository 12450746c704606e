import Qwin.Library.JsonText
import Qwin.Parser.Document
import Qwin.Parser.Numbers

/-!
What JSON texts mean as values of nlohmann/json.hpp.
-/

set_option autoImplicit false

namespace Qwin

open JsonText

variable {Double : Type}

section
variable [Strtod Double]

/-- The value of a number: an integer where it fits in 64 bits, with a sign only where
there is a minus sign, and else a double. -/
def numberMeaning (n : Number) : Value Double :=
  if n.fraction.isNone && n.exponent.isNone then
    if n.minus then
      if -9223372036854775808 ≤ n.integer then .numberInteger (.ofInt n.integer)
      else .numberFloat (Strtod.strtod n.text)
    else if n.integer ≤ 18446744073709551615 then .numberUnsigned (.ofNat n.integer.toNat)
    else .numberFloat (Strtod.strtod n.text)
  else .numberFloat (Strtod.strtod n.text)

def scalarMeaning : Scalar → Value Double
  | .null => .null
  | .boolean value => .boolean value
  | .string pieces => .string (content pieces)
  | .number n => numberMeaning n

/-- The members in the order of the text. -/
def collect (pairs : List (List UInt8 × Value Double)) : List (List UInt8 × Value Double) :=
  pairs.foldl (fun members pair => assign pair.1 pair.2 members) []

mutual

def treeMeaning : Tree → Value Double
  | .leaf _ scalar => scalarMeaning scalar
  | .emptyArray _ _ => .array []
  | .array _ first rest => .array (treeMeaning first :: itemsMeaning rest)
  | .emptyObject _ _ => .object []
  | .object _ key first rest =>
    .object (collect ((content key.pieces, treeMeaning first) :: membersMeaning rest))

def itemsMeaning : Items → List (Value Double)
  | .close _ => []
  | .comma _ item rest => treeMeaning item :: itemsMeaning rest

def membersMeaning : Members → List (List UInt8 × Value Double)
  | .close _ => []
  | .comma _ key value rest => (content key.pieces, treeMeaning value) :: membersMeaning rest

end

/-- No double that a number stands for is infinite. -/
def Finite (Double : Type) [Strtod Double] (n : Number) : Prop :=
  ∀ d : Double, numberMeaning n = .numberFloat d → Strtod.isfinite d = true

end

namespace Lexer

/-- What the parser takes of the lexer for a token that is a value of its own. -/
def scalar (t : TokenType) (l : Lexer Double) : Option (Value Double) :=
  match t with
  | .literalTrue => some (.boolean true)
  | .literalFalse => some (.boolean false)
  | .literalNull => some .null
  | .valueString => some (.string l.tokenBuffer)
  | .valueUnsigned => some (.numberUnsigned l.valueUnsigned)
  | .valueInteger => some (.numberInteger l.valueInteger)
  | .valueFloat => some (.numberFloat l.valueFloat)
  | _ => none

/-- The value was scanned, and `text` is left. -/
structure Scanned (r : TokenType × Lexer Double) (v : Value Double) (text : List UInt8) : Prop where
  scalar : scalar r.1 r.2 = some v
  rest : r.2.At text

end Lexer

end Qwin
