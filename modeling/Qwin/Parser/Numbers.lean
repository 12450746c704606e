import Qwin.Library.Decimal
import Qwin.Library.Loop
import Qwin.Parser.Lexer

/-!
`scan_number` of nlohmann/json.hpp: one function for each label of its state machine.
The cycles of the machine are all over digits.
-/

set_option autoImplicit false

namespace Qwin

open Decimals Loops

/-- What the lexer takes of the C library to make a double of a text. -/
class Strtod (Double : Type) where
  strtod : List UInt8 → Double
  isfinite : Double → Bool

/-- `strtod` of the texts of whole numbers. -/
abbrev wholeNumbers : Strtod Int where
  strtod text := (readDecimal text).getD 0
  isfinite _ := true

/-- A number out of range (ERANGE) is `none`. -/
def strtoull (text : List UInt8) : Option UInt64 :=
  ((readDigits text).filter fun n => n ≤ 18446744073709551615).map UInt64.ofNat

def strtoll (text : List UInt8) : Option Int64 :=
  ((readDecimal text).filter fun z =>
    -9223372036854775808 ≤ z && z ≤ 9223372036854775807).map Int64.ofInt

namespace Lexer

variable {Double : Type}

/-- The cycle of a state: at its end, the current byte is the one after the digits. -/
def digitsLoop : Loop (Lexer Double) (Lexer Double) where
  turn l :=
    match l.get.current.filter isDigit with
    | some c => .next (l.get.add c)
    | none => .done l.get
  measure l := l.rest.length
  decreases {l l'} h := by
    split at h
    · rename_i c hc
      obtain ⟨hcurrent, -⟩ := Option.filter_eq_some_iff.mp hc
      obtain rfl := Turn.next.inj h
      exact (moves_add c l.get).rest_lt hcurrent
    · cases h

theorem digitsLoop_get (l : Lexer Double) :
    ∃ l₀, Moves l l₀ ∧ digitsLoop.run l = l₀.get := by
  refine digitsLoop.invariant (P := Moves l) (Q := fun r => ∃ l₀, Moves l l₀ ∧ r = l₀.get)
    ?_ ?_ (Moves.refl l)
  · intro l₁ l₂ hl hturn
    dsimp only [digitsLoop] at hturn
    split at hturn
    · obtain rfl := Turn.next.inj hturn
      exact hl.get.trans (moves_add _ _)
    · cases hturn
  · intro l₁ r hl hturn
    dsimp only [digitsLoop] at hturn
    split at hturn
    · cases hturn
    · exact ⟨l₁, hl, (Turn.done.inj hturn).symm⟩

section
variable [Strtod Double]

def scanNumberFloat (l : Lexer Double) : TokenType × Lexer Double :=
  (.valueFloat, { l with valueFloat := Strtod.strtod l.tokenBuffer })

def scanNumberDone (numberType : TokenType) (l : Lexer Double) : TokenType × Lexer Double :=
  let l := l.unget
  match numberType with
  | .valueUnsigned =>
    match strtoull l.tokenBuffer with
    | some x => (.valueUnsigned, { l with valueUnsigned := x })
    | none => scanNumberFloat l
  | .valueInteger =>
    match strtoll l.tokenBuffer with
    | some x => (.valueInteger, { l with valueInteger := x })
    | none => scanNumberFloat l
  | _ => scanNumberFloat l

def scanNumberAny2 (l : Lexer Double) : TokenType × Lexer Double :=
  scanNumberDone .valueFloat (digitsLoop.run l)

def scanNumberSign (l : Lexer Double) : TokenType × Lexer Double :=
  match l.get.current.filter isDigit with
  | some c => scanNumberAny2 (l.get.add c)
  | none => l.get.fail "invalid number; expected digit after exponent sign"

def scanNumberExponent (l : Lexer Double) : TokenType × Lexer Double :=
  match l.get.current.filter fun c => c == 0x2B || c == 0x2D || isDigit c with
  | some c =>
    if isDigit c then scanNumberAny2 (l.get.add c) else scanNumberSign (l.get.add c)
  | none => l.get.fail "invalid number; expected '+', '-', or digit after exponent"

/-- The cases of the states that an exponent may follow, the current byte not
being one of the state's own. -/
def exponentOrDone (numberType : TokenType) (l : Lexer Double) : TokenType × Lexer Double :=
  match l.current.filter fun c => c == 0x65 || c == 0x45 with
  | some c => scanNumberExponent (l.add c)
  | none => scanNumberDone numberType l

def scanNumberDecimal2 (l : Lexer Double) : TokenType × Lexer Double :=
  exponentOrDone .valueFloat (digitsLoop.run l)

def scanNumberDecimal1 (l : Lexer Double) : TokenType × Lexer Double :=
  match l.get.current.filter isDigit with
  | some c => scanNumberDecimal2 (l.get.add c)
  | none => l.get.fail "invalid number; expected digit after '.'"

/-- What the states of the integer part have in common. -/
def decimalOrDone (numberType : TokenType) (l : Lexer Double) : TokenType × Lexer Double :=
  if l.current = some 0x2E then scanNumberDecimal1 (l.add 0x2E)
  else exponentOrDone numberType l

def scanNumberAny1 (numberType : TokenType) (l : Lexer Double) : TokenType × Lexer Double :=
  decimalOrDone numberType (digitsLoop.run l)

def scanNumberZero (numberType : TokenType) (l : Lexer Double) : TokenType × Lexer Double :=
  decimalOrDone numberType l.get

/-- A digit as the first one of the integer part. -/
def firstDigit (numberType : TokenType) (c : UInt8) (l : Lexer Double) :
    TokenType × Lexer Double :=
  if c = 0x30 then scanNumberZero numberType (l.add c) else scanNumberAny1 numberType (l.add c)

def scanNumberMinus (l : Lexer Double) : TokenType × Lexer Double :=
  match l.get.current.filter isDigit with
  | some c => firstDigit .valueInteger c l.get
  | none => l.get.fail "invalid number; expected digit after '-'"

/-- The current byte is `c`, a minus sign or a digit. -/
def scanNumber (c : UInt8) (l : Lexer Double) : TokenType × Lexer Double :=
  if c = 0x2D then scanNumberMinus (l.reset.add c) else firstDigit .valueUnsigned c l.reset

section Moves

/-- The byte that was only looked at is read again. -/
theorem moves_scanNumberDone (numberType : TokenType) (l : Lexer Double) :
    Moves l (scanNumberDone numberType l.get).2 := by
  unfold scanNumberDone
  dsimp only
  split
  · split
    · exact (Moves.refl l).look.keep rfl rfl
    · exact (Moves.refl l).look.keep rfl rfl
  · split
    · exact (Moves.refl l).look.keep rfl rfl
    · exact (Moves.refl l).look.keep rfl rfl
  · exact (Moves.refl l).look.keep rfl rfl

theorem moves_scanNumberAny2 (l : Lexer Double) : Moves l (scanNumberAny2 l).2 := by
  obtain ⟨l₀, hl, hdigits⟩ := digitsLoop_get l
  unfold scanNumberAny2
  rw [hdigits]
  exact hl.trans (moves_scanNumberDone _ _)

theorem moves_scanNumberSign (l : Lexer Double) : Moves l (scanNumberSign l).2 := by
  unfold scanNumberSign
  split
  · exact (moves_get l).trans ((moves_add _ _).trans (moves_scanNumberAny2 _))
  · exact (moves_get l).trans (moves_fail (by decide) _)

theorem moves_scanNumberExponent (l : Lexer Double) : Moves l (scanNumberExponent l).2 := by
  unfold scanNumberExponent
  split
  · split
    · exact (moves_get l).trans ((moves_add _ _).trans (moves_scanNumberAny2 _))
    · exact (moves_get l).trans ((moves_add _ _).trans (moves_scanNumberSign _))
  · exact (moves_get l).trans (moves_fail (by decide) _)

theorem moves_exponentOrDone (numberType : TokenType) (l : Lexer Double) :
    Moves l (exponentOrDone numberType l.get).2 := by
  unfold exponentOrDone
  split
  · exact (moves_get l).trans ((moves_add _ _).trans (moves_scanNumberExponent _))
  · exact moves_scanNumberDone _ _

theorem moves_scanNumberDecimal1 (l : Lexer Double) : Moves l (scanNumberDecimal1 l).2 := by
  unfold scanNumberDecimal1
  split
  · rename_i c hc
    obtain ⟨l₀, hl, hdigits⟩ := digitsLoop_get (l.get.add c)
    unfold scanNumberDecimal2
    rw [hdigits]
    exact ((moves_get l).trans (moves_add _ _)).trans (hl.trans (moves_exponentOrDone _ _))
  · exact (moves_get l).trans (moves_fail (by decide) _)

theorem moves_decimalOrDone (numberType : TokenType) (l : Lexer Double) :
    Moves l (decimalOrDone numberType l.get).2 := by
  unfold decimalOrDone
  split
  · exact (moves_get l).trans ((moves_add _ _).trans (moves_scanNumberDecimal1 _))
  · exact moves_exponentOrDone _ _

theorem moves_firstDigit (numberType : TokenType) (c : UInt8) (l : Lexer Double) :
    Moves l (firstDigit numberType c l).2 := by
  unfold firstDigit
  split
  · exact (moves_add c l).trans (moves_decimalOrDone _ _)
  · obtain ⟨l₀, hl, hdigits⟩ := digitsLoop_get (l.add c)
    unfold scanNumberAny1
    rw [hdigits]
    exact (moves_add c l).trans (hl.trans (moves_decimalOrDone _ _))

theorem moves_scanNumber (c : UInt8) (l : Lexer Double) : Moves l (scanNumber c l).2 := by
  have hreset : Moves l l.reset := (Moves.refl l).keep rfl rfl
  unfold scanNumber
  split
  · unfold scanNumberMinus
    split
    · exact (hreset.trans (moves_add _ _)).get.trans (moves_firstDigit _ _ _)
    · exact (hreset.trans (moves_add _ _)).get.trans (moves_fail (by decide) _)
  · exact hreset.trans (moves_firstDigit _ _ _)

end Moves

end

end Lexer

end Qwin
