import Qwin.Parser.Document
import Qwin.Parser.Tokens

/-!
`parser` of nlohmann/json.hpp, as `operator>>` uses it: with exceptions, without a
callback, and not strict, so that what stands after the first value is not read.
-/

set_option autoImplicit false

namespace Qwin

open Decimals Loops

/-- Texts are byte strings here, since they quote the input. -/
inductive JsonException where
  | parseError (id : Nat) (byte : Nat) (what : List UInt8)
  | outOfRange (id : Nat) (what : List UInt8)
  deriving DecidableEq, Repr

def ascii (text : String) : List UInt8 := text.toList.map fun c => .ofNat c.toNat

def exceptionName (ename : String) (id : Nat) : List UInt8 :=
  ascii "[json.exception." ++ ascii ename ++ ascii "." ++ natDecimal id ++ ascii "] "

def positionString (pos : Position) : List UInt8 :=
  ascii " at line " ++ natDecimal (pos.linesRead + 1) ++ ascii ", column " ++
    natDecimal pos.charsReadCurrentLine

/-- `parse_error::create`. -/
def parseError (id : Nat) (pos : Position) (whatArg : List UInt8) : JsonException :=
  .parseError id pos.charsReadTotal
    (exceptionName "parse_error" id ++ ascii "parse error" ++ positionString pos ++ ascii ": " ++
      whatArg)

/-- `out_of_range::create`. -/
def outOfRange (id : Nat) (whatArg : List UInt8) : JsonException :=
  .outOfRange id (exceptionName "out_of_range" id ++ whatArg)

/-- Control characters are escaped. -/
def Lexer.getTokenString {Double : Type} (l : Lexer Double) : List UInt8 :=
  l.tokenString.flatMap fun c =>
    if c ≤ 0x1F then ascii "<U+" ++ ascii (hex4 c) ++ ascii ">" else [c]

structure Parser (Double S : Type) where
  lexer : Lexer Double
  lastToken : TokenType
  sax : S
  /-- The innermost one first; true for an array. -/
  states : List Bool
  skipToStateEvaluation : Bool

namespace Parser

variable {Double S : Type} [Strtod Double] [Sax Double S]

omit [Strtod Double] [Sax Double S] in
def withSax (sax : S) (p : Parser Double S) : Parser Double S := { p with sax := sax }

def getToken (p : Parser Double S) : Parser Double S :=
  { p with lastToken := p.lexer.scan.1, lexer := p.lexer.scan.2 }

omit [Strtod Double] [Sax Double S] in
def exceptionMessage (p : Parser Double S) (expected : TokenType) (context : String) : List UInt8 :=
  ascii "syntax error " ++ ascii "while parsing " ++ ascii context ++ ascii " " ++ ascii "- " ++
    (if p.lastToken = .parseError then
      ascii p.lexer.errorMessage ++ ascii "; last read: '" ++ p.lexer.getTokenString ++ ascii "'"
    else ascii "unexpected " ++ ascii p.lastToken.name) ++
    if expected = .uninitialized then [] else ascii "; expected " ++ ascii expected.name

abbrev ParserTurn (Double S : Type) :=
  Turn (Parser Double S) (Except JsonException (Value Double))

def unexpected (p : Parser Double S) (expected : TokenType) (context : String) :
    ParserTurn Double S :=
  .done (.error (parseError 101 p.lexer.position (p.exceptionMessage expected context)))

/-- From the token that should be a key to the one that begins its value. -/
def parseKey (states : List Bool) (p : Parser Double S) : ParserTurn Double S :=
  if p.lastToken = .valueString then
    let p := (p.withSax (Sax.key p.lexer.tokenBuffer p.sax)).getToken
    if p.lastToken = .nameSeparator then .next { p.getToken with states := states }
    else p.unexpected .nameSeparator "object separator"
  else p.unexpected .valueString "object key"

/-- After a value. -/
def evaluateState (p : Parser Double S) : ParserTurn Double S :=
  match p.states with
  | [] => .done (.ok (Sax.root p.sax))
  | true :: states =>
    let p := p.getToken
    if p.lastToken = .valueSeparator then .next p.getToken
    else if p.lastToken = .endArray then
      .next { p with sax := Sax.endArray p.sax, states := states, skipToStateEvaluation := true }
    else p.unexpected .endArray "array"
  | false :: states =>
    let p := p.getToken
    if p.lastToken = .valueSeparator then parseKey p.states p.getToken
    else if p.lastToken = .endObject then
      .next { p with sax := Sax.endObject p.sax, states := states, skipToStateEvaluation := true }
    else p.unexpected .endObject "object"

def handle (v : Value Double) (p : Parser Double S) : ParserTurn Double S :=
  evaluateState (p.withSax (Sax.handleValue v p.sax))

def parseValue (p : Parser Double S) : ParserTurn Double S :=
  match p.lastToken with
  | .beginObject =>
    let p := (p.withSax (Sax.startObject p.sax)).getToken
    if p.lastToken = .endObject then evaluateState (p.withSax (Sax.endObject p.sax))
    else parseKey (false :: p.states) p
  | .beginArray =>
    let p := (p.withSax (Sax.startArray p.sax)).getToken
    if p.lastToken = .endArray then evaluateState (p.withSax (Sax.endArray p.sax))
    else .next { p with states := true :: p.states }
  | .valueFloat =>
    if Strtod.isfinite p.lexer.valueFloat then p.handle (.numberFloat p.lexer.valueFloat)
    else
      .done (.error (outOfRange 406
        (ascii "number overflow parsing '" ++ p.lexer.getTokenString ++ ascii "'")))
  | .literalFalse => p.handle (.boolean false)
  | .literalNull => p.handle .null
  | .literalTrue => p.handle (.boolean true)
  | .valueInteger => p.handle (.numberInteger p.lexer.valueInteger)
  | .valueString => p.handle (.string p.lexer.tokenBuffer)
  | .valueUnsigned => p.handle (.numberUnsigned p.lexer.valueUnsigned)
  | .parseError => p.unexpected .uninitialized "value"
  | .endOfInput =>
    if p.lexer.position.charsReadTotal = 1 then
      .done (.error (parseError 101 p.lexer.position
        (ascii ("attempting to parse an empty input; " ++
          "check that your input string or stream contains the expected JSON"))))
    else p.unexpected .literalOrValue "value"
  | _ => p.unexpected .literalOrValue "value"

def turn (p : Parser Double S) : ParserTurn Double S :=
  if p.skipToStateEvaluation then evaluateState { p with skipToStateEvaluation := false }
  else parseValue p

/-- How much there is still to read. A turn that begins with the end of the input
or with an error is the last one. -/
def bound (p : Parser Double S) : Nat :=
  if ¬ p.skipToStateEvaluation ∧ (p.lastToken = .endOfInput ∨ p.lastToken = .parseError) then 0
  else p.lexer.rest.length + 1

section Bounds
variable {p p' : Parser Double S} {states : List Bool}

omit [Sax Double S] in
theorem rest_getToken_le (p : Parser Double S) :
    p.getToken.lexer.rest.length ≤ p.lexer.rest.length :=
  (Lexer.moves_scan p.lexer).rest_suffix.length_le

omit [Sax Double S] in
theorem rest_getToken_lt (hend : p.getToken.lastToken ≠ .endOfInput)
    (herror : p.getToken.lastToken ≠ .parseError) :
    p.getToken.lexer.rest.length < p.lexer.rest.length :=
  Lexer.rest_scan_lt rfl hend herror

omit [Sax Double S] in
theorem rest_getToken_of_eq {t : TokenType} (h : p.getToken.lastToken = t)
    (ht : t ≠ .endOfInput ∧ t ≠ .parseError) :
    p.getToken.lexer.rest.length < p.lexer.rest.length := by
  subst h
  exact rest_getToken_lt ht.1 ht.2

omit [Sax Double S] in
theorem bound_getToken_le (hskip : p.skipToStateEvaluation = false) :
    p.getToken.bound ≤ p.lexer.rest.length := by
  have hskip' : p.getToken.skipToStateEvaluation = false := hskip
  unfold bound
  split
  · exact Nat.zero_le _
  · rename_i hlast
    simp only [hskip', Bool.false_eq_true, not_false_eq_true, true_and, not_or] at hlast
    exact rest_getToken_lt hlast.1 hlast.2

omit [Strtod Double] [Sax Double S] in
theorem bound_le (p : Parser Double S) : p.bound ≤ p.lexer.rest.length + 1 := by
  unfold bound
  split
  · exact Nat.zero_le _
  · exact Nat.le_refl _

theorem bound_parseKey (h : parseKey states p = .next p')
    (hskip : p.skipToStateEvaluation = false) : p'.bound < p.lexer.rest.length := by
  unfold parseKey at h
  dsimp only at h
  split at h
  · split at h
    · rename_i hseparator
      obtain rfl := Turn.next.inj h
      have hlt := rest_getToken_of_eq hseparator (by decide)
      let q := (p.withSax (Sax.key p.lexer.tokenBuffer p.sax)).getToken
      have hle := bound_getToken_le (p := q) hskip
      exact Nat.lt_of_le_of_lt hle hlt
    · cases h
  · cases h

theorem bound_evaluateState (h : evaluateState p = .next p')
    (hskip : p.skipToStateEvaluation = false) : p'.bound < p.lexer.rest.length + 1 := by
  unfold evaluateState at h
  dsimp only at h
  split at h
  · cases h
  · split at h
    · rename_i hcomma
      obtain rfl := Turn.next.inj h
      have hlt := rest_getToken_of_eq hcomma (by decide)
      have hle := bound_getToken_le (p := p.getToken) hskip
      omega
    · split at h
      · rename_i hclose
        obtain rfl := Turn.next.inj h
        have hlt := rest_getToken_of_eq hclose (by decide)
        exact Nat.lt_of_le_of_lt (bound_le _) (Nat.succ_lt_succ hlt)
      · cases h
  · split at h
    · rename_i hcomma
      have hlt := rest_getToken_of_eq hcomma (by decide)
      have hle := rest_getToken_le p.getToken
      have hkey := bound_parseKey h hskip
      omega
    · split at h
      · rename_i hclose
        obtain rfl := Turn.next.inj h
        have hlt := rest_getToken_of_eq hclose (by decide)
        exact Nat.lt_of_le_of_lt (bound_le _) (Nat.succ_lt_succ hlt)
      · cases h

theorem bound_handle {v : Value Double} (h : handle v p = .next p')
    (hskip : p.skipToStateEvaluation = false) : p'.bound < p.lexer.rest.length + 1 := by
  exact bound_evaluateState (p := p.withSax (Sax.handleValue v p.sax)) h hskip

theorem bound_parseValue (h : parseValue p = .next p') (hskip : p.skipToStateEvaluation = false) :
    p'.bound < p.lexer.rest.length + 1 ∧
      p.lastToken ≠ .endOfInput ∧ p.lastToken ≠ .parseError := by
  unfold parseValue at h
  cases hlast : p.lastToken with
  | beginObject =>
    rw [hlast] at h
    refine ⟨?_, by decide, by decide⟩
    have hle := rest_getToken_le (p.withSax (Sax.startObject p.sax))
    dsimp only at h
    split at h
    · exact Nat.lt_of_lt_of_le (bound_evaluateState h hskip) (Nat.succ_le_succ hle)
    · exact Nat.lt_succ_of_lt (Nat.lt_of_lt_of_le (bound_parseKey h hskip) hle)
  | beginArray =>
    rw [hlast] at h
    refine ⟨?_, by decide, by decide⟩
    have hle := rest_getToken_le (p.withSax (Sax.startArray p.sax))
    dsimp only at h
    split at h
    · exact Nat.lt_of_lt_of_le (bound_evaluateState h hskip) (Nat.succ_le_succ hle)
    · obtain rfl := Turn.next.inj h
      exact Nat.lt_succ_of_le (bound_getToken_le (p := p.withSax (Sax.startArray p.sax)) hskip)
  | valueFloat =>
    rw [hlast] at h
    refine ⟨?_, by decide, by decide⟩
    dsimp only at h
    split at h
    · exact bound_handle h hskip
    · cases h
  | literalFalse | literalNull | literalTrue | valueInteger | valueString | valueUnsigned =>
    rw [hlast] at h
    dsimp only at h
    exact ⟨bound_handle h hskip, by decide, by decide⟩
  | endOfInput =>
    rw [hlast] at h
    dsimp only at h
    split at h <;> cases h
  | parseError | uninitialized | endArray | endObject | nameSeparator | valueSeparator
    | literalOrValue =>
    rw [hlast] at h
    cases h

theorem bound_turn (h : turn p = .next p') : p'.bound < p.bound := by
  unfold turn at h
  split at h
  · rename_i hskip
    have hlt := bound_evaluateState h rfl
    unfold bound at hlt ⊢
    rw [if_neg (c := ¬ p.skipToStateEvaluation = true ∧ _) (by simp [hskip])]
    exact hlt
  · rename_i hskip
    obtain ⟨hlt, hend, herror⟩ := bound_parseValue h (Bool.eq_false_of_not_eq_true hskip)
    rw [bound, bound, if_neg (c := ¬ p.skipToStateEvaluation = true ∧ _) (by simp [hend, herror])]
    exact hlt

end Bounds

/-- `sax_parse_internal`. -/
def saxParse : Loop (Parser Double S) (Except JsonException (Value Double)) where
  turn := turn
  measure := bound
  decreases := bound_turn

/-- The members as the constructors of the lexer and the parser set them. The C library
makes zero of a text without a number. -/
def ofBytes (bytes : List UInt8) : Lexer Double where
  ia := bytes
  current := none
  nextUnget := false
  position := ⟨0, 0, 0⟩
  tokenString := []
  tokenBuffer := []
  errorMessage := ""
  valueInteger := 0
  valueUnsigned := 0
  valueFloat := Strtod.strtod []

def fresh (bytes : List UInt8) : Parser Double S where
  lexer := ofBytes bytes
  lastToken := .uninitialized
  sax := Sax.constructed
  states := []
  skipToStateEvaluation := false

/-- The constructor reads the first token. -/
def start (bytes : List UInt8) : Parser Double S := (fresh bytes).getToken

end Parser

/-- `file >> jsonConfig`. -/
def parse {Double : Type} [Strtod Double] (bytes : List UInt8) :
    Except JsonException (Value Double) :=
  Parser.saxParse.run (Parser.start bytes : Parser Double (SaxDom Double))

end Qwin
