import Qwin.Library.JsonText
import Qwin.Parser.Numbers
import Qwin.Parser.Strings

/-!
`scan` of nlohmann/json.hpp: from the bytes to one token after the other.
-/

set_option autoImplicit false

namespace Qwin

open Decimals Loops

namespace Lexer

variable {Double : Type}

/-- The bytes of the literal after its first one. -/
def scanLiteral (returnType : TokenType) : List UInt8 → Lexer Double → TokenType × Lexer Double
  | [], l => (returnType, l)
  | c :: literalText, l =>
    if l.get.current = some c then scanLiteral returnType literalText l.get
    else l.get.fail "invalid literal"

/-- Whether there is no byte order mark, or a whole one. -/
def skipBom (l : Lexer Double) : Bool × Lexer Double :=
  if l.get.current = some 0xEF then
    if l.get.get.current = some 0xBB then
      (decide (l.get.get.get.current = some 0xBF), l.get.get.get)
    else (false, l.get.get)
  else (true, l.get.unget)

def skipWhitespaceLoop : Loop (Lexer Double) (Lexer Double) where
  turn l :=
    match l.get.current.filter JsonText.isSpace with
    | some _ => .next l.get
    | none => .done l.get
  measure l := l.rest.length
  decreases {l l'} h := by
    split at h
    · rename_i c hc
      obtain ⟨hcurrent, -⟩ := Option.filter_eq_some_iff.mp hc
      obtain rfl := Turn.next.inj h
      exact (Moves.refl _).rest_lt hcurrent
    · cases h

def skipWhitespace (l : Lexer Double) : Lexer Double := skipWhitespaceLoop.run l

theorem skipWhitespace_get (l : Lexer Double) :
    ∃ l₀, Moves l l₀ ∧ skipWhitespace l = l₀.get := by
  refine skipWhitespaceLoop.invariant (P := Moves l)
    (Q := fun r => ∃ l₀, Moves l l₀ ∧ r = l₀.get) ?_ ?_ (Moves.refl l)
  · intro l₁ l₂ hl hturn
    dsimp only [skipWhitespaceLoop] at hturn
    split at hturn
    · obtain rfl := Turn.next.inj hturn
      exact hl.get
    · cases hturn
  · intro l₁ r hl hturn
    dsimp only [skipWhitespaceLoop] at hturn
    split at hturn
    · cases hturn
    · exact ⟨l₁, hl, (Turn.done.inj hturn).symm⟩

theorem moves_skipBom (l : Lexer Double) : Moves l l.skipBom.2 := by
  unfold skipBom
  split_ifs
  · exact (moves_get l).get.get
  · exact (moves_get l).get
  · exact (Moves.refl l).look

theorem moves_scanLiteral (returnType : TokenType) (literalText : List UInt8) (l : Lexer Double) :
    Moves l (scanLiteral returnType literalText l).2 := by
  induction literalText generalizing l with
  | nil => exact Moves.refl l
  | cons c literalText ih =>
    unfold scanLiteral
    split_ifs
    · exact (moves_get l).trans (ih _)
    · exact (moves_get l).trans (moves_fail (by decide) _)

variable [Strtod Double]

def structuralCharacter : UInt8 → Option TokenType
  | 0x5B => some .beginArray
  | 0x5D => some .endArray
  | 0x7B => some .beginObject
  | 0x7D => some .endObject
  | 0x3A => some .nameSeparator
  | 0x2C => some .valueSeparator
  | _ => none

/-- The literal that a byte begins, and its other bytes. -/
def literal : UInt8 → Option (TokenType × List UInt8)
  | 0x74 => some (.literalTrue, [0x72, 0x75, 0x65])
  | 0x66 => some (.literalFalse, [0x61, 0x6C, 0x73, 0x65])
  | 0x6E => some (.literalNull, [0x75, 0x6C, 0x6C])
  | _ => none

/-- The token that the byte `c` begins. -/
def scanFrom (c : UInt8) (l : Lexer Double) : TokenType × Lexer Double :=
  match structuralCharacter c, literal c with
  | some t, _ => (t, l)
  | none, some (t, literalText) => scanLiteral t literalText l
  | none, none =>
    if c = 0x22 then scanString l
    else if c = 0x2D ∨ isDigit c then scanNumber c l
    else if c = 0x00 then (.endOfInput, l)
    else l.fail "invalid literal"

def scanToken (l : Lexer Double) : TokenType × Lexer Double :=
  match l.current with
  | none => (.endOfInput, l)
  | some c => scanFrom c l

def scan (l : Lexer Double) : TokenType × Lexer Double :=
  if l.position.charsReadTotal = 0 then
    match l.skipBom with
    | (true, l) => scanToken l.skipWhitespace
    | (false, l) => l.fail "invalid BOM; must be 0xEF 0xBB 0xBF if given"
  else scanToken l.skipWhitespace

theorem moves_scanFrom (c : UInt8) (l : Lexer Double) : Moves l (scanFrom c l).2 := by
  unfold scanFrom
  split
  · exact Moves.refl l
  · exact moves_scanLiteral _ _ _
  · split
    · exact moves_scanString l
    · split
      · exact moves_scanNumber _ _
      · split
        · exact Moves.refl l
        · exact moves_fail (by decide) _

theorem moves_scanToken (l : Lexer Double) : Moves l l.scanToken.2 := by
  unfold scanToken
  split
  · exact Moves.refl l
  · exact moves_scanFrom _ l

theorem moves_scan (l : Lexer Double) : Moves l l.scan.2 := by
  have hrest : ∀ l : Lexer Double, Moves l l.skipWhitespace.scanToken.2 := by
    intro l
    obtain ⟨l₀, hl, hskip⟩ := skipWhitespace_get l
    rw [hskip]
    exact hl.get.trans (moves_scanToken _)
  have hbom := moves_skipBom l
  unfold scan
  split_ifs
  · generalize l.skipBom = r at hbom
    obtain ⟨_ | _, l'⟩ := r
    · exact hbom.trans (moves_fail (by decide) _)
    · exact hbom.trans (hrest _)
  · exact hrest l

/-- Every token but the last one takes a byte of the input. -/
theorem rest_scan_lt {l l' : Lexer Double} {t : TokenType} (h : l.scan = (t, l'))
    (hend : t ≠ .endOfInput) (herror : t ≠ .parseError) : l'.rest.length < l.rest.length := by
  have htoken : ∀ l₁ : Lexer Double, l₁.skipWhitespace.scanToken = (t, l') →
      l'.rest.length < l₁.rest.length := by
    intro l₁ hscan
    obtain ⟨l₀, hl, hskip⟩ := skipWhitespace_get l₁
    have hmoves := moves_scanToken l₁.skipWhitespace
    rw [hscan, hskip] at hmoves
    cases hcurrent : l₀.get.current with
    | none =>
      unfold scanToken at hscan
      rw [hskip, hcurrent] at hscan
      exact absurd (Prod.mk.inj hscan).1.symm hend
    | some c => exact Nat.lt_of_lt_of_le (hmoves.rest_lt hcurrent) hl.rest_suffix.length_le
  have hbom := moves_skipBom l
  unfold scan at h
  split_ifs at h
  · generalize l.skipBom = r at hbom h
    obtain ⟨_ | _, l₁⟩ := r
    · exact absurd (Prod.mk.inj h).1.symm herror
    · exact Nat.lt_of_lt_of_le (htoken _ h) hbom.rest_suffix.length_le
  · exact htoken l h

end Lexer

end Qwin
