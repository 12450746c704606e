import Mathlib.Tactic.SplitIfs
import Qwin.Library.Loop
import Qwin.Parser.Lexer

/-!
`scan_string` of nlohmann/json.hpp: the loop over the bytes of a string, with its
escapes and its table of multi-byte characters.
-/

set_option autoImplicit false

namespace Qwin

open Loops

namespace Lexer

variable {Double : Type}

def hexValue (c : UInt8) : Option Nat :=
  if 0x30 ≤ c ∧ c ≤ 0x39 then some (c.toNat - 0x30)
  else if 0x41 ≤ c ∧ c ≤ 0x46 then some (c.toNat - 0x37)
  else if 0x61 ≤ c ∧ c ≤ 0x66 then some (c.toNat - 0x57)
  else none

def getCodepointFrom (codepoint : Nat) : List Nat → Lexer Double → Option Nat × Lexer Double
  | [], l => (some codepoint, l)
  | factor :: factors, l =>
    match l.get.current.bind hexValue with
    | some value => getCodepointFrom (codepoint + value <<< factor) factors l.get
    | none => (none, l.get)

/-- The -1 of an error is `none`. -/
def getCodepoint (l : Lexer Double) : Option Nat × Lexer Double :=
  getCodepointFrom 0 [12, 8, 4, 0] l

def nextBytesInRange : List (UInt8 × UInt8) → Lexer Double → Bool × Lexer Double
  | [], l => (true, l)
  | range :: ranges, l =>
    match l.get.current.filter fun c => range.1 ≤ c && c ≤ range.2 with
    | some c => nextBytesInRange ranges (l.get.add c)
    | none => (false, (l.get.fail "invalid string: ill-formed UTF-8 byte").2)

/-- `next_byte_in_range`, with the current byte `c`. -/
def nextByteInRange (c : UInt8) (ranges : List (UInt8 × UInt8)) (l : Lexer Double) :
    Bool × Lexer Double :=
  nextBytesInRange ranges (l.add c)

/-- The escapes of one letter. -/
def simpleEscape : UInt8 → Option UInt8
  | 0x22 => some 0x22
  | 0x5C => some 0x5C
  | 0x2F => some 0x2F
  | 0x62 => some 0x08
  | 0x66 => some 0x0C
  | 0x6E => some 0x0A
  | 0x72 => some 0x0D
  | 0x74 => some 0x09
  | _ => none

def utf8Bytes (codepoint : Nat) : List UInt8 :=
  if codepoint < 0x80 then [.ofNat codepoint]
  else if codepoint ≤ 0x7FF then
    [.ofNat (0xC0 ||| codepoint >>> 6), .ofNat (0x80 ||| codepoint &&& 0x3F)]
  else if codepoint ≤ 0xFFFF then
    [.ofNat (0xE0 ||| codepoint >>> 12), .ofNat (0x80 ||| codepoint >>> 6 &&& 0x3F),
      .ofNat (0x80 ||| codepoint &&& 0x3F)]
  else
    [.ofNat (0xF0 ||| codepoint >>> 18), .ofNat (0x80 ||| codepoint >>> 12 &&& 0x3F),
      .ofNat (0x80 ||| codepoint >>> 6 &&& 0x3F), .ofNat (0x80 ||| codepoint &&& 0x3F)]

abbrev StringTurn (Double : Type) := Turn (Lexer Double) (TokenType × Lexer Double)

def fourHexDigits : String := "invalid string: '\\u' must be followed by 4 hex digits"

def lowSurrogateMissing : String :=
  "invalid string: surrogate U+D800..U+DBFF must be followed by U+DC00..U+DFFF"

/-- (0xD800 << 10) + 0xDC00 - 0x10000 is 0x35FDC00. -/
def surrogatePair (codepoint1 codepoint2 : Nat) : Nat :=
  (codepoint1 <<< 10) + codepoint2 - 0x35FDC00

/-- After the escape of a high surrogate. -/
def scanLowSurrogate (codepoint1 : Nat) (l : Lexer Double) : StringTurn Double :=
  if l.get.current = some 0x5C then
    if l.get.get.current = some 0x75 then
      match l.get.get.getCodepoint with
      | (none, l) => .done (l.fail fourHexDigits)
      | (some codepoint2, l) =>
        if 0xDC00 ≤ codepoint2 ∧ codepoint2 ≤ 0xDFFF then
          .next (l.addAll (utf8Bytes (surrogatePair codepoint1 codepoint2)))
        else .done (l.fail lowSurrogateMissing)
    else .done (l.get.get.fail lowSurrogateMissing)
  else .done (l.get.fail lowSurrogateMissing)

/-- After `\u`. -/
def scanUnicodeEscape (l : Lexer Double) : StringTurn Double :=
  match l.getCodepoint with
  | (none, l) => .done (l.fail fourHexDigits)
  | (some codepoint1, l) =>
    if 0xD800 ≤ codepoint1 ∧ codepoint1 ≤ 0xDBFF then scanLowSurrogate codepoint1 l
    else if 0xDC00 ≤ codepoint1 ∧ codepoint1 ≤ 0xDFFF then
      .done (l.fail "invalid string: surrogate U+DC00..U+DFFF must follow U+D800..U+DBFF")
    else .next (l.addAll (utf8Bytes codepoint1))

/-- After a backslash. -/
def scanEscape (l : Lexer Double) : StringTurn Double :=
  if l.get.current = some 0x75 then scanUnicodeEscape l.get
  else
    match l.get.current.bind simpleEscape with
    | some c => .next (l.get.add c)
    | none => .done (l.get.fail "invalid string: forbidden character after backslash")

def controlNames : List String :=
  ["NUL", "SOH", "STX", "ETX", "EOT", "ENQ", "ACK", "BEL", "BS", "HT", "LF", "VT", "FF", "CR",
    "SO", "SI", "DLE", "DC1", "DC2", "DC3", "DC4", "NAK", "SYN", "ETB", "CAN", "EM", "SUB", "ESC",
    "FS", "GS", "RS", "US"]

/-- Four digits, as `%.4X` writes a byte. -/
def hex4 (c : UInt8) : String :=
  let digits := (Nat.toDigits 16 c.toNat).map Char.toUpper
  String.ofList (List.replicate (4 - digits.length) '0' ++ digits)

def shortForm : UInt8 → String
  | 0x08 => " or \\b"
  | 0x09 => " or \\t"
  | 0x0A => " or \\n"
  | 0x0C => " or \\f"
  | 0x0D => " or \\r"
  | _ => ""

def controlMessage (c : UInt8) : String :=
  "invalid string: control character U+" ++ hex4 c ++ " (" ++ controlNames.getD c.toNat "" ++
    ") must be escaped to \\u" ++ hex4 c ++ shortForm c

/-- What `controlMessage` names is printable. -/
theorem printable_control {c : UInt8} (h : c < 0x20) :
    Printable (hex4 c) ∧ Printable (controlNames.getD c.toNat "") ∧ Printable (shortForm c) := by
  have hall : ∀ n < 32, Printable (hex4 (.ofNat n)) ∧ Printable (controlNames.getD n "") ∧
      Printable (shortForm (.ofNat n)) := by
    decide +kernel
  have hc := hall c.toNat (UInt8.lt_iff_toNat_lt.mp h)
  rwa [UInt8.ofNat_toNat] at hc

theorem printable_controlMessage {c : UInt8} (h : c < 0x20) : Printable (controlMessage c) := by
  obtain ⟨hhex, hname, hshort⟩ := printable_control h
  have hstart : Printable "invalid string: control character U+" := by decide
  have hopen : Printable " (" := by decide
  have hescape : Printable ") must be escaped to \\u" := by decide
  exact (((((hstart.append hhex).append hopen).append hname).append hescape).append hhex).append
    hshort

/-- The cases of the bytes from 0x80 on. -/
def multiByteRanges (c : UInt8) : Option (List (UInt8 × UInt8)) :=
  if 0xC2 ≤ c ∧ c ≤ 0xDF then some [(0x80, 0xBF)]
  else if c = 0xE0 then some [(0xA0, 0xBF), (0x80, 0xBF)]
  else if 0xE1 ≤ c ∧ c ≤ 0xEC ∨ c = 0xEE ∨ c = 0xEF then some [(0x80, 0xBF), (0x80, 0xBF)]
  else if c = 0xED then some [(0x80, 0x9F), (0x80, 0xBF)]
  else if c = 0xF0 then some [(0x90, 0xBF), (0x80, 0xBF), (0x80, 0xBF)]
  else if 0xF1 ≤ c ∧ c ≤ 0xF3 then some [(0x80, 0xBF), (0x80, 0xBF), (0x80, 0xBF)]
  else if c = 0xF4 then some [(0x80, 0x8F), (0x80, 0xBF), (0x80, 0xBF)]
  else none

def scanStringTurn (l : Lexer Double) : StringTurn Double :=
  match l.get.current with
  | none => .done (l.get.fail "invalid string: missing closing quote")
  | some c =>
    if c = 0x22 then .done (.valueString, l.get)
    else if c = 0x5C then scanEscape l.get
    else if c < 0x20 then .done (l.get.fail (controlMessage c))
    else if c ≤ 0x7F then .next (l.get.add c)
    else
      match multiByteRanges c with
      | some ranges =>
        match l.get.nextByteInRange c ranges with
        | (true, l) => .next l
        | (false, l) => .done (.parseError, l)
      | none => .done (l.get.fail "invalid string: ill-formed UTF-8 byte")

section StringMoves
variable {l l' : Lexer Double}

theorem moves_getCodepointFrom (codepoint : Nat) (factors : List Nat) (l : Lexer Double) :
    Moves l (getCodepointFrom codepoint factors l).2 := by
  induction factors generalizing codepoint l with
  | nil => exact Moves.refl l
  | cons factor factors ih =>
    unfold getCodepointFrom
    split
    · exact (moves_get l).trans (ih _ _)
    · exact moves_get l

theorem moves_nextBytesInRange (ranges : List (UInt8 × UInt8)) (l : Lexer Double) :
    Moves l (nextBytesInRange ranges l).2 := by
  induction ranges generalizing l with
  | nil => exact Moves.refl l
  | cons range ranges ih =>
    unfold nextBytesInRange
    split
    · exact ((moves_get l).trans (moves_add _ _)).trans (ih _)
    · exact (moves_get l).trans (moves_fail (by decide) _)

/-- The lexer a turn ends with. -/
def turnLexer : StringTurn Double → Lexer Double
  | .next l => l
  | .done r => r.2

theorem moves_scanLowSurrogate (codepoint1 : Nat) (l : Lexer Double) :
    Moves l (turnLexer (scanLowSurrogate codepoint1 l)) := by
  unfold scanLowSurrogate
  split_ifs
  · have hcodepoint : Moves l l.get.get.getCodepoint.2 :=
      (moves_get l).get.trans (moves_getCodepointFrom _ _ _)
    generalize l.get.get.getCodepoint = r at hcodepoint
    obtain ⟨_ | codepoint2, l'⟩ := r
    · exact hcodepoint.trans (moves_fail (by decide) _)
    · dsimp only
      split_ifs
      · exact hcodepoint.trans (moves_addAll _ _)
      · exact hcodepoint.trans (moves_fail (by decide) _)
  · exact (moves_get l).get.trans (moves_fail (by decide) _)
  · exact (moves_get l).trans (moves_fail (by decide) _)

theorem moves_scanUnicodeEscape (l : Lexer Double) :
    Moves l (turnLexer (scanUnicodeEscape l)) := by
  have hcodepoint : Moves l l.getCodepoint.2 := moves_getCodepointFrom _ _ _
  unfold scanUnicodeEscape
  generalize l.getCodepoint = r at hcodepoint
  obtain ⟨_ | codepoint1, l'⟩ := r
  · exact hcodepoint.trans (moves_fail (by decide) _)
  · dsimp only
    split_ifs
    · exact hcodepoint.trans (moves_scanLowSurrogate _ _)
    · exact hcodepoint.trans (moves_fail (by decide) _)
    · exact hcodepoint.trans (moves_addAll _ _)

theorem moves_scanEscape (l : Lexer Double) : Moves l (turnLexer (scanEscape l)) := by
  unfold scanEscape
  split
  · exact (moves_get l).trans (moves_scanUnicodeEscape _)
  · split
    · exact (moves_get l).trans (moves_add _ _)
    · exact (moves_get l).trans (moves_fail (by decide) _)

theorem moves_scanStringTurn (l : Lexer Double) :
    Moves l.get (turnLexer (scanStringTurn l)) := by
  unfold scanStringTurn
  split
  · exact moves_fail (by decide) _
  · rename_i c hc
    split_ifs
    · exact Moves.refl _
    · exact moves_scanEscape _
    · rename_i hcontrol
      exact moves_fail (printable_controlMessage hcontrol) _
    · exact moves_add _ _
    · split
      · rename_i ranges _
        have hranges : Moves l.get (l.get.nextByteInRange c ranges).2 :=
          (moves_add c l.get).trans (moves_nextBytesInRange _ _)
        generalize l.get.nextByteInRange c ranges = r at hranges
        obtain ⟨_ | _, l'⟩ := r
        · exact hranges
        · exact hranges
      · exact moves_fail (by decide) _

/-- The loop ends with the file, so that a turn with another one after it has
read a byte. -/
theorem current_of_scanStringTurn (h : scanStringTurn l = .next l') :
    ∃ c, l.get.current = some c := by
  cases hc : l.get.current with
  | some c => exact ⟨c, rfl⟩
  | none =>
    unfold scanStringTurn at h
    rw [hc] at h
    cases h

end StringMoves

def scanStringLoop : Loop (Lexer Double) (TokenType × Lexer Double) where
  turn := scanStringTurn
  measure l := l.rest.length
  decreases {l l'} h := by
    obtain ⟨c, hc⟩ := current_of_scanStringTurn h
    have hmoves := moves_scanStringTurn l
    rw [h] at hmoves
    exact hmoves.rest_lt hc

def scanString (l : Lexer Double) : TokenType × Lexer Double := scanStringLoop.run l.reset

theorem moves_scanString (l : Lexer Double) : Moves l (scanString l).2 := by
  have hreset : Moves l l.reset := (Moves.refl l).keep rfl rfl
  unfold scanString
  refine scanStringLoop.invariant (P := Moves l) (Q := fun r => Moves l r.2) ?_ ?_ hreset
  · intro l' l'' hl' hturn
    have hmoves := moves_scanStringTurn l'
    rw [show scanStringTurn l' = .next l'' from hturn] at hmoves
    exact hl'.get.trans hmoves
  · intro l' r hl' hturn
    have hmoves := moves_scanStringTurn l'
    rw [show scanStringTurn l' = .done r from hturn] at hmoves
    exact hl'.get.trans hmoves

end Lexer

end Qwin
