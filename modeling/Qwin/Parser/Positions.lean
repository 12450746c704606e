import Qwin.Parser.Parser

/-!
The texts of parse errors: the position that they name, and that they are one line.
-/

set_option autoImplicit false

namespace Qwin

open Decimals Loops

variable {Double : Type}

def JsonException.what : JsonException → List UInt8
  | .parseError _ _ what => what
  | .outOfRange _ what => what

/-- A newline was read and put back. The column before it is lost. -/
def Input.PutBack (input : Input) : Prop := input.nextUnget = true ∧ input.current = some 0x0A

instance (input : Input) : Decidable input.PutBack := inferInstanceAs (Decidable (_ ∧ _))

namespace Lexer

/-- How many bytes of `read` stand on its last line. -/
def columnAfter (read : List UInt8) : Nat := (read.reverse.takeWhile fun b => b != 0x0A).length

/-- `read` of the file was read and `unread` was not; its end was met `extra` times. -/
structure Stands (bytes read unread : List UInt8) (extra : Nat) (l : Lexer Double) : Prop where
  split : bytes = read ++ unread
  rest : l.At unread
  total : l.position.charsReadTotal = read.length + extra
  lines : l.position.linesRead = read.count 0x0A
  column : l.position.charsReadCurrentLine = if l.PutBack then 0 else columnAfter read + extra
  ended : extra ≠ 0 → unread = []

/-- What the position of a lexer says of the file, of which it has consumed `read`. The
end of the file was met `extra` times. -/
structure Counts (bytes read : List UInt8) (extra : Nat) (l : Lexer Double) : Prop where
  split : bytes = read ++ l.rest
  ended : extra ≠ 0 → l.rest = []
  total : l.position.charsReadTotal = read.length + extra
  lines : l.position.linesRead = read.count 0x0A
  column : l.position.charsReadCurrentLine = if l.PutBack then 0 else columnAfter read + extra

section Stands
variable {bytes read unread : List UInt8} {extra : Nat} {l l' : Lexer Double}

theorem position_get (l : Lexer Double) :
    l.get.position = if l.get.current = some 0x0A then
        ⟨l.position.charsReadTotal + 1, 0, l.position.linesRead + 1⟩
      else ⟨l.position.charsReadTotal + 1, l.position.charsReadCurrentLine + 1,
        l.position.linesRead⟩ := rfl

theorem position_unget (l : Lexer Double) :
    l.unget.position = if l.position.charsReadCurrentLine = 0 then
        ⟨l.position.charsReadTotal - 1, 0, l.position.linesRead - 1⟩
      else ⟨l.position.charsReadTotal - 1, l.position.charsReadCurrentLine - 1,
        l.position.linesRead⟩ := rfl

theorem not_putBack_get (l : Lexer Double) : ¬ l.get.PutBack := fun h => Bool.noConfusion h.1

theorem Stands.newline (h : l.Stands bytes read unread extra) (hback : l.PutBack) :
    unread.head? = some 0x0A := by
  rw [← h.rest.rest, Lexer.rest, hback.1, hback.2]
  rfl

/-- Where a newline is not the next byte, the column is known. -/
theorem Stands.column_eq (h : l.Stands bytes read unread extra) (hhead : unread.head? ≠ some 0x0A) :
    l.position.charsReadCurrentLine = columnAfter read + extra :=
  h.column.trans (if_neg fun hback => hhead (h.newline hback))

theorem Stands.get_nil (h : l.Stands bytes read [] extra) :
    l.get.Stands bytes read [] (extra + 1) := by
  have hrest : l.get.rest = [] := List.suffix_nil.mp (h.rest.rest ▸ Move.rest_suffix (.get l))
  have hat : l.get.At [] := hrest ▸ (moves_get l).at_rest h.rest
  have hposition := position_get l
  rw [h.rest.get_nil, if_neg (by decide)] at hposition
  refine ⟨h.split, hat, ?_, ?_, ?_, fun _ => rfl⟩
  · rw [hposition, h.total]
    rfl
  · rw [hposition, h.lines]
  · rw [if_neg (not_putBack_get l), hposition, h.column_eq (by decide)]
    rfl

theorem Stands.look (h : l.Stands bytes read unread extra) :
    l.get.unget.Stands bytes read unread extra := by
  cases unread with
  | nil =>
    have hget := h.get_nil
    have hposition := position_unget l.get
    have hcolumn := hget.column_eq (by decide)
    rw [if_neg (by omega)] at hposition
    have hback : ¬ l.get.unget.PutBack := fun hback => by
      have hcurrent : l.get.current = some 0x0A := hback.2
      rw [h.rest.get_nil] at hcurrent
      cases hcurrent
    refine ⟨h.split, h.rest.look, ?_, ?_, ?_, fun _ => rfl⟩
    · rw [hposition, hget.total]
      rfl
    · rw [hposition, hget.lines]
    · rw [if_neg hback, hposition, hcolumn]
      rfl
  | cons c unread =>
    have hposition := position_unget l.get
    have hget := position_get l
    rw [h.rest.get.1] at hget
    by_cases hc : c = 0x0A
    · rw [hc, if_pos rfl] at hget
      rw [hget, if_pos rfl] at hposition
      have hback : l.get.unget.PutBack := ⟨rfl, hc ▸ h.rest.get.1⟩
      refine ⟨h.split, h.rest.look, ?_, ?_, ?_, h.ended⟩
      · rw [hposition, ← h.total]
        rfl
      · rw [hposition, ← h.lines]
        rfl
      · rw [if_pos hback, hposition]
    · rw [if_neg fun heq => hc (Option.some.inj heq)] at hget
      rw [hget, if_neg (Nat.succ_ne_zero _)] at hposition
      have hback : ¬ l.get.unget.PutBack := fun hback =>
        hc (Option.some.inj (h.rest.get.1.symm.trans hback.2))
      refine ⟨h.split, h.rest.look, ?_, ?_, ?_, h.ended⟩
      · rw [hposition, ← h.total]
        rfl
      · rw [hposition, ← h.lines]
      · rw [if_neg hback, hposition, ← h.column_eq fun heq => hc (Option.some.inj heq)]
        rfl

theorem Stands.keep (h : l.Stands bytes read unread extra) (hkeep : l'.toInput = l.toInput) :
    l'.Stands bytes read unread extra := by
  refine ⟨h.split, h.rest.keep hkeep, ?_, ?_, ?_, h.ended⟩
  · rw [hkeep]
    exact h.total
  · rw [hkeep]
    exact h.lines
  · rw [hkeep]
    exact h.column

theorem Stands.counts (h : l.Stands bytes read unread extra) : Counts bytes read extra l := by
  obtain rfl := h.rest.rest
  exact ⟨h.split, h.ended, h.total, h.lines, h.column⟩

end Stands

end Lexer

namespace Parser

open Lexer

variable {S : Type} [Strtod Double] [Sax Double S] {bytes : List UInt8} {p : Parser Double S}

/-- No control characters. -/
def OneLine (text : List UInt8) : Prop := ∀ b ∈ text, 0x20 ≤ b

theorem OneLine.append {text text' : List UInt8} (h : OneLine text) (h' : OneLine text') :
    OneLine (text ++ text') := List.forall_mem_append.mpr ⟨h, h'⟩

/-- The token that was read last, with the lexer behind it. -/
def token (p : Parser Double S) : TokenType × Lexer Double := (p.lastToken, p.lexer)

def nextToken (t : TokenType × Lexer Double) : TokenType × Lexer Double := t.2.scan

/-- At most `n` tokens behind `p₀`. -/
def Ahead (p₀ : Parser Double S) (n : Nat) (p : Parser Double S) : Prop :=
  ∃ k ≤ n, p.token = nextToken^[k] p₀.token

section Ahead
variable {p₀ : Parser Double S} {n : Nat}

omit [Sax Double S] in
theorem Ahead.refl (p₀ : Parser Double S) : Ahead p₀ 0 p₀ := ⟨0, Nat.le_refl 0, rfl⟩

omit [Sax Double S] in
theorem Ahead.getToken (h : Ahead p₀ n p) : Ahead p₀ (n + 1) p.getToken := by
  obtain ⟨k, hk, heq⟩ := h
  refine ⟨k + 1, Nat.succ_le_succ hk, ?_⟩
  rw [Function.iterate_succ_apply', ← heq]
  rfl

end Ahead

end Parser

end Qwin
