import Mathlib.Data.List.Basic
import Mathlib.Logic.Relation

/-!
The lexer of nlohmann/json.hpp over the bytes of a stream, with comments not
ignored and in the locale of a program that sets none, whose decimal point is `.`:
its state, and how it reads its input.
-/

set_option autoImplicit false

namespace Qwin

inductive TokenType where
  | uninitialized
  | literalTrue
  | literalFalse
  | literalNull
  | valueString
  | valueUnsigned
  | valueInteger
  | valueFloat
  | beginArray
  | beginObject
  | endArray
  | endObject
  | nameSeparator
  | valueSeparator
  | parseError
  | endOfInput
  | literalOrValue
  deriving DecidableEq, Repr

/-- `token_type_name`. -/
def TokenType.name : TokenType → String
  | .uninitialized => "<uninitialized>"
  | .literalTrue => "true literal"
  | .literalFalse => "false literal"
  | .literalNull => "null literal"
  | .valueString => "string literal"
  | .valueUnsigned | .valueInteger | .valueFloat => "number literal"
  | .beginArray => "'['"
  | .beginObject => "'\x7b'"
  | .endArray => "']'"
  | .endObject => "'\x7d'"
  | .nameSeparator => "':'"
  | .valueSeparator => "','"
  | .parseError => "<parse error>"
  | .endOfInput => "end of input"
  | .literalOrValue => "'[', '\x7b', or a literal"

structure Position where
  charsReadTotal : Nat
  charsReadCurrentLine : Nat
  linesRead : Nat
  deriving DecidableEq, Repr

/-- The fields that reading changes. The end of the file is `none`. -/
structure Input where
  ia : List UInt8
  current : Option UInt8
  nextUnget : Bool
  position : Position

structure Lexer (Double : Type) extends Input where
  tokenString : List UInt8
  tokenBuffer : List UInt8
  errorMessage : String
  valueInteger : Int64
  valueUnsigned : UInt64
  valueFloat : Double

namespace Lexer

variable {Double : Type}

/-! Input management -/

def reset (l : Lexer Double) : Lexer Double :=
  { l with tokenBuffer := [], tokenString := l.current.toList }

def get (l : Lexer Double) : Lexer Double :=
  let current := if l.nextUnget then l.current else l.ia.head?
  { l with
    ia := if l.nextUnget then l.ia else l.ia.tail
    current := current
    nextUnget := false
    tokenString := l.tokenString ++ current.toList
    position :=
      if current = some 0x0A then ⟨l.position.charsReadTotal + 1, 0, l.position.linesRead + 1⟩
      else ⟨l.position.charsReadTotal + 1, l.position.charsReadCurrentLine + 1,
        l.position.linesRead⟩ }

def unget (l : Lexer Double) : Lexer Double :=
  { l with
    nextUnget := true
    position :=
      if l.position.charsReadCurrentLine = 0 then
        ⟨l.position.charsReadTotal - 1, 0, l.position.linesRead - 1⟩
      else ⟨l.position.charsReadTotal - 1, l.position.charsReadCurrentLine - 1,
        l.position.linesRead⟩
    tokenString := if l.current.isSome then l.tokenString.dropLast else l.tokenString }

def add (c : UInt8) (l : Lexer Double) : Lexer Double :=
  { l with tokenBuffer := l.tokenBuffer ++ [c] }

/-- One `add` after the other. -/
def addAll (bytes : List UInt8) (l : Lexer Double) : Lexer Double :=
  { l with tokenBuffer := l.tokenBuffer ++ bytes }

def fail (message : String) (l : Lexer Double) : TokenType × Lexer Double :=
  (.parseError, { l with errorMessage := message })

@[simp] theorem tokenBuffer_get (l : Lexer Double) : l.get.tokenBuffer = l.tokenBuffer := rfl

@[simp] theorem tokenBuffer_add (c : UInt8) (l : Lexer Double) :
    (l.add c).tokenBuffer = l.tokenBuffer ++ [c] := rfl

@[simp] theorem tokenBuffer_addAll (bytes : List UInt8) (l : Lexer Double) :
    (l.addAll bytes).tokenBuffer = l.tokenBuffer ++ bytes := rfl

/-- What the next calls of `get` will read. -/
def rest (l : Lexer Double) : List UInt8 :=
  (if l.nextUnget then l.current.toList else []) ++ l.ia

/-- Nothing but printable ASCII characters. -/
abbrev Printable (message : String) : Prop :=
  message.toList.all (fun c => 0x20 ≤ c.toNat && c.toNat ≤ 0x7E) = true

theorem Printable.append {a b : String} (ha : Printable a) (hb : Printable b) :
    Printable (a ++ b) := by
  unfold Printable
  rw [String.toList_append, List.all_append, ha, hb]
  rfl

/-- What the functions of the lexer do with their input: they read a byte, or look
at one, or leave the input as it is. Then an error message may be set. -/
inductive Move : Lexer Double → Lexer Double → Prop where
  | get (l : Lexer Double) : Move l l.get
  | look (l : Lexer Double) : Move l l.get.unget
  | keep {l l' : Lexer Double} (h : l'.toInput = l.toInput)
      (hmessage : l'.errorMessage = l.errorMessage ∨ Printable l'.errorMessage) : Move l l'

def Moves : Lexer Double → Lexer Double → Prop := Relation.ReflTransGen Move

section Moves
variable {l l' l'' : Lexer Double}

theorem rest_keep (h : l'.toInput = l.toInput) : l'.rest = l.rest := by
  unfold rest
  rw [h]

theorem rest_get (l : Lexer Double) :
    l.get.rest = if l.nextUnget then l.ia else l.ia.tail := rfl

theorem rest_look (l : Lexer Double) : l.get.unget.rest = l.rest := by
  unfold rest get unget
  cases l.nextUnget with
  | true => rfl
  | false => cases l.ia <;> rfl

theorem rest_of_get {c : UInt8} (h : l.get.current = some c) : l.rest = c :: l.get.rest := by
  unfold rest get at *
  cases hunget : l.nextUnget with
  | true =>
    rw [hunget] at h
    simp_all
  | false =>
    rw [hunget] at h
    cases hia : l.ia with
    | nil => simp_all
    | cons b ia => simp_all

theorem Move.rest_suffix (h : Move l l') : l'.rest <:+ l.rest := by
  cases h with
  | get =>
    rw [rest_get]
    unfold rest
    cases l.nextUnget with
    | true => exact List.suffix_append _ _
    | false => exact List.tail_suffix _
  | look => exact (rest_look l).symm ▸ List.suffix_refl l.rest
  | keep h _ => exact (rest_keep h).symm ▸ List.suffix_refl l.rest

theorem Moves.rest_suffix (h : Moves l l') : l'.rest <:+ l.rest := by
  induction h with
  | refl => exact List.suffix_refl _
  | tail _ hmove ih => exact hmove.rest_suffix.trans ih

theorem Moves.refl (l : Lexer Double) : Moves l l := Relation.ReflTransGen.refl

theorem Moves.trans (h : Moves l l') (h' : Moves l' l'') : Moves l l'' :=
  Relation.ReflTransGen.trans h h'

theorem Moves.get (h : Moves l l') : Moves l l'.get := h.tail (.get l')

theorem Moves.look (h : Moves l l') : Moves l l'.get.unget := h.tail (.look l')

theorem Moves.keep (h : Moves l l') (hkeep : l''.toInput = l'.toInput)
    (hmessage : l''.errorMessage = l'.errorMessage) : Moves l l'' :=
  h.tail (.keep hkeep (.inl hmessage))

theorem moves_get (l : Lexer Double) : Moves l l.get := (Moves.refl l).get

theorem moves_add (c : UInt8) (l : Lexer Double) : Moves l (l.add c) :=
  (Moves.refl l).keep rfl rfl

theorem moves_addAll (bytes : List UInt8) (l : Lexer Double) : Moves l (l.addAll bytes) :=
  (Moves.refl l).keep rfl rfl

theorem moves_fail {message : String} (h : Printable message) (l : Lexer Double) :
    Moves l (l.fail message).2 :=
  (Moves.refl l).tail (.keep rfl (.inr h))

/-- The next calls of `get` read `text`, and then the end of the file. -/
structure At (l : Lexer Double) (text : List UInt8) : Prop where
  rest : l.rest = text
  ended : l.nextUnget = true → l.current = none → l.ia = []

theorem At.keep {text : List UInt8} (h : l.At text) (hkeep : l'.toInput = l.toInput) :
    l'.At text := by
  refine ⟨(rest_keep hkeep).trans h.rest, ?_⟩
  rw [hkeep]
  exact h.ended

theorem At.add {text : List UInt8} (c : UInt8) (h : l.At text) : (l.add c).At text := h.keep rfl

theorem At.reset {text : List UInt8} (h : l.At text) : l.reset.At text := h.keep rfl

theorem At.get {c : UInt8} {text : List UInt8} (h : l.At (c :: text)) :
    l.get.current = some c ∧ l.get.At text := by
  have hcurrent : l.get.current = some c := by
    have hrest := h.rest
    unfold Lexer.rest at hrest
    unfold Lexer.get
    cases hunget : l.nextUnget with
    | true =>
      cases hc : l.current with
      | none =>
        rw [hunget, hc, h.ended hunget hc] at hrest
        cases hrest
      | some b =>
        rw [hunget, hc] at hrest
        obtain ⟨rfl, -⟩ := List.cons.inj hrest
        rfl
    | false =>
      rw [hunget] at hrest
      change (if false = true then l.current else l.ia.head?) = some c
      rw [show l.ia = c :: text from hrest]
      rfl
  have hrest := rest_of_get hcurrent
  rw [h.rest] at hrest
  exact ⟨hcurrent, (List.cons.inj hrest).2.symm, by intro hunget; cases hunget⟩

theorem At.get_nil (h : l.At []) : l.get.current = none := by
  cases hc : l.get.current with
  | none => rfl
  | some c =>
    have hrest := rest_of_get hc
    rw [h.rest] at hrest
    cases hrest

theorem At.current_get {text : List UInt8} (h : l.At text) : l.get.current = text.head? := by
  cases text with
  | nil => exact h.get_nil
  | cons c text => exact h.get.1

theorem At.look {text : List UInt8} (h : l.At text) : l.get.unget.At text := by
  refine ⟨(rest_look l).trans h.rest, ?_⟩
  intro _ hcurrent
  have hrest := h.rest
  unfold Lexer.rest at hrest
  change l.get.current = none at hcurrent
  rw [h.current_get] at hcurrent
  rw [List.head?_eq_none_iff.mp hcurrent] at hrest
  change (if l.nextUnget then l.ia else l.ia.tail) = []
  rw [(List.append_eq_nil_iff.mp hrest).2]
  cases l.nextUnget <;> rfl

/-- Moves leave the input in order. -/
theorem Moves.at_rest {text : List UInt8} (h : Moves l l') (hl : l.At text) : l'.At l'.rest := by
  induction h with
  | refl =>
    rw [hl.rest]
    exact hl
  | tail _ hmove ih =>
    cases hmove with
    | get => exact ⟨rfl, by intro hunget; cases hunget⟩
    | look =>
      rw [rest_look]
      exact ih.look
    | keep hkeep _ =>
      rw [rest_keep hkeep]
      exact ih.keep hkeep

theorem charsReadTotal_get (l : Lexer Double) :
    l.get.position.charsReadTotal = l.position.charsReadTotal + 1 := by
  unfold Lexer.get
  dsimp only
  rw [apply_ite Position.charsReadTotal]
  exact ite_self _

theorem charsReadTotal_unget (l : Lexer Double) :
    l.unget.position.charsReadTotal = l.position.charsReadTotal - 1 := by
  unfold unget
  dsimp only
  rw [apply_ite Position.charsReadTotal]
  exact ite_self _

theorem Moves.started (h : Moves l l')
    (hl : l.position.charsReadTotal ≠ 0) : l'.position.charsReadTotal ≠ 0 := by
  induction h with
  | refl => exact hl
  | @tail l₁ l₂ _ hmove ih =>
    have hget := charsReadTotal_get l₁
    have hunget := charsReadTotal_unget l₁.get
    cases hmove with
    | get => omega
    | look => omega
    | keep hkeep _ =>
      rw [hkeep]
      exact ih

theorem started_get (l : Lexer Double) : l.get.position.charsReadTotal ≠ 0 := by
  rw [charsReadTotal_get]
  exact Nat.succ_ne_zero _

/-- A byte was read before these moves. -/
theorem Moves.rest_lt {c : UInt8} (hc : l.get.current = some c) (h : Moves l.get l') :
    l'.rest.length < l.rest.length := by
  have hle := h.rest_suffix.length_le
  rw [rest_of_get hc, List.length_cons]
  omega

end Moves

end Lexer

end Qwin
