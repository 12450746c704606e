import Mathlib.Data.List.TakeWhile
import Qwin.Parser.Meaning

/-!
`scan_number` takes exactly the numbers of a JSON text, each as far as it goes. For
every label of the state machine there is a lemma on what it takes, and another one
on what it must have taken where it comes to no error.
-/

set_option autoImplicit false

namespace Qwin

open Decimals Loops JsonText

namespace Lexer

variable {Double : Type}

theorem digitsLoop_at {l : Lexer Double} {text : List UInt8} (h : l.At text) :
    ∃ l₀ : Lexer Double, digitsLoop.run l = l₀.get ∧ l₀.At (text.dropWhile isDigit) ∧
      l₀.tokenBuffer = l.tokenBuffer ++ text.takeWhile isDigit := by
  have hdone : ∀ {l : Lexer Double}, l.get.current.filter isDigit = none →
      digitsLoop.run l = l.get := by
    intro l hnone
    refine Loop.run_done ?_
    dsimp only [digitsLoop]
    rw [hnone]
  induction text generalizing l with
  | nil =>
    refine ⟨l, hdone (by rw [h.get_nil]; rfl), h, (List.append_nil _).symm⟩
  | cons c text ih =>
    obtain ⟨hcurrent, hat⟩ := h.get
    cases hc : isDigit c with
    | false =>
      have hnot : ¬ isDigit c = true := by simp [hc]
      rw [List.dropWhile_cons_of_neg hnot, List.takeWhile_cons_of_neg hnot]
      refine ⟨l, hdone ?_, h, (List.append_nil _).symm⟩
      rw [hcurrent, Option.filter_some, if_neg hnot]
    | true =>
      rw [List.dropWhile_cons_of_pos hc, List.takeWhile_cons_of_pos hc]
      have hturn : digitsLoop.turn l = .next (l.get.add c) := by
        dsimp only [digitsLoop]
        rw [hcurrent, Option.filter_some, if_pos hc]
      obtain ⟨l₀, hrun, hat₀, hbuffer⟩ := ih (hat.add c)
      refine ⟨l₀, (Loop.run_next hturn).trans hrun, hat₀, ?_⟩
      rw [hbuffer, List.append_cons]
      rfl

/-- The text does not begin with a byte of the kind. -/
def Lacks (kind : UInt8 → Prop) (text : List UInt8) : Prop := ∀ b, text.head? = some b → ¬ kind b

def NoDigit (text : List UInt8) : Prop := Lacks (fun b => isDigit b = true) text

theorem noDigit_dropWhile (text : List UInt8) : NoDigit (text.dropWhile isDigit) := by
  intro b hb
  have hnot := List.head?_dropWhile_not isDigit text
  rw [hb] at hnot
  simpa using hnot

theorem digitsLoop_append {l : Lexer Double} {bytes text : List UInt8}
    (hdigits : ∀ b ∈ bytes, isDigit b = true) (hstop : NoDigit text) (h : l.At (bytes ++ text)) :
    ∃ l₀ : Lexer Double, digitsLoop.run l = l₀.get ∧ l₀.At text ∧
      l₀.tokenBuffer = l.tokenBuffer ++ bytes := by
  obtain ⟨l₀, hrun, hat, hbuffer⟩ := digitsLoop_at h
  have hstop' : text.dropWhile isDigit = text ∧ text.takeWhile isDigit = [] := by
    cases text with
    | nil => exact ⟨rfl, rfl⟩
    | cons b text =>
      exact ⟨List.dropWhile_cons_of_neg (hstop b rfl), List.takeWhile_cons_of_neg (hstop b rfl)⟩
  rw [List.dropWhile_append_of_pos hdigits, hstop'.1] at hat
  rw [List.takeWhile_append_of_pos hdigits, hstop'.2, List.append_nil] at hbuffer
  exact ⟨l₀, hrun, hat, hbuffer⟩

theorem digits_at {l : Lexer Double} {digits : Digits} {text : List UInt8}
    (h : l.At (digits.bytes ++ text)) (hstop : NoDigit text) :
    ∃ c, ∃ l₀ : Lexer Double, l.get.current.filter isDigit = some c ∧
      digitsLoop.run (l.get.add c) = l₀.get ∧ l₀.At text ∧
      l₀.tokenBuffer = l.tokenBuffer ++ digits.bytes := by
  obtain ⟨bytes, hne, hdigits⟩ := digits
  cases bytes with
  | nil => exact absurd rfl hne
  | cons c bytes =>
    obtain ⟨hc, hbytes⟩ := List.forall_mem_cons.mp hdigits
    obtain ⟨hcurrent, hat⟩ := h.get
    obtain ⟨l₀, hrun, hat₀, hbuffer⟩ :=
      digitsLoop_append hbytes hstop (hat.add c)
    refine ⟨c, l₀, ?_, hrun, hat₀, ?_⟩
    · rw [hcurrent, Option.filter_some, if_pos hc]
    · rw [hbuffer, tokenBuffer_add, tokenBuffer_get, ← List.append_cons]

theorem digits_some {l : Lexer Double} {c : UInt8} {text : List UInt8} (h : l.At text)
    (hc : l.get.current.filter isDigit = some c) :
    ∃ l₀ : Lexer Double, ∃ (digits : Digits) (text' : List UInt8),
      digitsLoop.run (l.get.add c) = l₀.get ∧ text = digits.bytes ++ text' ∧ NoDigit text' ∧
      l₀.At text' ∧ l₀.tokenBuffer = l.tokenBuffer ++ digits.bytes := by
  obtain ⟨hcurrent, hdigit⟩ := Option.filter_eq_some_iff.mp hc
  rw [h.current_get] at hcurrent
  cases text with
  | nil => cases hcurrent
  | cons b text =>
    obtain rfl : b = c := Option.some.inj hcurrent
    obtain ⟨l₀, hrun, hat₀, hbuffer⟩ := digitsLoop_at (h.get.2.add b)
    refine ⟨l₀, ⟨b :: text.takeWhile isDigit, List.cons_ne_nil _ _, ?_⟩, text.dropWhile isDigit,
      hrun, ?_, noDigit_dropWhile text, hat₀, ?_⟩
    · exact List.forall_mem_cons.mpr ⟨hdigit, fun d hd => List.mem_takeWhile_imp hd⟩
    · rw [List.cons_append, List.takeWhile_append_dropWhile]
    · rw [hbuffer, tokenBuffer_add, tokenBuffer_get, ← List.append_cons]

section
variable [Strtod Double]

/-- What is made of the text of a number. -/
def numberValue (numberType : TokenType) (text : List UInt8) : Value Double :=
  match numberType with
  | .valueUnsigned =>
    match strtoull text with
    | some x => .numberUnsigned x
    | none => .numberFloat (Strtod.strtod text)
  | .valueInteger =>
    match strtoll text with
    | some x => .numberInteger x
    | none => .numberFloat (Strtod.strtod text)
  | _ => .numberFloat (Strtod.strtod text)

theorem scanNumberDone_at {l : Lexer Double} {text : List UInt8} (numberType : TokenType)
    (h : l.At text) :
    Scanned (scanNumberDone numberType l.get) (numberValue numberType l.tokenBuffer) text := by
  have hlook := h.look
  unfold scanNumberDone numberValue
  cases numberType with
  | valueUnsigned =>
    dsimp only
    rw [show l.get.unget.tokenBuffer = l.tokenBuffer from rfl]
    cases strtoull l.tokenBuffer with
    | some x => exact ⟨rfl, hlook.keep rfl⟩
    | none => exact ⟨rfl, hlook.keep rfl⟩
  | valueInteger =>
    dsimp only
    rw [show l.get.unget.tokenBuffer = l.tokenBuffer from rfl]
    cases strtoll l.tokenBuffer with
    | some x => exact ⟨rfl, hlook.keep rfl⟩
    | none => exact ⟨rfl, hlook.keep rfl⟩
  | _ => exact ⟨rfl, hlook.keep rfl⟩
variable {l : Lexer Double} {text : List UInt8}

theorem scanNumberAny2_digits {l₀ : Lexer Double} {bytes : List UInt8} {c : UInt8}
    (hrun : digitsLoop.run (l.get.add c) = l₀.get) (hat : l₀.At text)
    (hbuffer : l₀.tokenBuffer = bytes) :
    Scanned (scanNumberAny2 (l.get.add c)) (numberValue .valueFloat bytes) text := by
  unfold scanNumberAny2
  rw [hrun, ← hbuffer]
  exact scanNumberDone_at _ hat

def IsSign (b : UInt8) : Prop := b = 0x2B ∨ b = 0x2D

def IsLetter (b : UInt8) : Prop := b = 0x65 ∨ b = 0x45

theorem not_isDigit_of_isSign {b : UInt8} (h : IsSign b) : isDigit b = false := by
  rcases h with rfl | rfl <;> rfl

theorem scanNumberExponent_at {sign : Option UInt8} {digits : Digits}
    (hsign : ∀ b ∈ sign, IsSign b) (h : l.At (sign.toList ++ (digits.bytes ++ text)))
    (hstop : NoDigit text) :
    Scanned (scanNumberExponent l)
      (numberValue .valueFloat (l.tokenBuffer ++ (sign.toList ++ digits.bytes))) text := by
  unfold scanNumberExponent
  cases sign with
  | none =>
    obtain ⟨c, l₀, hc, hrun, hat, hbuffer⟩ := digits_at h hstop
    obtain ⟨hcurrent, hdigit⟩ := Option.filter_eq_some_iff.mp hc
    rw [hcurrent, Option.filter_some, if_pos (by simp [hdigit])]
    dsimp only
    rw [if_pos hdigit]
    exact scanNumberAny2_digits hrun hat hbuffer
  | some b =>
    obtain ⟨hcurrent, hat⟩ := h.get
    have hb : IsSign b := hsign b rfl
    obtain ⟨c, l₀, hc, hrun, hat', hbuffer⟩ :=
      digits_at (hat.add b) hstop
    rw [hcurrent, Option.filter_some, if_pos (by rcases hb with rfl | rfl <;> rfl)]
    dsimp only
    rw [not_isDigit_of_isSign hb, if_neg Bool.false_ne_true, scanNumberSign, hc]
    dsimp only
    refine scanNumberAny2_digits hrun hat' ?_
    rw [hbuffer, tokenBuffer_add, tokenBuffer_get, List.append_assoc]
    rfl

theorem scanNumberExponent_some (h : l.At text) (hr : (scanNumberExponent l).1 ≠ .parseError) :
    ∃ (sign : Option UInt8) (digits : Digits) (text' : List UInt8), (∀ b ∈ sign, IsSign b) ∧
      text = sign.toList ++ (digits.bytes ++ text') ∧ NoDigit text' ∧
      Scanned (scanNumberExponent l)
        (numberValue .valueFloat (l.tokenBuffer ++ (sign.toList ++ digits.bytes))) text' := by
  unfold scanNumberExponent at hr ⊢
  cases hc : l.get.current.filter fun c => c == 0x2B || c == 0x2D || isDigit c with
  | none =>
    rw [hc] at hr
    exact absurd rfl hr
  | some c =>
    rw [hc] at hr
    obtain ⟨hcurrent, hkind⟩ := Option.filter_eq_some_iff.mp hc
    dsimp only at hr ⊢
    cases hdigit : isDigit c with
    | true =>
      obtain ⟨l₀, digits, text', hrun, htext, hstop, hat, hbuffer⟩ :=
        digits_some h (c := c) (by rw [hcurrent, Option.filter_some, if_pos hdigit])
      refine ⟨none, digits, text', (by intro b hb; cases hb), htext, hstop, ?_⟩
      exact scanNumberAny2_digits hrun hat hbuffer
    | false =>
      rw [hdigit, if_neg Bool.false_ne_true] at hr
      rw [if_neg Bool.false_ne_true]
      have hsign : IsSign c := by simpa [hdigit, IsSign] using hkind
      rw [h.current_get] at hcurrent
      cases text with
      | nil => cases hcurrent
      | cons b text =>
        obtain rfl : b = c := Option.some.inj hcurrent
        unfold scanNumberSign at hr ⊢
        cases hc' : (l.get.add b).get.current.filter isDigit with
        | none =>
          rw [hc'] at hr
          exact absurd rfl hr
        | some d =>
          obtain ⟨l₀, digits, text', hrun, htext, hstop, hat, hbuffer⟩ :=
            digits_some (h.get.2.add b) hc'
          refine ⟨some b, digits, text', ?_, by rw [htext]; rfl, hstop, ?_⟩
          · intro b' hb'
            cases hb'
            exact hsign
          · refine scanNumberAny2_digits hrun hat ?_
            rw [hbuffer, tokenBuffer_add, tokenBuffer_get, List.append_assoc]
            rfl

/-- The type that a fraction or an exponent leaves a number. -/
def typeAfter (numberType : TokenType) (fraction : Option Digits) (exponent : Option Exponent) :
    TokenType :=
  if fraction.isSome || exponent.isSome then .valueFloat else numberType

omit [Strtod Double] in
theorem typeAfter_float (fraction : Option Digits) (exponent : Option Exponent) :
    typeAfter .valueFloat fraction exponent = .valueFloat := by
  unfold typeAfter
  split <;> rfl

theorem exponentOrDone_at (numberType : TokenType) {exponent : Option Exponent}
    (h : l.At (exponentText exponent ++ text))
    (hletter : exponent.isNone → Lacks IsLetter text) (hdigit : exponent.isSome → NoDigit text) :
    Scanned (exponentOrDone numberType l.get)
      (numberValue (typeAfter numberType none exponent) (l.tokenBuffer ++ exponentText exponent))
      text := by
  unfold exponentOrDone
  cases exponent with
  | none =>
    have hcurrent := h.current_get
    change l.get.current = text.head? at hcurrent
    have hnone : (l.get.current.filter fun c => c == 0x65 || c == 0x45) = none := by
      rw [hcurrent]
      cases text with
      | nil => rfl
      | cons b text =>
        have hb := hletter rfl b rfl
        rw [List.head?_cons, Option.filter_some, if_neg (by simpa [IsLetter] using hb)]
    rw [hnone]
    change Scanned _ (numberValue numberType (l.tokenBuffer ++ [])) text
    rw [List.append_nil]
    exact scanNumberDone_at numberType h
  | some e =>
    have htext : exponentText (some e) ++ text =
        e.letter :: (e.sign.toList ++ (e.digits.bytes ++ text)) := by
      rw [exponentText, Exponent.text, List.cons_append, List.append_assoc]
    rw [htext] at h
    obtain ⟨hcurrent, hat⟩ := h.get
    have hkind : (e.letter == 0x65 || e.letter == 0x45) = true := by
      simpa using e.isLetter
    rw [hcurrent, Option.filter_some, if_pos hkind]
    have hscanned := scanNumberExponent_at e.isSign (hat.add e.letter)
      (hdigit rfl)
    rw [tokenBuffer_add, tokenBuffer_get, List.append_assoc] at hscanned
    exact hscanned

theorem exponentOrDone_some {numberType : TokenType} (h : l.At text)
    (hr : (exponentOrDone numberType l.get).1 ≠ .parseError) :
    ∃ (exponent : Option Exponent) (text' : List UInt8), text = exponentText exponent ++ text' ∧
      (exponent.isNone → Lacks IsLetter text') ∧ (exponent.isSome → NoDigit text') ∧
      Scanned (exponentOrDone numberType l.get)
        (numberValue (typeAfter numberType none exponent)
          (l.tokenBuffer ++ exponentText exponent)) text' := by
  unfold exponentOrDone at hr ⊢
  cases hc : l.get.current.filter fun c => c == 0x65 || c == 0x45 with
  | none =>
    refine ⟨none, text, rfl, ?_, (by intro hsome; cases hsome), ?_⟩
    · intro _ b hb hletter
      rw [h.current_get, hb, Option.filter_some, if_pos (by simpa [IsLetter] using hletter)] at hc
      cases hc
    · change Scanned _ (numberValue numberType (l.tokenBuffer ++ [])) text
      rw [List.append_nil]
      exact scanNumberDone_at numberType h
  | some c =>
    rw [hc] at hr
    obtain ⟨hcurrent, hkind⟩ := Option.filter_eq_some_iff.mp hc
    rw [h.current_get] at hcurrent
    cases text with
    | nil => cases hcurrent
    | cons b text =>
      obtain rfl : b = c := Option.some.inj hcurrent
      obtain ⟨sign, digits, text', hsign, htext, hstop, hscanned⟩ :=
        scanNumberExponent_some (h.get.2.add b) hr
      refine ⟨some ⟨b, by simpa using hkind, sign, hsign, digits⟩, text', ?_,
        (by intro hnone; cases hnone), fun _ => hstop, ?_⟩
      · rw [htext, exponentText, Exponent.text, List.cons_append, List.append_assoc]
      · rw [tokenBuffer_add, tokenBuffer_get, List.append_assoc] at hscanned
        exact hscanned

theorem scanNumberDecimal1_at {digits : Digits} {exponent : Option Exponent}
    (h : l.At (digits.bytes ++ (exponentText exponent ++ text)))
    (hletter : exponent.isNone → Lacks IsLetter text) (hdigit : NoDigit text) :
    Scanned (scanNumberDecimal1 l)
      (numberValue .valueFloat (l.tokenBuffer ++ (digits.bytes ++ exponentText exponent)))
      text := by
  have hstop : NoDigit (exponentText exponent ++ text) := by
    cases exponent with
    | none => exact hdigit
    | some e =>
      intro b hb
      obtain rfl : e.letter = b := Option.some.inj hb
      rcases e.isLetter with hletter | hletter <;> rw [hletter] <;> decide
  obtain ⟨c, l₀, hc, hrun, hat, hbuffer⟩ := digits_at h hstop
  unfold scanNumberDecimal1
  rw [hc]
  dsimp only
  unfold scanNumberDecimal2
  rw [hrun]
  have hscanned := exponentOrDone_at .valueFloat hat hletter fun _ => hdigit
  rw [typeAfter_float, hbuffer, List.append_assoc] at hscanned
  exact hscanned

theorem scanNumberDecimal1_some (h : l.At text) (hr : (scanNumberDecimal1 l).1 ≠ .parseError) :
    ∃ (digits : Digits) (exponent : Option Exponent) (text' : List UInt8),
      text = digits.bytes ++ (exponentText exponent ++ text') ∧
      (exponent.isNone → Lacks IsLetter text') ∧ NoDigit text' ∧
      Scanned (scanNumberDecimal1 l)
        (numberValue .valueFloat (l.tokenBuffer ++ (digits.bytes ++ exponentText exponent)))
        text' := by
  unfold scanNumberDecimal1 at hr ⊢
  cases hc : l.get.current.filter isDigit with
  | none =>
    rw [hc] at hr
    exact absurd rfl hr
  | some c =>
    rw [hc] at hr
    obtain ⟨l₀, digits, text₀, hrun, htext, hstop, hat, hbuffer⟩ := digits_some h hc
    dsimp only at hr ⊢
    unfold scanNumberDecimal2 at hr ⊢
    rw [hrun] at hr ⊢
    obtain ⟨exponent, text', htext', hletter, hdigit, hscanned⟩ := exponentOrDone_some hat hr
    rw [typeAfter_float, hbuffer, List.append_assoc] at hscanned
    refine ⟨digits, exponent, text', by rw [htext, htext'], hletter, ?_, hscanned⟩
    cases exponent with
    | none =>
      obtain rfl : text₀ = text' := htext'
      exact hstop
    | some e => exact hdigit rfl

/-- No byte of the text goes on with the number before it. -/
structure Stops (fraction : Option Digits) (exponent : Option Exponent) (text : List UInt8) :
    Prop where
  letter : exponent.isNone → Lacks IsLetter text
  point : fraction.isNone → exponent.isNone → Lacks (· = 0x2E) text
  digit : fraction.isSome ∨ exponent.isSome → NoDigit text

theorem decimalOrDone_at (numberType : TokenType) {fraction : Option Digits}
    {exponent : Option Exponent}
    (h : l.At (fractionText fraction ++ (exponentText exponent ++ text)))
    (hstops : Stops fraction exponent text) :
    Scanned (decimalOrDone numberType l.get)
      (numberValue (typeAfter numberType fraction exponent)
        (l.tokenBuffer ++ (fractionText fraction ++ exponentText exponent))) text := by
  unfold decimalOrDone
  cases fraction with
  | none =>
    have hcurrent : l.get.current ≠ some 0x2E := by
      rw [h.current_get]
      cases exponent with
      | none =>
        intro hpoint
        exact hstops.point rfl rfl _ hpoint rfl
      | some e =>
        intro hpoint
        have hletter := e.isLetter
        rw [show e.letter = 0x2E from Option.some.inj hpoint] at hletter
        revert hletter
        decide
    rw [if_neg hcurrent]
    exact exponentOrDone_at numberType h hstops.letter fun hsome => hstops.digit (.inr hsome)
  | some digits =>
    obtain ⟨hcurrent, hat⟩ := h.get
    rw [if_pos hcurrent]
    have hscanned := scanNumberDecimal1_at (hat.add 0x2E) hstops.letter
      (hstops.digit (.inl rfl))
    rw [tokenBuffer_add, tokenBuffer_get, List.append_assoc] at hscanned
    exact hscanned

theorem decimalOrDone_some {numberType : TokenType} (h : l.At text)
    (hr : (decimalOrDone numberType l.get).1 ≠ .parseError) :
    ∃ (fraction : Option Digits) (exponent : Option Exponent) (text' : List UInt8),
      text = fractionText fraction ++ (exponentText exponent ++ text') ∧
      Stops fraction exponent text' ∧
      Scanned (decimalOrDone numberType l.get)
        (numberValue (typeAfter numberType fraction exponent)
          (l.tokenBuffer ++ (fractionText fraction ++ exponentText exponent))) text' := by
  unfold decimalOrDone at hr ⊢
  split at hr
  · rename_i hcurrent
    rw [if_pos hcurrent]
    rw [h.current_get] at hcurrent
    cases text with
    | nil => cases hcurrent
    | cons b text =>
      obtain rfl : b = 0x2E := Option.some.inj hcurrent
      obtain ⟨digits, exponent, text', htext, hletter, hdigit, hscanned⟩ :=
        scanNumberDecimal1_some (h.get.2.add 0x2E) hr
      refine ⟨some digits, exponent, text', by rw [htext]; rfl,
        ⟨hletter, (by intro hnone; cases hnone), fun _ => hdigit⟩, ?_⟩
      rw [tokenBuffer_add, tokenBuffer_get, List.append_assoc] at hscanned
      exact hscanned
  · rename_i hcurrent
    rw [if_neg hcurrent]
    rw [h.current_get] at hcurrent
    obtain ⟨exponent, text', htext, hletter, hdigit, hscanned⟩ := exponentOrDone_some h hr
    refine ⟨none, exponent, text', htext, ⟨hletter, ?_, ?_⟩, hscanned⟩
    · intro _ hnone b hb hpoint
      cases exponent with
      | none =>
        rw [htext] at hcurrent
        exact hcurrent (hpoint ▸ hb)
      | some e => cases hnone
    · intro hsome
      exact hdigit (hsome.resolve_left (by intro h'; cases h'))

theorem noDigit_tail {fraction : Option Digits} {exponent : Option Exponent}
    (h : fraction.isNone → exponent.isNone → NoDigit text) :
    NoDigit (fractionText fraction ++ (exponentText exponent ++ text)) := by
  cases fraction with
  | some digits =>
    intro b hb
    obtain rfl : 0x2E = b := Option.some.inj hb
    decide
  | none =>
    cases exponent with
    | none => exact h rfl rfl
    | some e =>
      intro b hb
      obtain rfl : e.letter = b := Option.some.inj hb
      rcases e.isLetter with hletter | hletter <;> rw [hletter] <;> decide

/-- The first digit is the current byte. -/
theorem firstDigit_at (numberType : TokenType) {n : Number} {c : UInt8} {bytes : List UInt8}
    (hint : n.int.bytes = c :: bytes)
    (h : l.At (bytes ++ (fractionText n.fraction ++ (exponentText n.exponent ++ text))))
    (hstops : Stops n.fraction n.exponent text)
    (hdigit : n.int.bytes = [0x30] ∨ NoDigit text) :
    Scanned (firstDigit numberType c l)
      (numberValue (typeAfter numberType n.fraction n.exponent)
        (l.tokenBuffer ++ (n.int.bytes ++ (fractionText n.fraction ++ exponentText n.exponent))))
      text := by
  unfold firstDigit
  by_cases hc : c = 0x30
  · have hzero : n.int.bytes = [0x30] := n.noLeadingZero (by rw [hint, hc]; rfl)
    obtain rfl : bytes = [] := (List.cons.inj (hint.symm.trans hzero)).2
    rw [if_pos hc]
    have hscanned := decimalOrDone_at numberType (h.add c) hstops
    rw [tokenBuffer_add, List.append_assoc] at hscanned
    rw [hint]
    exact hscanned
  · have hne : n.int.bytes ≠ [0x30] := by
      intro hzero
      exact hc (List.cons.inj (hint.symm.trans hzero)).1
    have hbytes : ∀ b ∈ bytes, isDigit b = true := by
      intro b hb
      exact n.int.digits b (hint ▸ List.mem_cons_of_mem c hb)
    have hstop : NoDigit (fractionText n.fraction ++ (exponentText n.exponent ++ text)) :=
      noDigit_tail fun _ _ => hdigit.resolve_left hne
    obtain ⟨l₀, hrun, hat, hbuffer⟩ := digitsLoop_append hbytes hstop (h.add c)
    rw [if_neg hc, scanNumberAny1, hrun]
    have hscanned := decimalOrDone_at numberType hat hstops
    rw [hbuffer, tokenBuffer_add, ← List.append_cons, ← hint, List.append_assoc] at hscanned
    exact hscanned

theorem firstDigit_some {numberType : TokenType} {c : UInt8} (minus : Bool)
    (hc : isDigit c = true) (h : l.At text) (hr : (firstDigit numberType c l).1 ≠ .parseError) :
    ∃ (n : Number) (text' : List UInt8), n.minus = minus ∧
      c :: text = n.int.bytes ++ (fractionText n.fraction ++ (exponentText n.exponent ++ text')) ∧
      Stops n.fraction n.exponent text' ∧ (n.int.bytes = [0x30] ∨ NoDigit text') ∧
      Scanned (firstDigit numberType c l)
        (numberValue (typeAfter numberType n.fraction n.exponent)
          (l.tokenBuffer ++ (n.int.bytes ++ (fractionText n.fraction ++ exponentText n.exponent))))
        text' := by
  unfold firstDigit at hr ⊢
  by_cases hzero : c = 0x30
  · rw [if_pos hzero] at hr ⊢
    obtain ⟨fraction, exponent, text', htext, hstops, hscanned⟩ :=
      decimalOrDone_some (h.add c) hr
    rw [tokenBuffer_add, List.append_assoc, hzero] at hscanned
    let zero : Digits := ⟨[0x30], List.cons_ne_nil _ _, List.forall_mem_singleton.mpr rfl⟩
    refine ⟨⟨minus, zero, fun _ => rfl, fraction, exponent⟩, text', rfl, ?_, hstops, .inl rfl, ?_⟩
    · rw [hzero, htext]
      rfl
    · rw [hzero]
      exact hscanned
  · rw [if_neg hzero] at hr ⊢
    obtain ⟨l₀, hrun, hat, hbuffer⟩ := digitsLoop_at (h.add c)
    unfold scanNumberAny1 at hr ⊢
    rw [hrun] at hr ⊢
    obtain ⟨fraction, exponent, text', htext, hstops, hscanned⟩ := decimalOrDone_some hat hr
    rw [hbuffer, tokenBuffer_add, ← List.append_cons, List.append_assoc] at hscanned
    have hdigits : ∀ b ∈ c :: text.takeWhile isDigit, isDigit b = true :=
      List.forall_mem_cons.mpr ⟨hc, fun b hb => List.mem_takeWhile_imp hb⟩
    refine ⟨⟨minus, ⟨c :: text.takeWhile isDigit, List.cons_ne_nil _ _, hdigits⟩, ?_, fraction,
      exponent⟩, text', rfl, ?_, hstops, ?_, hscanned⟩
    · intro hhead
      exact absurd (Option.some.inj hhead) hzero
    · rw [← htext, List.cons_append, List.takeWhile_append_dropWhile]
    · right
      by_cases hnone : fraction.isNone ∧ exponent.isNone
      · rw [Option.isNone_iff_eq_none, Option.isNone_iff_eq_none] at hnone
        have hstop := noDigit_dropWhile text
        rw [htext, hnone.1, hnone.2] at hstop
        exact hstop
      · refine hstops.digit ?_
        cases fraction with
        | some digits => exact .inl rfl
        | none =>
          cases exponent with
          | some e => exact .inr rfl
          | none => exact absurd ⟨rfl, rfl⟩ hnone

omit [Strtod Double] in
theorem readDigits_int (n : Number) :
    readDigits n.int.bytes = some (n.int.bytes.foldl (fun m b => 10 * m + (b.toNat - 48)) 0) := by
  rw [readDigits, if_pos ⟨n.int.ne_nil, List.all_eq_true.mpr n.int.digits⟩]

theorem numberValue_text (n : Number) :
    numberValue (typeAfter (if n.minus then .valueInteger else .valueUnsigned) n.fraction
      n.exponent) n.text = (numberMeaning n : Value Double) := by
  unfold numberMeaning typeAfter
  cases hfraction : n.fraction with
  | some digits => rfl
  | none =>
    cases hexponent : n.exponent with
    | some e => rfl
    | none =>
      have htext : n.text = (if n.minus then [0x2D] else []) ++ n.int.bytes := by
        rw [Number.text, hfraction, hexponent, fractionText, exponentText, List.append_nil,
          List.append_nil]
      have hread := readDigits_int n
      unfold Number.integer
      generalize n.int.bytes.foldl (fun m b => 10 * m + (b.toNat - 48)) 0 = m at hread
      cases hminus : n.minus with
      | true =>
        have hdecimal : readDecimal n.text = some (-(m : Int)) := by
          rw [htext, hminus]
          change (readDigits n.int.bytes).map _ = _
          rw [hread]
          rfl
        have hstrtoll : strtoll n.text =
            if -9223372036854775808 ≤ -(m : Int) then some (.ofInt (-m)) else none := by
          unfold strtoll
          rw [hdecimal, Option.filter_some]
          by_cases hm : -9223372036854775808 ≤ -(m : Int)
          · rw [if_pos hm, if_pos (by simp only [Bool.and_eq_true, decide_eq_true_eq]; omega)]
            rfl
          · rw [if_neg hm, if_neg (by simp only [Bool.and_eq_true, decide_eq_true_eq]; omega)]
            rfl
        change (match strtoll n.text with
          | some x => Value.numberInteger x
          | none => .numberFloat (Strtod.strtod n.text)) = if -9223372036854775808 ≤ -(m : Int)
            then Value.numberInteger (.ofInt (-m)) else .numberFloat (Strtod.strtod n.text)
        by_cases hm : -9223372036854775808 ≤ -(m : Int)
        · rw [hstrtoll, if_pos hm, if_pos hm]
        · rw [hstrtoll, if_neg hm, if_neg hm]
      | false =>
        have hstrtoull : strtoull n.text =
            if (m : Int) ≤ 18446744073709551615 then some (.ofNat m) else none := by
          unfold strtoull
          rw [htext, hminus, if_neg Bool.false_ne_true, List.nil_append, hread, Option.filter_some]
          by_cases hm : (m : Int) ≤ 18446744073709551615
          · rw [if_pos hm, if_pos (by simp only [decide_eq_true_eq]; omega)]
            rfl
          · rw [if_neg hm, if_neg (by simp only [decide_eq_true_eq]; omega)]
            rfl
        change (match strtoull n.text with
          | some x => Value.numberUnsigned x
          | none => .numberFloat (Strtod.strtod n.text)) = if (m : Int) ≤ 18446744073709551615
            then Value.numberUnsigned (.ofNat m) else .numberFloat (Strtod.strtod n.text)
        by_cases hm : (m : Int) ≤ 18446744073709551615
        · rw [hstrtoull, if_pos hm, if_pos hm]
        · rw [hstrtoull, if_neg hm, if_neg hm]

omit [Strtod Double] in
theorem stops_of_stopsAt {n : Number} (h : ∀ b, text.head? = some b → n.StopsAt b) :
    Stops n.fraction n.exponent text ∧ (n.int.bytes = [0x30] ∨ NoDigit text) := by
  have hdigit : n.fraction.isSome ∨ n.exponent.isSome → NoDigit text := by
    intro hsome b hb hdigit
    obtain ⟨-, hfraction, hexponent⟩ := (h b hb).1 hdigit
    simp_all
  refine ⟨⟨?_, ?_, hdigit⟩, ?_⟩
  · intro hnone b hb hletter
    have hsome := (h b hb).2.2 hletter
    simp_all
  · intro hfraction hexponent b hb hpoint
    have hsome := (h b hb).2.1 hpoint
    simp_all
  · by_cases hzero : n.int.bytes = [0x30]
    · exact .inl hzero
    · exact .inr fun b hb hdigit => hzero ((h b hb).1 hdigit).1

omit [Strtod Double] in
theorem stopsAt_of_stops {n : Number} (h : Stops n.fraction n.exponent text)
    (hdigit : n.int.bytes = [0x30] ∨ NoDigit text) (b : UInt8) (hb : text.head? = some b) :
    n.StopsAt b := by
  refine ⟨?_, ?_, ?_⟩
  · intro hb'
    have hzero := hdigit.resolve_right fun hstop => hstop b hb hb'
    have hnot : ¬ (n.fraction.isSome ∨ n.exponent.isSome) := fun hsome => h.digit hsome b hb hb'
    simp_all
  · intro hpoint
    by_contra hnot
    exact h.point (by simp_all) (by simp_all) b hb hpoint
  · intro hletter
    by_contra hnot
    exact h.letter (by simp_all) b hb hletter

theorem scanNumber_at {n : Number} {c : UInt8} {rest : List UInt8}
    (htext : n.text ++ text = c :: rest) (h : l.At rest)
    (hstops : ∀ b, text.head? = some b → n.StopsAt b) :
    Scanned (scanNumber c l) (numberMeaning n) text := by
  obtain ⟨hstops, hdigit⟩ := stops_of_stopsAt hstops
  rw [← numberValue_text]
  unfold Number.text at htext ⊢
  obtain ⟨d, bytes, hint⟩ := List.exists_cons_of_ne_nil n.int.ne_nil
  have hd : isDigit d = true := n.int.digits d (hint ▸ List.mem_cons_self)
  unfold scanNumber
  cases hminus : n.minus with
  | true =>
    simp only [hminus, if_true, List.append_assoc, hint] at htext
    obtain ⟨rfl, rfl⟩ := List.cons.inj htext
    obtain ⟨hcurrent, hat⟩ := (h.reset.add 0x2D).get
    rw [if_pos rfl, scanNumberMinus, hcurrent, Option.filter_some, if_pos hd]
    have hscanned := firstDigit_at .valueInteger hint hat hstops hdigit
    rw [if_pos rfl, if_pos rfl]
    simp only [List.append_assoc]
    exact hscanned
  | false =>
    simp only [hminus, Bool.false_eq_true, if_false, List.append_assoc, hint] at htext
    obtain ⟨rfl, rfl⟩ := List.cons.inj htext
    have hne : d ≠ 0x2D := by
      rintro rfl
      revert hd
      decide
    rw [if_neg hne]
    have hscanned := firstDigit_at .valueUnsigned hint h.reset hstops hdigit
    rw [if_neg Bool.false_ne_true, if_neg Bool.false_ne_true]
    simp only [List.append_assoc]
    exact hscanned

theorem scanNumber_some {c : UInt8} {rest : List UInt8} (hc : c = 0x2D ∨ isDigit c = true)
    (h : l.At rest) (hr : (scanNumber c l).1 ≠ .parseError) :
    ∃ (n : Number) (text : List UInt8), c :: rest = n.text ++ text ∧
      (∀ b, text.head? = some b → n.StopsAt b) ∧
        Scanned (scanNumber c l) (numberMeaning n) text := by
  unfold scanNumber at hr ⊢
  by_cases hminus : c = 0x2D
  · rw [if_pos hminus] at hr ⊢
    unfold scanNumberMinus at hr ⊢
    cases hd : (l.reset.add c).get.current.filter isDigit with
    | none =>
      rw [hd] at hr
      exact absurd rfl hr
    | some d =>
      rw [hd] at hr
      obtain ⟨hcurrent, hdigit⟩ := Option.filter_eq_some_iff.mp hd
      have hat := h.reset.add c
      rw [hat.current_get] at hcurrent
      cases rest with
      | nil => cases hcurrent
      | cons b rest =>
        obtain rfl : b = d := Option.some.inj hcurrent
        obtain ⟨n, text, hn, htext, hstops, hmore, hscanned⟩ :=
          firstDigit_some true hdigit hat.get.2 hr
        refine ⟨n, text, ?_, stopsAt_of_stops hstops hmore, ?_⟩
        · rw [htext, Number.text, hn, hminus]
          simp only [if_true, List.append_assoc]
          rfl
        · rw [← numberValue_text, Number.text, hn, if_pos rfl, if_pos rfl]
          simp only [List.append_assoc]
          rw [hminus] at hscanned ⊢
          exact hscanned
  · rw [if_neg hminus] at hr ⊢
    obtain ⟨n, text, hn, htext, hstops, hmore, hscanned⟩ :=
      firstDigit_some false (hc.resolve_left hminus) h.reset hr
    refine ⟨n, text, ?_, stopsAt_of_stops hstops hmore, ?_⟩
    · rw [htext, Number.text, hn]
      simp only [Bool.false_eq_true, if_false, List.append_assoc]
      rfl
    · rw [← numberValue_text, Number.text, hn, if_neg Bool.false_ne_true,
        if_neg Bool.false_ne_true]
      simp only [List.append_assoc]
      exact hscanned

end

end Lexer

end Qwin
