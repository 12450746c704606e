import Qwin.Parser.NumberText
import Qwin.Parser.StringText
import Qwin.Parser.Tokens

/-!
`scan` takes exactly the tokens of a JSON text and the space before them.
-/

set_option autoImplicit false

namespace Qwin

open Decimals Loops JsonText

namespace Lexer

variable {Double : Type} {l : Lexer Double} {text : List UInt8}

theorem scanLiteral_at {t : TokenType} {literalText : List UInt8}
    (h : l.At (literalText ++ text)) :
    ∃ l', scanLiteral t literalText l = (t, l') ∧ l'.At text := by
  induction literalText generalizing l with
  | nil => exact ⟨l, rfl, h⟩
  | cons c literalText ih =>
    obtain ⟨hcurrent, hat⟩ := h.get
    rw [scanLiteral, if_pos hcurrent]
    exact ih hat

theorem scanLiteral_some {t : TokenType} {literalText : List UInt8} (h : l.At text)
    (hr : (scanLiteral t literalText l).1 ≠ .parseError) :
    (scanLiteral t literalText l).1 = t ∧ ∃ text', text = literalText ++ text' ∧
      (scanLiteral t literalText l).2.At text' := by
  induction literalText generalizing l text with
  | nil => exact ⟨rfl, text, rfl, h⟩
  | cons c literalText ih =>
    unfold scanLiteral at hr ⊢
    split at hr
    · rename_i hcurrent
      rw [if_pos hcurrent]
      rw [h.current_get] at hcurrent
      cases text with
      | nil => cases hcurrent
      | cons b text =>
        obtain rfl : b = c := Option.some.inj hcurrent
        obtain ⟨ht, text', htext, hat⟩ := ih h.get.2 hr
        exact ⟨ht, text', congrArg (b :: ·) htext, hat⟩
    · exact absurd rfl hr

theorem skipWhitespace_at (h : l.At text) :
    ∃ l₀ : Lexer Double, l.skipWhitespace = l₀.get ∧ l₀.At (text.dropWhile isSpace) := by
  have hdone : ∀ {l : Lexer Double}, l.get.current.filter isSpace = none →
      l.skipWhitespace = l.get := by
    intro l hnone
    refine Loop.run_done ?_
    dsimp only [skipWhitespaceLoop]
    rw [hnone]
  induction text generalizing l with
  | nil => exact ⟨l, hdone (by rw [h.get_nil]; rfl), h⟩
  | cons c text ih =>
    obtain ⟨hcurrent, hat⟩ := h.get
    cases hc : isSpace c with
    | false =>
      have hnot : ¬ isSpace c = true := by simp [hc]
      rw [List.dropWhile_cons_of_neg hnot]
      refine ⟨l, hdone ?_, h⟩
      rw [hcurrent, Option.filter_some]
      exact if_neg hnot
    | true =>
      rw [List.dropWhile_cons_of_pos hc]
      have hturn : skipWhitespaceLoop.turn l = .next l.get := by
        dsimp only [skipWhitespaceLoop]
        rw [hcurrent, Option.filter_some, if_pos hc]
      obtain ⟨l₀, hrun, hat₀⟩ := ih hat
      exact ⟨l₀, (Loop.run_next hturn).trans hrun, hat₀⟩

theorem dropWhile_space {before : Space} {c : UInt8} (hc : isSpace c = false) :
    (before.bytes ++ c :: text).dropWhile isSpace = c :: text := by
  rw [List.dropWhile_append_of_pos before.spaces, List.dropWhile_cons_of_neg (by simp [hc])]

variable [Strtod Double]

/-- A scan that is not the first one looks for no byte order mark. -/
theorem scan_eq (hstarted : l.position.charsReadTotal ≠ 0) : l.scan = l.skipWhitespace.scanToken :=
  if_neg hstarted

theorem scanToken_at {before : Space} {c : UInt8} (h : l.At (before.bytes ++ c :: text))
    (hc : isSpace c = false) :
    ∃ l' : Lexer Double, l.skipWhitespace.scanToken = scanFrom c l' ∧ l'.At text := by
  obtain ⟨l₀, hskip, hat⟩ := skipWhitespace_at h
  rw [dropWhile_space hc] at hat
  obtain ⟨hcurrent, hat'⟩ := hat.get
  refine ⟨l₀.get, ?_, hat'⟩
  rw [hskip, scanToken, hcurrent]

theorem scanFrom_structural {c : UInt8} {t : TokenType} (hc : structuralCharacter c = some t)
    (l : Lexer Double) : scanFrom c l = (t, l) := by
  unfold scanFrom
  rw [hc]

theorem scanFrom_literal {c : UInt8} {t : TokenType} {literalText : List UInt8}
    (hc : literal c = some (t, literalText)) (l : Lexer Double) :
    scanFrom c l = scanLiteral t literalText l := by
  have hnone : structuralCharacter c = none := by
    unfold literal at hc
    split at hc <;> first | rfl | cases hc
  unfold scanFrom
  rw [hc, hnone]

theorem scanFrom_quotation (l : Lexer Double) : scanFrom 0x22 l = scanString l := rfl

theorem scanFrom_number {c : UInt8} (hc : c = 0x2D ∨ isDigit c = true) (l : Lexer Double) :
    scanFrom c l = scanNumber c l := by
  have hnone : structuralCharacter c = none ∧ literal c = none ∧ c ≠ 0x22 := by
    have hrange : c.toNat = 0x2D ∨ 48 ≤ c.toNat ∧ c.toNat ≤ 57 := by
      rcases hc with rfl | hc
      · exact .inl rfl
      · simp only [isDigit, Bool.and_eq_true, decide_eq_true_eq, UInt8.le_iff_toNat_le,
          UInt8.reduceToNat] at hc
        exact .inr hc
    refine ⟨?_, ?_, ?_⟩
    · unfold structuralCharacter
      split <;> first | rfl | (revert hrange; decide)
    · unfold literal
      split <;> first | rfl | (revert hrange; decide)
    · rintro rfl
      revert hrange
      decide
  unfold scanFrom
  rw [hnone.1, hnone.2.1]
  dsimp only
  rw [if_neg hnone.2.2, if_pos (by simpa using hc)]

theorem exists_first {n : Number} :
    ∃ c bytes, n.text = c :: bytes ∧ (c = 0x2D ∨ isDigit c = true) := by
  obtain ⟨d, bytes, hint⟩ := List.exists_cons_of_ne_nil n.int.ne_nil
  have hd : isDigit d = true := n.int.digits d (hint ▸ List.mem_cons_self)
  unfold Number.text
  rw [hint]
  cases n.minus with
  | true => exact ⟨0x2D, _, rfl, .inl rfl⟩
  | false => exact ⟨d, _, rfl, .inr hd⟩

theorem isSpace_of_number {c : UInt8} (hc : c = 0x2D ∨ isDigit c = true) : isSpace c = false := by
  rcases hc with rfl | hc
  · rfl
  · simp only [isDigit, Bool.and_eq_true, decide_eq_true_eq, UInt8.le_iff_toNat_le,
      UInt8.reduceToNat] at hc
    simp only [isSpace, Bool.or_eq_false_iff, beq_eq_false_iff_ne, ne_eq, ← UInt8.toNat_inj,
      UInt8.reduceToNat]
    omega

/-- The token after the space of a text is a structural character. -/
theorem scanToken_structural_at {before : Space} {c : UInt8} {t : TokenType}
    (hc : structuralCharacter c = some t) (h : l.At (before.bytes ++ c :: text)) :
    ∃ l', l.skipWhitespace.scanToken = (t, l') ∧ l'.At text := by
  have hspace : isSpace c = false := by
    unfold structuralCharacter at hc
    split at hc <;> first | rfl | cases hc
  obtain ⟨l', hscan, hat⟩ := scanToken_at h hspace
  exact ⟨l', hscan.trans (scanFrom_structural hc l'), hat⟩

theorem scanToken_scalar_at {before : Space} {scalar : Scalar}
    (h : l.At (before.bytes ++ (scalar.text ++ text)))
    (hstops : ∀ b, text.head? = some b → scalar.StopsAt b) :
    Scanned l.skipWhitespace.scanToken (scalarMeaning scalar) text := by
  have hliteral : ∀ {c : UInt8} {t : TokenType} {literalText : List UInt8},
      literal c = some (t, literalText) → l.At (before.bytes ++ c :: (literalText ++ text)) →
      ∃ l', l.skipWhitespace.scanToken = (t, l') ∧ l'.At text := by
    intro c t literalText hc h
    have hspace : isSpace c = false := by
      unfold literal at hc
      split at hc <;> first | rfl | cases hc
    obtain ⟨l₁, hscan, hat⟩ := scanToken_at h hspace
    obtain ⟨l', hscan', hat'⟩ := scanLiteral_at (t := t) hat
    exact ⟨l', hscan.trans ((scanFrom_literal hc l₁).trans hscan'), hat'⟩
  cases scalar with
  | null =>
    obtain ⟨l', hscan, hat⟩ := hliteral (c := 0x6E) rfl h
    rw [hscan]
    exact ⟨rfl, hat⟩
  | boolean value =>
    cases value with
    | true =>
      obtain ⟨l', hscan, hat⟩ := hliteral (c := 0x74) rfl h
      rw [hscan]
      exact ⟨rfl, hat⟩
    | false =>
      obtain ⟨l', hscan, hat⟩ := hliteral (c := 0x66) rfl h
      rw [hscan]
      exact ⟨rfl, hat⟩
  | string pieces =>
    obtain ⟨l₁, hscan, hat⟩ := scanToken_at (c := 0x22) h rfl
    obtain ⟨l', hstring, hat', hbuffer⟩ := scanString_at hat
    rw [hscan, scanFrom_quotation, hstring]
    exact ⟨congrArg (fun b => some (Value.string b)) hbuffer, hat'⟩
  | number n =>
    obtain ⟨c, bytes, htext, hc⟩ := exists_first (n := n)
    change l.At (before.bytes ++ (n.text ++ text)) at h
    rw [htext] at h
    obtain ⟨l₁, hscan, hat⟩ := scanToken_at h (isSpace_of_number hc)
    rw [hscan, scanFrom_number hc]
    exact scanNumber_at (by rw [htext]; rfl) hat hstops

theorem scanFrom_some {c : UInt8} (h : l.At text) (hend : (scanFrom c l).1 ≠ .endOfInput)
    (herror : (scanFrom c l).1 ≠ .parseError) :
    (structuralCharacter c = some (scanFrom c l).1 ∧ (scanFrom c l).2.At text) ∨
    ∃ (scalar : Scalar) (text' : List UInt8), c :: text = scalar.text ++ text' ∧
      (∀ b, text'.head? = some b → scalar.StopsAt b) ∧
      Scanned (scanFrom c l) (scalarMeaning scalar) text' := by
  cases hstructural : structuralCharacter c with
  | some t =>
    rw [scanFrom_structural hstructural]
    exact .inl ⟨rfl, h⟩
  | none =>
    right
    cases hliteral : literal c with
    | some r =>
      obtain ⟨t, literalText⟩ := r
      rw [scanFrom_literal hliteral] at herror ⊢
      obtain ⟨ht, text', rfl, hat⟩ := scanLiteral_some h herror
      have hscalar : ∃ scalar : Scalar, c :: literalText = scalar.text ∧
          (∀ b, scalar.StopsAt b) ∧
          ∀ l : Lexer Double, Lexer.scalar t l = some (scalarMeaning scalar) := by
        unfold literal at hliteral
        split at hliteral <;> cases hliteral
        · exact ⟨.boolean true, rfl, fun _ => trivial, fun _ => rfl⟩
        · exact ⟨.boolean false, rfl, fun _ => trivial, fun _ => rfl⟩
        · exact ⟨.null, rfl, fun _ => trivial, fun _ => rfl⟩
      obtain ⟨scalar, htext, hstops, hmeaning⟩ := hscalar
      refine ⟨scalar, text', ?_, fun b _ => hstops b, ?_, hat⟩
      · rw [← htext, List.cons_append]
      · rw [ht]
        exact hmeaning _
    | none =>
      unfold scanFrom at hend herror ⊢
      rw [hstructural, hliteral] at hend herror ⊢
      dsimp only at hend herror ⊢
      by_cases hquotation : c = 0x22
      · rw [if_pos hquotation] at herror ⊢
        obtain ⟨ht, pieces, hrest, hbuffer⟩ := scanString_sound (t := (scanString l).1) rfl herror
        refine ⟨.string pieces, (scanString l).2.rest, ?_, fun _ _ => trivial, ?_,
          (moves_scanString l).at_rest h⟩
        · rw [hquotation, ← h.rest, hrest]
          rfl
        · rw [ht]
          exact congrArg (fun b => some (Value.string b)) hbuffer
      · rw [if_neg hquotation] at hend herror ⊢
        by_cases hnumber : c = 0x2D ∨ isDigit c = true
        · rw [if_pos hnumber] at herror ⊢
          obtain ⟨n, text', htext, hstops, hscanned⟩ := scanNumber_some hnumber h herror
          exact ⟨.number n, text', htext, hstops, hscanned⟩
        · rw [if_neg hnumber] at hend herror
          split at herror
          · rename_i hnul
            rw [if_pos hnul] at hend
            exact absurd rfl hend
          · exact absurd rfl herror

/-- Where the scan comes neither to the end nor to an error, a structural character
or a scalar was there. -/
theorem scanToken_some (h : l.At text) (hend : l.skipWhitespace.scanToken.1 ≠ .endOfInput)
    (herror : l.skipWhitespace.scanToken.1 ≠ .parseError) :
    (∃ (before : Space) (c : UInt8) (text' : List UInt8),
      structuralCharacter c = some l.skipWhitespace.scanToken.1 ∧
      text = before.bytes ++ c :: text' ∧ l.skipWhitespace.scanToken.2.At text') ∨
    ∃ (before : Space) (scalar : Scalar) (text' : List UInt8),
      text = before.bytes ++ (scalar.text ++ text') ∧
      (∀ b, text'.head? = some b → scalar.StopsAt b) ∧
      Scanned l.skipWhitespace.scanToken (scalarMeaning scalar) text' := by
  obtain ⟨l₀, hskip, hat⟩ := skipWhitespace_at h
  obtain ⟨before, htext⟩ : ∃ before : Space, text = before.bytes ++ text.dropWhile isSpace :=
    ⟨⟨text.takeWhile isSpace, fun _ hb => List.mem_takeWhile_imp hb⟩,
      List.takeWhile_append_dropWhile.symm⟩
  generalize text.dropWhile isSpace = rest at hat htext
  cases rest with
  | nil =>
    rw [hskip, scanToken, hat.get_nil] at hend
    exact absurd rfl hend
  | cons c rest =>
    obtain ⟨hcurrent, hat'⟩ := hat.get
    rw [hskip, scanToken, hcurrent] at hend herror ⊢
    rcases scanFrom_some hat' hend herror with ⟨hstructural, hat''⟩ | ⟨scalar, text', hc, hrest⟩
    · exact .inl ⟨before, c, rest, hstructural, htext, hat''⟩
    · exact .inr ⟨before, scalar, text', hc ▸ htext, hrest⟩

theorem started_scan (l : Lexer Double) : l.scan.2.position.charsReadTotal ≠ 0 := by
  have htoken : ∀ l₁ : Lexer Double, l₁.skipWhitespace.scanToken.2.position.charsReadTotal ≠ 0 := by
    intro l₁
    obtain ⟨l₀, -, hskip⟩ := skipWhitespace_get l₁
    rw [hskip]
    exact (moves_scanToken l₀.get).started (started_get l₀)
  unfold scan skipBom
  split_ifs
  · cases decide (l.get.get.get.current = some 0xBF) with
    | true => exact htoken _
    | false => exact started_get l.get.get
  · exact started_get l.get
  · exact htoken _
  · exact htoken _

/-- The next scan begins at `text`, with no byte order mark to look for. -/
structure Ready (l : Lexer Double) (text : List UInt8) : Prop extends l.At text where
  scans : l.scan = l.skipWhitespace.scanToken

theorem Ready.scan_structural {before : Space} {c : UInt8} {t : TokenType}
    (h : l.Ready (before.bytes ++ c :: text)) (hc : structuralCharacter c = some t) :
    l.scan.1 = t ∧ l.scan.2.Ready text := by
  obtain ⟨l', hscan, hat⟩ := scanToken_structural_at hc h.toAt
  rw [← h.scans] at hscan
  have hstarted := started_scan l
  rw [hscan] at hstarted ⊢
  exact ⟨rfl, hat, scan_eq hstarted⟩

theorem Ready.scan_scalar {before : Space} {scalar : Scalar}
    (h : l.Ready (before.bytes ++ (scalar.text ++ text)))
    (hstops : ∀ b, text.head? = some b → scalar.StopsAt b) :
    Lexer.scalar l.scan.1 l.scan.2 = some (scalarMeaning scalar) ∧ l.scan.2.Ready text := by
  have hscanned := scanToken_scalar_at h.toAt hstops
  rw [← h.scans] at hscanned
  exact ⟨hscanned.scalar, hscanned.rest, scan_eq (started_scan l)⟩

theorem Ready.scan_some (h : l.Ready text) (hend : l.scan.1 ≠ .endOfInput)
    (herror : l.scan.1 ≠ .parseError) :
    (∃ (before : Space) (c : UInt8) (text' : List UInt8),
      structuralCharacter c = some l.scan.1 ∧ text = before.bytes ++ c :: text' ∧
      l.scan.2.Ready text') ∨
    ∃ (before : Space) (scalar : Scalar) (text' : List UInt8),
      text = before.bytes ++ (scalar.text ++ text') ∧
      (∀ b, text'.head? = some b → scalar.StopsAt b) ∧
      Lexer.scalar l.scan.1 l.scan.2 = some (scalarMeaning scalar) ∧ l.scan.2.Ready text' := by
  have hstarted := scan_eq (started_scan l)
  rw [h.scans] at hend herror hstarted ⊢
  rcases scanToken_some h.toAt hend herror with
    ⟨before, c, text', hc, htext, hat⟩ | ⟨before, scalar, text', htext, hstops, hscanned⟩
  · exact .inl ⟨before, c, text', hc, htext, hat, hstarted⟩
  · exact .inr ⟨before, scalar, text', htext, hstops, hscanned.scalar, hscanned.rest, hstarted⟩

end Lexer

end Qwin
