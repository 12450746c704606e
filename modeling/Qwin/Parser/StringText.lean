import Qwin.Library.JsonText
import Qwin.Parser.Strings

/-!
`scan_string` takes exactly the strings of a JSON text, and leaves the characters
they stand for in the buffer, in UTF-8.
-/

set_option autoImplicit false

namespace Qwin

open Loops JsonText

namespace Lexer

variable {Double : Type}

theorem or_eq_add {i a b : Nat} (h : b < 2 ^ i) : 2 ^ i * a ||| b = 2 ^ i * a + b :=
  (Nat.two_pow_add_eq_or_of_lt h a).symm

theorem utf8Bytes_eq {codepoint : Nat} (h : codepoint ≤ 0x10FFFF) :
    utf8Bytes codepoint = Utf8.encode codepoint := by
  have hmask : ∀ n : Nat, n &&& 0x3F = n % 64 := fun n => Nat.and_two_pow_sub_one_eq_mod n 6
  have htail : ∀ n : Nat, 0x80 ||| n % 64 = n % 64 + 0x80 := fun n =>
    (or_eq_add (i := 6) (a := 2) (Nat.mod_lt n (by decide))).trans (Nat.add_comm _ _)
  unfold utf8Bytes Utf8.encode
  simp only [hmask, htail, Nat.shiftRight_eq_div_pow]
  split_ifs <;> try omega
  · rfl
  · rw [show 0xC0 ||| codepoint / 2 ^ 6 = 2 ^ 6 * 3 + codepoint / 2 ^ 6 from
      or_eq_add (i := 6) (a := 3) (by omega)]
    congr 2
    omega
  · rw [show 0xE0 ||| codepoint / 2 ^ 12 = 2 ^ 5 * 7 + codepoint / 2 ^ 12 from
      or_eq_add (i := 5) (a := 7) (by omega)]
    congr 2
    omega
  · rw [show 0xF0 ||| codepoint / 2 ^ 18 = 2 ^ 4 * 15 + codepoint / 2 ^ 18 from
      or_eq_add (i := 4) (a := 15) (by omega)]
    congr 2
    omega

theorem multiByteRanges_eq {c : UInt8} (h : ¬ c ≤ 0x7F) :
    multiByteRanges c = Utf8.following c := by
  unfold multiByteRanges Utf8.following
  simp only [UInt8.le_iff_toNat_le, UInt8.lt_iff_toNat_lt, ← UInt8.toNat_inj,
    UInt8.reduceToNat] at h ⊢
  split_ifs <;> first | rfl | omega

theorem hexValue_byte (d : HexDigit) : hexValue d.byte = some d.value.val := by
  obtain ⟨upper, value⟩ := d
  revert upper value
  decide

theorem exists_of_hexValue {c : UInt8} {value : Nat} (h : hexValue c = some value) :
    ∃ d : HexDigit, d.byte = c ∧ d.value.val = value := by
  unfold hexValue at h
  simp only [UInt8.le_iff_toNat_le, UInt8.reduceToNat] at h
  split_ifs at h with hdigit hupper hlower
  · refine ⟨⟨false, ⟨c.toNat - 0x30, by omega⟩⟩, ?_, Option.some.inj h⟩
    rw [← UInt8.toNat_inj, HexDigit.byte, if_pos (by dsimp only; omega), UInt8.toNat_ofNat']
    dsimp only
    omega
  · refine ⟨⟨true, ⟨c.toNat - 0x37, by omega⟩⟩, ?_, Option.some.inj h⟩
    rw [← UInt8.toNat_inj, HexDigit.byte, if_neg (by dsimp only; omega), if_pos rfl,
      UInt8.toNat_ofNat']
    dsimp only
    omega
  · refine ⟨⟨false, ⟨c.toNat - 0x57, by omega⟩⟩, ?_, Option.some.inj h⟩
    rw [← UInt8.toNat_inj, HexDigit.byte, if_neg (by dsimp only; omega),
      if_neg Bool.false_ne_true, UInt8.toNat_ofNat']
    dsimp only
    omega

section Text
variable {l l' : Lexer Double} {text : List UInt8}

theorem getCodepointFrom_at {d : HexDigit} {codepoint factor : Nat} {factors : List Nat}
    (h : l.At (d.byte :: text)) :
    getCodepointFrom codepoint (factor :: factors) l =
      getCodepointFrom (codepoint + d.value.val <<< factor) factors l.get := by
  rw [getCodepointFrom, h.get.1, Option.bind_some, hexValue_byte]

theorem getCodepoint_at {hex : Hex4} (h : l.At (hex.text ++ text)) :
    ∃ l', l.getCodepoint = (some hex.value, l') ∧ l'.At text ∧ l'.tokenBuffer = l.tokenBuffer := by
  have h1 := h.get.2
  have h2 := h1.get.2
  have h3 := h2.get.2
  refine ⟨l.get.get.get.get, ?_, h3.get.2, rfl⟩
  unfold getCodepoint
  rw [getCodepointFrom_at h, getCodepointFrom_at h1, getCodepointFrom_at h2,
    getCodepointFrom_at h3, getCodepointFrom]
  simp only [Hex4.value, Nat.shiftLeft_eq, Nat.zero_add, Nat.pow_zero, Nat.mul_one, Nat.reducePow]

theorem getCodepointFrom_cons {codepoint factor value : Nat} {factors : List Nat}
    (h : getCodepointFrom codepoint (factor :: factors) l = (some value, l')) :
    ∃ d : HexDigit, l.rest = d.byte :: l.get.rest ∧
      getCodepointFrom (codepoint + d.value.val <<< factor) factors l.get = (some value, l') := by
  unfold getCodepointFrom at h
  cases hc : l.get.current with
  | none =>
    rw [hc] at h
    cases h
  | some c =>
    rw [hc, Option.bind_some] at h
    cases hvalue : hexValue c with
    | none =>
      rw [hvalue] at h
      cases h
    | some digit =>
      rw [hvalue] at h
      obtain ⟨d, rfl, rfl⟩ := exists_of_hexValue hvalue
      exact ⟨d, rest_of_get hc, h⟩

theorem getCodepoint_some {value : Nat} (h : l.getCodepoint = (some value, l')) :
    ∃ hex : Hex4, hex.value = value ∧ l.rest = hex.text ++ l'.rest ∧
      l'.tokenBuffer = l.tokenBuffer := by
  obtain ⟨first, hfirst, h⟩ := getCodepointFrom_cons h
  obtain ⟨second, hsecond, h⟩ := getCodepointFrom_cons h
  obtain ⟨third, hthird, h⟩ := getCodepointFrom_cons h
  obtain ⟨fourth, hfourth, h⟩ := getCodepointFrom_cons h
  obtain ⟨hvalue, rfl⟩ := Prod.mk.inj h
  refine ⟨⟨first, second, third, fourth⟩, ?_, ?_, rfl⟩
  · rw [← Option.some.inj hvalue]
    simp only [Hex4.value, Nat.shiftLeft_eq, Nat.zero_add, Nat.pow_zero, Nat.mul_one, Nat.reducePow]
  · rw [hfirst, hsecond, hthird, hfourth]
    rfl

theorem nextBytesInRange_at {bytes : List UInt8} {ranges : List (UInt8 × UInt8)}
    (hbytes : Utf8.InRanges bytes ranges) (h : l.At (bytes ++ text)) :
    ∃ l', nextBytesInRange ranges l = (true, l') ∧ l'.At text ∧
      l'.tokenBuffer = l.tokenBuffer ++ bytes := by
  induction hbytes generalizing l with
  | nil => exact ⟨l, rfl, h, (List.append_nil _).symm⟩
  | @cons b range bytes ranges hb _ ih =>
    obtain ⟨hcurrent, hat⟩ := h.get
    obtain ⟨l', hnext, htext, hbuffer⟩ := ih (hat.add b)
    refine ⟨l', ?_, htext, ?_⟩
    · rw [nextBytesInRange, hcurrent, Option.filter_some, if_pos (by simpa using hb)]
      exact hnext
    · rw [hbuffer]
      exact List.append_cons _ _ _ |>.symm

theorem nextBytesInRange_true {ranges : List (UInt8 × UInt8)}
    (h : nextBytesInRange ranges l = (true, l')) :
    ∃ bytes, Utf8.InRanges bytes ranges ∧ l.rest = bytes ++ l'.rest ∧
      l'.tokenBuffer = l.tokenBuffer ++ bytes := by
  induction ranges generalizing l with
  | nil =>
    cases h
    exact ⟨[], .nil, rfl, (List.append_nil _).symm⟩
  | cons range ranges ih =>
    unfold nextBytesInRange at h
    split at h
    · rename_i c hc
      obtain ⟨hcurrent, hrange⟩ := Option.filter_eq_some_iff.mp hc
      obtain ⟨bytes, hbytes, hrest, hbuffer⟩ := ih h
      refine ⟨c :: bytes, .cons (by simpa using hrange) hbytes, ?_, ?_⟩
      · rw [rest_of_get hcurrent, List.cons_append, ← hrest]
        rfl
      · rw [hbuffer]
        exact List.append_cons _ _ _ |>.symm
    · cases h

theorem surrogatePair_eq {high low : Nat} (hhigh : 0xD800 ≤ high ∧ high ≤ 0xDBFF)
    (hlow : 0xDC00 ≤ low ∧ low ≤ 0xDFFF) :
    surrogatePair high low = 0x10000 + (high - 0xD800) * 0x400 + (low - 0xDC00) := by
  unfold surrogatePair
  rw [Nat.shiftLeft_eq]
  omega

theorem scanUnicodeEscape_at {hex : Hex4} (hvalid : hex.value.isValidChar)
    (h : l.At (hex.text ++ text)) :
    ∃ l', scanUnicodeEscape l = .next l' ∧ l'.At text ∧
      l'.tokenBuffer = l.tokenBuffer ++ String.utf8EncodeChar (.ofNat hex.value) := by
  obtain ⟨l', hcodepoint, hat, hbuffer⟩ := getCodepoint_at h
  have hlt := hex.value_lt
  have hvalid' := hvalid
  unfold Nat.isValidChar at hvalid'
  refine ⟨l'.addAll (utf8Bytes hex.value), ?_, hat.keep rfl, ?_⟩
  · unfold scanUnicodeEscape
    rw [hcodepoint]
    dsimp only
    rw [if_neg (by omega), if_neg (by omega)]
  · rw [tokenBuffer_addAll, hbuffer, utf8Bytes_eq (by omega), Utf8.utf8EncodeChar_ofNat hvalid]

theorem scanUnicodeEscape_surrogates_at {high low : Hex4}
    (hhigh : 0xD800 ≤ high.value ∧ high.value ≤ 0xDBFF)
    (hlow : 0xDC00 ≤ low.value ∧ low.value ≤ 0xDFFF)
    (h : l.At (high.text ++ 0x5C :: 0x75 :: (low.text ++ text))) :
    ∃ l', scanUnicodeEscape l = .next l' ∧ l'.At text ∧
      l'.tokenBuffer = l.tokenBuffer ++ String.utf8EncodeChar
        (.ofNat (0x10000 + (high.value - 0xD800) * 0x400 + (low.value - 0xDC00))) := by
  obtain ⟨l₁, hcodepoint₁, hat₁, hbuffer₁⟩ := getCodepoint_at h
  obtain ⟨hsolidus, hat₂⟩ := hat₁.get
  obtain ⟨hletter, hat₃⟩ := hat₂.get
  obtain ⟨l₂, hcodepoint₂, hat₄, hbuffer₂⟩ := getCodepoint_at hat₃
  refine ⟨l₂.addAll (utf8Bytes (surrogatePair high.value low.value)), ?_, hat₄.keep rfl, ?_⟩
  · unfold scanUnicodeEscape
    rw [hcodepoint₁]
    dsimp only
    rw [if_pos hhigh, scanLowSurrogate, if_pos hsolidus, if_pos hletter, hcodepoint₂]
    dsimp only
    rw [if_pos hlow]
  · have hbuffer : l₂.tokenBuffer = l.tokenBuffer := hbuffer₂.trans hbuffer₁
    rw [tokenBuffer_addAll, hbuffer, surrogatePair_eq hhigh hlow, utf8Bytes_eq (by omega),
      Utf8.utf8EncodeChar_ofNat (.inr (by omega))]

theorem simpleEscape_letter (e : Escape) :
    simpleEscape e.letter = some (.ofNat e.code) ∧ e.letter ≠ 0x75 ∧
      String.utf8EncodeChar (.ofNat e.code) = [.ofNat e.code] := by
  cases e <;> decide

theorem exists_of_simpleEscape {c b : UInt8} (h : simpleEscape c = some b) :
    ∃ e : Escape, e.letter = c ∧ b = .ofNat e.code := by
  unfold simpleEscape at h
  split at h <;> cases h
  · exact ⟨.quotationMark, rfl, rfl⟩
  · exact ⟨.reverseSolidus, rfl, rfl⟩
  · exact ⟨.solidus, rfl, rfl⟩
  · exact ⟨.backspace, rfl, rfl⟩
  · exact ⟨.formFeed, rfl, rfl⟩
  · exact ⟨.lineFeed, rfl, rfl⟩
  · exact ⟨.carriageReturn, rfl, rfl⟩
  · exact ⟨.tab, rfl, rfl⟩

theorem scanStringTurn_piece {piece : Piece} (h : l.At (piece.text ++ text)) :
    ∃ l', scanStringTurn l = .next l' ∧ l'.At text ∧
      l'.tokenBuffer = l.tokenBuffer ++ String.utf8EncodeChar piece.char := by
  cases piece with
  | plain c hplain =>
    obtain ⟨hspace, hquotation, hsolidus⟩ := hplain
    cases hencode : String.utf8EncodeChar c with
    | nil => exact absurd hencode String.utf8EncodeChar_ne_nil
    | cons first bytes =>
      obtain ⟨ranges, hranges, hbytes⟩ := Utf8.exists_utf8EncodeChar_iff.mp ⟨c, hencode⟩
      change l.At (String.utf8EncodeChar c ++ text) at h
      rw [hencode] at h
      obtain ⟨hcurrent, hat⟩ := h.get
      unfold scanStringTurn
      rw [hcurrent]
      dsimp only
      by_cases hfirst : first ≤ 0x7F
      · obtain ⟨rfl, hvalue⟩ := Utf8.utf8EncodeChar_ascii hencode hfirst
        have hne : first ≠ 0x22 ∧ first ≠ 0x5C ∧ ¬ first < 0x20 := by
          simp only [ne_eq, ← UInt8.toNat_inj, UInt8.lt_iff_toNat_lt, UInt8.reduceToNat]
          omega
        rw [if_neg hne.1, if_neg hne.2.1, if_neg hne.2.2, if_pos hfirst]
        refine ⟨l.get.add first, rfl, hat.keep rfl, ?_⟩
        change (l.get.add first).tokenBuffer = l.tokenBuffer ++ String.utf8EncodeChar c
        rw [hencode, tokenBuffer_add, tokenBuffer_get]
      · have hne : first ≠ 0x22 ∧ first ≠ 0x5C ∧ ¬ first < 0x20 := by
          simp only [ne_eq, ← UInt8.toNat_inj, UInt8.lt_iff_toNat_lt, UInt8.le_iff_toNat_le,
            UInt8.reduceToNat] at hfirst ⊢
          omega
        rw [if_neg hne.1, if_neg hne.2.1, if_neg hne.2.2, if_neg hfirst,
          multiByteRanges_eq hfirst, hranges]
        dsimp only
        obtain ⟨l', hnext, hat', hbuffer⟩ :=
          nextBytesInRange_at hbytes (hat.add first)
        unfold nextByteInRange
        rw [hnext]
        refine ⟨l', rfl, hat', ?_⟩
        change l'.tokenBuffer = l.tokenBuffer ++ String.utf8EncodeChar c
        rw [hencode, hbuffer, tokenBuffer_add, tokenBuffer_get, ← List.append_cons]
  | escape e =>
    obtain ⟨hescape, hletter, hencode⟩ := simpleEscape_letter e
    obtain ⟨hsolidus, hat⟩ := h.get
    obtain ⟨hcurrent, hat'⟩ := hat.get
    unfold scanStringTurn
    rw [hsolidus]
    dsimp only
    rw [if_neg (by decide), if_pos rfl, scanEscape, hcurrent, if_neg (by simpa using hletter),
      Option.bind_some, hescape]
    refine ⟨_, rfl, hat'.keep rfl, ?_⟩
    rw [Piece.char, hencode]
    rfl
  | unicode hex hvalid =>
    obtain ⟨hsolidus, hat⟩ := h.get
    obtain ⟨hcurrent, hat'⟩ := hat.get
    unfold scanStringTurn
    rw [hsolidus]
    dsimp only
    rw [if_neg (by decide), if_pos rfl, scanEscape, if_pos hcurrent]
    exact scanUnicodeEscape_at hvalid hat'
  | surrogates high low hhigh hlow =>
    have htext : (Piece.surrogates high low hhigh hlow).text ++ text =
        0x5C :: 0x75 :: (high.text ++ 0x5C :: 0x75 :: (low.text ++ text)) := rfl
    rw [htext] at h
    obtain ⟨hsolidus, hat⟩ := h.get
    obtain ⟨hcurrent, hat'⟩ := hat.get
    unfold scanStringTurn
    rw [hsolidus]
    dsimp only
    rw [if_neg (by decide), if_pos rfl, scanEscape, if_pos hcurrent]
    exact scanUnicodeEscape_surrogates_at hhigh hlow hat'

theorem scanLowSurrogate_next {high : Hex4} (hhigh : 0xD800 ≤ high.value ∧ high.value ≤ 0xDBFF)
    (h : scanLowSurrogate high.value l = .next l') :
    ∃ low : Hex4, ∃ hlow : 0xDC00 ≤ low.value ∧ low.value ≤ 0xDFFF,
      l.rest = 0x5C :: 0x75 :: (low.text ++ l'.rest) ∧
      l'.tokenBuffer = l.tokenBuffer ++
        String.utf8EncodeChar (Piece.surrogates high low hhigh hlow).char := by
  unfold scanLowSurrogate at h
  split_ifs at h with hsolidus hletter
  cases hcodepoint : l.get.get.getCodepoint with
  | mk codepoint2 l₂ =>
    rw [hcodepoint] at h
    cases codepoint2 with
    | none => cases h
    | some codepoint2 =>
      dsimp only at h
      split_ifs at h with hlow
      obtain ⟨low, rfl, hrest, hbuffer⟩ := getCodepoint_some hcodepoint
      obtain rfl := Turn.next.inj h
      refine ⟨low, hlow, ?_, ?_⟩
      · rw [rest_of_get hsolidus, rest_of_get hletter, hrest]
        rfl
      · change _ = l.tokenBuffer ++ String.utf8EncodeChar
          (.ofNat (0x10000 + (high.value - 0xD800) * 0x400 + (low.value - 0xDC00)))
        rw [tokenBuffer_addAll, hbuffer, surrogatePair_eq hhigh hlow, utf8Bytes_eq (by omega),
          Utf8.utf8EncodeChar_ofNat (.inr (by omega))]
        rfl

theorem scanUnicodeEscape_next (h : scanUnicodeEscape l = .next l') :
    ∃ piece : Piece, 0x5C :: 0x75 :: l.rest = piece.text ++ l'.rest ∧
      l'.tokenBuffer = l.tokenBuffer ++ String.utf8EncodeChar piece.char := by
  unfold scanUnicodeEscape at h
  cases hcodepoint : l.getCodepoint with
  | mk codepoint1 l₁ =>
    rw [hcodepoint] at h
    cases codepoint1 with
    | none => cases h
    | some codepoint1 =>
      dsimp only at h
      obtain ⟨hex, rfl, hrest, hbuffer⟩ := getCodepoint_some hcodepoint
      split_ifs at h with hhigh hlow
      · obtain ⟨low, hlow, hrest', hbuffer'⟩ := scanLowSurrogate_next hhigh h
        refine ⟨.surrogates hex low hhigh hlow, ?_, ?_⟩
        · rw [hrest, hrest']
          rfl
        · rw [hbuffer', hbuffer]
      · have hlt := hex.value_lt
        have hvalid : hex.value.isValidChar := by
          unfold Nat.isValidChar
          omega
        obtain rfl := Turn.next.inj h
        refine ⟨.unicode hex hvalid, ?_, ?_⟩
        · rw [hrest]
          rfl
        · change _ = l.tokenBuffer ++ String.utf8EncodeChar (.ofNat hex.value)
          rw [tokenBuffer_addAll, hbuffer, utf8Bytes_eq (by omega),
            Utf8.utf8EncodeChar_ofNat hvalid]

theorem scanEscape_next (h : scanEscape l = .next l') :
    ∃ piece : Piece, 0x5C :: l.rest = piece.text ++ l'.rest ∧
      l'.tokenBuffer = l.tokenBuffer ++ String.utf8EncodeChar piece.char := by
  unfold scanEscape at h
  split_ifs at h with hletter
  · rw [rest_of_get hletter]
    exact scanUnicodeEscape_next h
  · split at h
    · rename_i b hb
      obtain ⟨c, hc, hescape⟩ := Option.bind_eq_some_iff.mp hb
      obtain ⟨e, rfl, rfl⟩ := exists_of_simpleEscape hescape
      obtain rfl := Turn.next.inj h
      refine ⟨.escape e, ?_, ?_⟩
      · rw [rest_of_get hc]
        rfl
      · change _ = l.tokenBuffer ++ String.utf8EncodeChar (.ofNat e.code)
        rw [(simpleEscape_letter e).2.2]
        rfl
    · cases h

theorem scanStringTurn_next (h : scanStringTurn l = .next l') :
    ∃ piece : Piece, l.rest = piece.text ++ l'.rest ∧
      l'.tokenBuffer = l.tokenBuffer ++ String.utf8EncodeChar piece.char := by
  unfold scanStringTurn at h
  cases hc : l.get.current with
  | none =>
    rw [hc] at h
    cases h
  | some c =>
    rw [hc] at h
    rw [rest_of_get hc]
    dsimp only at h
    split_ifs at h with hquotation hsolidus hcontrol hascii
    · rw [hsolidus]
      exact scanEscape_next h
    · obtain rfl := Turn.next.inj h
      simp only [UInt8.lt_iff_toNat_lt, UInt8.le_iff_toNat_le, ← UInt8.toNat_inj,
        UInt8.reduceToNat] at hquotation hsolidus hcontrol hascii
      have hvalid : c.toNat.isValidChar := .inl (by omega)
      have htoNat : (Char.ofNat c.toNat).toNat = c.toNat := Utf8.toNat_ofNat hvalid
      have hencode : String.utf8EncodeChar (.ofNat c.toNat) = [c] := by
        rw [Utf8.utf8EncodeChar_ofNat hvalid, Utf8.encode, if_pos hascii, UInt8.ofNat_toNat]
      refine ⟨.plain (.ofNat c.toNat) ⟨by omega, by omega, by omega⟩, ?_, ?_⟩
      · change _ = String.utf8EncodeChar (.ofNat c.toNat) ++ _
        rw [hencode]
        rfl
      · change _ = l.tokenBuffer ++ String.utf8EncodeChar (.ofNat c.toNat)
        rw [hencode]
        rfl
    · split at h
      · rename_i ranges hranges
        cases hnext : l.get.nextByteInRange c ranges with
        | mk inRange l₂ =>
          rw [hnext] at h
          cases inRange with
          | false => cases h
          | true =>
            obtain rfl := Turn.next.inj h
            obtain ⟨bytes, hbytes, hrest, hbuffer⟩ := nextBytesInRange_true hnext
            rw [multiByteRanges_eq hascii] at hranges
            obtain ⟨d, hd⟩ := Utf8.exists_utf8EncodeChar_iff.mpr ⟨ranges, hranges, hbytes⟩
            have hlt := Utf8.utf8EncodeChar_notAscii hd hascii
            have hplain : Plain d := ⟨by omega, by omega, by omega⟩
            refine ⟨.plain d hplain, ?_, ?_⟩
            · change _ = String.utf8EncodeChar d ++ _
              rw [hd]
              exact congrArg (c :: ·) hrest
            · change _ = l.tokenBuffer ++ String.utf8EncodeChar d
              rw [hd, hbuffer, tokenBuffer_add, tokenBuffer_get, ← List.append_cons]
      · cases h

theorem scanStringTurn_quotation (h : l.At (0x22 :: text)) :
    scanStringTurn l = .done (.valueString, l.get) := by
  unfold scanStringTurn
  rw [h.get.1]
  dsimp only
  rw [if_pos rfl]

theorem ne_parseError_of_done {l₁ : Lexer Double} {t : TokenType} {message : String}
    (h : Turn.done (σ := Lexer Double) (l₁.fail message) = .done (t, l')) : t = .parseError := by
  cases h
  rfl

theorem scanLowSurrogate_done {codepoint1 : Nat} {t : TokenType}
    (h : scanLowSurrogate codepoint1 l = .done (t, l')) : t = .parseError := by
  unfold scanLowSurrogate at h
  split_ifs at h
  · cases hcodepoint : l.get.get.getCodepoint with
    | mk codepoint2 l₂ =>
      rw [hcodepoint] at h
      cases codepoint2 with
      | none => exact ne_parseError_of_done h
      | some codepoint2 =>
        dsimp only at h
        split_ifs at h
        exact ne_parseError_of_done h
  · exact ne_parseError_of_done h
  · exact ne_parseError_of_done h

theorem scanEscape_done {t : TokenType} (h : scanEscape l = .done (t, l')) : t = .parseError := by
  unfold scanEscape scanUnicodeEscape at h
  split_ifs at h
  · cases hcodepoint : l.get.getCodepoint with
    | mk codepoint1 l₁ =>
      rw [hcodepoint] at h
      cases codepoint1 with
      | none => exact ne_parseError_of_done h
      | some codepoint1 =>
        dsimp only at h
        split_ifs at h
        · exact scanLowSurrogate_done h
        · exact ne_parseError_of_done h
  · split at h
    · cases h
    · exact ne_parseError_of_done h

theorem scanStringTurn_done {t : TokenType} (h : scanStringTurn l = .done (t, l'))
    (ht : t ≠ .parseError) :
    t = .valueString ∧ l.rest = 0x22 :: l'.rest ∧ l'.tokenBuffer = l.tokenBuffer := by
  unfold scanStringTurn at h
  cases hc : l.get.current with
  | none =>
    rw [hc] at h
    exact absurd (ne_parseError_of_done h) ht
  | some c =>
    rw [hc] at h
    dsimp only at h
    split_ifs at h with hquotation
    · cases h
      rw [rest_of_get hc, hquotation]
      exact ⟨rfl, rfl, rfl⟩
    · exact absurd (scanEscape_done h) ht
    · exact absurd (ne_parseError_of_done h) ht
    · split at h
      · cases hnext : l.get.nextByteInRange c _ with
        | mk inRange l₂ =>
          rw [hnext] at h
          cases inRange with
          | true => cases h
          | false =>
            cases h
            exact absurd rfl ht
      · exact absurd (ne_parseError_of_done h) ht

theorem scanStringLoop_at {pieces : List Piece} (h : l.At (bodyText pieces ++ text)) :
    ∃ l', scanStringLoop.run l = (.valueString, l') ∧ l'.At text ∧
      l'.tokenBuffer = l.tokenBuffer ++ content pieces := by
  induction pieces generalizing l with
  | nil =>
    exact ⟨l.get, Loop.run_done (scanStringTurn_quotation h), h.get.2, (List.append_nil _).symm⟩
  | cons piece pieces ih =>
    have htext : bodyText (piece :: pieces) ++ text = piece.text ++ (bodyText pieces ++ text) := by
      simp only [bodyText, List.flatMap_cons, List.append_assoc]
    rw [htext] at h
    obtain ⟨l₁, hturn, hat, hbuffer⟩ := scanStringTurn_piece h
    obtain ⟨l', hrun, hat', hbuffer'⟩ := ih hat
    refine ⟨l', (Loop.run_next hturn).trans hrun, hat', ?_⟩
    rw [hbuffer', hbuffer, List.append_assoc]
    rfl

/-- After the opening quotation mark. -/
theorem scanString_at {pieces : List Piece} (h : l.At (bodyText pieces ++ text)) :
    ∃ l', scanString l = (.valueString, l') ∧ l'.At text ∧ l'.tokenBuffer = content pieces :=
  scanStringLoop_at h.reset

theorem scanString_sound {t : TokenType} (h : scanString l = (t, l')) (ht : t ≠ .parseError) :
    t = .valueString ∧ ∃ pieces, l.rest = bodyText pieces ++ l'.rest ∧
      l'.tokenBuffer = content pieces := by
  have hpost : (scanString l).1 ≠ .parseError → (scanString l).1 = .valueString ∧
      ∃ pieces, l.rest = bodyText pieces ++ (scanString l).2.rest ∧
        (scanString l).2.tokenBuffer = content pieces := by
    unfold scanString
    refine scanStringLoop.invariant
      (P := fun l₁ => ∃ pieces, l.rest = pieces.flatMap Piece.text ++ l₁.rest ∧
        l₁.tokenBuffer = content pieces)
      (Q := fun r => r.1 ≠ .parseError → r.1 = .valueString ∧
        ∃ pieces, l.rest = bodyText pieces ++ r.2.rest ∧ r.2.tokenBuffer = content pieces)
      ?_ ?_ ⟨[], rfl, rfl⟩
    · rintro l₁ l₂ ⟨pieces, hrest, hbuffer⟩ hturn
      obtain ⟨piece, hrest', hbuffer'⟩ := scanStringTurn_next hturn
      refine ⟨pieces ++ [piece], ?_, ?_⟩
      · rw [hrest, hrest', List.flatMap_append, List.flatMap_singleton, List.append_assoc]
      · rw [hbuffer', hbuffer, content, content, List.flatMap_append, List.flatMap_singleton]
    · rintro l₁ ⟨t, l₂⟩ ⟨pieces, hrest, hbuffer⟩ hturn ht
      obtain ⟨hstring, hrest', hbuffer'⟩ := scanStringTurn_done hturn ht
      refine ⟨hstring, pieces, ?_, hbuffer'.trans hbuffer⟩
      rw [hrest, hrest', bodyText, List.append_assoc]
      rfl
  rw [h] at hpost
  exact hpost ht

end Text
end Lexer

end Qwin
