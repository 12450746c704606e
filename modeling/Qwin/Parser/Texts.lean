import Qwin.Parser.Pointers
import Qwin.Parser.Soundness

/-!
Which files the parser takes: those that begin with a JSON text, whatever is behind it.
-/

set_option autoImplicit false

namespace Qwin

open Decimals Loops JsonText Lexer

namespace Parser

variable {Double : Type} [Strtod Double] {bytes text : List UInt8}

def byteOrderMark : List UInt8 := [0xEF, 0xBB, 0xBF]

theorem at_fresh (bytes : List UInt8) : (ofBytes bytes : Lexer Double).At bytes :=
  ⟨rfl, by intro h; cases h⟩

theorem scan_fresh (bytes : List UInt8) :
    (ofBytes bytes : Lexer Double).scan =
      match (ofBytes bytes : Lexer Double).skipBom with
      | (true, l) => l.skipWhitespace.scanToken
      | (false, l) => l.fail "invalid BOM; must be 0xEF 0xBB 0xBF if given" :=
  if_pos rfl

/-- Looking at the first byte changes nothing. -/
theorem get_look_fresh (bytes : List UInt8) :
    (ofBytes bytes : Lexer Double).get.unget.get = (ofBytes bytes).get := by
  cases bytes with
  | nil => rfl
  | cons c bytes =>
    by_cases hc : c = 0x0A
    · rw [hc]
      rfl
    · have hcurrent : some c ≠ some 0x0A := fun h => hc (Option.some.inj h)
      simp [ofBytes, Lexer.get, Lexer.unget, hc]

theorem ready_fresh (h : bytes.head? ≠ some 0xEF) :
    (ofBytes bytes : Lexer Double).Ready bytes := by
  refine { toAt := at_fresh bytes, scans := ?_ }
  have hcurrent : (ofBytes bytes : Lexer Double).get.current ≠ some 0xEF := by
    rw [(at_fresh bytes).current_get]
    exact h
  have hskip : (ofBytes bytes : Lexer Double).get.unget.skipWhitespace =
      (ofBytes bytes).skipWhitespace := by
    refine Loop.run_congr ?_
    dsimp only [skipWhitespaceLoop]
    rw [get_look_fresh]
  rw [← hskip, scan_fresh, skipBom, if_neg hcurrent]

/-- After a byte order mark, the parser is where another one would be that had not
to read it. -/
theorem ready_mark (Double : Type) [Strtod Double] (text : List UInt8) :
    ∃ q : Parser Double (Dom Double), start (byteOrderMark ++ text) = q.getToken ∧
      q.skipToStateEvaluation = false ∧ q.sax = ⟨.null, []⟩ ∧ q.states = [] ∧
      q.lexer.Ready text := by
  let l : Lexer Double := ofBytes (byteOrderMark ++ text)
  have hscan : l.scan = l.get.get.get.skipWhitespace.scanToken := by
    rw [scan_fresh]
    rfl
  have hat : l.get.get.get.At text := (at_fresh (byteOrderMark ++ text)).get.2.get.2.get.2
  have hscans := scan_eq (started_get l.get.get)
  refine ⟨{ fresh (byteOrderMark ++ text) with lexer := l.get.get.get }, ?_, rfl, rfl, rfl,
    { toAt := hat, scans := hscans }⟩
  unfold start getToken
  have hsame : (fresh (byteOrderMark ++ text) : Parser Double (Dom Double)).lexer.scan =
      l.get.get.get.scan := hscan.trans hscans.symm
  rw [hsame]

/-- Half a byte order mark is an error. -/
theorem parseFrames_badMark (h : bytes.head? = some 0xEF)
    (hmark : ∀ text, bytes ≠ byteOrderMark ++ text) (v : Value Double) :
    parseFrames bytes ≠ .ok v := by
  let l : Lexer Double := ofBytes bytes
  have hfirst : l.get.current = some 0xEF := (at_fresh bytes).current_get.trans h
  have hbom : l.skipBom.1 = false := by
    unfold skipBom
    rw [if_pos hfirst]
    by_cases hsecond : l.get.get.current = some 0xBB
    · rw [if_pos hsecond]
      refine decide_eq_false fun hthird => hmark l.get.get.get.rest ?_
      calc bytes = l.rest := (at_fresh bytes).rest.symm
        _ = 0xEF :: 0xBB :: 0xBF :: l.get.get.get.rest := by
          rw [rest_of_get hfirst, rest_of_get hsecond, rest_of_get hthird]
    · rw [if_neg hsecond]
  have herror : (start bytes : Parser Double (Dom Double)).lastToken = .parseError := by
    change l.scan.1 = .parseError
    rw [scan_fresh]
    change (match l.skipBom with
      | (true, l) => l.skipWhitespace.scanToken
      | (false, l) => l.fail "invalid BOM; must be 0xEF 0xBB 0xBF if given").1 = .parseError
    generalize l.skipBom = r at hbom
    obtain ⟨found, l'⟩ := r
    obtain rfl : found = false := hbom
    rfl
  have hturn : turn (start bytes : Parser Double (Dom Double)) =
      (start bytes).unexpected .uninitialized "value" := by
    refine (turn_getToken (q := fresh bytes) rfl).trans ?_
    change parseValue (start bytes) = _
    unfold parseValue
    rw [herror]
  unfold parseFrames
  rw [Loop.run_done hturn]
  intro hok
  cases hok

/-- The byte behind the space tells an object. None is that of a byte order mark. -/
theorem first_byte (t : Tree) : ∃ (before : Space) (c : UInt8) (tail : List UInt8),
    t.text = before.bytes ++ c :: tail ∧ isSpace c = false ∧ c ≠ 0xEF ∧
      (c = 0x7B ↔ t.isObject = true) := by
  cases t with
  | leaf before scalar =>
    rw [Tree.text]
    cases scalar with
    | null => exact ⟨before, _, _, rfl, by decide, by decide, by simp [Tree.isObject]⟩
    | boolean value =>
      cases value <;> exact ⟨before, _, _, rfl, by decide, by decide, by simp [Tree.isObject]⟩
    | string pieces => exact ⟨before, _, _, rfl, by decide, by decide, by simp [Tree.isObject]⟩
    | number n =>
      obtain ⟨c, bytes, htext, hc⟩ := exists_first (n := n)
      rw [Scalar.text, htext]
      refine ⟨before, c, bytes, rfl, isSpace_of_number hc, ?_, ?_⟩
      · rintro rfl
        exact absurd hc (by decide)
      · refine ⟨?_, fun hobject => Bool.noConfusion hobject⟩
        rintro rfl
        exact absurd hc (by decide)
  | emptyArray before inside | emptyObject before inside =>
    rw [Tree.text, List.append_assoc]
    exact ⟨before, _, _, rfl, by decide, by decide, by simp [Tree.isObject]⟩
  | array before first rest | object before key first rest =>
    exact ⟨before, _, _, rfl, by decide, by decide, by simp [Tree.isObject]⟩

theorem head_text (t : Tree) : ∃ b rest, t.text = b :: rest ∧ b ≠ 0xEF := by
  obtain ⟨⟨bytes, hspaces⟩, c, tail, htext, -, hc, -⟩ := first_byte t
  cases bytes with
  | nil => exact ⟨c, tail, htext, hc⟩
  | cons b bytes =>
    refine ⟨b, bytes ++ c :: tail, htext, ?_⟩
    rintro rfl
    cases hspaces _ List.mem_cons_self

/-- What is written first says whether it is an object, whatever follows. -/
theorem isObject_congr {t t' : Tree} {rest rest' : List UInt8}
    (h : t.text ++ rest = t'.text ++ rest') : t.isObject = t'.isObject := by
  obtain ⟨before, c, tail, htext, hc, -, hobject⟩ := first_byte t
  obtain ⟨before', c', tail', htext', hc', -, hobject'⟩ := first_byte t'
  have hdrop := congrArg (List.dropWhile isSpace) h
  rw [htext, htext', List.append_assoc, List.append_assoc, List.cons_append, List.cons_append,
    dropWhile_space hc, dropWhile_space hc'] at hdrop
  rw [Bool.eq_iff_iff, ← hobject, ← hobject', (List.cons.inj hdrop).1]

section Runs
variable {q : Parser Double (Dom Double)} {v : Value Double}

theorem text_of_ready (hstart : start bytes = q.getToken)
    (hskip : q.skipToStateEvaluation = false) (hsax : q.sax = ⟨.null, []⟩) (hstates : q.states = [])
    (hready : q.lexer.Ready text) (hparse : parseFrames bytes = .ok v) :
    ∃ (t : Tree) (rest : List UInt8), text = t.text ++ rest ∧
      (∀ n ∈ t.numbers, Finite Double n) ∧ t.StopsBefore rest ∧ v = treeMeaning t := by
  obtain ⟨t, rest, htext, hfinite, hstops, hcompletes⟩ :=
    (sound v (start bytes)).value q text hstart hskip hready (by rw [hsax, hstates]; exact .nil)
      hparse
  rw [hsax] at hcompletes
  refine ⟨t, rest, htext, hfinite, hstops, ?_⟩
  cases hcompletes
  rfl

theorem parseFrames_of_ready {t : Tree} {rest : List UInt8} (hstart : start bytes = q.getToken)
    (hskip : q.skipToStateEvaluation = false) (hsax : q.sax = ⟨.null, []⟩) (hstates : q.states = [])
    (hready : q.lexer.Ready (t.text ++ rest)) (hfinite : ∀ n ∈ t.numbers, Finite Double n)
    (hstops : t.StopsBefore rest) :
    parseFrames bytes = .ok (treeMeaning t : Value Double) := by
  obtain ⟨p', hskip', hsax', hstates', -, hrun⟩ := resumes_tree t q rest hskip hready hstops hfinite
  unfold parseFrames
  rw [hstart, hrun]
  refine Loop.run_done ((turn_skip hskip').trans ?_)
  unfold evaluateState
  rw [show Parser.states _ = [] from hstates'.trans hstates, hsax', hsax]
  rfl

end Runs

/-- `t` is written at the beginning of the file, after a byte order mark or without one. -/
structure Holds (Double : Type) [Strtod Double] (bytes : List UInt8) (t : Tree)
    (rest : List UInt8) : Prop where
  text : bytes = t.text ++ rest ∨ bytes = byteOrderMark ++ (t.text ++ rest)
  finite : ∀ n ∈ t.numbers, Finite Double n
  stops : t.StopsBefore rest

theorem Holds.parse {t : Tree} {rest : List UInt8} (h : Holds Double bytes t rest) :
    parse bytes = .ok (treeMeaning t : Value Double) := by
  rw [parse_eq_parseFrames]
  obtain ⟨rfl | rfl, hfinite, hstops⟩ := h
  · obtain ⟨b, tail, htext, hb⟩ := head_text t
    refine parseFrames_of_ready (q := fresh _) rfl rfl rfl rfl (ready_fresh ?_) hfinite hstops
    rw [htext]
    exact fun h => hb (Option.some.inj h)
  · obtain ⟨q, hstart, hskip, hsax, hstates, hready⟩ := ready_mark Double (t.text ++ rest)
    exact parseFrames_of_ready hstart hskip hsax hstates hready hfinite hstops

theorem holds_of_parse {v : Value Double} (h : parse bytes = .ok v) :
    ∃ t rest, Holds Double bytes t rest ∧ v = treeMeaning t := by
  rw [parse_eq_parseFrames] at h
  by_cases hhead : bytes.head? = some 0xEF
  · by_cases hmark : ∃ text, bytes = byteOrderMark ++ text
    · obtain ⟨text, rfl⟩ := hmark
      obtain ⟨q, hstart, hskip, hsax, hstates, hready⟩ := ready_mark Double text
      obtain ⟨t, rest, rfl, hfinite, hstops, hv⟩ :=
        text_of_ready hstart hskip hsax hstates hready h
      exact ⟨t, rest, ⟨.inr rfl, hfinite, hstops⟩, hv⟩
    · exact absurd h (parseFrames_badMark hhead (not_exists.mp hmark) v)
  · obtain ⟨t, rest, htext, hfinite, hstops, hv⟩ :=
      text_of_ready (q := fresh bytes) rfl rfl rfl rfl (ready_fresh hhead) h
    exact ⟨t, rest, ⟨.inl htext, hfinite, hstops⟩, hv⟩

/-- A text at the beginning of the file is an object if another one there is, which may
be shorter or longer. -/
theorem Holds.isObject_congr {t t' : Tree} {rest rest' more : List UInt8}
    (h : Holds Double bytes t rest) {p : List UInt8} (h' : Holds Double p t' rest')
    (hp : bytes = p ++ more) : t.isObject = t'.isObject := by
  have hmark : ∀ {t : Tree} {text text' : List UInt8}, t.text ++ text ≠ byteOrderMark ++ text' := by
    intro t text text' heq
    obtain ⟨b, tail, htext, hb⟩ := head_text t
    rw [htext] at heq
    exact hb (List.cons.inj heq).1
  obtain ⟨htext | htext, -, -⟩ := h <;> obtain ⟨htext' | htext', -, -⟩ := h' <;>
    rw [htext, htext'] at hp
  · rw [List.append_assoc] at hp
    exact Parser.isObject_congr hp
  · rw [List.append_assoc] at hp
    exact absurd hp hmark
  · rw [List.append_assoc] at hp
    exact absurd hp.symm hmark
  · rw [List.append_assoc, List.append_assoc] at hp
    exact Parser.isObject_congr (List.append_cancel_left hp)

/-- The parser comes to a value exactly where a JSON text begins the file, a byte order
mark before it or not. What stands behind the text is not read, but for the bytes
that would go on with a number. -/
theorem parse_ok_iff (bytes : List UInt8) (v : Value Double) :
    parse bytes = .ok v ↔
      ∃ (mark : List UInt8) (t : Tree) (rest : List UInt8), (mark = [] ∨ mark = byteOrderMark) ∧
        bytes = mark ++ (t.text ++ rest) ∧ (∀ n ∈ t.numbers, Finite Double n) ∧
        t.StopsBefore rest ∧ v = treeMeaning t := by
  constructor
  · intro h
    obtain ⟨t, rest, ⟨htext | htext, hfinite, hstops⟩, hv⟩ := holds_of_parse h
    · exact ⟨[], t, rest, .inl rfl, htext, hfinite, hstops, hv⟩
    · exact ⟨byteOrderMark, t, rest, .inr rfl, htext, hfinite, hstops, hv⟩
  · rintro ⟨mark, t, rest, rfl | rfl, htext, hfinite, hstops, rfl⟩
    · exact Holds.parse ⟨.inl htext, hfinite, hstops⟩
    · exact Holds.parse ⟨.inr htext, hfinite, hstops⟩

end Parser

end Qwin
