import Qwin.Parser.Frames
import Qwin.Parser.Parser
import Qwin.Parser.TokenText

/-!
What the parser does with the text of a syntax tree: it comes to the value of the
tree, and goes on behind it.
-/

set_option autoImplicit false

namespace Qwin

open Decimals Loops JsonText Lexer

namespace Parser

variable {Double : Type} [Strtod Double] {p q : Parser Double (Dom Double)} {text : List UInt8}

/-- A byte that may stand after every value. -/
def Delimiter (b : UInt8) : Prop := isSpace b = true ∨ b = 0x2C ∨ b = 0x5D ∨ b = 0x7D

theorem stopsAt_delimiter {b : UInt8} (h : Delimiter b) (scalar : Scalar) : scalar.StopsAt b := by
  have hb : isDigit b = false ∧ b ≠ 0x2E ∧ b ≠ 0x65 ∧ b ≠ 0x45 := by
    simp only [Delimiter, isSpace, Bool.or_eq_true, beq_iff_eq] at h
    rcases h with (((rfl | rfl) | rfl) | rfl) | rfl | rfl | rfl <;> decide
  cases scalar with
  | number n =>
    refine ⟨?_, ?_, ?_⟩
    · intro hdigit
      rw [hb.1] at hdigit
      cases hdigit
    · exact fun hpoint => absurd hpoint hb.2.1
    · rintro (hletter | hletter)
      · exact absurd hletter hb.2.2.1
      · exact absurd hletter hb.2.2.2
  | _ => trivial

theorem head_space {before : Space} {c b : UInt8} (hc : Delimiter c)
    (h : (before.bytes ++ c :: text).head? = some b) : Delimiter b := by
  obtain ⟨bytes, hspaces⟩ := before
  cases bytes with
  | nil =>
    obtain rfl : c = b := Option.some.inj h
    exact hc
  | cons d bytes =>
    obtain rfl : d = b := Option.some.inj h
    exact .inl (hspaces d List.mem_cons_self)

theorem stopsBefore_items (t : Tree) (items : Items) : t.StopsBefore (items.text ++ text) := by
  have hdelimiter : ∀ b, (items.text ++ text).head? = some b → Delimiter b := by
    intro b hb
    cases items with
    | close before =>
      rw [Items.text, List.append_assoc] at hb
      exact head_space (.inr (.inr (.inl rfl))) hb
    | comma before item rest =>
      rw [Items.text, List.append_assoc] at hb
      exact head_space (.inr (.inl rfl)) hb
  cases t with
  | leaf before scalar => exact fun b hb => stopsAt_delimiter (hdelimiter b hb) scalar
  | _ => trivial

theorem stopsBefore_members (t : Tree) (members : Members) :
    t.StopsBefore (members.text ++ text) := by
  have hdelimiter : ∀ b, (members.text ++ text).head? = some b → Delimiter b := by
    intro b hb
    cases members with
    | close before =>
      rw [Members.text, List.append_assoc] at hb
      exact head_space (.inr (.inr (.inr rfl))) hb
    | comma before key value rest =>
      rw [Members.text, List.append_assoc] at hb
      exact head_space (.inr (.inl rfl)) hb
  cases t with
  | leaf before scalar => exact fun b hb => stopsAt_delimiter (hdelimiter b hb) scalar
  | _ => trivial

/-- A scalar is taken as it was scanned. -/
theorem parseValue_scalar {v : Value Double} (h : Lexer.scalar p.lastToken p.lexer = some v)
    (hfinite : ∀ d, v = .numberFloat d → Strtod.isfinite d = true) :
    parseValue p = p.handle v := by
  unfold Lexer.scalar at h
  unfold parseValue
  split at h <;> rename_i hlast <;> cases h <;> rw [hlast]
  dsimp only
  rw [if_pos (hfinite _ rfl)]

/-- The parser goes on as one that has a value behind it, with `sax` and `states`, and
`text` to read. -/
def Resumes (p : Parser Double (Dom Double)) (sax : Dom Double) (states : List Bool)
    (text : List UInt8) : Prop :=
  ∃ p' : Parser Double (Dom Double), p'.skipToStateEvaluation = true ∧ p'.sax = sax ∧
    p'.states = states ∧ p'.lexer.Ready text ∧ saxParse.run p = saxParse.run p'

theorem resumes_of_evaluate (p₁ : Parser Double (Dom Double))
    (hskip : p₁.skipToStateEvaluation = false) (hturn : turn p = evaluateState p₁)
    (hready : p₁.lexer.Ready text) :
    Resumes p p₁.sax p₁.states text := by
  refine ⟨{ p₁ with skipToStateEvaluation := true }, rfl, rfl, rfl, hready, ?_⟩
  refine Loop.run_congr (hturn.trans ?_)
  change evaluateState p₁ = evaluateState { p₁ with skipToStateEvaluation := false }
  rw [← hskip]

theorem Resumes.trans {sax sax' : Dom Double} {states states' : List Bool} {text' : List UInt8}
    (h : Resumes p sax states text)
    (h' : ∀ p' : Parser Double (Dom Double), p'.skipToStateEvaluation = true → p'.sax = sax →
      p'.states = states → p'.lexer.Ready text → Resumes p' sax' states' text') :
    Resumes p sax' states' text' := by
  obtain ⟨p', hskip, hsax, hstates, hready, hrun⟩ := h
  obtain ⟨p'', hskip', hsax', hstates', hready', hrun'⟩ := h' p' hskip hsax hstates hready
  exact ⟨p'', hskip', hsax', hstates', hready', hrun.trans hrun'⟩

theorem Resumes.of_next {p' : Parser Double (Dom Double)} {sax : Dom Double} {states : List Bool}
    (hturn : turn p = .next p') (h : Resumes p' sax states text) : Resumes p sax states text := by
  obtain ⟨p'', hskip, hsax, hstates, hready, hrun⟩ := h
  exact ⟨p'', hskip, hsax, hstates, hready, (Loop.run_next hturn).trans hrun⟩

theorem turn_getToken (hskip : q.skipToStateEvaluation = false) :
    turn q.getToken = parseValue q.getToken := by
  have hskip' : q.getToken.skipToStateEvaluation = false := hskip
  rw [turn, hskip', if_neg Bool.false_ne_true]

theorem turn_skip (hskip : p.skipToStateEvaluation = true) :
    turn p = evaluateState { p with skipToStateEvaluation := false } :=
  if_pos hskip

/-- No tree begins with a closing bracket. -/
theorem first_token {t : Tree} {l : Lexer Double} (h : l.Ready (t.text ++ text))
    (hstops : t.StopsBefore text) : l.scan.1 ≠ .endArray ∧ l.scan.1 ≠ .endObject := by
  cases t with
  | leaf before scalar =>
    rw [Tree.text, List.append_assoc] at h
    obtain ⟨hscalar, -⟩ := h.scan_scalar hstops
    constructor
    all_goals
      intro ht
      rw [ht] at hscalar
      cases hscalar
  | emptyArray before inside | array before first rest =>
    rw [Tree.text] at h
    simp only [List.append_assoc, List.cons_append] at h
    rw [(h.scan_structural (t := .beginArray) rfl).1]
    exact ⟨by decide, by decide⟩
  | emptyObject before inside | object before key first rest =>
    rw [Tree.text] at h
    simp only [List.append_assoc, List.cons_append] at h
    rw [(h.scan_structural (t := .beginObject) rfl).1]
    exact ⟨by decide, by decide⟩

omit [Strtod Double] in
theorem scalar_string {t : TokenType} {l : Lexer Double} {value : List UInt8}
    (h : Lexer.scalar t l = some (.string value)) : t = .valueString ∧ l.tokenBuffer = value := by
  cases t with
  | valueString => exact ⟨rfl, Value.string.inj (Option.some.inj h)⟩
  | _ => cases h

theorem scan_key {key : Key} {l : Lexer Double} (h : l.Ready (key.text ++ text)) :
    l.scan.1 = .valueString ∧ l.scan.2.tokenBuffer = content key.pieces ∧
      l.scan.2.scan.1 = .nameSeparator ∧ l.scan.2.scan.2.Ready text := by
  have htext : key.text ++ text = key.before.bytes ++ ((Scalar.string key.pieces).text ++
      (key.after.bytes ++ 0x3A :: text)) := by
    simp only [Key.text, Scalar.text, List.append_assoc, List.cons_append, List.nil_append]
  rw [htext] at h
  obtain ⟨hscalar, hready⟩ := h.scan_scalar fun _ _ => trivial
  obtain ⟨hcolon, hready'⟩ := hready.scan_structural (t := .nameSeparator) rfl
  obtain ⟨ht, hbuffer⟩ := scalar_string hscalar
  exact ⟨ht, hbuffer, hcolon, hready'⟩

theorem parseValue_beginArray (h : p.lastToken = .beginArray) :
    parseValue p =
      if (p.withSax p.sax.startArray).getToken.lastToken = .endArray then
        evaluateState ((p.withSax p.sax.startArray).getToken.withSax
          (p.withSax p.sax.startArray).getToken.sax.endArray)
      else .next { (p.withSax p.sax.startArray).getToken with states := true :: p.states } := by
  unfold parseValue
  rw [h]
  rfl

theorem parseValue_beginObject (h : p.lastToken = .beginObject) :
    parseValue p =
      if (p.withSax p.sax.startObject).getToken.lastToken = .endObject then
        evaluateState ((p.withSax p.sax.startObject).getToken.withSax
          (p.withSax p.sax.startObject).getToken.sax.endObject)
      else parseKey (false :: p.states) (p.withSax p.sax.startObject).getToken := by
  unfold parseValue
  rw [h]
  rfl

section Array
variable {states : List Bool} (hstates : p.states = true :: states)
include hstates

theorem evaluateState_comma (h : p.lexer.scan.1 = .valueSeparator) :
    evaluateState p = .next p.getToken.getToken := by
  unfold evaluateState
  rw [hstates]
  exact if_pos h

theorem evaluateState_close (h : p.lexer.scan.1 = .endArray) :
    evaluateState p = .next { p.getToken with
      sax := p.sax.endArray, states := states, skipToStateEvaluation := true } := by
  unfold evaluateState
  rw [hstates]
  refine (if_neg ?_).trans (if_pos h)
  rw [show p.getToken.lastToken = .endArray from h]
  decide

end Array

section Object
variable {states : List Bool} (hstates : p.states = false :: states)
include hstates

theorem evaluateState_member (h : p.lexer.scan.1 = .valueSeparator) :
    evaluateState p = parseKey p.states p.getToken.getToken := by
  unfold evaluateState
  rw [hstates]
  refine (if_pos h).trans ?_
  rw [← hstates]
  rfl

theorem evaluateState_closeObject (h : p.lexer.scan.1 = .endObject) :
    evaluateState p = .next { p.getToken with
      sax := p.sax.endObject, states := states, skipToStateEvaluation := true } := by
  unfold evaluateState
  rw [hstates]
  refine (if_neg ?_).trans (if_pos h)
  rw [show p.getToken.lastToken = .endObject from h]
  decide

end Object

/-- At a key whose object is open. -/
theorem parseKey_key (q : Parser Double (Dom Double)) (states : List Bool) {key : Key}
    (h : q.lexer.Ready (key.text ++ text)) :
    ∃ q' : Parser Double (Dom Double), parseKey states q.getToken = .next q'.getToken ∧
      q'.sax = q.sax.key (content key.pieces) ∧ q'.states = states ∧
      q'.skipToStateEvaluation = q.skipToStateEvaluation ∧ q'.lexer.Ready text := by
  obtain ⟨ht, hbuffer, hcolon, hready⟩ := scan_key h
  let q₁ := (q.getToken.withSax (q.sax.key q.getToken.lexer.tokenBuffer)).getToken
  refine ⟨{ q₁ with states := states }, ?_, ?_, rfl, rfl, hready⟩
  · unfold parseKey
    rw [if_pos (show q.getToken.lastToken = .valueString from ht)]
    dsimp only
    exact if_pos hcolon
  · change q.sax.key q.getToken.lexer.tokenBuffer = _
    rw [show q.getToken.lexer.tokenBuffer = content key.pieces from hbuffer]

mutual

/-- From the token that begins the tree to the state after its value. -/
theorem resumes_tree (t : Tree) (q : Parser Double (Dom Double)) (text : List UInt8)
    (hskip : q.skipToStateEvaluation = false) (h : q.lexer.Ready (t.text ++ text))
    (hstops : t.StopsBefore text) (hfinite : ∀ n ∈ t.numbers, Finite Double n) :
    Resumes q.getToken (q.sax.handleValue (treeMeaning t)) q.states text := by
  match t with
  | .leaf before scalar =>
    rw [Tree.text, List.append_assoc] at h
    obtain ⟨hscalar, hready⟩ := h.scan_scalar hstops
    have hfinite' : ∀ d, (scalarMeaning scalar : Value Double) = .numberFloat d →
        Strtod.isfinite d = true := by
      intro d hd
      cases scalar with
      | number n => exact hfinite n List.mem_cons_self d hd
      | _ => cases hd
    exact resumes_of_evaluate (q.getToken.withSax (q.sax.handleValue (scalarMeaning scalar)))
      hskip ((turn_getToken hskip).trans (parseValue_scalar hscalar hfinite')) hready
  | .emptyArray before inside =>
    rw [Tree.text] at h
    simp only [List.append_assoc, List.cons_append, List.nil_append] at h
    obtain ⟨hopen, hready⟩ := h.scan_structural (t := .beginArray) rfl
    obtain ⟨hclose, hready'⟩ := hready.scan_structural (t := .endArray) rfl
    let q₁ := (q.getToken.withSax q.sax.startArray).getToken
    refine resumes_of_evaluate (q₁.withSax q₁.sax.endArray) hskip ?_ hready'
    rw [turn_getToken hskip, parseValue_beginArray hopen]
    exact if_pos hclose
  | .array before first rest =>
    rw [Tree.text] at h
    simp only [List.append_assoc, List.cons_append] at h
    obtain ⟨hopen, hready⟩ := h.scan_structural (t := .beginArray) rfl
    obtain ⟨hfirst, hrest⟩ := List.forall_mem_append.mp hfinite
    let q₁ := { q.getToken.withSax q.sax.startArray with states := true :: q.states }
    have hnext : turn q.getToken = .next q₁.getToken := by
      rw [turn_getToken hskip, parseValue_beginArray hopen]
      exact if_neg (first_token hready (stopsBefore_items first rest)).1
    refine Resumes.of_next hnext ?_
    refine (resumes_tree first q₁ (rest.text ++ text) hskip hready (stopsBefore_items first rest)
      hfirst).trans fun p' hskip' hsax' hstates' hready' => ?_
    exact resumes_items rest p' text hskip' hsax' hstates' hready' hrest
  | .emptyObject before inside =>
    rw [Tree.text] at h
    simp only [List.append_assoc, List.cons_append, List.nil_append] at h
    obtain ⟨hopen, hready⟩ := h.scan_structural (t := .beginObject) rfl
    obtain ⟨hclose, hready'⟩ := hready.scan_structural (t := .endObject) rfl
    let q₁ := (q.getToken.withSax q.sax.startObject).getToken
    refine resumes_of_evaluate (q₁.withSax q₁.sax.endObject) hskip ?_ hready'
    rw [turn_getToken hskip, parseValue_beginObject hopen]
    exact if_pos hclose
  | .object before key first rest =>
    rw [Tree.text] at h
    simp only [List.append_assoc, List.cons_append] at h
    obtain ⟨hopen, hready⟩ := h.scan_structural (t := .beginObject) rfl
    obtain ⟨hfirst, hrest⟩ := List.forall_mem_append.mp hfinite
    obtain ⟨q₁, hkey, hsax₁, hstates₁, hskip₁, hready₁⟩ :=
      parseKey_key (q.getToken.withSax q.sax.startObject) (false :: q.states) hready
    have hnext : turn q.getToken = .next q₁.getToken := by
      rw [turn_getToken hskip, parseValue_beginObject hopen, ← hkey]
      refine if_neg fun hclose => ?_
      have hstring := (scan_key hready).1
      cases hstring.symm.trans hclose
    refine Resumes.of_next hnext ?_
    have htree := resumes_tree first q₁ (rest.text ++ text) (hskip₁.trans hskip) hready₁
      (stopsBefore_members first rest) hfirst
    rw [hsax₁, hstates₁] at htree
    refine htree.trans fun p' hskip' hsax' hstates' hready' => ?_
    exact resumes_members rest p' text hskip' hsax' hstates' hready' hrest

theorem resumes_items (rest : Items) (p : Parser Double (Dom Double)) (text : List UInt8)
    {root : Value Double} {items : List (Value Double)} {stack : List (Frame Double)}
    {states : List Bool} (hskip : p.skipToStateEvaluation = true)
    (hsax : p.sax = ⟨root, .array items :: stack⟩) (hstates : p.states = true :: states)
    (h : p.lexer.Ready (rest.text ++ text)) (hfinite : ∀ n ∈ rest.numbers, Finite Double n) :
    Resumes p (Dom.handleValue (.array (items ++ itemsMeaning rest)) ⟨root, stack⟩) states
      text := by
  match rest with
  | .close before =>
    rw [Items.text, List.append_assoc] at h
    obtain ⟨hclose, hready⟩ := h.scan_structural (t := .endArray) rfl
    have hnext : turn p = .next
        { { p with skipToStateEvaluation := false }.getToken with
          sax := p.sax.endArray, states := states, skipToStateEvaluation := true } := by
      rw [turn_skip hskip]
      exact evaluateState_close hstates hclose
    refine Resumes.of_next hnext ⟨_, rfl, ?_, rfl, hready, rfl⟩
    rw [hsax, itemsMeaning, List.append_nil]
    rfl
  | .comma before item rest =>
    rw [Items.text, List.append_assoc, List.cons_append, List.append_assoc] at h
    obtain ⟨hcomma, hready⟩ := h.scan_structural (t := .valueSeparator) rfl
    obtain ⟨hitem, hrest⟩ := List.forall_mem_append.mp hfinite
    let q₁ := { p with skipToStateEvaluation := false }.getToken
    have hnext : turn p = .next q₁.getToken := by
      rw [turn_skip hskip]
      exact evaluateState_comma hstates hcomma
    refine Resumes.of_next hnext ?_
    have htree := resumes_tree item q₁ (rest.text ++ text) rfl hready (stopsBefore_items item rest)
      hitem
    rw [show q₁.sax = _ from hsax, show q₁.states = _ from hstates] at htree
    refine htree.trans fun p' hskip' hsax' hstates' hready' => ?_
    have hitems := resumes_items rest p' text hskip' hsax' hstates' hready' hrest
    rw [List.append_assoc] at hitems
    exact hitems

theorem resumes_members (rest : Members) (p : Parser Double (Dom Double)) (text : List UInt8)
    {root : Value Double} {members : List (List UInt8 × Value Double)} {key : List UInt8}
    {stack : List (Frame Double)} {states : List Bool} (hskip : p.skipToStateEvaluation = true)
    (hsax : p.sax = ⟨root, .object members (some key) :: stack⟩)
    (hstates : p.states = false :: states) (h : p.lexer.Ready (rest.text ++ text))
    (hfinite : ∀ n ∈ rest.numbers, Finite Double n) :
    Resumes p (Dom.handleValue (.object ((membersMeaning rest).foldl
      (fun members pair => assign pair.1 pair.2 members) members)) ⟨root, stack⟩) states text := by
  match rest with
  | .close before =>
    rw [Members.text, List.append_assoc] at h
    obtain ⟨hclose, hready⟩ := h.scan_structural (t := .endObject) rfl
    have hnext : turn p = .next
        { { p with skipToStateEvaluation := false }.getToken with
          sax := p.sax.endObject, states := states, skipToStateEvaluation := true } := by
      rw [turn_skip hskip]
      exact evaluateState_closeObject hstates hclose
    refine Resumes.of_next hnext ⟨_, rfl, ?_, rfl, hready, rfl⟩
    rw [hsax]
    rfl
  | .comma before key' value rest =>
    rw [Members.text] at h
    simp only [List.append_assoc, List.cons_append] at h
    obtain ⟨hcomma, hready⟩ := h.scan_structural (t := .valueSeparator) rfl
    obtain ⟨hvalue, hrest⟩ := List.forall_mem_append.mp hfinite
    obtain ⟨q₁, hkey, hsax₁, hstates₁, hskip₁, hready₁⟩ :=
      parseKey_key { p with skipToStateEvaluation := false }.getToken p.states hready
    have hnext : turn p = .next q₁.getToken := by
      rw [turn_skip hskip, ← hkey]
      exact evaluateState_member hstates hcomma
    refine Resumes.of_next hnext ?_
    have htree := resumes_tree value q₁ (rest.text ++ text) hskip₁ hready₁
      (stopsBefore_members value rest) hvalue
    rw [hsax₁, show Parser.sax _ = _ from hsax, hstates₁, hstates] at htree
    refine htree.trans fun p' hskip' hsax' hstates' hready' => ?_
    exact resumes_members rest p' text hskip' hsax' hstates' hready' hrest

end

end Parser

end Qwin
