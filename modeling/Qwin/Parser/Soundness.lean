import Qwin.Parser.Completeness

/-!
Where the parser comes to a value, it has read the text of a syntax tree for it. What
the open arrays and objects still ask of the text is carried along the loop.
-/

set_option autoImplicit false

namespace Qwin

open Loops JsonText Lexer

namespace Parser

variable {Double : Type} [Strtod Double] {w : Value Double} {p q : Parser Double (Dom Double)}
  {text : List UInt8}

/-- A text that closes all that is open, one frame after the other, and so makes `w` of
the document. -/
inductive Completes (w : Value Double) : Dom Double → List UInt8 → Prop where
  | root (text : List UInt8) : Completes w ⟨w, []⟩ text
  | array {root : Value Double} {items : List (Value Double)} {stack : List (Frame Double)}
      (rest : Items) {text : List UInt8} (hfinite : ∀ n ∈ rest.numbers, Finite Double n)
      (h : Completes w (Dom.handleValue (.array (items ++ itemsMeaning rest)) ⟨root, stack⟩)
        text) :
      Completes w ⟨root, .array items :: stack⟩ (rest.text ++ text)
  | object {root : Value Double} {members : List (List UInt8 × Value Double)}
      {key : Option (List UInt8)} {stack : List (Frame Double)} (rest : Members)
      {text : List UInt8} (hfinite : ∀ n ∈ rest.numbers, Finite Double n)
      (h : Completes w (Dom.handleValue (.object ((membersMeaning rest).foldl
        (fun members pair => assign pair.1 pair.2 members) members)) ⟨root, stack⟩) text) :
      Completes w ⟨root, .object members key :: stack⟩ (rest.text ++ text)

/-- `text` begins with a value for the document, and completes it after that. -/
def Begins (w : Value Double) (sax : Dom Double) (text : List UInt8) : Prop :=
  ∃ (t : Tree) (text' : List UInt8), text = t.text ++ text' ∧
    (∀ n ∈ t.numbers, Finite Double n) ∧ t.StopsBefore text' ∧
    Completes w (sax.handleValue (treeMeaning t)) text'

def Ends (w : Value Double) : ParserTurn Double (Dom Double) → Prop
  | .next p => saxParse.run p = .ok w
  | .done r => r = .ok w

theorem ends_turn : Ends w (turn p) ↔ saxParse.run p = .ok w := by
  cases hturn : turn p with
  | next p' => rw [Loop.run_next (show saxParse.turn p = .next p' from hturn)]; rfl
  | done r => rw [Loop.run_done (show saxParse.turn p = .done r from hturn)]; rfl

/-- What is shown of every state, for the two kinds of states that turns begin in. -/
structure Sound (w : Value Double) (p : Parser Double (Dom Double)) : Prop where
  skip : ∀ text, p.skipToStateEvaluation = true → p.lexer.Ready text →
    Agree p.states p.sax.refStack → saxParse.run p = .ok w → Completes w p.sax text
  value : ∀ (q : Parser Double (Dom Double)) text, p = q.getToken →
    q.skipToStateEvaluation = false → q.lexer.Ready text → Agree q.states q.sax.refStack →
    saxParse.run p = .ok w → Begins w q.sax text

theorem structuralCharacter_inj {c c' : UInt8} {t : TokenType}
    (h : structuralCharacter c = some t) (h' : structuralCharacter c' = some t) : c = c' := by
  unfold structuralCharacter at h h'
  split at h <;> cases h <;> split at h' <;> first | rfl | cases h'

/-- A token that is a structural character was read as one. -/
theorem ready_structural {l : Lexer Double} {t : TokenType} {c : UInt8} (h : l.Ready text)
    (hc : structuralCharacter c = some t) (ht : l.scan.1 = t) :
    ∃ (before : Space) (text' : List UInt8), text = before.bytes ++ c :: text' ∧
      l.scan.2.Ready text' := by
  have hkind : t ≠ .endOfInput ∧ t ≠ .parseError ∧
      ∀ l : Lexer Double, Lexer.scalar t l = none := by
    unfold structuralCharacter at hc
    split at hc <;> cases hc <;> exact ⟨by decide, by decide, fun _ => rfl⟩
  rcases h.scan_some (ht ▸ hkind.1) (ht ▸ hkind.2.1) with
    ⟨before, c', text', hc', htext, hready⟩ | ⟨before, scalar, text', -, -, hscalar, -⟩
  · rw [ht] at hc'
    obtain rfl := structuralCharacter_inj hc hc'
    exact ⟨before, text', htext, hready⟩
  · rw [ht, hkind.2.2] at hscalar
    cases hscalar

/-- A string token was read as a string. -/
theorem ready_string {l : Lexer Double} (h : l.Ready text) (ht : l.scan.1 = .valueString) :
    ∃ (before : Space) (pieces : List Piece) (text' : List UInt8),
      text = before.bytes ++ ((Scalar.string pieces).text ++ text') ∧
      l.scan.2.tokenBuffer = content pieces ∧ l.scan.2.Ready text' := by
  rcases h.scan_some (by rw [ht]; decide) (by rw [ht]; decide) with
    ⟨before, c, text', hc, -, -⟩ | ⟨before, scalar, text', htext, -, hscalar, hready⟩
  · rw [ht] at hc
    unfold structuralCharacter at hc
    split at hc <;> cases hc
  · rw [ht] at hscalar
    cases scalar with
    | string pieces =>
      exact ⟨before, pieces, text', htext, Value.string.inj (Option.some.inj hscalar), hready⟩
    | number n =>
      have hnumber : numberMeaning n = (Value.string l.scan.2.tokenBuffer : Value Double) :=
        (Option.some.inj hscalar).symm
      unfold numberMeaning at hnumber
      split_ifs at hnumber
    | _ => cases hscalar

theorem not_ends_unexpected {expected : TokenType} {context : String} :
    ¬ Ends w (p.unexpected expected context) := by
  intro h
  cases h

theorem parseKey_sound {states : List Bool} {root : Value Double}
    {members : List (List UInt8 × Value Double)} {key : Option (List UInt8)}
    {stack : List (Frame Double)} (hskip : q.skipToStateEvaluation = false)
    (hready : q.lexer.Ready text) (hsax : q.sax = ⟨root, .object members key :: stack⟩)
    (hagree : Agree states stack) (hends : Ends w (parseKey (false :: states) q.getToken))
    (ih : ∀ p', parseKey (false :: states) q.getToken = .next p' → Sound w p') :
    ∃ (key : Key) (text' : List UInt8), text = key.text ++ text' ∧
      Begins w ⟨root, .object members (some (content key.pieces)) :: stack⟩ text' := by
  by_cases ht : q.lexer.scan.1 = .valueString
  · obtain ⟨before, pieces, text₁, htext, hbuffer, hready₁⟩ := ready_string hready ht
    let q₁ := (q.getToken.withSax (q.sax.key q.getToken.lexer.tokenBuffer)).getToken
    by_cases hcolon : q₁.lastToken = .nameSeparator
    · obtain ⟨after, text', htext', hready'⟩ := ready_structural (c := 0x3A) hready₁ rfl hcolon
      have hnext : parseKey (false :: states) q.getToken =
          .next ({ q₁ with states := false :: states }.getToken) :=
        (if_pos ht).trans (if_pos hcolon)
      rw [hnext] at hends
      have hsax₁ : q₁.sax = ⟨root, .object members (some (content pieces)) :: stack⟩ := by
        change q.sax.key q.getToken.lexer.tokenBuffer = _
        rw [hsax, show q.getToken.lexer.tokenBuffer = content pieces from hbuffer]
        rfl
      have hbegins := (ih _ hnext).value { q₁ with states := false :: states } text' rfl hskip
        hready' (by rw [hsax₁]; exact .object _ _ hagree) hends
      refine ⟨⟨before, pieces, after⟩, text', ?_, hsax₁ ▸ hbegins⟩
      rw [htext, htext']
      simp only [Key.text, Scalar.text, List.append_assoc, List.cons_append, List.nil_append]
    · refine absurd hends ?_
      rw [show parseKey (false :: states) q.getToken = q₁.unexpected _ _ from
        (if_pos ht).trans (if_neg hcolon)]
      exact not_ends_unexpected
  · refine absurd hends ?_
    rw [show parseKey (false :: states) q.getToken = q.getToken.unexpected _ _ from if_neg ht]
    exact not_ends_unexpected

section Evaluation
variable {root : Value Double} {stack : List (Frame Double)} {states : List Bool}

theorem evaluateState_array {items : List (Value Double)} (hskip : p.skipToStateEvaluation = false)
    (hready : p.lexer.Ready text) (hsax : p.sax = ⟨root, .array items :: stack⟩)
    (hstates : p.states = true :: states) (hagree : Agree states stack)
    (hends : Ends w (evaluateState p)) (ih : ∀ p', evaluateState p = .next p' → Sound w p') :
    Completes w p.sax text := by
  by_cases hcomma : p.lexer.scan.1 = .valueSeparator
  · obtain ⟨before, text₁, rfl, hready₁⟩ := ready_structural (c := 0x2C) hready rfl hcomma
    have hnext := evaluateState_comma hstates hcomma
    rw [hnext] at hends
    obtain ⟨item, text', rfl, hitem, -, hcompletes⟩ :=
      (ih _ hnext).value p.getToken text₁ rfl hskip hready₁
        (by rw [show p.getToken.states = _ from hstates, show p.getToken.sax = _ from hsax]
            exact .array items hagree) hends
    rw [show p.getToken.sax = _ from hsax] at hcompletes
    rw [hsax]
    cases hcompletes with
    | array rest hrest h =>
      have hcomma : Completes w ⟨root, .array items :: stack⟩
          ((Items.comma before item rest).text ++ _) := .array _
        (List.forall_mem_append.mpr ⟨hitem, hrest⟩) (by rwa [List.append_assoc] at h)
      rw [Items.text, List.append_assoc, List.cons_append, List.append_assoc] at hcomma
      exact hcomma
  · by_cases hclose : p.lexer.scan.1 = .endArray
    · obtain ⟨before, text₁, rfl, hready₁⟩ := ready_structural (c := 0x5D) hready rfl hclose
      have hnext := evaluateState_close hstates hclose
      rw [hnext] at hends
      have hclosed : p.sax.endArray = Dom.handleValue (.array items) ⟨root, stack⟩ := by
        rw [hsax]
        rfl
      have h := (ih _ hnext).skip text₁ rfl hready₁
        (by rw [hclosed]; exact Agree.handleValue ⟨root, stack⟩ _ hagree) hends
      rw [hclosed] at h
      rw [hsax]
      have hclose : Completes w ⟨root, .array items :: stack⟩
          ((Items.close before).text ++ text₁) := .array _
        (fun n hn => absurd hn List.not_mem_nil) (by rwa [itemsMeaning, List.append_nil])
      rw [Items.text, List.append_assoc] at hclose
      exact hclose
    · refine absurd hends ?_
      have herror : evaluateState p = p.getToken.unexpected .endArray "array" := by
        unfold evaluateState
        rw [hstates]
        exact (if_neg hcomma).trans (if_neg hclose)
      rw [herror]
      exact not_ends_unexpected

theorem evaluateState_object {members : List (List UInt8 × Value Double)} {key : List UInt8}
    (hskip : p.skipToStateEvaluation = false) (hready : p.lexer.Ready text)
    (hsax : p.sax = ⟨root, .object members (some key) :: stack⟩)
    (hstates : p.states = false :: states) (hagree : Agree states stack)
    (hends : Ends w (evaluateState p)) (ih : ∀ p', evaluateState p = .next p' → Sound w p') :
    Completes w p.sax text := by
  by_cases hcomma : p.lexer.scan.1 = .valueSeparator
  · obtain ⟨before, text₁, rfl, hready₁⟩ := ready_structural (c := 0x2C) hready rfl hcomma
    have hnext := evaluateState_member hstates hcomma
    rw [hstates] at hnext
    rw [hnext] at hends ih
    obtain ⟨key', text₂, rfl, value, text', rfl, hvalue, -, hcompletes⟩ :=
      parseKey_sound (q := p.getToken) hskip hready₁ hsax hagree hends ih
    rw [hsax]
    cases hcompletes with
    | object rest hrest h =>
      have hcomma : Completes w ⟨root, .object members (some key) :: stack⟩
          ((Members.comma before key' value rest).text ++ _) := .object _
        (List.forall_mem_append.mpr ⟨hvalue, hrest⟩) h
      rw [Members.text] at hcomma
      simp only [List.append_assoc, List.cons_append] at hcomma
      exact hcomma
  · by_cases hclose : p.lexer.scan.1 = .endObject
    · obtain ⟨before, text₁, rfl, hready₁⟩ := ready_structural (c := 0x7D) hready rfl hclose
      have hnext := evaluateState_closeObject hstates hclose
      rw [hnext] at hends
      have hclosed : p.sax.endObject = Dom.handleValue (.object members) ⟨root, stack⟩ := by
        rw [hsax]
        rfl
      have h := (ih _ hnext).skip text₁ rfl hready₁
        (by rw [hclosed]; exact Agree.handleValue ⟨root, stack⟩ _ hagree) hends
      rw [hclosed] at h
      rw [hsax]
      have hclose : Completes w ⟨root, .object members (some key) :: stack⟩
          ((Members.close before).text ++ text₁) := .object _
        (fun n hn => absurd hn List.not_mem_nil) h
      rw [Members.text, List.append_assoc] at hclose
      exact hclose
    · refine absurd hends ?_
      have herror : evaluateState p = p.getToken.unexpected .endObject "object" := by
        unfold evaluateState
        rw [hstates]
        exact (if_neg hcomma).trans (if_neg hclose)
      rw [herror]
      exact not_ends_unexpected

end Evaluation

theorem evaluateState_sound (hskip : p.skipToStateEvaluation = false) (hready : p.lexer.Ready text)
    (hagree : Agree p.states p.sax.refStack) (hends : Ends w (evaluateState p))
    (ih : ∀ p', evaluateState p = .next p' → Sound w p') : Completes w p.sax text := by
  obtain ⟨root, stack, hsax⟩ : ∃ root stack, p.sax = ⟨root, stack⟩ := ⟨_, _, rfl⟩
  have hstack : Agree p.states stack := by
    rw [hsax] at hagree
    exact hagree
  generalize hstates : p.states = states at hstack
  cases hstack with
  | nil =>
    have hok : evaluateState p = .done (.ok p.sax.root) := by
      unfold evaluateState
      rw [hstates]
      rfl
    rw [hok, hsax] at hends
    obtain rfl : root = w := Except.ok.inj hends
    rw [hsax]
    exact .root text
  | array items h => exact evaluateState_array hskip hready hsax hstates h hends ih
  | object members key h => exact evaluateState_object hskip hready hsax hstates h hends ih

section Values
variable (hskip : q.skipToStateEvaluation = false) (hagree : Agree q.states q.sax.refStack)
  (hends : Ends w (parseValue q.getToken))
  (ih : ∀ p', parseValue q.getToken = .next p' → Sound w p')
include hskip hagree hends ih

theorem parseValue_scalar_sound {before : Space} {scalar : Scalar}
    (hscalar : Lexer.scalar q.lexer.scan.1 q.lexer.scan.2 = some (scalarMeaning scalar))
    (hstops : ∀ b, text.head? = some b → scalar.StopsAt b) (hready : q.lexer.scan.2.Ready text) :
    Begins w q.sax (before.bytes ++ (scalar.text ++ text)) := by
  have hfinite : ∀ d, (scalarMeaning scalar : Value Double) = .numberFloat d →
      Strtod.isfinite d = true := by
    intro d hd
    by_contra hinfinite
    rw [hd] at hscalar
    have hfloat : q.getToken.lastToken = .valueFloat ∧ q.getToken.lexer.valueFloat = d := by
      change q.lexer.scan.1 = _ ∧ q.lexer.scan.2.valueFloat = d
      generalize q.lexer.scan.1 = t at hscalar
      cases t with
      | valueFloat => exact ⟨rfl, Value.numberFloat.inj (Option.some.inj hscalar)⟩
      | _ => cases hscalar
    unfold parseValue at hends
    rw [hfloat.1] at hends
    dsimp only at hends
    rw [hfloat.2, if_neg hinfinite] at hends
    cases hends
  have hvalue := parseValue_scalar (p := q.getToken) hscalar hfinite
  rw [hvalue] at hends ih
  refine ⟨.leaf before scalar, text, ?_, ?_, hstops, ?_⟩
  · rw [Tree.text, List.append_assoc]
  · intro n hn d hd
    cases scalar with
    | number m =>
      obtain rfl : n = m := List.mem_singleton.mp hn
      exact hfinite d hd
    | _ => cases hn
  · exact evaluateState_sound (p := q.getToken.withSax (q.sax.handleValue (scalarMeaning scalar)))
      hskip hready (Agree.handleValue _ _ hagree) hends ih

theorem parseValue_array_sound {before : Space} (hopen : q.lexer.scan.1 = .beginArray)
    (hready : q.lexer.scan.2.Ready text) : Begins w q.sax (before.bytes ++ 0x5B :: text) := by
  have hvalue := parseValue_beginArray (p := q.getToken) hopen
  let q₁ := (q.getToken.withSax q.sax.startArray).getToken
  by_cases hclose : q₁.lastToken = .endArray
  · obtain ⟨inside, text', rfl, hready'⟩ := ready_structural (c := 0x5D) hready rfl hclose
    have hevaluate : parseValue q.getToken = evaluateState (q₁.withSax q₁.sax.endArray) :=
      hvalue.trans (if_pos hclose)
    rw [hevaluate] at hends ih
    refine ⟨.emptyArray before inside, text', ?_, fun n hn => absurd hn List.not_mem_nil, trivial,
      ?_⟩
    · rw [Tree.text]
      simp only [List.append_assoc, List.cons_append, List.nil_append]
    · exact evaluateState_sound (p := q₁.withSax q₁.sax.endArray) hskip hready'
        (Agree.handleValue _ (.array []) hagree) hends ih
  · have hnext : parseValue q.getToken = .next
        ({ q.getToken.withSax q.sax.startArray with states := true :: q.states }.getToken) :=
      hvalue.trans (if_neg hclose)
    rw [hnext] at hends
    obtain ⟨first, text', rfl, hfirst, -, hcompletes⟩ :=
      (ih _ hnext).value { q.getToken.withSax q.sax.startArray with states := true :: q.states }
        text rfl hskip hready (.array [] hagree) hends
    cases hcompletes with
    | array rest hrest h =>
      refine ⟨.array before first rest, _, ?_, List.forall_mem_append.mpr ⟨hfirst, hrest⟩, trivial,
        h⟩
      rw [Tree.text]
      simp only [List.append_assoc, List.cons_append]

theorem parseValue_object_sound {before : Space} (hopen : q.lexer.scan.1 = .beginObject)
    (hready : q.lexer.scan.2.Ready text) : Begins w q.sax (before.bytes ++ 0x7B :: text) := by
  have hvalue := parseValue_beginObject (p := q.getToken) hopen
  let q₁ := (q.getToken.withSax q.sax.startObject).getToken
  by_cases hclose : q₁.lastToken = .endObject
  · obtain ⟨inside, text', rfl, hready'⟩ := ready_structural (c := 0x7D) hready rfl hclose
    have hevaluate : parseValue q.getToken = evaluateState (q₁.withSax q₁.sax.endObject) :=
      hvalue.trans (if_pos hclose)
    rw [hevaluate] at hends ih
    refine ⟨.emptyObject before inside, text', ?_, fun n hn => absurd hn List.not_mem_nil, trivial,
      ?_⟩
    · rw [Tree.text]
      simp only [List.append_assoc, List.cons_append, List.nil_append]
    · exact evaluateState_sound (p := q₁.withSax q₁.sax.endObject) hskip hready'
        (Agree.handleValue _ (.object []) hagree) hends ih
  · have hkey : parseValue q.getToken =
        parseKey (false :: q.states) (q.getToken.withSax q.sax.startObject).getToken :=
      hvalue.trans (if_neg hclose)
    rw [hkey] at hends ih
    obtain ⟨key, text₁, rfl, first, text', rfl, hfirst, -, hcompletes⟩ :=
      parseKey_sound (q := q.getToken.withSax q.sax.startObject) hskip hready rfl hagree hends ih
    cases hcompletes with
    | object rest hrest h =>
      refine ⟨.object before key first rest, _, ?_, List.forall_mem_append.mpr ⟨hfirst, hrest⟩,
        trivial, h⟩
      rw [Tree.text]
      simp only [List.append_assoc, List.cons_append]

end Values

theorem sound_of_turn (ih : ∀ p', turn p = .next p' → Sound w p') : Sound w p := by
  constructor
  · intro text hskip hready hagree hrun
    have hends := ends_turn.mpr hrun
    rw [turn_skip hskip] at hends ih
    exact evaluateState_sound (p := { p with skipToStateEvaluation := false }) rfl hready hagree
      hends ih
  · rintro q text rfl hskip hready hagree hrun
    have hends := ends_turn.mpr hrun
    rw [turn_getToken hskip] at hends ih
    have hend : q.lexer.scan.1 ≠ .endOfInput := by
      intro hend
      unfold parseValue at hends
      rw [show q.getToken.lastToken = .endOfInput from hend] at hends
      dsimp only at hends
      split at hends <;> cases hends
    have herror : q.lexer.scan.1 ≠ .parseError := by
      intro herror
      unfold parseValue at hends
      rw [show q.getToken.lastToken = .parseError from herror] at hends
      cases hends
    rcases hready.scan_some hend herror with
      ⟨before, c, text', hc, rfl, hready'⟩ | ⟨before, scalar, text', rfl, hstops, hscalar, hready'⟩
    · by_cases hopen : q.lexer.scan.1 = .beginArray
      · obtain rfl : c = 0x5B := structuralCharacter_inj (hopen ▸ hc) rfl
        exact parseValue_array_sound hskip hagree hends ih hopen hready'
      · by_cases hopen' : q.lexer.scan.1 = .beginObject
        · obtain rfl : c = 0x7B := structuralCharacter_inj (hopen' ▸ hc) rfl
          exact parseValue_object_sound hskip hagree hends ih hopen' hready'
        · exfalso
          unfold parseValue at hends
          change q.getToken.lastToken ≠ _ at hopen hopen'
          change structuralCharacter c = some q.getToken.lastToken at hc
          generalize q.getToken.lastToken = t at hends hopen hopen' hc
          unfold structuralCharacter at hc
          split at hc <;> cases hc <;> contradiction
    · exact parseValue_scalar_sound hskip hagree hends ih hscalar hstops hready'

theorem sound (w : Value Double) (p : Parser Double (Dom Double)) : Sound w p := by
  refine saxParse.induction (P := Sound w) ?_ ?_ p
  · intro p r hturn
    refine sound_of_turn fun p' hnext => ?_
    cases hturn.symm.trans hnext
  · intro p p' hturn ih
    refine sound_of_turn fun p'' hnext => ?_
    obtain rfl := Turn.next.inj (hturn.symm.trans hnext)
    exact ih

end Parser

end Qwin
