import Qwin.Parser.Frames
import Qwin.Parser.Parser

/-!
The pointers of `json_sax_dom_parser` point where its frames say: in every run, the
document with its open arrays and objects is the one that the frames make up.
-/

set_option autoImplicit false

namespace Qwin

open Loops

variable {Double : Type}

section Paths
variable {v w new : Value Double} {key : List UInt8} {members : List (List UInt8 × Value Double)}

theorem assign_assign (v w : Value Double) (key : List UInt8)
    (members : List (List UInt8 × Value Double)) :
    assign key v (assign key w members) = assign key v members := by
  induction members with
  | nil => exact if_pos rfl
  | cons member members ih =>
    by_cases h : member.1 = key
    · rw [assign, if_pos h, assign, if_pos rfl, assign, if_pos h]
    · rw [assign, if_neg h, assign, if_neg h, ih, assign, if_neg h]

theorem assign_absent (h : members.lookup key = none) (v w : Value Double) :
    assign key v (members ++ [(key, w)]) = assign key v members := by
  induction members with
  | nil => exact if_pos rfl
  | cons member members ih =>
    obtain ⟨key', value⟩ := member
    rw [List.lookup_cons] at h
    by_cases hkey : key = key'
    · rw [hkey, beq_self_eq_true] at h
      cases h
    · rw [beq_eq_false_iff_ne.mpr hkey] at h
      rw [List.cons_append, assign, if_neg (Ne.symm hkey), ih h, assign, if_neg (Ne.symm hkey)]

theorem assign_insertNull (v : Value Double) (key : List UInt8)
    (members : List (List UInt8 × Value Double)) :
    assign key v (insertNull key members) = assign key v members := by
  unfold insertNull
  split
  · rfl
  · rename_i hlookup
    exact assign_absent (Option.not_isSome_iff_eq_none.mp hlookup) v .null

theorem deref_append (p q : Path) (v : Value Double) :
    v.deref (p ++ q) = (v.deref p).bind (Value.deref q) := by
  induction p generalizing v with
  | nil => rfl
  | cons step p ih =>
    cases step with
    | item index =>
      cases v with
      | array items => simp only [List.cons_append, Value.deref, Option.bind_assoc, ih]
      | _ => rfl
    | member key =>
      cases v with
      | object members => simp only [List.cons_append, Value.deref, Option.bind_assoc, ih]
      | _ => rfl

theorem store_append {p q : Path} {v w : Value Double} (new : Value Double)
    (h : v.deref p = some w) :
    Value.store new (p ++ q) v = Value.store (Value.store new q w) p v := by
  induction p generalizing v with
  | nil =>
    cases h
    rfl
  | cons step p ih =>
    cases step with
    | item index =>
      cases v with
      | array items =>
        obtain ⟨item, hitem, hderef⟩ := Option.bind_eq_some_iff.mp h
        simp only [List.cons_append, Value.store, Value.array.injEq]
        refine List.ext_getElem? fun i => ?_
        rw [List.getElem?_modify, List.getElem?_modify]
        by_cases hi : index = i
        · rw [← hi, hitem]
          simp only [Option.map_eq_map, Option.map_some, if_true, ih hderef]
        · simp only [if_neg hi]
      | _ => cases h
    | member key =>
      cases v with
      | object members =>
        obtain ⟨value, hvalue, hderef⟩ := Option.bind_eq_some_iff.mp h
        simp only [List.cons_append, Value.store, hvalue, Option.getD_some, ih hderef]
      | _ => cases h

end Paths

namespace Frame

/-- The array or object with `v` in it. -/
def wrap (v : Value Double) : Frame Double → Value Double
  | .array items => .array (items ++ [v])
  | .object members none => .object members
  | .object members (some key) => .object (assign key v members)

/-- Where `v` is in it. -/
def place : Frame Double → PathStep
  | .array items => .item items.length
  | .object _ none => .member []
  | .object _ (some key) => .member key

/-- The document with `v` in the innermost of the frames. -/
def fill (v : Value Double) : List (Frame Double) → Value Double
  | [] => v
  | frame :: stack => fill (frame.wrap v) stack

def hole : List (Frame Double) → Path
  | [] => []
  | frame :: stack => hole stack ++ [frame.place]

def pointers : List (Frame Double) → List Path
  | [] => []
  | _ :: stack => hole stack :: pointers stack

/-- What is in an array or object so far; when a value for a member is expected, there
is a null for it. -/
def content (expected : Bool) : Frame Double → Value Double
  | .array items => .array items
  | .object members none => .object members
  | .object members (some key) => .object (if expected then insertNull key members else members)

def Named : Frame Double → Prop
  | .array _ => True
  | .object _ key => key.isSome

end Frame

open Qwin.Frame

section Holes
variable {stack : List (Frame Double)}

theorem deref_place {frame : Frame Double} (h : frame.Named) (v : Value Double) :
    (frame.wrap v).deref [frame.place] = some v := by
  cases frame with
  | array items => simp [wrap, place, Value.deref]
  | object members key =>
    cases key with
    | none => cases h
    | some key => simp [wrap, place, Value.deref, lookup_assign]

theorem store_place {frame : Frame Double} (h : frame.Named) (new v : Value Double) :
    Value.store new [frame.place] (frame.wrap v) = frame.wrap new := by
  cases frame with
  | array items =>
    simp only [wrap, place, Value.store, Value.array.injEq]
    induction items with
    | nil => rfl
    | cons item items ih =>
      rw [List.cons_append, List.length_cons, List.modify_succ_cons, ih trivial]
      rfl
  | object members key =>
    cases key with
    | none => cases h
    | some key => simp only [wrap, place, Value.store, assign_assign]

theorem deref_hole (h : ∀ frame ∈ stack, frame.Named) (v : Value Double) :
    (fill v stack).deref (hole stack) = some v := by
  induction stack generalizing v with
  | nil => rfl
  | cons frame stack ih =>
    obtain ⟨hframe, hstack⟩ := List.forall_mem_cons.mp h
    rw [fill, hole, deref_append, ih hstack, Option.bind_some, deref_place hframe]

theorem store_hole (h : ∀ frame ∈ stack, frame.Named) (new v : Value Double) :
    Value.store new (hole stack) (fill v stack) = fill new stack := by
  induction stack generalizing v new with
  | nil => rfl
  | cons frame stack ih =>
    obtain ⟨hframe, hstack⟩ := List.forall_mem_cons.mp h
    rw [fill, hole, store_append new (deref_hole hstack _), ih hstack, fill, store_place hframe]

end Holes

/-- The document so far. -/
def Dom.document (expected : Bool) (dom : Dom Double) : Value Double :=
  match dom.refStack with
  | [] => dom.root
  | frame :: stack => fill (frame.content expected) stack

/-- The pointers of `code` say what the frames of `dom` do. The pointer to a member is
known to be right where a value is expected. -/
structure Matches (expected : Bool) (code : SaxDom Double) (dom : Dom Double) : Prop where
  root : code.root = dom.document expected
  refStack : code.refStack = pointers dom.refStack
  asserted : code.asserted = true
  objectElement : expected = true → ∀ members key stack,
    dom.refStack = .object members (some key) :: stack →
      code.objectElement = some (hole dom.refStack)

section Methods
variable {code : SaxDom Double} {dom : Dom Double} {stack : List (Frame Double)}

theorem document_handleValue (h : ∀ frame ∈ dom.refStack, frame.Named) (v : Value Double) :
    (dom.handleValue v).document false = fill v dom.refStack := by
  obtain ⟨root, stack⟩ := dom
  cases stack with
  | nil => rfl
  | cons frame stack =>
    cases frame with
    | array items => rfl
    | object members key =>
      cases key with
      | none => cases (List.forall_mem_cons.mp h).1
      | some key => rfl

theorem pointers_handleValue (v : Value Double) :
    pointers (dom.handleValue v).refStack = pointers dom.refStack := by
  obtain ⟨root, stack⟩ := dom
  cases stack with
  | nil => rfl
  | cons frame stack =>
    cases frame with
    | array items => rfl
    | object members key => cases key <;> rfl

theorem Matches.handleValueAt (h : Matches true code dom)
    (hnamed : ∀ frame ∈ dom.refStack, frame.Named) (v : Value Double) :
    (code.handleValueAt v).1 = hole dom.refStack ∧
      (code.handleValueAt v).2.root = fill v dom.refStack ∧
      (code.handleValueAt v).2.refStack = pointers dom.refStack ∧
      (code.handleValueAt v).2.asserted = true := by
  obtain ⟨root, refStack, objectElement, asserted⟩ := code
  obtain ⟨root', stack⟩ := dom
  obtain ⟨hroot, hstack, hasserted, helement⟩ := h
  obtain rfl : refStack = pointers stack := hstack
  cases stack with
  | nil => exact ⟨rfl, rfl, rfl, hasserted⟩
  | cons frame stack =>
    obtain ⟨hframe, hbelow⟩ := List.forall_mem_cons.mp hnamed
    obtain rfl : root = fill (frame.content true) stack := hroot
    unfold SaxDom.handleValueAt
    dsimp only [pointers]
    rw [deref_hole hbelow]
    cases frame with
    | array items => exact ⟨rfl, store_hole hbelow _ _, rfl, hasserted⟩
    | object members key =>
      cases key with
      | none => cases hframe
      | some key =>
        obtain rfl : objectElement = some (hole (.object members (some key) :: stack)) :=
          helement rfl members key stack rfl
        refine ⟨rfl, ?_, rfl, hasserted⟩
        have hmember : Value.store v [Frame.place (.object members (some key))]
            (.object (insertNull key members)) = .object (assign key v members) := by
          rw [place, Value.store, Value.store, assign_insertNull]
        refine (store_append v (deref_hole hbelow (.object (insertNull key members)))).trans ?_
        rw [hmember]
        exact store_hole hbelow _ _

theorem Matches.handleValue (h : Matches true code dom)
    (hnamed : ∀ frame ∈ dom.refStack, frame.Named) (v : Value Double) :
    Matches false (code.handleValue v) (dom.handleValue v) := by
  obtain ⟨-, hroot, hstack, hasserted⟩ := h.handleValueAt hnamed v
  refine ⟨hroot.trans (document_handleValue hnamed v).symm, ?_, hasserted,
    fun hfalse => nomatch hfalse⟩
  rw [pointers_handleValue]
  exact hstack

/-- A container that is opened: `frame` is empty. -/
theorem Matches.start (h : Matches true code dom) (hnamed : ∀ frame ∈ dom.refStack, frame.Named)
    (frame : Frame Double) :
    Matches false (code.start (frame.content false))
      { dom with refStack := frame :: dom.refStack } := by
  obtain ⟨hpath, hroot, hstack, hasserted⟩ := h.handleValueAt hnamed (frame.content false)
  refine ⟨hroot, ?_, hasserted, fun hfalse => nomatch hfalse⟩
  exact congrArg₂ List.cons hpath hstack

theorem Matches.key {members : List (List UInt8 × Value Double)} {element : Option (List UInt8)}
    (h : Matches false code dom) (hobject : dom.refStack = .object members element :: stack)
    (hnamed : ∀ frame ∈ stack, frame.Named) (val : List UInt8) :
    Matches true (code.key val) (dom.key val) := by
  obtain ⟨root, refStack, objectElement, asserted⟩ := code
  obtain ⟨root', stack'⟩ := dom
  obtain rfl : stack' = .object members element :: stack := hobject
  obtain ⟨hroot, hstack, hasserted, -⟩ := h
  obtain rfl : refStack = hole stack :: pointers stack := hstack
  have hcontent : Frame.content false (.object members element) = .object members := by
    cases element <;> rfl
  obtain rfl : root = fill (.object members) stack := by
    rw [← hcontent]
    exact hroot
  have hkey : SaxDom.key val
      ⟨fill (.object members) stack, hole stack :: pointers stack, objectElement, asserted⟩ =
      ⟨fill (.object (insertNull val members)) stack, hole stack :: pointers stack,
        some (hole stack ++ [.member val]), asserted⟩ := by
    unfold SaxDom.key
    dsimp only
    rw [deref_hole hnamed]
    dsimp only
    rw [store_hole hnamed]
  rw [hkey]
  exact ⟨rfl, rfl, hasserted, fun _ _ _ _ _ => rfl⟩

/-- The innermost container is closed. -/
theorem Matches.close {frame : Frame Double} {expected : Value Double → Bool}
    (h : Matches false code dom) (hframe : dom.refStack = frame :: stack)
    (hnamed : ∀ frame ∈ stack, frame.Named) (hexpected : expected (frame.content false) = true) :
    Matches false (code.close expected)
      (Dom.handleValue (frame.content false) { dom with refStack := stack }) := by
  obtain ⟨root, refStack, objectElement, asserted⟩ := code
  obtain ⟨root', stack'⟩ := dom
  obtain rfl : stack' = frame :: stack := hframe
  obtain ⟨hroot, hstack, hasserted, -⟩ := h
  obtain rfl : refStack = hole stack :: pointers stack := hstack
  obtain rfl : root = fill (frame.content false) stack := hroot
  refine ⟨?_, ?_, ?_, fun hfalse => nomatch hfalse⟩
  · rw [document_handleValue hnamed]
    rfl
  · rw [pointers_handleValue]
    rfl
  · have hback : SaxDom.back ⟨fill (frame.content false) stack, hole stack :: pointers stack,
        objectElement, asserted⟩ = some (frame.content false) := deref_hole hnamed _
    rw [SaxDom.close, hback]
    exact Bool.and_eq_true_iff.mpr ⟨hasserted, hexpected⟩

/-- Only a member is anything but there before it is expected. -/
theorem Matches.expect {items : List (Value Double)} (h : Matches false code dom)
    (harray : dom.refStack = .array items :: stack) : Matches true code dom := by
  obtain ⟨root, stack'⟩ := dom
  obtain rfl : stack' = .array items :: stack := harray
  exact ⟨h.root, h.refStack, h.asserted, fun _ _ _ _ heq => nomatch heq⟩

theorem Agree.named {states : List Bool} (h : Agree states stack) :
    ∀ frame ∈ stack, frame.Named := by
  induction h with
  | nil => exact fun _ hframe => absurd hframe List.not_mem_nil
  | array items _ ih => exact List.forall_mem_cons.mpr ⟨trivial, ih⟩
  | object members key _ ih => exact List.forall_mem_cons.mpr ⟨rfl, ih⟩

end Methods

namespace Parser

/-- The parser with another handler. -/
def handledBy {S S' : Type} (sax : S) (q : Parser Double S') : Parser Double S :=
  ⟨q.lexer, q.lastToken, sax, q.states, q.skipToStateEvaluation⟩

structure Tracks (p : Parser Double (SaxDom Double)) (q : Parser Double (Dom Double)) : Prop where
  same : p = q.handledBy p.sax
  agree : Agree q.states q.sax.refStack
  pointers : Matches (!q.skipToStateEvaluation) p.sax q.sax

def TurnsTrack : ParserTurn Double (SaxDom Double) → ParserTurn Double (Dom Double) → Prop
  | .next p, .next q => Tracks p q
  | .done r, .done r' => r = r'
  | _, _ => False

variable [Strtod Double] {code : SaxDom Double} {q : Parser Double (Dom Double)}
  {states : List Bool} {stack : List (Frame Double)}

omit [Strtod Double] in
theorem turnsTrack_ite {c c' : Prop} [Decidable c] [Decidable c']
    {a b : ParserTurn Double (SaxDom Double)} {a' b' : ParserTurn Double (Dom Double)}
    (hc : c ↔ c') (hthen : c' → TurnsTrack a a') (helse : ¬ c' → TurnsTrack b b') :
    TurnsTrack (if c then a else b) (if c' then a' else b') := by
  by_cases h : c'
  · rw [if_pos h, if_pos (hc.mpr h)]
    exact hthen h
  · rw [if_neg h, if_neg (mt hc.mp h)]
    exact helse h

theorem track_parseKey {members : List (List UInt8 × Value Double)}
    {element : Option (List UInt8)} (hskip : q.skipToStateEvaluation = false)
    (hobject : q.sax.refStack = .object members element :: stack) (hagree : Agree states stack)
    (h : Matches false code q.sax) :
    TurnsTrack (parseKey (false :: states) (q.handledBy code)) (parseKey (false :: states) q) := by
  have hkey := h.key hobject hagree.named q.lexer.tokenBuffer
  have hstack : (q.sax.key q.lexer.tokenBuffer).refStack =
      .object members (some q.lexer.tokenBuffer) :: stack := by
    unfold Dom.key
    rw [hobject]
  unfold parseKey
  refine turnsTrack_ite Iff.rfl (fun _ => turnsTrack_ite Iff.rfl (fun _ => ⟨rfl, ?_, ?_⟩) ?_)
    fun _ => rfl
  · change Agree (false :: states) (q.sax.key q.lexer.tokenBuffer).refStack
    rw [hstack]
    exact .object members _ hagree
  · change Matches (!q.skipToStateEvaluation) _ _
    rw [hskip]
    exact hkey
  · exact fun _ => rfl

theorem track_evaluateState (hskip : q.skipToStateEvaluation = false)
    (hagree : Agree q.states q.sax.refStack) (h : Matches false code q.sax) :
    TurnsTrack (evaluateState (q.handledBy code)) (evaluateState q) := by
  obtain ⟨lexer, lastToken, ⟨root, stack⟩, states, skip⟩ := q
  obtain rfl : skip = false := hskip
  cases hagree with
  | nil => exact congrArg Except.ok h.root
  | array items hbelow =>
    refine turnsTrack_ite Iff.rfl (fun _ => ⟨rfl, .array items hbelow, h.expect rfl⟩) fun _ =>
      turnsTrack_ite Iff.rfl (fun _ => ⟨rfl, ?_, h.close rfl hbelow.named rfl⟩) fun _ => rfl
    exact Agree.handleValue ⟨root, _⟩ (.array items) hbelow
  | object members key hbelow =>
    refine turnsTrack_ite Iff.rfl (fun _ => ?_) fun _ =>
      turnsTrack_ite Iff.rfl (fun _ => ⟨rfl, ?_, h.close rfl hbelow.named rfl⟩) fun _ => rfl
    · exact track_parseKey (q := Parser.getToken (Parser.getToken ⟨lexer, lastToken, _, _, _⟩))
        rfl rfl hbelow h
    · exact Agree.handleValue ⟨root, _⟩ (.object members) hbelow

theorem track_handle (hskip : q.skipToStateEvaluation = false)
    (hagree : Agree q.states q.sax.refStack) (h : Matches true code q.sax) (v : Value Double) :
    TurnsTrack (handle v (q.handledBy code)) (handle v q) :=
  track_evaluateState (q := q.withSax (q.sax.handleValue v)) hskip (Agree.handleValue _ v hagree)
    (h.handleValue hagree.named v)

theorem track_parseValue (hskip : q.skipToStateEvaluation = false)
    (hagree : Agree q.states q.sax.refStack) (h : Matches true code q.sax) :
    TurnsTrack (parseValue (q.handledBy code)) (parseValue q) := by
  obtain ⟨lexer, lastToken, sax, states, skip⟩ := q
  obtain rfl : skip = false := hskip
  cases lastToken with
  | beginObject =>
    have hstart := h.start hagree.named (.object [] none)
    let q₁ : Parser Double (Dom Double) :=
      getToken ⟨lexer, .beginObject, sax.startObject, states, false⟩
    refine turnsTrack_ite Iff.rfl (fun _ => ?_) fun _ => ?_
    · exact track_evaluateState (q := q₁.withSax q₁.sax.endObject) rfl
        (Agree.handleValue sax _ hagree) (hstart.close rfl hagree.named rfl)
    · exact track_parseKey (q := q₁) rfl rfl hagree hstart
  | beginArray =>
    have hstart := h.start hagree.named (.array [])
    let q₁ : Parser Double (Dom Double) :=
      getToken ⟨lexer, .beginArray, sax.startArray, states, false⟩
    refine turnsTrack_ite Iff.rfl (fun _ => ?_) fun _ => ⟨rfl, .array [] hagree, hstart.expect rfl⟩
    exact track_evaluateState (q := q₁.withSax q₁.sax.endArray) rfl
      (Agree.handleValue sax _ hagree) (hstart.close rfl hagree.named rfl)
  | valueFloat => exact turnsTrack_ite Iff.rfl (fun _ => track_handle rfl hagree h _) fun _ => rfl
  | literalFalse | literalNull | literalTrue | valueInteger | valueString | valueUnsigned =>
    exact track_handle rfl hagree h _
  | endOfInput => exact turnsTrack_ite Iff.rfl (fun _ => rfl) fun _ => rfl
  | parseError | uninitialized | endArray | endObject | nameSeparator | valueSeparator
    | literalOrValue => rfl

theorem track_turn {p : Parser Double (SaxDom Double)} (h : Tracks p q) :
    TurnsTrack (turn p) (turn q) := by
  obtain ⟨hsame, hagree, hpointers⟩ := h
  rw [hsame]
  unfold turn
  cases hskip : q.skipToStateEvaluation with
  | true =>
    rw [hskip] at hpointers
    rw [if_pos rfl, if_pos (show (q.handledBy p.sax).skipToStateEvaluation = true from hskip)]
    exact track_evaluateState (q := { q with skipToStateEvaluation := false }) rfl hagree hpointers
  | false =>
    have hnot : (q.handledBy p.sax).skipToStateEvaluation ≠ true := hskip ▸ Bool.false_ne_true
    rw [hskip] at hpointers
    rw [if_neg Bool.false_ne_true, if_neg hnot]
    exact track_parseValue hskip hagree hpointers

end Parser

/-- The parser without pointers. -/
def parseFrames [Strtod Double] (bytes : List UInt8) : Except JsonException (Value Double) :=
  Parser.saxParse.run (Parser.start bytes : Parser Double (Dom Double))

theorem tracks_start [Strtod Double] (bytes : List UInt8) :
    Parser.Tracks (Parser.start bytes : Parser Double (SaxDom Double)) (Parser.start bytes) :=
  ⟨rfl, .nil, rfl, rfl, rfl, fun _ _ _ _ heq => nomatch heq⟩

theorem parse_eq_parseFrames [Strtod Double] (bytes : List UInt8) :
    parse bytes = (parseFrames bytes : Except JsonException (Value Double)) := by
  refine Loop.run_eq_run (R := Parser.Tracks) (fun p q h => ?_) (tracks_start bytes)
  have htracks := Parser.track_turn h
  change (∃ p' q', Parser.turn p = .next p' ∧ Parser.turn q = .next q' ∧ _) ∨
    ∃ r, Parser.turn p = .done r ∧ Parser.turn q = .done r
  generalize Parser.turn p = turn at htracks
  generalize Parser.turn q = turn' at htracks
  cases turn with
  | next p' =>
    cases turn' with
    | next q' => exact .inl ⟨p', q', rfl, rfl, htracks⟩
    | done r => cases htracks
  | done r =>
    cases turn' with
    | next q' => cases htracks
    | done r' => exact .inr ⟨r, rfl, congrArg _ htracks.symm⟩

end Qwin
