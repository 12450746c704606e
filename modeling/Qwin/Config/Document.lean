import Qwin.Config.Json
import Qwin.Parser.Texts

/-!
The documents that `loadConfig` of src/utils.cpp is given: what is known of every value
that was parsed, and the values without floating point numbers as documents.
-/

set_option autoImplicit false

namespace Qwin

open JsonText Utf8

theorem content_eq (pieces : List Piece) :
    content pieces = utf8 (String.ofList (pieces.map Piece.char)) := by
  rw [utf8, String.toList_ofList, List.flatMap_map]
  rfl

variable {Double : Type}

namespace Value

mutual

/-- The document as `loadConfig` takes it; none where it has a floating point number. -/
def document : Value Double → Option Json
  | .null => some .null
  | .boolean value => some (.boolean value)
  | .numberInteger value => some (.numberInteger value)
  | .numberUnsigned value => some (.numberUnsigned value)
  | .numberFloat _ => none
  | .string value => (decode value).map .string
  | .array items => (documents items).map .array
  | .object members => (memberDocuments members).map .object

def documents : List (Value Double) → Option (List Json)
  | [] => some []
  | item :: items => do
    let item ← document item
    let items ← documents items
    pure (item :: items)

def memberDocuments : List (List UInt8 × Value Double) → Option (List (String × Json))
  | [] => some []
  | member :: members => do
    let member ← memberDocument member
    let members ← memberDocuments members
    pure (member :: members)

def memberDocument : List UInt8 × Value Double → Option (String × Json)
  | (key, value) => do
    let key ← decode key
    let value ← document value
    pure (key, value)

end

theorem memberDocument_eq_some {member : List UInt8 × Value Double} {key : String} {json : Json} :
    memberDocument member = some (key, json) ↔
      member.1 = utf8 key ∧ member.2.document = some json := by
  obtain ⟨bytes, value⟩ := member
  rw [← decode_eq_some, memberDocument]
  cases decode bytes with
  | none => simp
  | some s => cases value.document <;> simp

theorem object_of_document {value : Value Double} {members : List (String × Json)}
    (h : value.document = some (.object members)) : ∃ members', value = .object members' := by
  cases value with
  | object members' => exact ⟨members', rfl⟩
  | null | boolean value | numberInteger value | numberUnsigned value | numberFloat value =>
    cases h
  | string value | array items =>
    rw [Value.document] at h
    obtain ⟨_, -, heq⟩ := Option.map_eq_some_iff.mp h
    cases heq

end Value

section Collecting
variable {key : List UInt8} {value : Value Double}
  {members pairs : List (List UInt8 × Value Double)}

theorem assign_of_notMem (h : key ∉ members.map Prod.fst) :
    assign key value members = members ++ [(key, value)] := by
  induction members with
  | nil => rfl
  | cons member members ih =>
    rw [List.map_cons, List.mem_cons, not_or] at h
    rw [assign, if_neg fun heq => h.1 heq.symm, ih h.2]
    rfl

theorem foldl_assign (h : ((members ++ pairs).map Prod.fst).Nodup) :
    pairs.foldl (fun members pair => assign pair.1 pair.2 members) members = members ++ pairs := by
  induction pairs generalizing members with
  | nil => rw [List.append_nil, List.foldl_nil]
  | cons pair pairs ih =>
    have hnotMem : pair.1 ∉ members.map Prod.fst := by
      rw [List.map_append, List.nodup_append] at h
      exact fun hmem => h.2.2 _ hmem _ List.mem_cons_self rfl
    rw [List.foldl_cons, assign_of_notMem hnotMem, ih (by rwa [List.append_assoc]),
      List.append_assoc]
    rfl

theorem collect_of_nodup (h : (pairs.map Prod.fst).Nodup) : collect pairs = pairs :=
  foldl_assign h

theorem mem_assign {key' : List UInt8}
    (h : key' ∈ (assign key value members).map Prod.fst) :
    key' = key ∨ key' ∈ members.map Prod.fst := by
  induction members with
  | nil => exact .inl (List.mem_singleton.mp h)
  | cons member members ih =>
    unfold assign at h
    split at h
    · rename_i hkey
      exact .inr (by rwa [List.map_cons, hkey])
    · rcases List.mem_cons.mp h with rfl | h
      · exact .inr List.mem_cons_self
      · exact (ih h).imp_right (List.mem_cons_of_mem _)

theorem nodup_assign (h : (members.map Prod.fst).Nodup) :
    ((assign key value members).map Prod.fst).Nodup := by
  induction members with
  | nil => exact List.nodup_cons.mpr ⟨List.not_mem_nil, List.nodup_nil⟩
  | cons member members ih =>
    obtain ⟨hnotMem, hnodup⟩ := List.nodup_cons.mp h
    unfold assign
    split
    · rename_i hkey
      rwa [List.map_cons, hkey] at h
    · rename_i hkey
      refine List.nodup_cons.mpr ⟨fun hmem => ?_, ih hnodup⟩
      exact (mem_assign hmem).elim hkey hnotMem

end Collecting

/-! What is known of parsed values -/

namespace Value

variable [Strtod Double]

mutual

/-- Strings and keys are UTF-8, no object holds a key twice, and no number is infinite. -/
def WellFormed : Value Double → Prop
  | .numberFloat value => Strtod.isfinite value = true
  | .string value => ∃ s, value = utf8 s
  | .array items => ItemsWellFormed items
  | .object members => (members.map Prod.fst).Nodup ∧ MembersWellFormed members
  | _ => True

def ItemsWellFormed : List (Value Double) → Prop
  | [] => True
  | item :: items => WellFormed item ∧ ItemsWellFormed items

def MembersWellFormed : List (List UInt8 × Value Double) → Prop
  | [] => True
  | member :: members => MemberWellFormed member ∧ MembersWellFormed members

def MemberWellFormed : List UInt8 × Value Double → Prop
  | (key, value) => (∃ s, key = utf8 s) ∧ WellFormed value

end

mutual

/-- The floating point numbers in it. -/
def floats : Value Double → List Double
  | .numberFloat value => [value]
  | .array items => itemsFloats items
  | .object members => membersFloats members
  | _ => []

def itemsFloats : List (Value Double) → List Double
  | [] => []
  | item :: items => floats item ++ itemsFloats items

def membersFloats : List (List UInt8 × Value Double) → List Double
  | [] => []
  | member :: members => memberFloats member ++ membersFloats members

def memberFloats : List UInt8 × Value Double → List Double
  | (_, value) => floats value

end

theorem bind_bind_eq_none {α β γ : Type} {x : Option α} {y : Option β} {f : α → β → γ} :
    (do let a ← x; let b ← y; pure (f a b)) = none ↔ x = none ∨ y = none := by
  cases x <;> cases y <;> simp

theorem append_ne_nil_iff {α : Type} {xs ys : List α} : xs ++ ys ≠ [] ↔ xs ≠ [] ∨ ys ≠ [] := by
  rw [Ne, List.append_eq_nil_iff, not_and_or]

mutual

theorem document_eq_none_iff :
    (v : Value Double) → v.WellFormed → (v.document = none ↔ v.floats ≠ [])
  | .null, _ | .boolean _, _ | .numberInteger _, _ | .numberUnsigned _, _ => by
    simp [document, floats]
  | .numberFloat value, _ => by simp [document, floats]
  | .string value, h => by
    obtain ⟨s, hs⟩ := h
    simp [document, floats, decode_eq_some.mpr hs]
  | .array items, h => by
    rw [document, floats, Option.map_eq_none_iff]
    exact documents_eq_none_iff items h
  | .object members, h => by
    rw [document, floats, Option.map_eq_none_iff]
    exact memberDocuments_eq_none_iff members h.2

theorem documents_eq_none_iff :
    (items : List (Value Double)) → ItemsWellFormed items →
      (documents items = none ↔ itemsFloats items ≠ [])
  | [], _ => by simp [documents, itemsFloats]
  | item :: items, h => by
    have hitem := document_eq_none_iff item h.1
    have hitems := documents_eq_none_iff items h.2
    rw [documents, itemsFloats, bind_bind_eq_none, hitem, hitems, append_ne_nil_iff]

theorem memberDocuments_eq_none_iff :
    (members : List (List UInt8 × Value Double)) → MembersWellFormed members →
      (memberDocuments members = none ↔ membersFloats members ≠ [])
  | [], _ => by simp [memberDocuments, membersFloats]
  | member :: members, h => by
    have hmember := memberDocument_eq_none_iff member h.1
    have hmembers := memberDocuments_eq_none_iff members h.2
    rw [memberDocuments, membersFloats, bind_bind_eq_none, hmember, hmembers, append_ne_nil_iff]

theorem memberDocument_eq_none_iff :
    (member : List UInt8 × Value Double) → MemberWellFormed member →
      (memberDocument member = none ↔ memberFloats member ≠ [])
  | (key, value), h => by
    obtain ⟨⟨s, hs⟩, hvalue⟩ := h
    have hdocument := document_eq_none_iff value hvalue
    rw [memberDocument, memberFloats, bind_bind_eq_none, hdocument, decode_eq_some.mpr hs]
    simp only [reduceCtorEq, false_or]

end

/-! Parsed values are well formed -/

theorem MembersWellFormed.assign {key : List UInt8} {value : Value Double}
    {members : List (List UInt8 × Value Double)} (h : MembersWellFormed members)
    (hmember : MemberWellFormed (key, value)) : MembersWellFormed (assign key value members) := by
  induction members with
  | nil => exact ⟨hmember, trivial⟩
  | cons member members ih =>
    unfold Qwin.assign
    split
    · exact ⟨hmember, h.2⟩
    · exact ⟨h.1, ih h.2⟩

theorem wellFormed_collect {pairs : List (List UInt8 × Value Double)}
    (h : MembersWellFormed pairs) : WellFormed (.object (collect pairs)) := by
  have hfold : ∀ {pairs members : List (List UInt8 × Value Double)}, MembersWellFormed pairs →
      WellFormed (.object members) →
      WellFormed (.object
        (pairs.foldl (fun members pair => assign pair.1 pair.2 members) members)) := by
    intro pairs
    induction pairs with
    | nil => exact fun _ hmembers => hmembers
    | cons pair pairs ih =>
      intro members hpairs hmembers
      exact ih hpairs.2 ⟨nodup_assign hmembers.1, hmembers.2.assign hpairs.1⟩
  exact hfold h ⟨List.nodup_nil, trivial⟩

theorem numberMeaning_cases (Double : Type) [Strtod Double] (n : Number) :
    (∃ i, (numberMeaning n : Value Double) = .numberInteger i) ∨
      (∃ u, (numberMeaning n : Value Double) = .numberUnsigned u) ∨
      ∃ d, (numberMeaning n : Value Double) = .numberFloat d := by
  unfold numberMeaning
  split_ifs
  · exact .inl ⟨_, rfl⟩
  · exact .inr (.inr ⟨_, rfl⟩)
  · exact .inr (.inl ⟨_, rfl⟩)
  · exact .inr (.inr ⟨_, rfl⟩)
  · exact .inr (.inr ⟨_, rfl⟩)

theorem wellFormed_scalar {scalar : Scalar}
    (h : ∀ n, scalar = .number n → Finite Double n) :
    WellFormed (scalarMeaning scalar : Value Double) := by
  cases scalar with
  | null | boolean value => trivial
  | string pieces => exact ⟨_, content_eq pieces⟩
  | number n =>
    rw [scalarMeaning]
    rcases numberMeaning_cases Double n with ⟨i, hn⟩ | ⟨u, hn⟩ | ⟨d, hn⟩
    · rw [hn]
      trivial
    · rw [hn]
      trivial
    · rw [hn]
      exact h n rfl d hn

mutual

theorem wellFormed_tree :
    (t : Tree) → (∀ n ∈ t.numbers, Finite Double n) → WellFormed (treeMeaning t : Value Double)
  | .leaf _ scalar, h =>
    wellFormed_scalar fun n hn => h n (by rw [hn]; exact List.mem_singleton_self n)
  | .emptyArray _ _, _ => trivial
  | .array _ first rest, h =>
    have h := List.forall_mem_append.mp h
    ⟨wellFormed_tree first h.1, wellFormed_items rest h.2⟩
  | .emptyObject _ _, _ => ⟨List.nodup_nil, trivial⟩
  | .object _ key first rest, h =>
    have h := List.forall_mem_append.mp h
    wellFormed_collect
      ⟨⟨⟨_, content_eq key.pieces⟩, wellFormed_tree first h.1⟩, wellFormed_members rest h.2⟩

theorem wellFormed_items :
    (items : Items) → (∀ n ∈ items.numbers, Finite Double n) →
      ItemsWellFormed (itemsMeaning items : List (Value Double))
  | .close _, _ => trivial
  | .comma _ item rest, h =>
    have h := List.forall_mem_append.mp h
    ⟨wellFormed_tree item h.1, wellFormed_items rest h.2⟩

theorem wellFormed_members :
    (members : Members) → (∀ n ∈ members.numbers, Finite Double n) →
      MembersWellFormed (membersMeaning members : List (List UInt8 × Value Double))
  | .close _, _ => trivial
  | .comma _ key value rest, h =>
    have h := List.forall_mem_append.mp h
    ⟨⟨⟨_, content_eq key.pieces⟩, wellFormed_tree value h.1⟩, wellFormed_members rest h.2⟩

end

end Value

/-- Whatever the file, a value that the parser makes of it is well formed, and it is a
document as far as it has no floating point numbers. -/
theorem parsed_value_is_wellFormed (Double : Type) [Strtod Double] (bytes : List UInt8)
    (v : Value Double) (h : parse bytes = .ok v) :
    v.WellFormed ∧ (v.document = none ↔ v.floats ≠ []) := by
  obtain ⟨t, rest, hholds, rfl⟩ := Parser.holds_of_parse h
  have hwell := Value.wellFormed_tree t hholds.finite
  exact ⟨hwell, Value.document_eq_none_iff _ hwell⟩

/-- A string of two bytes in a file of its own. -/
theorem parsed_value_is_wellFormed_string :
    (@Value.WellFormed Int wholeNumbers (.string [0xC3, 0xA9])) ∧
      ((Value.string [0xC3, 0xA9] : Value Int).document = none ↔
        (Value.string [0xC3, 0xA9] : Value Int).floats ≠ []) :=
  @parsed_value_is_wellFormed Int wholeNumbers [0x22, 0xC3, 0xA9, 0x22] _ (by rfl)

end Qwin
