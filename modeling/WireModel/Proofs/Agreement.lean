import WireModel.Proofs.Presentation
import WireModel.Proofs.References

namespace WireModel

open Outcome

/-- The class that a rule names in the object model. -/
def Rule.nativeClass? : Rule → Option String
  | .scalar => none
  | .enumeration enumClass => some enumClass
  | .message messageClass _ => some messageClass
  | .union unionClass => some unionClass

/-- A conversion goes by one rule: a value is read and written by it, or a container is made first,
then filled and written by it. -/
def Conversion.GoesBy (rule : Rule) (c : Conversion) : Shape → Prop
  | .single _ | .optional _ =>
    c.decoding.rules = [rule] ∧ c.filling = none ∧ c.encoding.rule = rule
  | .repeated _ | .map _ _ =>
    c.decoding.rules = [] ∧ c.filling.map Filling.rule = some rule ∧ c.encoding.rule = rule
  | .stream _ => False

variable {t : Target} {f : String} {k : Kind} {rule : Rule} {shape : Shape} {field : FieldSpec}
  {r : Representation} {hint : Option String} {c : Conversion}

theorem Rule.ofKind_compact (t : Target) (compact : Bool) (f : String) (k : Kind) :
    ofKind { t with compact } f k = ofKind t f k := by
  cases k <;> rfl

theorem Rule.ofElement_compact (t : Target) (compact : Bool) (f : String) (k : Kind) :
    ofElement { t with compact } f k = ofElement t f k := by
  cases k <;> rfl

theorem Conversion.ofField_compact (t : Target) (compact : Bool) (field : FieldSpec)
    (r : Representation) (hint : Option String) :
    ofField { t with compact } field r hint = ofField t field r hint := by
  simp only [ofField, Rule.ofKind_compact, Rule.ofElement_compact]

theorem Representation.nativeType_of_nativeClass? (h : ofKind t f k = .ok r)
    (hr : Rule.ofKind t f k = .ok rule) : ∀ type ∈ rule.nativeClass?, r.nativeType = type := by
  intro type htype
  cases k with
  | scalar s =>
    obtain ⟨_, _, _, rfl⟩ | ⟨_, hk, _⟩ | ⟨_, hk, _⟩ | ⟨_, hk, _⟩ := Rule.ofKind_cases hr
    · cases htype
    all_goals cases hk
  | enumeration n => cases h; cases hr; cases htype; rfl
  | message n => cases h; cases hr; cases htype; rfl
  | union n => cases h; cases hr; cases htype; rfl
  | unresolved n => cases h
  | missing => cases h

theorem Conversion.goesBy_of_ofField (h : ofField t field r hint = .ok c) :
    ∃ rule, Rule.ofKind t field.name field.shape.element = .ok rule ∧
      c.GoesBy rule field.shape := by
  obtain ⟨name, shape, tag⟩ := field
  cases shape with
  | single k =>
    obtain ⟨rule, hr, h⟩ := bind_eq_ok_iff.1 h
    cases h
    exact ⟨rule, hr, rfl, rfl, rfl⟩
  | optional k =>
    obtain ⟨rule, hr, h⟩ := bind_eq_ok_iff.1 h
    cases h
    exact ⟨rule, hr, rfl, rfl, rfl⟩
  | repeated k =>
    obtain ⟨rule, hr, h⟩ := bind_eq_ok_iff.1 h
    cases h
    exact ⟨rule, Rule.ofKind_of_ofElement hr, rfl, rfl, rfl⟩
  | map key k =>
    obtain ⟨_, _, h⟩ := bind_eq_ok_iff.1 h
    obtain ⟨rule, hr, h⟩ := bind_eq_ok_iff.1 h
    cases h
    exact ⟨rule, Rule.ofKind_of_ofElement hr, rfl, rfl, rfl⟩
  | stream inner => cases h

theorem Conversion.GoesBy.isSome_filling (h : c.GoesBy rule shape) :
    c.filling.isSome = shape.isCollection := by
  cases shape with
  | single k => rw [h.2.1]; rfl
  | optional k => rw [h.2.1]; rfl
  | repeated k => rw [← Option.isSome_map, h.2.1]; rfl
  | map key k => rw [← Option.isSome_map, h.2.1]; rfl
  | stream inner => exact h.elim

theorem Selection.isSome_constructor {s : Selection} (h : ofShape t f shape = .ok s) :
    s.representation.constructor.isSome = shape.isCollection := by
  cases shape with
  | single k =>
    obtain ⟨r, hr, h⟩ := bind_eq_ok_iff.1 h
    cases h
    cases k with
    | scalar k => cases k <;> cases hr <;> rfl
    | enumeration n => cases hr; rfl
    | message n => cases hr; rfl
    | union n => cases hr; rfl
    | unresolved n => cases hr
    | missing => cases hr
  | optional k =>
    obtain ⟨r, _, h⟩ := bind_eq_ok_iff.1 h
    cases h
    rfl
  | repeated k =>
    obtain ⟨element, _, h⟩ := bind_eq_ok_iff.1 h
    cases h
    obtain ⟨c, _, hc⟩ := list_constructor t k element.nativeType
    rw [hc]
    rfl
  | map key k =>
    obtain ⟨keyType, _, h⟩ := bind_eq_ok_iff.1 h
    obtain ⟨element, _, h⟩ := bind_eq_ok_iff.1 h
    cases h
    obtain ⟨c, _, hc⟩ := map_constructor t key k keyType element.nativeType
    rw [hc]
    rfl
  | stream inner => cases h

/-- A field with a rule for the kind of its values is one whose values can be held on their own, in
the class that the rule names. -/
theorem Selection.exists_element (hr : Rule.ofKind t f k = .ok rule) :
    ∃ s, ofShape t f (.single k) = .ok s ∧
      ∀ type ∈ rule.nativeClass?, s.representation.nativeType = type := by
  have hv : verdict (Representation.ofKind t f k) = .ok () := by
    rw [Representation.verdict_ofKind, hr]
    rfl
  obtain ⟨r, hk⟩ := verdict_eq_ok_iff.1 hv
  refine ⟨⟨r, []⟩, ?_, Representation.nativeType_of_nativeClass? hk hr⟩
  rw [ofShape, hk]
  rfl

/-- How a field is held and how it is converted are found apart but agree: both are refused for the
same reason, whatever the containers, and where they are not, one rule does the whole conversion. It
names the class that the element alone is held in, and containers, and only they, are filled. -/
theorem FieldSpec.conversion_matches_selection (t : Target) (field : FieldSpec)
    (r : Representation) (hint : Option String) :
    (∀ e, Selection.ofShape t field.name field.shape = .error e ↔
      Conversion.ofField t field r hint = .error e) ∧
    (∀ compact,
      (∀ e, Selection.ofShape { t with compact } field.name field.shape = .error e ↔
        Selection.ofShape t field.name field.shape = .error e) ∧
      Conversion.ofField { t with compact } field r hint = Conversion.ofField t field r hint) ∧
    (∀ s, Selection.ofShape t field.name field.shape = .ok s →
      ∃ c, field.describe t hint = .ok ⟨s, c⟩) ∧
    ∀ s c, Selection.ofShape t field.name field.shape = .ok s →
      Conversion.ofField t field r hint = .ok c →
      (∃ rule element, Rule.ofKind t field.name field.shape.element = .ok rule ∧
        c.GoesBy rule field.shape ∧
        Selection.ofShape t field.name (.single field.shape.element) = .ok element ∧
        ∀ type ∈ rule.nativeClass?, element.representation.nativeType = type) ∧
      (c.filling.isSome ↔ s.representation.constructor.isSome) ∧
      (c.filling.isSome ↔
        (∃ k, field.shape = .repeated k) ∨ ∃ key k, field.shape = .map key k) := by
  refine ⟨?_, ?_, ?_, ?_⟩
  · exact verdict_eq_verdict_iff.1 (Selection.verdict_ofShape t field r hint)
  · intro compact
    constructor
    · exact verdict_eq_verdict_iff.1 (Selection.verdict_ofShape_target _ t field.name field.shape)
    · exact Conversion.ofField_compact t compact field r hint
  · intro s hs
    have hv := Selection.verdict_ofShape t field s.representation hint
    rw [hs] at hv
    obtain ⟨c, hc⟩ := verdict_eq_ok_iff.1 hv.symm
    exact ⟨c, bind_eq_ok_iff.2 ⟨s, hs, bind_eq_ok_iff.2 ⟨c, hc, rfl⟩⟩⟩
  · intro s c hs hc
    obtain ⟨rule, hr, hgoes⟩ := Conversion.goesBy_of_ofField hc
    obtain ⟨element, he, hnative⟩ := Selection.exists_element hr
    refine ⟨⟨rule, element, hr, hgoes, he, hnative⟩, ?_, ?_⟩
    · rw [hgoes.isSome_filling, Selection.isSome_constructor hs]
    · rw [hgoes.isSome_filling]
      cases field.shape <;> simp [Shape.isCollection]

-- The key of a map is looked at before its values.
example (t : Target) (r : Representation) (hint : Option String) :
    Conversion.ofField t ⟨"parts", .map .bytes (.union ⟨"Order.content"⟩), some 1⟩ r hint =
      .error (.unsupported "parts" (.scalar .bytes)) :=
  rfl

end WireModel
