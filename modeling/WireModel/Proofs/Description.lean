import WireModel.Conversion
import WireModel.Proofs.Outcome

namespace WireModel

open Outcome

/-- The scalar types with a native counterpart. -/
def Scalar.natives : List Scalar :=
  [.bool, .int32, .sint32, .int64, .sint64, .float, .double, .string]

/-- Values of the kind can be held on their own: of a declared type or of a native scalar type. -/
def Kind.HasNative : Kind → Prop
  | .scalar k => k ∈ Scalar.natives
  | .enumeration _ | .message _ => True
  | .union _ | .unresolved _ | .missing => False

/-- Fields of the shape can be held and converted. -/
def Shape.Supported : Shape → Prop
  | .single k | .optional k => k.HasNative ∨ ∃ n, k = .union n
  | .repeated k => k.HasNative
  | .map key k => key ∈ Scalar.natives ∧ k.HasNative
  | .stream _ => False

/-- The name that an error is about. -/
def SchemaError.subject : SchemaError → String
  | .conflictingModifiers field _ => field
  | .invalidMapKey field _ => field
  | .duplicateDefinition _ name => name.text
  | .duplicateTag _ field _ => field
  | .tagOutOfRange _ field _ => field
  | .reservedTag _ field _ => field
  | .duplicateValue enumeration _ => enumeration.text
  | .emptyEnumeration enumeration => enumeration.text

/-- The name that an error is about. -/
def GenerationError.subject : GenerationError → String
  | .schema e => e.subject
  | .unsupported field _ => field
  | .rpcWithoutMessage rpc _ => rpc
  | .misplaced field _ => field
  | .unknownMessage name => name.text

variable {t : Target} {f : String} {k : Kind} {r : Rule} {e : GenerationError}

theorem Scalar.native?_eq_none_iff (k : Scalar) : k.native? = none ↔ k ∉ Scalar.natives := by
  cases k <;> decide

theorem Scalar.exists_native?_iff {k : Scalar} :
    (∃ p, k.native? = some p) ↔ k ∈ Scalar.natives := by
  rw [← not_iff_not, ← k.native?_eq_none_iff, Option.eq_none_iff_forall_ne_some, not_exists]

theorem Scalar.keyType_succeeds_iff {k : Scalar} :
    (∃ type, k.keyType f = .ok type) ↔ k ∈ Scalar.natives := by
  rw [← exists_native?_iff, keyType]
  cases h : k.native? with
  | none => simp
  | some p => simp

theorem Scalar.error_of_keyType {k : Scalar} (h : k.keyType f = .error e) :
    e = .unsupported f (.scalar k) := by
  rw [keyType] at h
  split at h
  · cases h
  · cases h
    rfl

namespace Rule

/-- The rule for a kind, by what the kind is. -/
theorem ofKind_cases (h : ofKind t f k = .ok r) :
    (∃ s ∈ Scalar.natives, k = .scalar s ∧ r = .scalar) ∨
    (∃ n, k = .enumeration n ∧ r = .enumeration (t.naming.enumSymbol n)) ∨
    (∃ n, k = .message n ∧ r = .message (t.naming.classSymbol n) (t.wireClass n)) ∨
    (∃ n, k = .union n ∧ r = .union (t.naming.classSymbol n)) := by
  cases k with
  | scalar s =>
    rw [ofKind] at h
    split at h
    · next p hp =>
      cases h
      exact .inl ⟨s, Scalar.exists_native?_iff.1 ⟨p, hp⟩, rfl, rfl⟩
    · cases h
  | enumeration n => cases h; exact .inr (.inl ⟨n, rfl, rfl⟩)
  | message n => cases h; exact .inr (.inr (.inl ⟨n, rfl, rfl⟩))
  | union n => cases h; exact .inr (.inr (.inr ⟨n, rfl, rfl⟩))
  | unresolved n => cases h
  | missing => cases h

theorem ofKind_succeeds_iff : (∃ r, ofKind t f k = .ok r) ↔ k.HasNative ∨ ∃ n, k = .union n := by
  refine ⟨?_, ?_⟩
  · intro h
    obtain ⟨r, h⟩ := h
    rcases ofKind_cases h with ⟨s, hs, rfl, _⟩ | ⟨n, rfl, _⟩ | ⟨n, rfl, _⟩ | ⟨n, rfl, _⟩
    · exact .inl hs
    · exact .inl trivial
    · exact .inl trivial
    · exact .inr ⟨n, rfl⟩
  · intro h
    obtain h | ⟨n, rfl⟩ := h
    · cases k with
      | scalar s =>
        obtain ⟨p, hp⟩ := Scalar.exists_native?_iff.2 h
        exact ⟨.scalar, by rw [ofKind, hp]⟩
      | enumeration n => exact ⟨_, rfl⟩
      | message n => exact ⟨_, rfl⟩
      | union n => exact h.elim
      | unresolved n => exact h.elim
      | missing => exact h.elim
    · exact ⟨_, rfl⟩

theorem error_of_ofKind (h : ofKind t f k = .error e) : e = .unsupported f k := by
  cases k with
  | scalar s =>
    rw [ofKind] at h
    split at h
    · cases h
    · cases h; rfl
  | enumeration n => cases h
  | message n => cases h
  | union n => cases h
  | unresolved n => cases h; rfl
  | missing => cases h; rfl

theorem ofElement_of_ne_union (h : ∀ n, k ≠ .union n) : ofElement t f k = ofKind t f k := by
  cases k with
  | union n => exact (h n rfl).elim
  | _ => rfl

theorem ofKind_of_ofElement (h : ofElement t f k = .ok r) : ofKind t f k = .ok r := by
  rw [← ofElement_of_ne_union, h]
  rintro n rfl
  cases h

theorem ofElement_succeeds_iff : (∃ r, ofElement t f k = .ok r) ↔ k.HasNative := by
  by_cases hk : ∃ n, k = .union n
  · obtain ⟨n, rfl⟩ := hk
    simp [ofElement, Kind.HasNative]
  · rw [ofElement_of_ne_union (not_exists.1 hk), ofKind_succeeds_iff, or_iff_left hk]

theorem error_of_ofElement (h : ofElement t f k = .error e) :
    e = .unsupported f k ∨ ∃ n, k = .union n ∧ e = .misplaced f (.single k) := by
  by_cases hk : ∃ n, k = .union n
  · obtain ⟨n, rfl⟩ := hk
    cases h
    exact .inr ⟨n, rfl, rfl⟩
  · rw [ofElement_of_ne_union (not_exists.1 hk)] at h
    exact .inl (error_of_ofKind h)

end Rule

theorem Representation.verdict_ofKind (t : Target) (f : String) (k : Kind) :
    verdict (ofKind t f k) = verdict (Rule.ofKind t f k) := by
  cases k with
  | scalar s =>
    rw [ofKind, Rule.ofKind]
    cases s.native? <;> rfl
  | _ => rfl

theorem Representation.verdict_ofElement (t : Target) (f : String) (k : Kind) :
    verdict (ofElement t f k) = verdict (Rule.ofElement t f k) := by
  cases k with
  | union n => rfl
  | scalar s => exact verdict_ofKind t f (.scalar s)
  | enumeration n => rfl
  | message n => rfl
  | unresolved n => rfl
  | missing => rfl

variable {field : FieldSpec} {hint : Option String}

/-- A field can be held exactly when it can be converted, and both are refused for the same
reason. -/
theorem Selection.verdict_ofShape (t : Target) (field : FieldSpec) (r : Representation)
    (hint : Option String) :
    verdict (ofShape t field.name field.shape) =
      verdict (Conversion.ofField t field r hint) := by
  obtain ⟨name, shape, tag⟩ := field
  cases shape with
  | single k => exact verdict_bind_congr (Representation.verdict_ofKind t name k) fun _ _ => rfl
  | optional k => exact verdict_bind_congr (Representation.verdict_ofKind t name k) fun _ _ => rfl
  | repeated k =>
    exact verdict_bind_congr (Representation.verdict_ofElement t name k) fun _ _ => rfl
  | map key k =>
    apply verdict_bind_congr rfl
    intro _ _
    exact verdict_bind_congr (Representation.verdict_ofElement t name k) fun _ _ => rfl
  | stream s => rfl

theorem FieldSpec.verdict_describe (t : Target) (field : FieldSpec) (r : Representation)
    (hint : Option String) :
    verdict (field.describe t hint) = verdict (Conversion.ofField t field r hint) := by
  rw [describe, ← Selection.verdict_ofShape t field r hint]
  cases h : Selection.ofShape t field.name field.shape with
  | error e => rfl
  | ok s =>
    have hs := Selection.verdict_ofShape t field s.representation hint
    rw [h] at hs
    obtain ⟨c, hc⟩ := verdict_eq_ok_iff.1 hs.symm
    change verdict (Conversion.ofField t field s.representation hint >>= _) = _
    rw [hc]
    rfl

theorem Conversion.ofField_succeeds_iff {r : Representation} :
    (∃ c, ofField t field r hint = .ok c) ↔ field.shape.Supported := by
  obtain ⟨name, shape, tag⟩ := field
  cases shape with
  | single k => exact succeeds_bind_pure_iff.trans Rule.ofKind_succeeds_iff
  | optional k => exact succeeds_bind_pure_iff.trans Rule.ofKind_succeeds_iff
  | repeated k => exact succeeds_bind_pure_iff.trans Rule.ofElement_succeeds_iff
  | map key k =>
    rw [Shape.Supported, ← Scalar.keyType_succeeds_iff (f := name),
      ← Rule.ofElement_succeeds_iff (t := t) (f := name), ofField]
    simp only [bind_eq_ok_iff]
    refine ⟨?_, ?_⟩
    · intro h
      obtain ⟨c, type, hkey, rule, hrule, _⟩ := h
      exact ⟨⟨type, hkey⟩, rule, hrule⟩
    · intro h
      obtain ⟨⟨type, hkey⟩, rule, hrule⟩ := h
      exact ⟨_, type, hkey, rule, hrule, rfl⟩
  | stream s => simp [ofField, Shape.Supported]

/-- A field is refused for its shape only if it is a stream or has to do with a union. -/
theorem Conversion.error_of_ofField {r : Representation} (h : ofField t field r hint = .error e) :
    (∃ k, e = .unsupported field.name k) ∨
    ((∃ inner, field.shape = .stream inner) ∨ ∃ n, field.shape.element = .union n) ∧
      ∃ shape, e = .misplaced field.name shape := by
  obtain ⟨name, shape, tag⟩ := field
  have helement {k : Kind} (h : Rule.ofElement t name k = .error e) :
      (∃ k, e = .unsupported name k) ∨
        (∃ n, k = .union n) ∧ ∃ shape, e = .misplaced name shape := by
    rcases Rule.error_of_ofElement h with he | ⟨n, hk, he⟩
    · exact .inl ⟨k, he⟩
    · exact .inr ⟨⟨n, hk⟩, _, he⟩
  cases shape with
  | single k => exact .inl ⟨k, Rule.error_of_ofKind (bind_pure_eq_error_iff.1 h)⟩
  | optional k => exact .inl ⟨k, Rule.error_of_ofKind (bind_pure_eq_error_iff.1 h)⟩
  | repeated k => exact (helement (bind_pure_eq_error_iff.1 h)).imp_right (.imp_left .inr)
  | map key k =>
    rcases bind_eq_error_iff.1 h with h | ⟨_, _, h⟩
    · exact .inl ⟨_, Scalar.error_of_keyType h⟩
    · exact (helement (bind_pure_eq_error_iff.1 h)).imp_right (.imp_left .inr)
  | stream inner =>
    cases h
    exact .inr ⟨.inl ⟨inner, rfl⟩, _, rfl⟩

theorem Selection.ofShape_succeeds_iff {shape : Shape} :
    (∃ s, ofShape t f shape = .ok s) ↔ shape.Supported := by
  rw [← verdict_eq_ok_iff, verdict_ofShape t ⟨f, shape, none⟩ (.value "" "") none,
    verdict_eq_ok_iff, Conversion.ofField_succeeds_iff]

theorem FieldSpec.describe_succeeds_iff :
    (∃ d, field.describe t hint = .ok d) ↔ field.shape.Supported := by
  rw [← verdict_eq_ok_iff, verdict_describe t field (.value "" "") hint, verdict_eq_ok_iff,
    Conversion.ofField_succeeds_iff]

theorem FieldSpec.ofField_of_describe (r : Representation) (h : field.describe t hint = .error e) :
    Conversion.ofField t field r hint = .error e := by
  rwa [← verdict_eq_error_iff, verdict_describe t field r hint, verdict_eq_error_iff] at h

namespace Constructor

/-- The constructors of lists. -/
def lists : List Constructor :=
  [⟨"mutableListOf", "ArrayList"⟩, uniform "GdxIntArray", uniform "GdxLongArray",
    uniform "GdxFloatArray", uniform "GdxArray"]

/-- The constructors of maps. -/
def maps : List Constructor :=
  [⟨"mutableMapOf", "LinkedHashMap"⟩, uniform "IntIntMap", uniform "IntFloatMap", uniform "IntMap",
    uniform "LongMap", uniform "ObjectIntMap", uniform "ObjectLongMap", uniform "ObjectFloatMap",
    uniform "ObjectMap"]

end Constructor

theorem Selection.list_constructor (t : Target) (k : Kind) (element : String) :
    ∃ c ∈ Constructor.lists, (list t k element).representation.constructor = some c := by
  rw [list, compactList]
  split_ifs <;> simp [Representation.container, Constructor.lists, Constructor.uniform]

theorem Selection.map_constructor (t : Target) (key : Scalar) (k : Kind) (keyType value : String) :
    ∃ c ∈ Constructor.maps, (map t key k keyType value).representation.constructor = some c := by
  rw [map, compactMap]
  split_ifs <;> simp [Representation.container, Constructor.maps, Constructor.uniform]

def Encoding.rule : Encoding → Rule
  | .single _ rule | .optional _ rule | .elements _ rule | .entries _ rule => rule

/-- The conversion of a field of a shape by one rule: the same rule and the same names in both
directions, and a container made by a constructor of the right sort. -/
inductive Conversion.Plan (names : Accessors) (rule : Rule) : Shape → Conversion → Prop
  | single (k : Kind) : Plan names rule (.single k) ⟨.single names rule, none, .single names rule⟩
  | optional (k : Kind) :
    Plan names rule (.optional k) ⟨.optional names rule, none, .optional names rule⟩
  | repeated (k : Kind) (c : Constructor) (hint : Option String) (hc : c ∈ Constructor.lists) :
    Plan names rule (.repeated k)
      ⟨.literal (c.call hint), some (.elements names rule), .elements names rule⟩
  | map (key : Scalar) (k : Kind) (c : Constructor) (hint : Option String)
    (hc : c ∈ Constructor.maps) :
    Plan names rule (.map key k)
      ⟨.literal (c.call hint), some (.entries names rule), .entries names rule⟩

theorem Representation.construct_of_constructor {r : Representation} {c : Constructor}
    (h : r.constructor = some c) (hint : Option String) : r.construct hint = c.call hint := by
  rw [construct, h]

/-- A field that can be described is converted by the rule for the kind of its values. -/
theorem FieldSpec.describe_plan {d : FieldDescription} (h : field.describe t hint = .ok d) :
    ∃ rule, Rule.ofKind t field.name field.shape.element = .ok rule ∧
      Conversion.Plan (.ofName t.naming field.name) rule field.shape d.conversion := by
  obtain ⟨s, hs, h⟩ := bind_eq_ok_iff.1 h
  obtain ⟨c, hc, h⟩ := bind_eq_ok_iff.1 h
  cases h
  obtain ⟨name, shape, tag⟩ := field
  cases shape with
  | single k =>
    obtain ⟨rule, hr, hc⟩ := bind_eq_ok_iff.1 hc
    cases hc
    exact ⟨rule, hr, .single k⟩
  | optional k =>
    obtain ⟨rule, hr, hc⟩ := bind_eq_ok_iff.1 hc
    cases hc
    exact ⟨rule, hr, .optional k⟩
  | repeated k =>
    obtain ⟨rule, hr, hc⟩ := bind_eq_ok_iff.1 hc
    obtain ⟨element, _, hs⟩ := bind_eq_ok_iff.1 hs
    cases hc
    cases hs
    obtain ⟨c, hc, he⟩ := Selection.list_constructor t k element.nativeType
    rw [Representation.construct_of_constructor he]
    exact ⟨rule, Rule.ofKind_of_ofElement hr, .repeated k c hint hc⟩
  | map key k =>
    obtain ⟨_, _, hc⟩ := bind_eq_ok_iff.1 hc
    obtain ⟨rule, hr, hc⟩ := bind_eq_ok_iff.1 hc
    obtain ⟨keyType, _, hs⟩ := bind_eq_ok_iff.1 hs
    obtain ⟨element, _, hs⟩ := bind_eq_ok_iff.1 hs
    cases hc
    cases hs
    obtain ⟨c, hc, he⟩ := Selection.map_constructor t key k keyType element.nativeType
    rw [Representation.construct_of_constructor he]
    exact ⟨rule, Rule.ofKind_of_ofElement hr, .map key k c hint hc⟩
  | stream s => cases hc

end WireModel
