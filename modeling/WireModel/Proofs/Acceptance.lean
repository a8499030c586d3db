import WireModel.Proofs.Description
import WireModel.Proofs.Stages

namespace WireModel

open Outcome

/-- The keywords that can stand before the comma of a map type. -/
def FieldType.mapKeys : List String :=
  ["bool", "int32", "sint32", "int64", "sint64", "string"]

/-- The type can be that of an alternative: a single value of a kind that can be held. -/
def FieldType.FitsAlternative (t : Symbols) (message : TypeName) (type : FieldType) : Prop :=
  type.optional = false ∧ type.repeated = false ∧
    ∃ name, type.expr = .named name ∧ (t.kindOf name (some message)).HasNative

/-- The type can be that of a plain field. -/
def FieldType.FitsField (t : Symbols) (message : TypeName) (type : FieldType) : Prop :=
  ¬(type.optional = true ∧ type.repeated = true) ∧
    match type.expr with
    | .named name => (t.kindOf name (some message)).HasNative
    | .map key value =>
      type.optional = false ∧ type.repeated = false ∧ key ∈ mapKeys ∧
        (t.kindOf value (some message)).HasNative

/-- Both sides of the procedure name messages. -/
def Rpc.CarriesMessages (t : Symbols) (r : Rpc) : Prop :=
  (∃ n, t.kindOf r.inType none = .message n) ∧ ∃ n, t.kindOf r.outType none = .message n

/-- What a generation run asks of a schema. -/
inductive Requirement where
  | names
  | numbers
  | procedures
  | constants
  | alternatives
  | fields
deriving DecidableEq, Repr

namespace Requirement

/-- The requirements in the order in which a run looks at them. -/
def all : List Requirement :=
  [names, numbers, procedures, constants, alternatives, fields]

/-- What each requirement says. -/
def Met (s : Schema) (settings : Settings) : Requirement → Prop
  | names => s.names.Nodup
  | numbers => settings.validateTags = true → s.validate = .ok ()
  | procedures => ∀ d ∈ s.services, ∀ r ∈ d.rpcs, r.CarriesMessages s.symbols
  | constants => ∀ e ∈ s.enumerations, e.2.values ≠ []
  | alternatives =>
    ∀ m ∈ s.messages, ∀ o ∈ m.2.oneOfs, ∀ f ∈ o.fields, f.type.FitsAlternative s.symbols m.1
  | fields => ∀ m ∈ s.messages, ∀ f ∈ m.2.fields, f.type.FitsField s.symbols m.1

/-- The error is about something in the schema that breaks the requirement. -/
def Blames (s : Schema) (e : GenerationError) : Requirement → Prop
  | names => ∃ n, s.names.Duplicate n ∧ e.subject = n.text
  | numbers => ∃ fault, s.validate = .error fault ∧ e = .schema fault
  | procedures =>
    ∃ d ∈ s.services, ∃ r ∈ d.rpcs, ¬r.CarriesMessages s.symbols ∧
      e.subject = d.name ++ "." ++ r.name
  | constants => ∃ c ∈ s.enumerations, c.2.values = [] ∧ e.subject = c.1.text
  | alternatives =>
    ∃ m ∈ s.messages, ∃ o ∈ m.2.oneOfs, ∃ f ∈ o.fields,
      ¬f.type.FitsAlternative s.symbols m.1 ∧ e.subject = f.name
  | fields =>
    ∃ m ∈ s.messages, ∃ f ∈ m.2.fields, ¬f.type.FitsField s.symbols m.1 ∧ e.subject = f.name

theorem mem_all (r : Requirement) : r ∈ all := by
  cases r <;> decide

end Requirement

/-- The part of a run that decides about a requirement. -/
def Requirement.check (s : Schema) (settings : Settings) :
    Requirement → Except GenerationError Unit
  | names => verdict ((Symbols.ofSchema s).mapError .schema)
  | numbers => if settings.validateTags then s.validate.mapError .schema else .ok ()
  | procedures => (s.generator settings).checkServices
  | constants => verdict (s.generator settings).enums
  | alternatives => verdict (s.generator settings).unions
  | fields => verdict (s.generator settings).messages

/-- A run goes as far as its checks go, one after another. -/
theorem Schema.verdict_generate (s : Schema) (settings : Settings) :
    verdict (s.generate settings) = Requirement.all.forM (Requirement.check s settings) := by
  have hg := (s.generator settings).verdict_generate
  rw [generate, Generator.ofSchema_eq]
  simp only [Requirement.all, List.forM_eq_forM, List.forM_cons, List.forM_nil, Requirement.check]
  cases Symbols.ofSchema s with
  | error e => rfl
  | ok t =>
    cases settings.validateTags with
    | false => exact hg
    | true =>
      cases s.validate with
      | error e => rfl
      | ok _ => exact hg

variable {s : Schema} {settings : Settings} {t : Symbols} {e : GenerationError} {n : TypeName}

theorem FieldType.mem_mapKeys_iff {key : String} :
    key ∈ mapKeys ↔
      ∃ k ∈ Scalar.natives, (Scalar.ofKeyword? key).filter Scalar.isMapKey = some k := by
  refine ⟨?_, ?_⟩
  · intro h
    simp only [mapKeys, List.mem_cons, List.not_mem_nil, or_false] at h
    rcases h with rfl | rfl | rfl | rfl | rfl | rfl
    · exact ⟨.bool, by decide, by decide⟩
    · exact ⟨.int32, by decide, by decide⟩
    · exact ⟨.sint32, by decide, by decide⟩
    · exact ⟨.int64, by decide, by decide⟩
    · exact ⟨.sint64, by decide, by decide⟩
    · exact ⟨.string, by decide, by decide⟩
  · intro h
    obtain ⟨k, hk, h⟩ := h
    obtain ⟨h, hm⟩ := Option.filter_eq_some_iff.1 h
    rw [← Scalar.keyword_of_ofKeyword? h]
    cases k <;> revert hk hm <;> decide

theorem Symbols.supported_kindOf_iff {name : String} {scope : Option TypeName} :
    ((t.kindOf name scope).HasNative ∨ ∃ n, t.kindOf name scope = .union n) ↔
      (t.kindOf name scope).HasNative := by
  apply or_iff_left
  intro h
  obtain ⟨n, h⟩ := h
  exact t.kindOf_ne_union name scope n h

/-- A field type fits a plain field exactly when it has a shape that can be held. -/
theorem Symbols.shapeOf_supported_iff {type : FieldType} (f : String) :
    (∃ shape, t.shapeOf type (some n) f = .ok shape ∧ shape.Supported) ↔ type.FitsField t n := by
  obtain ⟨optional, repeated, expr⟩ := type
  cases expr with
  | named name =>
    cases optional <;> cases repeated <;>
      simp [shapeOf, FieldType.FitsField, Shape.Supported, supported_kindOf_iff]
  | map key value =>
    cases optional <;> cases repeated <;>
      simp only [shapeOf, FieldType.FitsField, FieldType.mem_mapKeys_iff, Bool.false_eq_true,
        reduceCtorEq, and_self, and_true, and_false, or_self, or_true, true_or, ↓reduceIte,
        not_false_eq_true, not_true_eq_false, false_and, exists_false, true_and]
    cases (Scalar.ofKeyword? key).filter Scalar.isMapKey with
    | none => simp
    | some k => simp [Shape.Supported]

theorem Symbols.shapeOf_single_iff {type : FieldType} (f : String) :
    (∃ k, t.shapeOf type (some n) f = .ok (.single k) ∧ (Shape.single k).Supported) ↔
      type.FitsAlternative t n := by
  obtain ⟨optional, repeated, expr⟩ := type
  cases expr with
  | named name =>
    cases optional <;> cases repeated <;>
      simp [shapeOf, FieldType.FitsAlternative, Shape.Supported, supported_kindOf_iff]
  | map key value =>
    cases optional <;> cases repeated <;>
      cases h : (Scalar.ofKeyword? key).filter Scalar.isMapKey <;>
      simp [shapeOf, FieldType.FitsAlternative, h]

theorem Symbols.subject_of_shapeOf {type : FieldType} {scope : Option TypeName} {f : String}
    {fault : SchemaError} (h : t.shapeOf type scope f = .error fault) : fault.subject = f := by
  obtain ⟨optional, repeated, expr⟩ := type
  rw [shapeOf] at h
  split at h
  · cases h
    rfl
  · cases expr with
    | named name => cases optional <;> cases repeated <;> cases h
    | map key value =>
      dsimp only at h
      split at h
      · cases h
        rfl
      · split at h
        · cases h
        · cases h
          rfl

theorem Symbols.rpcShape_cases (t : Symbols) (name : String) (stream : Bool)
    (scope : Option TypeName) :
    t.rpcShape name stream scope = .single (t.kindOf name scope) ∨
      t.rpcShape name stream scope = .stream (.single (t.kindOf name scope)) := by
  cases stream with
  | false => exact .inl rfl
  | true => exact .inr rfl

namespace Generator

variable {g : Generator} {label : String} {r : Rpc} {f : Field}

theorem rpcPayload_succeeds_iff (label name : String) (stream : Bool) :
    (∃ n, rpcPayload label (t.rpcShape name stream none) = .ok n) ↔
      ∃ n, t.kindOf name none = .message n := by
  obtain hs | hs := t.rpcShape_cases name stream none
  all_goals
    rw [hs]
    cases t.kindOf name none <;> simp [rpcPayload, Shape.element, Kind.isSentinel]

theorem error_of_rpcPayload {name : String} {stream : Bool} {scope : Option TypeName}
    (h : rpcPayload label (t.rpcShape name stream scope) = .error e) :
    ∃ k, e = .unsupported label k ∨ e = .rpcWithoutMessage label k := by
  refine ⟨t.kindOf name scope, ?_⟩
  obtain hs | hs := t.rpcShape_cases name stream scope
  all_goals
    rw [hs] at h
    generalize t.kindOf name scope = k at h ⊢
    cases k <;> cases h <;> simp [Shape.element]

theorem checkRpc_eq_ok_iff : g.checkRpc label r = .ok () ↔ r.CarriesMessages g.symbols := by
  rw [Rpc.CarriesMessages, ← rpcPayload_succeeds_iff label r.inType r.inStream,
    ← rpcPayload_succeeds_iff label r.outType r.outStream, checkRpc]
  simp only [bind_eq_ok_iff, pure_eq_ok_iff]
  refine ⟨?_, ?_⟩
  · intro h
    obtain ⟨n, hn, n', hn', _⟩ := h
    exact ⟨⟨n, hn⟩, n', hn'⟩
  · intro h
    obtain ⟨⟨n, hn⟩, n', hn'⟩ := h
    exact ⟨n, hn, n', hn', trivial⟩

theorem error_of_checkRpc (h : g.checkRpc label r = .error e) :
    ∃ k, e = .unsupported label k ∨ e = .rpcWithoutMessage label k := by
  rcases bind_eq_error_iff.1 h with h | ⟨_, _, h⟩
  · exact error_of_rpcPayload h
  · exact error_of_rpcPayload (bind_pure_eq_error_iff.1 h)

theorem subject_of_checkRpc (h : g.checkRpc label r = .error e) : e.subject = label := by
  obtain ⟨k, rfl | rfl⟩ := error_of_checkRpc h
  · rfl
  · rfl

theorem mem_rpcs_iff {p : String × Rpc} :
    p ∈ g.rpcs ↔ ∃ d ∈ g.schema.services, ∃ r ∈ d.rpcs, (d.name ++ "." ++ r.name, r) = p := by
  simp only [rpcs, List.mem_flatMap, List.mem_map]

theorem checkServices_eq_ok_iff :
    g.checkServices = .ok () ↔
      ∀ d ∈ g.schema.services, ∀ r ∈ d.rpcs, r.CarriesMessages g.symbols := by
  rw [checkServices, forM_eq_ok_iff]
  refine ⟨?_, ?_⟩
  · intro h d hd r hr
    have hp := h (d.name ++ "." ++ r.name, r) (mem_rpcs_iff.2 ⟨d, hd, r, hr, rfl⟩)
    exact checkRpc_eq_ok_iff.1 hp
  · intro h p hp
    obtain ⟨d, hd, r, hr, rfl⟩ := mem_rpcs_iff.1 hp
    exact checkRpc_eq_ok_iff.2 (h d hd r hr)

theorem zeroValue?_eq_none_iff {c : Enumeration} : c.zeroValue? = none ↔ c.values = [] := by
  rw [Enumeration.zeroValue?]
  cases h : c.values.find? fun v => v.number == 0 with
  | none => simp
  | some v =>
    simp only [reduceCtorEq, false_iff]
    exact List.ne_nil_of_mem (List.mem_of_find?_eq_some h)

theorem describeEnum_succeeds_iff {c : Enumeration} :
    (∃ m, g.describeEnum n c = .ok m) ↔ c.values ≠ [] := by
  rw [describeEnum, ne_eq, ← zeroValue?_eq_none_iff]
  cases c.zeroValue? <;> simp

theorem error_of_describeEnum {c : Enumeration} (h : g.describeEnum n c = .error e) :
    e = .schema (.emptyEnumeration n) := by
  rw [describeEnum] at h
  split at h
  · cases h
    rfl
  · cases h

theorem describeAlternative_succeeds_iff :
    (∃ m, g.describeAlternative n f = .ok m) ↔ f.type.FitsAlternative g.symbols n := by
  rw [← Symbols.shapeOf_single_iff f.name]
  refine ⟨?_, ?_⟩
  · intro h
    obtain ⟨m, h⟩ := h
    obtain ⟨k, rule, _, hs, hr, _⟩ := describeAlternative_eq_ok_iff.1 h
    exact ⟨k, hs, Rule.ofKind_succeeds_iff.1 ⟨rule, hr⟩⟩
  · intro h
    obtain ⟨k, hs, hk⟩ := h
    obtain ⟨rule, hr⟩ := Rule.ofKind_succeeds_iff.2 hk
    obtain ⟨selection, hl⟩ := Selection.ofShape_succeeds_iff.2 hk
    exact ⟨_, describeAlternative_eq_ok_iff.2 ⟨k, rule, selection, hs, hr, hl, rfl⟩⟩

/-- An alternative is refused for its type, for the kind of its one value or for its shape. -/
theorem error_of_describeAlternative (h : g.describeAlternative n f = .error e) :
    (∃ fault, g.symbols.shapeOf f.type (some n) f.name = .error fault ∧ e = .schema fault) ∨
    (∃ k, e = .unsupported f.name k) ∨
    ∃ shape, g.symbols.shapeOf f.type (some n) f.name = .ok shape ∧ (∀ k, shape ≠ .single k) ∧
      e = .misplaced f.name shape := by
  rcases bind_eq_error_iff.1 h with h | ⟨shape, hs, h⟩
  · obtain ⟨fault, hf, rfl⟩ := mapError_eq_error_iff.1 h
    exact .inl ⟨fault, hf, rfl⟩
  · have hs := mapError_eq_ok_iff.1 hs
    split at h
    · next k _ =>
      rcases bind_eq_error_iff.1 h with h | ⟨rule, hr, h⟩
      · exact .inr (.inl ⟨k, Rule.error_of_ofKind h⟩)
      · -- a value with a rule can also be held
        have hk : (Shape.single k).Supported := Rule.ofKind_succeeds_iff.1 ⟨rule, hr⟩
        exact (not_succeeds (bind_pure_eq_error_iff.1 h)
          (Selection.ofShape_succeeds_iff.2 hk)).elim
    · next hsingle =>
      cases h
      exact .inr (.inr ⟨shape, hs, hsingle, rfl⟩)

theorem subject_of_describeAlternative (h : g.describeAlternative n f = .error e) :
    e.subject = f.name := by
  obtain ⟨fault, hf, rfl⟩ | ⟨k, rfl⟩ | ⟨shape, _, _, rfl⟩ := error_of_describeAlternative h
  · exact Symbols.subject_of_shapeOf hf
  · rfl
  · rfl

theorem describeUnion_succeeds_iff {o : ScopedOneOf} :
    (∃ m, g.describeUnion o = .ok m) ↔
      ∀ f ∈ o.oneOf.fields, f.type.FitsAlternative g.symbols o.message := by
  rw [describeUnion, succeeds_bind_pure_iff, mapM_succeeds_iff]
  simp only [describeAlternative_succeeds_iff]

theorem describeProperty_field_succeeds_iff :
    (∃ m, g.describeProperty n (.field f) = .ok m) ↔ f.type.FitsField g.symbols n := by
  rw [← Symbols.shapeOf_supported_iff f.name]
  simp only [describeProperty_eq_ok_iff, specOf_field_eq_ok_iff]
  refine ⟨?_, ?_⟩
  · intro h
    obtain ⟨_, _, d, ⟨shape, hs, rfl⟩, hd, _⟩ := h
    exact ⟨shape, hs, FieldSpec.describe_succeeds_iff.1 ⟨d, hd⟩⟩
  · intro h
    obtain ⟨shape, hs, hk⟩ := h
    let spec : FieldSpec := ⟨f.name, shape, some f.tag⟩
    have hd : ∃ d, spec.describe g.target (g.sizeHint n spec) = .ok d :=
      FieldSpec.describe_succeeds_iff.2 hk
    obtain ⟨d, hd⟩ := hd
    exact ⟨_, spec, d, ⟨shape, hs, rfl⟩, hd, rfl⟩

theorem describeProperty_oneOf_succeeds (g : Generator) (n : TypeName) (o : OneOf) :
    ∃ m, g.describeProperty n (.oneOf o) = .ok m :=
  ⟨_, rfl⟩

/-- A plain field is refused for its type or for the kind of its values. -/
theorem error_of_describeProperty (h : g.describeProperty n (.field f) = .error e) :
    (∃ fault, g.symbols.shapeOf f.type (some n) f.name = .error fault ∧ e = .schema fault) ∨
    ∃ k, e = .unsupported f.name k := by
  rcases bind_eq_error_iff.1 h with h | ⟨spec, hs, h⟩
  · obtain ⟨fault, hf, rfl⟩ := mapError_eq_error_iff.1 (bind_pure_eq_error_iff.1 h)
    exact .inl ⟨fault, hf, rfl⟩
  · obtain ⟨shape, hshape, rfl⟩ := specOf_field_eq_ok_iff.1 hs
    obtain ⟨hstream, hunion⟩ := Symbols.ne_stream_of_shapeOf hshape
    have h := FieldSpec.ofField_of_describe (.value "" "") (bind_pure_eq_error_iff.1 h)
    rcases Conversion.error_of_ofField h with hk | ⟨⟨inner, hi⟩ | ⟨u, hu⟩, _⟩
    · exact .inr hk
    · exact (hstream inner hi).elim
    · exact (hunion u hu).elim

theorem subject_of_describeProperty (h : g.describeProperty n (.field f) = .error e) :
    e.subject = f.name := by
  obtain ⟨fault, hf, rfl⟩ | ⟨k, rfl⟩ := error_of_describeProperty h
  · exact Symbols.subject_of_shapeOf hf
  · rfl

theorem describeScoped_succeeds_iff {m : Message} :
    (∃ model, g.describeScoped n m = .ok model) ↔
      ∀ f ∈ m.fields, f.type.FitsField g.symbols n := by
  rw [describeScoped, succeeds_bind_pure_iff, mapM_succeeds_iff]
  refine ⟨?_, ?_⟩
  · intro h f hf
    have hp := h (.field f) (Message.field_mem_properties_iff.2 hf)
    exact describeProperty_field_succeeds_iff.1 hp
  · intro h p hp
    cases p with
    | field f =>
      exact describeProperty_field_succeeds_iff.2 (h f (Message.field_mem_properties_iff.1 hp))
    | oneOf o => exact describeProperty_oneOf_succeeds g n o

end Generator

namespace Requirement

/-- Each check passes exactly when its requirement is met. -/
theorem check_eq_ok_iff (r : Requirement) :
    r.check s settings = .ok () ↔ r.Met s settings := by
  cases r with
  | names =>
    simp only [check, verdict_eq_ok_iff, mapError_eq_ok_iff, Symbols.ofSchema_eq_ok_iff, Met,
      exists_and_left, exists_eq, and_true]
  | numbers =>
    rw [check, Met]
    split_ifs with hv
    · simp [mapError_eq_ok_iff, hv]
    · simp [hv]
  | procedures => exact Generator.checkServices_eq_ok_iff
  | constants =>
    rw [check, Met, verdict_eq_ok_iff, Generator.enums, mapM_succeeds_iff]
    simp only [Generator.describeEnum_succeeds_iff]
    rfl
  | alternatives =>
    rw [check, Met, verdict_eq_ok_iff, Generator.unions, mapM_succeeds_iff]
    simp only [Generator.describeUnion_succeeds_iff]
    refine ⟨?_, ?_⟩
    · intro h m hm o ho
      exact h _ (Schema.mem_oneOfs_iff.2 ⟨m, hm, o, ho, rfl⟩)
    · intro h o ho
      obtain ⟨m, hm, p, hp, rfl⟩ := Schema.mem_oneOfs_iff.1 ho
      exact h m hm p hp
  | fields =>
    rw [check, Met, verdict_eq_ok_iff, Generator.messages, mapM_succeeds_iff]
    simp only [Generator.describeScoped_succeeds_iff]
    rfl

/-- An error of a check is about something that breaks its requirement. -/
theorem blames_of_check {r : Requirement} (h : r.check s settings = .error e) : r.Blames s e := by
  cases r with
  | names =>
    obtain ⟨fault, hf, rfl⟩ := mapError_eq_error_iff.1 (verdict_eq_error_iff.1 h)
    obtain ⟨earlier, n, rfl, hn⟩ := Symbols.duplicate_of_ofSchema_eq_error hf
    exact ⟨n, hn, rfl⟩
  | numbers =>
    rw [check] at h
    split_ifs at h
    obtain ⟨fault, hf, rfl⟩ := mapError_eq_error_iff.1 h
    exact ⟨fault, hf, rfl⟩
  | procedures =>
    obtain ⟨_, p, _, hp, _, he⟩ := forM_eq_error h
    have hp : p ∈ (s.generator settings).rpcs := hp ▸ List.mem_append_right _ List.mem_cons_self
    obtain ⟨d, hd, r, hr, rfl⟩ := Generator.mem_rpcs_iff.1 hp
    refine ⟨d, hd, r, hr, ?_, Generator.subject_of_checkRpc he⟩
    intro hc
    exact not_succeeds he ⟨(), Generator.checkRpc_eq_ok_iff.2 hc⟩
  | constants =>
    obtain ⟨c, hc, he⟩ := exists_mem_of_mapM_eq_error (verdict_eq_error_iff.1 h)
    refine ⟨c, hc, ?_, by rw [Generator.error_of_describeEnum he]; rfl⟩
    by_contra hv
    exact not_succeeds he (Generator.describeEnum_succeeds_iff.2 hv)
  | alternatives =>
    obtain ⟨o, ho, he⟩ := exists_mem_of_mapM_eq_error (verdict_eq_error_iff.1 h)
    obtain ⟨m, hm, p, hp, rfl⟩ := Schema.mem_oneOfs_iff.1 ho
    obtain ⟨f, hf, he⟩ := exists_mem_of_mapM_eq_error (bind_pure_eq_error_iff.1 he)
    refine ⟨m, hm, p, hp, f, hf, ?_, Generator.subject_of_describeAlternative he⟩
    intro hc
    exact not_succeeds he (Generator.describeAlternative_succeeds_iff.2 hc)
  | fields =>
    obtain ⟨m, hm, he⟩ := exists_mem_of_mapM_eq_error (verdict_eq_error_iff.1 h)
    obtain ⟨p, hp, he⟩ := exists_mem_of_mapM_eq_error (bind_pure_eq_error_iff.1 he)
    cases p with
    | field f =>
      refine ⟨m, hm, f, Message.field_mem_properties_iff.1 hp, ?_,
        Generator.subject_of_describeProperty he⟩
      intro hc
      exact not_succeeds he (Generator.describeProperty_field_succeeds_iff.2 hc)
    | oneOf o =>
      exact (not_succeeds he (Generator.describeProperty_oneOf_succeeds _ _ o)).elim

end Requirement

theorem Schema.succeeds_iff_met :
    (∃ files, s.generate settings = .ok files) ↔ ∀ r : Requirement, r.Met s settings := by
  rw [← verdict_eq_ok_iff, verdict_generate, forM_eq_ok_iff]
  simp only [Requirement.check_eq_ok_iff]
  exact ⟨fun h r => h r r.mem_all, fun h r _ => h r⟩

/-- A run succeeds exactly when every requirement is met. Otherwise its error is about something
that breaks the first requirement that is not. -/
theorem Schema.generate_outcome (s : Schema) (settings : Settings) :
    ((∃ files, s.generate settings = .ok files) ↔ ∀ r : Requirement, r.Met s settings) ∧
    ∀ e, s.generate settings = .error e →
      ∃ before r after, Requirement.all = before ++ r :: after ∧
        (∀ q ∈ before, q.Met s settings) ∧ ¬r.Met s settings ∧ r.Blames s e := by
  refine ⟨succeeds_iff_met, ?_⟩
  intro e he
  rw [← verdict_eq_error_iff, verdict_generate] at he
  obtain ⟨before, r, after, hs, hb, he⟩ := forM_eq_error he
  refine ⟨before, r, after, hs, ?_, ?_, Requirement.blames_of_check he⟩
  · intro q hq
    exact q.check_eq_ok_iff.1 (hb q hq)
  · intro hr
    exact not_succeeds he ⟨(), r.check_eq_ok_iff.2 hr⟩

/-- A schema with a repeated alternative, and with a field of an unknown type. -/
def Schema.repeatedAlternative : Schema where
  package := "shop"
  definitions := [
    .message ⟨"Order", [
      .enumeration ⟨"State", [.value { name := "OPEN", tag := 0 }]⟩,
      .field { type := { expr := .named "State" }, name := "state", tag := 1 },
      .field { type := { expr := .named "Missing" }, name := "gone", tag := 2 },
      .oneOf ⟨"payment", [
        .field { type := { expr := .named "string" }, name := "card", tag := 3 },
        .field {
          type := { repeated := true, expr := .named "int32" }
          name := "coins"
          tag := 4 }]⟩]⟩]

theorem Schema.generate_repeatedAlternative :
    repeatedAlternative.generate {} =
      .error (.misplaced "coins" (.repeated (.scalar .int32))) ∧
    ∃ before r after, Requirement.all = before ++ r :: after ∧
      (∀ q ∈ before, q.Met repeatedAlternative {}) ∧ ¬r.Met repeatedAlternative {} ∧
      r.Blames repeatedAlternative (.misplaced "coins" (.repeated (.scalar .int32))) :=
  ⟨rfl, (generate_outcome repeatedAlternative {}).2 _ rfl⟩

end WireModel
