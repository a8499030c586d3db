import WireModel.Generation
import WireModel.Proofs.Resolution

namespace WireModel

open Outcome

/-- The generator of a schema, with the table of everything that it declares. -/
def Schema.generator (s : Schema) (settings : Settings) : Generator :=
  ⟨s, settings, s.symbols⟩

theorem Schema.mem_oneOfs_iff {s : Schema} {o : ScopedOneOf} :
    o ∈ s.oneOfs ↔ ∃ m ∈ s.messages, ∃ p ∈ m.2.oneOfs, (⟨m.1, p⟩ : ScopedOneOf) = o := by
  simp only [oneOfs, List.mem_flatMap, List.mem_map]

theorem Message.field_mem_properties_iff {m : Message} {f : Field} :
    .field f ∈ m.properties ↔ f ∈ m.fields := by
  simp only [properties, fields, List.mem_filterMap]
  refine ⟨?_, ?_⟩
  · intro h
    obtain ⟨member, hm, h⟩ := h
    cases member <;> cases h
    exact ⟨_, hm, rfl⟩
  · intro h
    obtain ⟨member, hm, h⟩ := h
    cases member <;> cases h
    exact ⟨_, hm, rfl⟩

theorem Message.oneOf_mem_properties_iff {m : Message} {o : OneOf} :
    .oneOf o ∈ m.properties ↔ o ∈ m.oneOfs := by
  simp only [properties, oneOfs, List.mem_filterMap]
  refine ⟨?_, ?_⟩
  · intro h
    obtain ⟨member, hm, h⟩ := h
    cases member <;> cases h
    exact ⟨_, hm, rfl⟩
  · intro h
    obtain ⟨member, hm, h⟩ := h
    cases member <;> cases h
    exact ⟨_, hm, rfl⟩

namespace Generator

variable {s : Schema} {settings : Settings} {g : Generator} {files : GeneratedFiles}

theorem ofSchema_eq (s : Schema) (settings : Settings) :
    ofSchema s settings = (do
      let _ ← (Symbols.ofSchema s).mapError GenerationError.schema
      if settings.validateTags then s.validate.mapError .schema
      return s.generator settings) := by
  rw [ofSchema]
  cases h : Symbols.ofSchema s with
  | error e => rfl
  | ok t =>
    obtain ⟨_, rfl⟩ := Symbols.ofSchema_eq_ok_iff.1 h
    rfl

/-- A generator is made exactly if names are distinct and the checks that are asked for pass. -/
theorem ofSchema_eq_ok_iff :
    ofSchema s settings = .ok g ↔ s.names.Nodup ∧
      (settings.validateTags = true → s.validate = .ok ()) ∧ g = s.generator settings := by
  refine ⟨?_, ?_⟩
  · intro h
    obtain ⟨t, ht, h⟩ := bind_eq_ok_iff.1 h
    obtain ⟨hn, rfl⟩ := Symbols.ofSchema_eq_ok_iff.1 (mapError_eq_ok_iff.1 ht)
    split at h
    · obtain ⟨_, hv, h⟩ := bind_eq_ok_iff.1 h
      exact ⟨hn, fun _ => mapError_eq_ok_iff.1 hv, pure_eq_ok_iff.1 h⟩
    · next hoff => exact ⟨hn, fun hon => (hoff hon).elim, pure_eq_ok_iff.1 h⟩
  · rintro ⟨hn, hv, rfl⟩
    rw [ofSchema, Symbols.ofSchema_eq_ok_iff.2 ⟨hn, rfl⟩]
    cases hon : settings.validateTags with
    | false => rfl
    | true => rw [hv hon]; rfl

theorem eq_of_ofSchema (h : ofSchema s settings = .ok g) : g = s.generator settings :=
  (ofSchema_eq_ok_iff.1 h).2.2

theorem nodup_names_of_ofSchema (h : ofSchema s settings = .ok g) : s.names.Nodup :=
  (ofSchema_eq_ok_iff.1 h).1

/-- Making the files goes as far as its four parts go, one after another. -/
theorem verdict_generate (g : Generator) :
    verdict g.generate = (do
      g.checkServices
      verdict g.enums
      verdict g.unions
      verdict g.messages
      pure ()) := by
  rw [generate, model]
  cases g.checkServices with
  | error e => rfl
  | ok _ =>
    cases g.enums with
    | error e => rfl
    | ok _ =>
      cases g.unions with
      | error e => rfl
      | ok _ => cases g.messages <;> rfl

theorem model_of_generate (h : g.generate = .ok files) :
    ∃ model, g.model = .ok model ∧ files = ⟨g.wireFile, g.modelFile model⟩ := by
  obtain ⟨model, hm, h⟩ := bind_eq_ok_iff.1 h
  exact ⟨model, hm, pure_eq_ok_iff.1 h⟩

theorem parts_of_model {m : ObjectModel} (h : g.model = .ok m) :
    g.enums = .ok m.enums ∧ g.unions = .ok m.unions ∧ g.messages = .ok m.messages := by
  obtain ⟨_, _, h⟩ := bind_eq_ok_iff.1 h
  obtain ⟨enums, he, h⟩ := bind_eq_ok_iff.1 h
  obtain ⟨unions, hu, h⟩ := bind_eq_ok_iff.1 h
  obtain ⟨messages, hm, h⟩ := bind_eq_ok_iff.1 h
  cases h
  exact ⟨he, hu, hm⟩

theorem moreImports_congr {s' : Schema} (h : s.package = s'.package) (settings : Settings) :
    (s.generator settings).moreImports = (s'.generator settings).moreImports := by
  have hjava : (s.generator settings).javaPackage = (s'.generator settings).javaPackage := by
    simp only [javaPackage, wirePackage, Schema.generator, h]
  rw [moreImports, moreImports, hjava]
  rfl

theorem mem_messages_iff {model : ObjectModel} (h : g.model = .ok model) {m : MessageModel} :
    m ∈ model.messages ↔ ∃ p ∈ g.schema.messages, g.describeScoped p.1 p.2 = .ok m := by
  obtain ⟨_, _, hm⟩ := parts_of_model h
  refine ⟨fun hc => exists_source hm hc, ?_⟩
  rintro ⟨p, hp, hd⟩
  obtain ⟨c, hc, he⟩ := exists_result hm hp
  cases hd.symm.trans he
  exact hc

variable {n : TypeName} {f : Field} {o : OneOf}

theorem specOf_field_eq_ok_iff {spec : FieldSpec} :
    g.specOf n (.field f) = .ok spec ↔
      ∃ shape, g.symbols.shapeOf f.type (some n) f.name = .ok shape ∧
        spec = ⟨f.name, shape, some f.tag⟩ := by
  simp only [specOf, bind_eq_ok_iff, mapError_eq_ok_iff, pure_eq_ok_iff]

theorem describeProperty_eq_ok_iff {p : Property} {m : FieldModel} :
    g.describeProperty n p = .ok m ↔
      ∃ spec d, g.specOf n p = .ok spec ∧ spec.describe g.target (g.sizeHint n spec) = .ok d ∧
        m = ⟨spec, .ofName g.settings.naming spec.name, d⟩ := by
  simp only [describeProperty, bind_eq_ok_iff, pure_eq_ok_iff]
  refine ⟨?_, ?_⟩
  · intro h
    obtain ⟨spec, hs, d, hd, hm⟩ := h
    exact ⟨spec, d, hs, hd, hm⟩
  · intro h
    obtain ⟨spec, d, hs, hd, hm⟩ := h
    exact ⟨spec, hs, d, hd, hm⟩

theorem describeScoped_eq_ok_iff {m : Message} {model : MessageModel} :
    g.describeScoped n m = .ok model ↔
      ∃ fields, m.properties.mapM (g.describeProperty n) = .ok fields ∧
        model = ⟨n, g.settings.naming.classSymbol n, g.target.wireClass n, fields⟩ := by
  simp only [describeScoped, bind_eq_ok_iff, pure_eq_ok_iff]

/-- An alternative is described by the rule for its kind. -/
theorem describeAlternative_eq_ok_iff {a : AlternativeModel} :
    g.describeAlternative n f = .ok a ↔
      ∃ k rule selection, g.symbols.shapeOf f.type (some n) f.name = .ok (.single k) ∧
        Rule.ofKind g.target f.name k = .ok rule ∧
        Selection.ofShape g.target f.name (.single k) = .ok selection ∧
        a = ⟨f.name, g.settings.naming.capitalized f.name,
          g.settings.naming.caseConstant f.name, .ofName g.settings.naming f.name,
          selection.representation.nativeType, rule⟩ := by
  refine ⟨?_, ?_⟩
  · intro h
    obtain ⟨shape, hs, h⟩ := bind_eq_ok_iff.1 h
    have hs := mapError_eq_ok_iff.1 hs
    split at h
    · next k _ =>
      obtain ⟨rule, hr, h⟩ := bind_eq_ok_iff.1 h
      obtain ⟨selection, hl, h⟩ := bind_eq_ok_iff.1 h
      exact ⟨k, rule, selection, hs, hr, hl, pure_eq_ok_iff.1 h⟩
    · cases h
  · intro h
    obtain ⟨k, rule, selection, hs, hr, hl, rfl⟩ := h
    refine bind_eq_ok_iff.2 ⟨.single k, mapError_eq_ok_iff.2 hs, ?_⟩
    exact bind_eq_ok_iff.2 ⟨rule, hr, bind_eq_ok_iff.2 ⟨selection, hl, rfl⟩⟩

end Generator

end WireModel
