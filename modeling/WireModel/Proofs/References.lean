import WireModel.Proofs.Description
import WireModel.Proofs.Stages

namespace WireModel

open Outcome

/-- The rules that a first value is read by. -/
def Decoding.rules : Decoding → List Rule
  | .single _ rule | .optional _ rule => [rule]
  | .literal _ => []

def Filling.rule : Filling → Rule
  | .elements _ rule | .entries _ rule => rule

/-- All rules that occur in a conversion. -/
def Conversion.rules (c : Conversion) : List Rule :=
  c.decoding.rules ++ c.filling.toList.map Filling.rule ++ [c.encoding.rule]

/-- The rule leads to a class of the model that stands on its own. -/
def Rule.LeadsTo (model : ObjectModel) : Rule → Prop
  | .scalar => True
  | .enumeration enumClass => ∃ e ∈ model.enums, e.className = enumClass
  | .message messageClass wireClass =>
    ∃ m ∈ model.messages, m.className = messageClass ∧ m.wireClass = wireClass
  | .union _ => False

/-- The rule on a field leads to a class of the model; that of a union is the one for the oneof of
this name in this message. -/
def Rule.LeadsFrom (model : ObjectModel) (m : MessageModel) (f : FieldModel) : Rule → Prop
  | .union unionClass =>
    ∃ u ∈ model.unions, u.className = unionClass ∧ u.name = m.name.child f.spec.name ∧
      u.messageWireClass = m.wireClass ∧ u.accessors = f.accessors
  | rule => rule.LeadsTo model

/-- Every rule in the model leads to a class of the model. -/
structure ObjectModel.Closed (model : ObjectModel) : Prop where
  fields : ∀ m ∈ model.messages, ∀ f ∈ m.fields, ∀ rule ∈ f.description.conversion.rules,
    rule.LeadsFrom model m f
  alternatives : ∀ u ∈ model.unions, ∀ a ∈ u.alternatives, a.rule.LeadsTo model

theorem Conversion.Plan.eq_of_mem_rules {names : Accessors} {rule r : Rule} {shape : Shape}
    {c : Conversion} (h : Plan names rule shape c) (hr : r ∈ c.rules) : r = rule := by
  cases h with
  | single k => simpa [rules, Decoding.rules, Encoding.rule] using hr
  | optional k => simpa [rules, Decoding.rules, Encoding.rule] using hr
  | repeated k c hint hc =>
    simpa [rules, Decoding.rules, Filling.rule, Encoding.rule] using hr
  | map key k c hint hc => simpa [rules, Decoding.rules, Filling.rule, Encoding.rule] using hr

theorem Rule.LeadsTo.leadsFrom {model : ObjectModel} {rule : Rule} (h : rule.LeadsTo model)
    (m : MessageModel) (f : FieldModel) : rule.LeadsFrom model m f := by
  cases rule with
  | scalar => exact h
  | enumeration enumClass => exact h
  | message messageClass wireClass => exact h
  | union unionClass => exact h.elim

theorem Symbols.element_of_shapeOf {t : Symbols} {type : FieldType} {scope : Option TypeName}
    {f : String} {shape : Shape} (h : t.shapeOf type scope f = .ok shape) :
    ∃ name, shape.element = t.kindOf name scope := by
  obtain ⟨name, _, rfl | rfl | rfl⟩ | ⟨_, value, _, _, rfl⟩ := shapeOf_cases h
  · exact ⟨name, rfl⟩
  · exact ⟨name, rfl⟩
  · exact ⟨name, rfl⟩
  · exact ⟨value, rfl⟩

namespace Generator

variable {g : Generator} {model : ObjectModel} {n : TypeName} {rule : Rule} {f : String}

theorem exists_messageModel (h : g.model = .ok model) {m : Message}
    (hm : (n, m) ∈ g.schema.messages) :
    ∃ c ∈ model.messages, c.className = g.target.naming.classSymbol n ∧
      c.wireClass = g.target.wireClass n := by
  obtain ⟨c, hc, he⟩ := exists_result (parts_of_model h).2.2 hm
  obtain ⟨fields, _, he⟩ := bind_eq_ok_iff.1 he
  cases he
  exact ⟨_, hc, rfl, rfl⟩

theorem exists_enumModel (h : g.model = .ok model) {e : Enumeration}
    (he : (n, e) ∈ g.schema.enumerations) :
    ∃ c ∈ model.enums, c.className = g.target.naming.enumSymbol n := by
  obtain ⟨c, hc, he⟩ := exists_result (parts_of_model h).1 he
  dsimp only [describeEnum] at he
  split at he
  · cases he
  · cases he
    exact ⟨_, hc, rfl⟩

theorem exists_unionModel (h : g.model = .ok model) {o : ScopedOneOf} (ho : o ∈ g.schema.oneOfs) :
    ∃ u ∈ model.unions, u.className = g.target.naming.classSymbol o.name ∧ u.name = o.name ∧
      u.messageWireClass = g.target.wireClass o.message ∧
      u.accessors = .ofName g.settings.naming o.oneOf.name := by
  obtain ⟨u, hu, he⟩ := exists_result (parts_of_model h).2.1 ho
  obtain ⟨alternatives, _, he⟩ := bind_eq_ok_iff.1 he
  cases he
  exact ⟨_, hu, rfl, rfl, rfl, rfl⟩

/-- The rule for a resolved type name leads to a class, as every resolved type is declared and every
declared type has a class. -/
theorem leadsTo_of_kindOf (hs : g.symbols = g.schema.symbols) (h : g.model = .ok model)
    {name : String} {scope : Option TypeName}
    (hr : Rule.ofKind g.target f (g.symbols.kindOf name scope) = .ok rule) :
    rule.LeadsTo model := by
  rcases Rule.ofKind_cases hr with ⟨_, _, _, rfl⟩ | ⟨n, hk, rfl⟩ | ⟨n, hk, rfl⟩ | ⟨n, hk, _⟩
  · trivial
  · have hn := Symbols.mem_of_kindOf_eq_enumeration hk
    rw [hs] at hn
    obtain ⟨e, he⟩ := Symbols.mem_declarations_enumeration.1 hn
    exact exists_enumModel h he
  · have hn := Symbols.mem_of_kindOf_eq_message hk
    rw [hs] at hn
    obtain ⟨m, hm⟩ := Symbols.mem_declarations_message.1 hn
    exact exists_messageModel h hm
  · exact (Symbols.kindOf_ne_union _ _ _ _ hk).elim

theorem leadsFrom_of_field (hs : g.symbols = g.schema.symbols) (h : g.model = .ok model)
    {field : Field} {m : MessageModel} {c : FieldModel}
    (hc : g.describeProperty n (.field field) = .ok c)
    (hr : rule ∈ c.description.conversion.rules) : rule.LeadsFrom model m c := by
  obtain ⟨spec, d, hspec, hd, rfl⟩ := describeProperty_eq_ok_iff.1 hc
  obtain ⟨shape, hshape, rfl⟩ := specOf_field_eq_ok_iff.1 hspec
  obtain ⟨r, hk, hp⟩ := FieldSpec.describe_plan hd
  obtain ⟨name, hn⟩ := Symbols.element_of_shapeOf hshape
  rw [hp.eq_of_mem_rules hr]
  apply Rule.LeadsTo.leadsFrom
  dsimp only at hk
  rw [hn] at hk
  exact leadsTo_of_kindOf hs h hk

theorem leadsFrom_of_oneOf (h : g.model = .ok model) {msg : Message} {o : OneOf}
    (hm : (n, msg) ∈ g.schema.messages) (ho : o ∈ msg.oneOfs) {m : MessageModel} {c : FieldModel}
    (hn : m.name = n) (hw : m.wireClass = g.target.wireClass n)
    (hc : g.describeProperty n (.oneOf o) = .ok c)
    (hr : rule ∈ c.description.conversion.rules) : rule.LeadsFrom model m c := by
  obtain ⟨spec, d, hspec, hd, rfl⟩ := describeProperty_eq_ok_iff.1 hc
  cases hspec
  obtain ⟨r, hk, hp⟩ := FieldSpec.describe_plan hd
  rw [hp.eq_of_mem_rules hr]
  cases hk
  have hmem : (⟨n, o⟩ : ScopedOneOf) ∈ g.schema.oneOfs :=
    Schema.mem_oneOfs_iff.2 ⟨(n, msg), hm, o, ho, rfl⟩
  obtain ⟨u, hu, huc, hun, huw, hua⟩ := exists_unionModel h hmem
  exact ⟨u, hu, huc, hun.trans (by rw [hn]; rfl), huw.trans hw.symm, hua⟩

/-- Every rule in the model of a schema leads to a class of the model. -/
theorem model_closed (hs : g.symbols = g.schema.symbols) (h : g.model = .ok model) :
    model.Closed := by
  refine ⟨?_, ?_⟩
  · intro m hm c hc rule hr
    obtain ⟨⟨n, msg⟩, hmsg, hd⟩ := exists_source (parts_of_model h).2.2 hm
    obtain ⟨fields, hf, hd⟩ := bind_eq_ok_iff.1 hd
    cases hd
    obtain ⟨p, hp, hpc⟩ := exists_source hf hc
    cases p with
    | field f => exact leadsFrom_of_field hs h hpc hr
    | oneOf o =>
      exact leadsFrom_of_oneOf h hmsg (Message.oneOf_mem_properties_iff.1 hp) rfl rfl hpc hr
  · intro u hu a ha
    obtain ⟨o, ho, hd⟩ := exists_source (parts_of_model h).2.1 hu
    obtain ⟨alternatives, hf, hd⟩ := bind_eq_ok_iff.1 hd
    cases hd
    obtain ⟨f, hf, hfa⟩ := exists_source hf ha
    obtain ⟨k, rule, _, hshape, hk, _, rfl⟩ := describeAlternative_eq_ok_iff.1 hfa
    obtain ⟨name, hn⟩ := Symbols.element_of_shapeOf hshape
    change k = _ at hn
    rw [hn] at hk
    exact leadsTo_of_kindOf hs h hk

end Generator

/-- A run that succeeds makes its files from a model in which every rule leads to a class. -/
theorem Schema.generate_closed {s : Schema} {settings : Settings} {files : GeneratedFiles}
    (h : s.generate settings = .ok files) :
    ∃ g model, Generator.ofSchema s settings = .ok g ∧ g.model = .ok model ∧
      files = ⟨g.wireFile, g.modelFile model⟩ ∧ model.Closed := by
  obtain ⟨g, hg, h⟩ := bind_eq_ok_iff.1 h
  obtain ⟨model, hm, hf⟩ := Generator.model_of_generate h
  refine ⟨g, model, hg, hm, hf, ?_⟩
  cases Generator.eq_of_ofSchema hg
  exact Generator.model_closed rfl hm

/-- A schema in which an inner enumeration hides an outer one of the same name. -/
def Schema.shadowing : Schema where
  package := "shop"
  definitions := [
    .enumeration ⟨"State", [.value { name := "NONE", tag := 0 }]⟩,
    .message ⟨"Order", [
      .enumeration ⟨"State", [.value { name := "OPEN", tag := 0 }]⟩,
      .message "Part" [
        .field { type := { expr := .named "State" }, name := "state", tag := 1 },
        .field { type := { repeated := true, expr := .named "Part" }, name := "parts", tag := 2 }],
      .field { type := { expr := .map "string" ".shop.State" }, name := "states", tag := 1 },
      .oneOf ⟨"content", [
        .field { type := { expr := .named "Part" }, name := "part", tag := 2 },
        .field { type := { expr := .named "State" }, name := "other", tag := 3 }]⟩]⟩]

theorem Schema.generate_shadowing :
    ∃ files, shadowing.generate {} = .ok files ∧
      ∃ g model, Generator.ofSchema shadowing {} = .ok g ∧ g.model = .ok model ∧
        files = ⟨g.wireFile, g.modelFile model⟩ ∧ model.Closed := by
  have h : verdict (shadowing.generate {}) = .ok () := by decide +kernel
  obtain ⟨files, h⟩ := verdict_eq_ok_iff.1 h
  exact ⟨files, h, generate_closed h⟩

end WireModel
