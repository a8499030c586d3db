import Mathlib.Data.Fintype.Card
import Mathlib.Data.Set.Finite.List
import Mathlib.Logic.Relation
import WireModel.Proofs.Description
import WireModel.Proofs.Stages

namespace WireModel

open Outcome
open Relation

section Cycles

variable {α : Type} {r : α → α → Prop}

theorem not_transGen_self_of_acc {a : α} (h : Acc (flip r) a) : ¬ TransGen r a a := by
  induction h with
  | intro a _ ih =>
    intro hcycle
    obtain ⟨b, hab, hba⟩ := TransGen.head'_iff.1 hcycle
    exact ih b hab (TransGen.tail' hba hab)

/-- In a relation with finitely many targets, what cannot be followed for ever is what does not lead
to a cycle. -/
theorem acc_flip_iff {l : List α} (hl : ∀ a b, r a b → b ∈ l) {a : α} :
    Acc (flip r) a ↔ ∀ b, ReflTransGen r a b → ¬ TransGen r b b := by
  refine ⟨?_, ?_⟩
  · intro h b hab
    have hb : Acc (flip r) b := by
      induction hab with
      | refl => exact h
      | tail _ hbc ih => exact ih.inv hbc
    exact not_transGen_self_of_acc hb
  · intro h
    have hmem : {b | ReflTransGen r a b} ⊆ {b | b ∈ a :: l} := by
      intro b hab
      obtain rfl | ⟨c, _, hcb⟩ := ReflTransGen.cases_tail hab
      · exact List.mem_cons_self
      · exact List.mem_cons_of_mem a (hl c b hcb)
    have : Finite {b // ReflTransGen r a b} := (List.finite_toSet (a :: l)).subset hmem
    -- On what can be reached, following the relation in one or more steps is a strict order.
    let below (x y : {b // ReflTransGen r a b}) : Prop := TransGen r y.1 x.1
    have htrans : IsTrans _ below := ⟨fun _ _ _ hxy hyz => TransGen.trans hyz hxy⟩
    have hirrefl : Std.Irrefl below := ⟨fun x => h x.1 x.2⟩
    have hwf : WellFounded below := Finite.wellFounded_of_trans_of_irrefl below
    have hacc : ∀ x : {b // ReflTransGen r a b}, Acc (flip r) x.1 := by
      intro x
      induction x using hwf.induction with
      | h x ih =>
        refine ⟨x.1, fun c hc => ?_⟩
        exact ih ⟨c, x.2.tail hc⟩ (TransGen.single hc)
    exact hacc ⟨a, ReflTransGen.refl⟩

end Cycles

/-- Making an object of the first class makes one of the second class. -/
def ObjectModel.Calls (model : ObjectModel) (a b : MessageModel) : Prop :=
  a ∈ model.messages ∧ b ∈ model.messages ∧
    ∃ f ∈ a.fields, f.spec.shape = .single (.message b.name)

/-- The first message has a field that always holds a value of the second one. -/
def Schema.Holds (s : Schema) (m n : TypeName) : Prop :=
  ∃ msg, (m, msg) ∈ s.messages ∧ ∃ f ∈ msg.fields, ∃ name,
    f.type = ⟨false, false, .named name⟩ ∧ s.symbols.kindOf name (some m) = .message n

theorem Symbols.shapeOf_eq_single_iff {t : Symbols} {type : FieldType} {scope : Option TypeName}
    {f : String} {k : Kind} :
    t.shapeOf type scope f = .ok (.single k) ↔
      ∃ name, type = ⟨false, false, .named name⟩ ∧ t.kindOf name scope = k := by
  obtain ⟨optional, repeated, expr⟩ := type
  cases expr with
  | named name => cases optional <;> cases repeated <;> simp [shapeOf]
  | map key value =>
    cases optional <;> cases repeated <;>
      cases h : (Scalar.ofKeyword? key).filter Scalar.isMapKey <;> simp [shapeOf, h]

/-- Expressions that do not make a message. -/
def IsPlainValue (expr : String) : Prop :=
  ∀ type, expr ≠ type ++ ".create()"

theorem isPlainValue_of_getLast? {expr : String} (h : expr.toList.getLast? ≠ some ')') :
    IsPlainValue expr := by
  rintro type rfl
  simp at h

theorem Constructor.isPlainValue_call {c : Constructor} (h : c ∈ lists ∨ c ∈ maps) :
    IsPlainValue (c.call none) := by
  have hlast : ∀ c ∈ lists ++ maps, c.empty.toList.getLast? ≠ some 'e' := by decide
  intro type he
  have hcall : c.empty ++ "()" = (type ++ ".create") ++ "()" := by
    rw [String.append_assoc]
    exact he
  apply hlast c (List.mem_append.2 h)
  rw [(String.append_left_inj _).1 hcall]
  simp

theorem Representation.construct_of_ofKind {t : Target} {f : String} {k : Kind} {r : Representation}
    (h : ofKind t f k = .ok r) :
    (∃ n, k = .message n ∧ r.construct none = t.naming.classSymbol n ++ ".create()") ∨
      (∀ n, k ≠ .message n) ∧ IsPlainValue (r.construct none) := by
  cases k with
  | scalar k =>
    refine .inr ⟨by simp, ?_⟩
    cases k <;> cases h <;> exact isPlainValue_of_getLast? (by decide)
  | enumeration n =>
    cases h
    refine .inr ⟨by simp, isPlainValue_of_getLast? ?_⟩
    simp [construct, value]
  | message n =>
    cases h
    exact .inl ⟨n, rfl, rfl⟩
  | union n =>
    cases h
    refine .inr ⟨by simp, isPlainValue_of_getLast? ?_⟩
    simp [construct, value]
  | unresolved n => cases h
  | missing => cases h

/-- A property is made by making a message exactly if it always holds one. -/
theorem FieldSpec.construct_of_describe {t : Target} {field : FieldSpec} {hint : Option String}
    {d : FieldDescription} (h : field.describe t hint = .ok d) :
    (∃ n, field.shape = .single (.message n) ∧
        d.selection.representation.construct none = t.naming.classSymbol n ++ ".create()") ∨
      (∀ n, field.shape ≠ .single (.message n)) ∧
        IsPlainValue (d.selection.representation.construct none) := by
  obtain ⟨selection, hs, h⟩ := bind_eq_ok_iff.1 h
  obtain ⟨conversion, _, h⟩ := bind_eq_ok_iff.1 h
  cases h
  obtain ⟨name, shape, tag⟩ := field
  cases shape with
  | single k =>
    obtain ⟨r, hr, hs⟩ := bind_eq_ok_iff.1 hs
    cases hs
    obtain ⟨n, rfl, hn⟩ | ⟨hk, hr⟩ := Representation.construct_of_ofKind hr
    · exact .inl ⟨n, rfl, hn⟩
    · exact .inr ⟨by simpa using hk, hr⟩
  | optional k =>
    obtain ⟨r, _, hs⟩ := bind_eq_ok_iff.1 hs
    cases hs
    have hnull : IsPlainValue "null" := isPlainValue_of_getLast? (by decide)
    exact .inr ⟨by simp, hnull⟩
  | repeated k =>
    obtain ⟨element, _, hs⟩ := bind_eq_ok_iff.1 hs
    cases hs
    obtain ⟨c, hc, he⟩ := Selection.list_constructor t k element.nativeType
    refine .inr ⟨by simp, ?_⟩
    rw [Representation.construct_of_constructor he]
    exact Constructor.isPlainValue_call (.inl hc)
  | map key k =>
    obtain ⟨keyType, _, hs⟩ := bind_eq_ok_iff.1 hs
    obtain ⟨element, _, hs⟩ := bind_eq_ok_iff.1 hs
    cases hs
    obtain ⟨c, hc, he⟩ := Selection.map_constructor t key k keyType element.nativeType
    refine .inr ⟨by simp, ?_⟩
    rw [Representation.construct_of_constructor he]
    exact Constructor.isPlainValue_call (.inr hc)
  | stream s => cases hs

namespace Generator

variable {s : Schema} {settings : Settings} {model : ObjectModel} {g : Generator} {n b : TypeName}
  {msg : Message} {a : MessageModel}

/-- The properties that always hold a message of a class come from the fields that do. -/
theorem exists_property_iff (h : g.describeScoped n msg = .ok a) :
    (∃ f ∈ a.fields, f.spec.shape = .single (.message b)) ↔
      ∃ f ∈ msg.fields, ∃ name, f.type = ⟨false, false, .named name⟩ ∧
        g.symbols.kindOf name (some n) = .message b := by
  obtain ⟨fields, hfields, rfl⟩ := describeScoped_eq_ok_iff.1 h
  refine ⟨?_, ?_⟩
  · rintro ⟨f, hf, hshape⟩
    obtain ⟨p, hp, hpf⟩ := exists_source hfields hf
    obtain ⟨spec, d, hspec, _, rfl⟩ := describeProperty_eq_ok_iff.1 hpf
    cases p with
    | field field =>
      obtain ⟨shape, hs, rfl⟩ := specOf_field_eq_ok_iff.1 hspec
      cases hshape
      exact ⟨field, Message.field_mem_properties_iff.1 hp, Symbols.shapeOf_eq_single_iff.1 hs⟩
    | oneOf o =>
      cases hspec
      cases hshape
  · rintro ⟨field, hfield, hname⟩
    obtain ⟨f, hf, hpf⟩ := exists_result hfields (Message.field_mem_properties_iff.2 hfield)
    obtain ⟨spec, d, hspec, _, rfl⟩ := describeProperty_eq_ok_iff.1 hpf
    obtain ⟨shape, hs, rfl⟩ := specOf_field_eq_ok_iff.1 hspec
    rw [Symbols.shapeOf_eq_single_iff.2 hname] at hs
    cases hs
    exact ⟨_, hf, rfl⟩

theorem exists_class (h : g.model = .ok model) {p : TypeName × Message}
    (hp : p ∈ g.schema.messages) :
    ∃ a ∈ model.messages, a.name = p.1 ∧ a.className = g.settings.naming.classSymbol p.1 := by
  obtain ⟨a, ha, hd⟩ := exists_result (parts_of_model h).2.2 hp
  obtain ⟨fields, _, rfl⟩ := describeScoped_eq_ok_iff.1 hd
  exact ⟨_, ha, rfl, rfl⟩

theorem exists_message (h : g.model = .ok model) (ha : a ∈ model.messages) :
    ∃ msg, (a.name, msg) ∈ g.schema.messages ∧ g.describeScoped a.name msg = .ok a := by
  obtain ⟨⟨n, msg⟩, hp, hd⟩ := exists_source (parts_of_model h).2.2 ha
  obtain ⟨fields, _, rfl⟩ := describeScoped_eq_ok_iff.1 hd
  exact ⟨msg, hp, hd⟩

end Generator

/-- A property that always holds a message is made and decoded by its class, and any other property
is made without making a message. -/
def ObjectModel.Makes (model : ObjectModel) (f : FieldModel) : Prop :=
  (∃ b ∈ model.messages, f.spec.shape = .single (.message b.name) ∧
    f.initial = b.className ++ ".create()" ∧
    f.decoded = b.className ++ ".fromProto(proto." ++ f.accessors.accessor ++ ")") ∨
  (∀ n, f.spec.shape ≠ .single (.message n)) ∧ IsPlainValue f.initial

/-- How the classes of a model call each other when objects are made, and which of the calls come to
an end. -/
structure Schema.Construction (s : Schema) (model : ObjectModel) : Prop where
  text : ∀ a ∈ model.messages, ∀ f ∈ a.fields, model.Makes f
  calls : ∀ a ∈ model.messages, ∀ b ∈ model.messages, model.Calls a b ↔ s.Holds a.name b.name
  ends : ∀ a ∈ model.messages, Acc (flip model.Calls) a ↔
    ∀ n, ReflTransGen s.Holds a.name n → ¬ TransGen s.Holds n n
  wellFounded : WellFounded (flip model.Calls) ↔ ∀ n, ¬ TransGen s.Holds n n

namespace Generator

variable {s : Schema} {settings : Settings} {model : ObjectModel}

theorem calls_iff (hn : s.names.Nodup) (h : (s.generator settings).model = .ok model)
    {a b : MessageModel} (ha : a ∈ model.messages) (hb : b ∈ model.messages) :
    model.Calls a b ↔ s.Holds a.name b.name := by
  obtain ⟨msg, hmsg, hd⟩ := exists_message h ha
  have hiff := exists_property_iff (b := b.name) hd
  refine ⟨?_, ?_⟩
  · rintro ⟨_, _, hf⟩
    exact ⟨msg, hmsg, hiff.1 hf⟩
  · rintro ⟨msg', hmsg', hf⟩
    have hnodup : (s.messages.map Prod.fst).Nodup := (List.nodup_append.1 hn).1
    cases List.inj_on_of_nodup_map hnodup hmsg hmsg' rfl
    exact ⟨ha, hb, hiff.2 hf⟩

theorem exists_message_of_kindOf {name : String} {scope : Option TypeName} {n : TypeName}
    (h : s.symbols.kindOf name scope = .message n) : ∃ msg, (n, msg) ∈ s.messages :=
  Symbols.mem_declarations_message.1 (Symbols.mem_of_kindOf_eq_message h)

theorem exists_class_of_holds (h : (s.generator settings).model = .ok model) {m n : TypeName}
    (hmn : s.Holds m n) : ∃ b ∈ model.messages, b.name = n := by
  obtain ⟨_, _, _, _, _, _, hk⟩ := hmn
  obtain ⟨msg, hmsg⟩ := exists_message_of_kindOf hk
  obtain ⟨b, hb, hbn, _⟩ := exists_class h hmsg
  exact ⟨b, hb, hbn⟩

theorem mem_names_of_holds {m n : TypeName} (h : s.Holds m n) : n ∈ s.messages.map Prod.fst := by
  obtain ⟨_, _, _, _, _, _, hk⟩ := h
  obtain ⟨msg, hmsg⟩ := exists_message_of_kindOf hk
  exact List.mem_map.2 ⟨(n, msg), hmsg, rfl⟩

/-- A class makes its objects in finitely many calls exactly if its message holds values of finite
depth. -/
theorem acc_calls_iff (hn : s.names.Nodup) (h : (s.generator settings).model = .ok model)
    {a : MessageModel} (ha : a ∈ model.messages) :
    Acc (flip model.Calls) a ↔ Acc (flip s.Holds) a.name := by
  refine ⟨?_, ?_⟩
  · intro hacc
    induction hacc with
    | intro a _ ih =>
      refine ⟨a.name, fun n hmn => ?_⟩
      obtain ⟨b, hb, rfl⟩ := exists_class_of_holds h hmn
      exact ih b ((calls_iff hn h ha hb).2 hmn) hb
  · intro hacc
    generalize hname : a.name = n at hacc
    induction hacc generalizing a with
    | intro n _ ih =>
      refine ⟨a, fun b hab => ?_⟩
      have hb : b ∈ model.messages := hab.2.1
      exact ih b.name (hname ▸ (calls_iff hn h ha hb).1 hab) hb rfl

theorem exists_class_of_specOf (h : (s.generator settings).model = .ok model) {n k : TypeName}
    {p : Property} {spec : FieldSpec} (hspec : (s.generator settings).specOf n p = .ok spec)
    (hshape : spec.shape = .single (.message k)) :
    ∃ b ∈ model.messages, b.name = k ∧ b.className = settings.naming.classSymbol k := by
  cases p with
  | field f =>
    obtain ⟨shape, hs, rfl⟩ := specOf_field_eq_ok_iff.1 hspec
    cases hshape
    obtain ⟨name, _, hk⟩ := Symbols.shapeOf_eq_single_iff.1 hs
    obtain ⟨msg, hmsg⟩ := exists_message_of_kindOf hk
    exact exists_class h hmsg
  | oneOf o =>
    cases hspec
    cases hshape

/-- A message that is always there is decoded whether it is on the wire or not. -/
theorem decoding_of_describe {t : Target} {spec : FieldSpec} {hint : Option String}
    {d : FieldDescription} (h : spec.describe t hint = .ok d) {k : TypeName}
    (hshape : spec.shape = .single (.message k)) :
    d.conversion.decoding.expr "proto" = t.naming.classSymbol k ++ ".fromProto(proto." ++
      (Accessors.ofName t.naming spec.name).accessor ++ ")" := by
  obtain ⟨rule, hrule, hplan⟩ := FieldSpec.describe_plan h
  have hcall : ".fromProto(proto." = ".fromProto(" ++ ("proto" ++ ".") := rfl
  rw [hshape] at hrule hplan
  cases hrule
  generalize d.conversion = c at hplan
  cases hplan
  change t.naming.classSymbol k ++ ".fromProto(" ++ ("proto" ++ "." ++ _) ++ ")" = _
  rw [hcall]
  simp only [String.append_assoc]

theorem text_of_describeProperty (h : (s.generator settings).model = .ok model) {n : TypeName}
    {p : Property} {f : FieldModel}
    (hf : (s.generator settings).describeProperty n p = .ok f) : model.Makes f := by
  obtain ⟨spec, d, hspec, hd, rfl⟩ := describeProperty_eq_ok_iff.1 hf
  obtain ⟨k, hshape, hinitial⟩ | hplain := FieldSpec.construct_of_describe hd
  · obtain ⟨b, hb, rfl, hclass⟩ := exists_class_of_specOf h hspec hshape
    have hdecoded := decoding_of_describe hd hshape
    refine .inl ⟨b, hb, hshape, ?_, ?_⟩
    · rw [hclass]
      exact hinitial
    · rw [hclass]
      exact hdecoded
  · exact .inr hplain

theorem construction (hn : s.names.Nodup) (h : (s.generator settings).model = .ok model) :
    s.Construction model := by
  have hends : ∀ a ∈ model.messages, Acc (flip model.Calls) a ↔
      ∀ n, ReflTransGen s.Holds a.name n → ¬ TransGen s.Holds n n := by
    intro a ha
    rw [acc_calls_iff hn h ha, acc_flip_iff fun _ _ => mem_names_of_holds]
  refine ⟨?_, fun a ha b hb => calls_iff hn h ha hb, hends, ?_, ?_⟩
  · intro a ha f hf
    obtain ⟨msg, _, hd⟩ := exists_message h ha
    obtain ⟨fields, hfields, he⟩ := describeScoped_eq_ok_iff.1 hd
    rw [he] at hf
    obtain ⟨p, _, hp⟩ := exists_source hfields hf
    exact text_of_describeProperty h hp
  · intro hwf n hcycle
    obtain ⟨m, _, hmn⟩ := TransGen.tail'_iff.1 hcycle
    obtain ⟨b, hb, rfl⟩ := exists_class_of_holds h hmn
    exact (hends b hb).1 (hwf.apply b) b.name ReflTransGen.refl hcycle
  · intro hcycle
    refine ⟨fun a => ?_⟩
    by_cases ha : a ∈ model.messages
    · exact (hends a ha).2 fun n _ => hcycle n
    · exact ⟨a, fun b hab => (ha hab.1).elim⟩

end Generator

/-- After a run that succeeds the calls between the functions that make objects are those between
messages that always hold one another, and they come to an end exactly where these do not lead to a
cycle. -/
theorem Schema.generate_construction {s : Schema} {settings : Settings} {files : GeneratedFiles}
    (h : s.generate settings = .ok files) :
    ∃ g model, Generator.ofSchema s settings = .ok g ∧ g.model = .ok model ∧
      files = ⟨g.wireFile, g.modelFile model⟩ ∧ s.Construction model := by
  obtain ⟨g, hg, h⟩ := bind_eq_ok_iff.1 h
  obtain ⟨model, hm, hf⟩ := Generator.model_of_generate h
  have hnames := Generator.nodup_names_of_ofSchema hg
  refine ⟨g, model, hg, hm, hf, ?_⟩
  cases Generator.eq_of_ofSchema hg
  exact Generator.construction hnames hm

/-- Messages that refer to themselves through fields that may be empty, and hold each other without
a cycle. -/
def Schema.tree : Schema where
  package := "shop"
  definitions := [
    .message ⟨"Tree", [
      .field { type := { repeated := true, expr := .named "Tree" }, name := "children", tag := 1 },
      .field { type := { optional := true, expr := .named "Tree" }, name := "parent", tag := 2 },
      .field { type := { expr := .named "Label" }, name := "label", tag := 3 }]⟩,
    .message ⟨"Label", [.oneOf ⟨"link", [
      .field { type := { expr := .named "Tree" }, name := "tree", tag := 1 }]⟩]⟩]

theorem Schema.generate_tree :
    ∃ files, tree.generate {} = .ok files ∧
      ∃ g model, Generator.ofSchema tree {} = .ok g ∧ g.model = .ok model ∧
        files = ⟨g.wireFile, g.modelFile model⟩ ∧ tree.Construction model := by
  have h : verdict (tree.generate {}) = .ok () := by decide +kernel
  obtain ⟨files, h⟩ := verdict_eq_ok_iff.1 h
  exact ⟨files, h, generate_construction h⟩

/-- A message that always holds another value of itself. -/
def Schema.endless : Schema where
  package := "shop"
  definitions := [
    .message ⟨"Node", [.field { type := { expr := .named "Node" }, name := "next", tag := 1 }]⟩]

theorem Schema.generate_endless :
    ∃ files g model, endless.generate {} = .ok files ∧ Generator.ofSchema endless {} = .ok g ∧
      g.model = .ok model ∧ files = ⟨g.wireFile, g.modelFile model⟩ ∧
      ¬ WellFounded (flip model.Calls) := by
  have h : verdict (endless.generate {}) = .ok () := by decide +kernel
  obtain ⟨files, h⟩ := verdict_eq_ok_iff.1 h
  obtain ⟨g, hg, hgenerate⟩ := bind_eq_ok_iff.1 h
  obtain ⟨model, hm, hf⟩ := Generator.model_of_generate hgenerate
  refine ⟨files, g, model, h, hg, hm, hf, ?_⟩
  cases Generator.eq_of_ofSchema hg
  have hself : endless.Holds ⟨"Node"⟩ ⟨"Node"⟩ :=
    ⟨_, List.mem_cons_self, _, List.mem_cons_self, "Node", rfl, by decide +kernel⟩
  intro hwf
  exact (Generator.construction (by decide) hm).wellFounded.1 hwf _ (TransGen.single hself)

end WireModel
