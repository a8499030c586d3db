import Mathlib.Data.List.Basic
import WireModel.Proofs.ClassText
import WireModel.Proofs.PlainSchema
import WireModel.Proofs.References

namespace WireModel

open Outcome Text

/-- The texts that the settings bring into the files are plain. -/
structure Settings.Plain (s : Settings) : Prop where
  modelPackage : IsPlain s.modelPackage
  wirePackage : ∀ p ∈ s.wirePackage, IsPlain p
  javaPackage : ∀ p ∈ s.javaPackage, IsPlain p
  outerClass : IsPlain s.outerClass
  outerClass_start : s.outerClass.toList.head? ≠ some ' '
  imports : ∀ i ∈ s.imports, IsPlain i
  sizeHints : ∀ e ∈ s.sizeHints.entries, IsPlain e.2

/-- The names that a schema is given in its object model are plain. -/
structure Naming.PlainOn (naming : Naming) (s : Schema) : Prop where
  messages : ∀ m ∈ s.messages, IsPlainName (naming.classSymbol m.1)
  enumerations : ∀ e ∈ s.enumerations, IsPlainName (naming.enumSymbol e.1)
  fields : ∀ m ∈ s.messages, ∀ f ∈ m.2.fields, (Accessors.ofName naming f.name).Plain
  oneOfs : ∀ o ∈ s.oneOfs,
    IsPlainName (naming.classSymbol o.name) ∧ (Accessors.ofName naming o.oneOf.name).Plain
  alternatives : ∀ o ∈ s.oneOfs, ∀ f ∈ o.oneOf.fields,
    IsPlainName (naming.caseConstant f.name) ∧ (Accessors.ofName naming f.name).Plain

/-- The names of the classes for values of a kind are plain. -/
def Kind.Plain (t : Target) : Kind → Prop
  | .enumeration n => IsPlain (t.naming.enumSymbol n)
  | .message n => IsPlain (t.naming.classSymbol n) ∧ IsPlain (t.wireClass n)
  | .union n => IsPlain (t.naming.classSymbol n)
  | .scalar _ | .unresolved _ | .missing => True

variable {t : Target} {f : String} {k : Kind}

theorem Rule.plain_ofKind {rule : Rule} (h : ofKind t f k = .ok rule) (hk : k.Plain t) :
    rule.Plain := by
  rcases ofKind_cases h with ⟨_, _, rfl, rfl⟩ | ⟨n, rfl, rfl⟩ | ⟨n, rfl, rfl⟩ | ⟨n, rfl, rfl⟩
  · trivial
  · exact hk
  · exact hk
  · exact hk

theorem Scalar.plain_native? {s : Scalar} {p : String × String} (h : s.native? = some p) :
    IsPlain p.1 ∧ IsPlain p.2 := by
  cases s <;> cases h <;> decide

namespace Representation

variable {r : Representation}

theorem plain_value {type default : String} (ht : IsPlain type) (hd : Neutral default) :
    (value type default).Plain :=
  ⟨ht, fun _ _ => hd⟩

theorem plain_container {type : String} {c : Constructor} (ht : IsPlain type)
    (he : IsPlain c.empty) (hs : IsPlain c.sized) : (container type c).Plain := by
  refine ⟨ht, ?_⟩
  intro hint hh
  cases hint with
  | none => exact he.neutral.append fun _ => rfl
  | some size => exact hs.neutral.enclosed (hh size rfl).neutral rfl

theorem plain_ofKind (h : ofKind t f k = .ok r) (hk : k.Plain t) : r.Plain := by
  cases k with
  | scalar s =>
    rw [ofKind] at h
    split at h
    · next type default hn =>
      cases h
      obtain ⟨ht, hd⟩ := Scalar.plain_native? hn
      exact plain_value ht hd.neutral
    · cases h
  | enumeration n =>
    cases h
    exact plain_value hk (hk.neutral.append fun _ => rfl)
  | message n =>
    cases h
    exact ⟨hk.1, fun _ _ => hk.1.neutral.append fun _ => rfl⟩
  | union n =>
    cases h
    exact plain_value hk (hk.neutral.append fun _ => rfl)
  | unresolved n => cases h
  | missing => cases h

theorem ofKind_of_ofElement (h : ofElement t f k = .ok r) : ofKind t f k = .ok r := by
  unfold ofElement at h
  split at h
  · cases h
  · exact h

theorem plain_ofElement (h : ofElement t f k = .ok r) (hk : k.Plain t) : r.Plain :=
  plain_ofKind (ofKind_of_ofElement h) hk

end Representation

namespace Selection

theorem isPlain_generic {start type : String} (hs : IsPlain start) (ht : IsPlain type) :
    IsPlain (start ++ type ++ ">") :=
  (hs.append ht).append (by decide)

/-- A class with type arguments is plain where they are. -/
theorem plain_generic {name start type : String} (hn : IsPlain name) (hs : IsPlain start)
    (ht : IsPlain type) :
    IsPlain (name, start ++ type ++ ">").1 ∧ IsPlain (name, start ++ type ++ ">").2 :=
  ⟨hn, isPlain_generic hs ht⟩

theorem plain_compactList (k : Kind) {element : String} (he : IsPlain element) :
    IsPlain (compactList k element).1 ∧ IsPlain (compactList k element).2 := by
  rw [compactList]
  split_ifs
  · decide
  · decide
  · decide
  · exact plain_generic (by decide) (by decide) he

theorem plain_compactMap (key : Scalar) (k : Kind) {keyType valueType : String}
    (hk : IsPlain keyType) (hv : IsPlain valueType) :
    IsPlain (compactMap key k keyType valueType).1 ∧
      IsPlain (compactMap key k keyType valueType).2 := by
  have hstart : IsPlain "ObjectMap<" := by decide
  rw [compactMap]
  split_ifs
  · decide
  · decide
  · exact plain_generic (by decide) (by decide) hv
  · exact plain_generic (by decide) (by decide) hv
  · exact plain_generic (by decide) (by decide) hk
  · exact plain_generic (by decide) (by decide) hk
  · exact plain_generic (by decide) (by decide) hk
  · exact plain_generic (by decide) ((hstart.append hk).append (by decide)) hv

theorem plain_list {element : String} (he : IsPlain element) : (list t k element).Plain := by
  have hpackage : IsPlain "ktx.collections." := by decide
  rw [list]
  split_ifs
  · obtain ⟨hname, htype⟩ := plain_compactList k he
    exact ⟨Representation.plain_container htype hname hname,
      List.forall_mem_singleton.2 (hpackage.append hname)⟩
  · have htype : IsPlain ("MutableList<" ++ element ++ ">") := isPlain_generic (by decide) he
    exact ⟨Representation.plain_container htype (by decide) (by decide), by simp⟩

theorem plain_map {key : Scalar} {keyType valueType : String} (hk : IsPlain keyType)
    (hv : IsPlain valueType) : (map t key k keyType valueType).Plain := by
  have hmutable : IsPlain "MutableMap<" := by decide
  have hpackage : IsPlain "com.badlogic.gdx.utils." := by decide
  rw [map]
  split_ifs
  · obtain ⟨hname, htype⟩ := plain_compactMap key k hk hv
    refine ⟨Representation.plain_container htype hname hname, ?_⟩
    exact List.forall_mem_cons.2 ⟨hpackage.append hname, by decide⟩
  · have htype := isPlain_generic ((hmutable.append hk).append (t := ", ") (by decide)) hv
    exact ⟨Representation.plain_container htype (by decide) (by decide), by simp⟩

theorem plain_ofShape {shape : Shape} {selection : Selection}
    (h : ofShape t f shape = .ok selection) (hk : shape.element.Plain t) : selection.Plain := by
  cases shape with
  | single k =>
    obtain ⟨r, hr, h⟩ := bind_eq_ok_iff.1 h
    cases h
    exact ⟨Representation.plain_ofKind hr hk, by simp⟩
  | optional k =>
    obtain ⟨r, hr, h⟩ := bind_eq_ok_iff.1 h
    cases h
    have htype := (Representation.plain_ofKind hr hk).nativeType
    exact ⟨Representation.plain_value (htype.append (by decide)) fun _ => rfl, by simp⟩
  | repeated k =>
    obtain ⟨r, hr, h⟩ := bind_eq_ok_iff.1 h
    cases h
    exact plain_list (Representation.plain_ofElement hr hk).nativeType
  | map key k =>
    obtain ⟨keyType, hkey, h⟩ := bind_eq_ok_iff.1 h
    obtain ⟨r, hr, h⟩ := bind_eq_ok_iff.1 h
    cases h
    rw [Scalar.keyType] at hkey
    split at hkey
    · next hn =>
      cases hkey
      exact plain_map (Scalar.plain_native? hn).1 (Representation.plain_ofElement hr hk).nativeType
    · cases hkey
  | stream s => cases h

end Selection

theorem Conversion.plain_ofField {field : FieldSpec} {r : Representation} {hint : Option String}
    {c : Conversion} (h : ofField t field r hint = .ok c) (hr : r.Plain)
    (hh : ∀ size ∈ hint, IsPlain size) (hk : field.shape.element.Plain t)
    (hn : (Accessors.ofName t.naming field.name).Plain) : c.Plain := by
  obtain ⟨name, shape, tag⟩ := field
  have hliteral := hr.construct hint hh
  cases shape with
  | single k =>
    obtain ⟨rule, hrule, h⟩ := bind_eq_ok_iff.1 h
    cases h
    have hrule := Rule.plain_ofKind hrule hk
    exact ⟨⟨hn, hrule⟩, by simp, ⟨hn, hrule⟩⟩
  | optional k =>
    obtain ⟨rule, hrule, h⟩ := bind_eq_ok_iff.1 h
    cases h
    have hrule := Rule.plain_ofKind hrule hk
    exact ⟨⟨hn, hrule⟩, by simp, ⟨hn, hrule⟩⟩
  | repeated k =>
    obtain ⟨rule, hrule, h⟩ := bind_eq_ok_iff.1 h
    cases h
    have hrule := Rule.plain_ofKind (Rule.ofKind_of_ofElement hrule) hk
    refine ⟨hliteral, ?_, ⟨hn, hrule⟩⟩
    rintro _ ⟨⟩
    exact ⟨hn, hrule⟩
  | map key k =>
    obtain ⟨_, _, h⟩ := bind_eq_ok_iff.1 h
    obtain ⟨rule, hrule, h⟩ := bind_eq_ok_iff.1 h
    cases h
    have hrule := Rule.plain_ofKind (Rule.ofKind_of_ofElement hrule) hk
    refine ⟨hliteral, ?_, ⟨hn, hrule⟩⟩
    rintro _ ⟨⟩
    exact ⟨hn, hrule⟩
  | stream s => cases h

theorem FieldSpec.plain_describe {spec : FieldSpec} {d : FieldDescription} {hint : Option String}
    (h : spec.describe t hint = .ok d) (hh : ∀ size ∈ hint, IsPlain size)
    (hk : spec.shape.element.Plain t) (hn : (Accessors.ofName t.naming spec.name).Plain) :
    d.selection.Plain ∧ d.conversion.Plain := by
  obtain ⟨selection, hs, h⟩ := bind_eq_ok_iff.1 h
  obtain ⟨c, hc, h⟩ := bind_eq_ok_iff.1 h
  cases h
  have hplain := Selection.plain_ofShape hs hk
  exact ⟨hplain, Conversion.plain_ofField hc hplain.representation hh hk hn⟩

theorem Settings.Plain.isPlainName_wireClass {settings : Settings} (h : settings.Plain)
    {n : TypeName} (hn : IsPlainName n.text) : IsPlainName (settings.target.wireClass n) := by
  rw [Target.wireClass]
  split_ifs with ho
  · exact hn
  · have houter : IsPlainName settings.target.outerClass := ⟨h.outerClass, ho, h.outerClass_start⟩
    exact houter.qualified hn.plain

namespace Generator

variable {s : Schema} {settings : Settings} {n : TypeName}

theorem plain_sizeHint (g : Generator) {spec : FieldSpec} (hset : g.settings.Plain)
    (ha : IsPlain (g.settings.naming.accessor spec.name)) :
    ∀ size ∈ g.sizeHint n spec, IsPlain size := by
  intro size hsize
  rw [sizeHint] at hsize
  split at hsize
  · cases hsize
  · split at hsize
    · next hget =>
      cases hsize
      obtain ⟨before, after, he, _⟩ := List.lookup_eq_some_iff.1 hget
      exact hset.sizeHints ((n.text, spec.name), size) (by simp [he])
    · split at hsize
      · cases hsize
        exact (IsPlain.append (by decide) ha).append (by decide)
      · cases hsize

section

variable (hs : s.Plain) (hset : settings.Plain) (hn : settings.naming.PlainOn s)

include hs hset hn

/-- What a name of a schema can stand for has plain names. -/
theorem plain_kindOf (name : String) (scope : Option TypeName) :
    (s.symbols.kindOf name scope).Plain settings.target := by
  cases hk : s.symbols.kindOf name scope with
  | message n =>
    obtain ⟨m, hm⟩ := Symbols.mem_declarations_message.1 (Symbols.mem_of_kindOf_eq_message hk)
    exact ⟨(hn.messages _ hm).plain, (hset.isPlainName_wireClass (hs.message hm).1).plain⟩
  | enumeration n =>
    obtain ⟨e, he⟩ :=
      Symbols.mem_declarations_enumeration.1 (Symbols.mem_of_kindOf_eq_enumeration hk)
    exact (hn.enumerations _ he).plain
  | union n => exact (Symbols.kindOf_ne_union _ _ _ n hk).elim
  | scalar s => trivial
  | unresolved n => trivial
  | missing => trivial

theorem plain_describeProperty {m : Message} (hm : (n, m) ∈ s.messages) {p : Property}
    (hp : p ∈ m.properties) {c : FieldModel}
    (h : (s.generator settings).describeProperty n p = .ok c) : c.Plain := by
  obtain ⟨spec, d, hspec, hd, rfl⟩ := describeProperty_eq_ok_iff.1 h
  have hplain : (Accessors.ofName settings.naming spec.name).Plain ∧
      spec.shape.element.Plain settings.target := by
    cases p with
    | field f =>
      obtain ⟨shape, hshape, rfl⟩ := specOf_field_eq_ok_iff.1 hspec
      obtain ⟨name, hk⟩ := Symbols.element_of_shapeOf hshape
      refine ⟨hn.fields _ hm f (Message.field_mem_properties_iff.1 hp), ?_⟩
      dsimp only
      rw [hk]
      exact plain_kindOf hs hset hn name _
    | oneOf o =>
      cases hspec
      have ho : (⟨n, o⟩ : ScopedOneOf) ∈ s.oneOfs :=
        Schema.mem_oneOfs_iff.2 ⟨(n, m), hm, o, Message.oneOf_mem_properties_iff.1 hp, rfl⟩
      exact ⟨(hn.oneOfs _ ho).2, (hn.oneOfs _ ho).1.plain⟩
  have hhint := plain_sizeHint (n := n) (s.generator settings) hset hplain.1.accessor.plain
  obtain ⟨hselection, hconversion⟩ := FieldSpec.plain_describe hd hhint hplain.2 hplain.1
  exact ⟨hplain.1, hselection, hconversion⟩

theorem plain_describeScoped {m : Message} (hm : (n, m) ∈ s.messages) {c : MessageModel}
    (h : (s.generator settings).describeScoped n m = .ok c) : c.Plain := by
  obtain ⟨fields, hf, rfl⟩ := describeScoped_eq_ok_iff.1 h
  refine ⟨(hn.messages _ hm).plain, (hset.isPlainName_wireClass (hs.message hm).1).plain, ?_⟩
  intro f hfm
  obtain ⟨p, hp, hd⟩ := exists_source hf hfm
  exact plain_describeProperty hs hset hn hm hp hd

theorem plain_describeUnion {o : ScopedOneOf} (ho : o ∈ s.oneOfs) {u : UnionModel}
    (h : (s.generator settings).describeUnion o = .ok u) : u.Plain := by
  obtain ⟨alternatives, ha, h⟩ := bind_eq_ok_iff.1 h
  cases h
  obtain ⟨m, hm, _, _, rfl⟩ := Schema.mem_oneOfs_iff.1 ho
  obtain ⟨hclass, hnames⟩ := hn.oneOfs _ ho
  refine ⟨hclass.plain, hset.isPlainName_wireClass (hs.message hm).1, hnames, ?_⟩
  intro a haa
  obtain ⟨f, hf, hd⟩ := exists_source ha haa
  obtain ⟨k, rule, selection, hshape, hrule, hselection, rfl⟩ :=
    describeAlternative_eq_ok_iff.1 hd
  obtain ⟨name, hk⟩ := Symbols.element_of_shapeOf hshape
  have hkind : k.Plain settings.target := by
    change k = _ at hk
    rw [hk]
    exact plain_kindOf hs hset hn name _
  obtain ⟨hconstant, hnames⟩ := hn.alternatives _ ho f hf
  exact ⟨hnames.capitalized.plain, hconstant.plain, hnames,
    (Selection.plain_ofShape hselection hkind).representation.nativeType,
    Rule.plain_ofKind hrule hkind⟩

theorem plain_describeEnum {e : Enumeration} (he : (n, e) ∈ s.enumerations) {c : EnumModel}
    (h : (s.generator settings).describeEnum n e = .ok c) : c.Plain := by
  obtain ⟨hname, hplain⟩ := hs.enumeration he
  have hvalue : ∀ v ∈ e.values, IsPlainName v.name := by
    intro v hv
    obtain ⟨member, hm, hv⟩ := List.mem_filterMap.1 hv
    cases member with
    | option o => cases hv
    | value w =>
      cases hv
      exact EnumValue.Plain.name (hplain.members _ hm)
  rw [describeEnum] at h
  split at h
  · cases h
  · next zero hzero =>
    cases h
    have hmem : zero ∈ e.values := by
      rw [Enumeration.zeroValue?] at hzero
      split at hzero
      · next v hv =>
        cases hzero
        exact List.mem_of_find?_eq_some hv
      · exact List.mem_of_head? hzero
    exact ⟨(hn.enumerations _ he).plain, hset.isPlainName_wireClass hname,
      List.forall_mem_map.2 hvalue, (hvalue zero hmem).plain⟩

theorem plain_model {model : ObjectModel} (h : (s.generator settings).model = .ok model) :
    model.Plain := by
  obtain ⟨henums, hunions, hmessages⟩ := parts_of_model h
  refine ⟨?_, ?_, ?_⟩
  · intro c hc
    obtain ⟨e, he, hd⟩ := exists_source henums hc
    exact plain_describeEnum hs hset hn he hd
  · intro u hu
    obtain ⟨o, ho, hd⟩ := exists_source hunions hu
    exact plain_describeUnion hs hset hn ho hd
  · intro c hc
    obtain ⟨m, hm, hd⟩ := exists_source hmessages hc
    exact plain_describeScoped hs hset hn hm hd

end

theorem isPlain_wirePackage (hs : s.Plain) (hset : settings.Plain) :
    IsPlain (s.generator settings).wirePackage := by
  rw [wirePackage]
  cases hw : (s.generator settings).settings.wirePackage with
  | none => exact hs.package
  | some p => exact hset.wirePackage p hw

theorem isPlain_moreImports (hs : s.Plain) (hset : settings.Plain) :
    ∀ i ∈ (s.generator settings).moreImports, IsPlain i := by
  have hjava : IsPlain (s.generator settings).javaPackage := by
    rw [javaPackage]
    cases hj : (s.generator settings).settings.javaPackage with
    | none => exact isPlain_wirePackage hs hset
    | some p => exact hset.javaPackage p hj
  refine List.forall_mem_append.2 ⟨hset.imports, ?_⟩
  split_ifs
  · simp
  · exact List.forall_mem_singleton.2 (hjava.qualified hset.outerClass)

end Generator

/-- Both files of a run are well bracketed if all texts and names that go into them are plain. -/
theorem Schema.generate_wellBracketed {s : Schema} {settings : Settings} {files : GeneratedFiles}
    (h : s.generate settings = .ok files) (hs : s.Plain) (hset : settings.Plain)
    (hn : settings.naming.PlainOn s) :
    WellBracketed files.wire.contents ∧ WellBracketed files.model.contents := by
  obtain ⟨g, hg, h⟩ := bind_eq_ok_iff.1 h
  obtain rfl := Generator.eq_of_ofSchema hg
  obtain ⟨model, hm, rfl⟩ := Generator.model_of_generate h
  refine ⟨?_, ?_⟩
  · exact WireSchema.wellBracketed_render hs (Generator.isPlain_wirePackage hs hset)
      hset.javaPackage hset.outerClass
  · exact ObjectModel.wellBracketed_render (Generator.plain_model hs hset hn hm)
      hset.modelPackage (Generator.isPlain_moreImports hs hset)

/-- A schema with a list, a map, a oneof, reserved items, settings and a service. -/
def Schema.catalogue : Schema where
  package := "shop"
  definitions := [
    .message ⟨"Order", [
      .field {
        type := { repeated := true, expr := .named "Level" }
        name := "levels"
        tag := 1
        options := [⟨"deprecated", "true"⟩] },
      .field { type := { expr := .map "string" "Part" }, name := "parts", tag := 2 },
      .oneOf ⟨"content", [.field { type := { expr := .named "Part" }, name := "gift", tag := 3 }]⟩,
      .message "Part" [.reserved [.range 4 5, .name "old"]]]⟩,
    .enumeration ⟨"Level", [.value { name := "LOW", tag := 0 }]⟩,
    .service ⟨"Shop", [.rpc {
      name := "Buy"
      inType := "Order"
      outType := "Order.Part"
      options := [⟨"deprecated", "true"⟩] }]⟩]

theorem Schema.catalogue_plain : catalogue.Plain := by
  have hoption : ∀ o ∈ [(⟨"deprecated", "true"⟩ : OptionSetting)], o.Plain :=
    List.forall_mem_singleton.2 ⟨by decide, by decide⟩
  refine ⟨by decide, ?_⟩
  intro d hd
  simp only [catalogue, List.mem_cons, List.not_mem_nil, or_false] at hd
  obtain rfl | rfl | rfl := hd
  · refine ⟨by decide, ?_⟩
    intro m hm
    simp only [List.mem_cons, List.not_mem_nil, or_false] at hm
    obtain rfl | rfl | rfl | rfl := hm
    · have hlevel : IsPlainName "Level" := by decide
      exact .field ⟨hlevel, by decide, hoption⟩
    · have hpart : IsPlainName "string" ∧ IsPlainName "Part" := by decide
      exact .field ⟨hpart, by decide, by simp⟩
    · refine .oneOf ⟨by decide, List.forall_mem_singleton.2 ?_⟩
      have hpart : IsPlainName "Part" := by decide
      exact ⟨hpart, by decide, by simp⟩
    · refine .message (by decide) (List.forall_mem_singleton.2 (.reserved ?_))
      have hold : IsPlain "old" := by decide
      simp [ReservedItem.Plain, hold]
  · refine ⟨by decide, List.forall_mem_singleton.2 ?_⟩
    exact ⟨by decide, by simp⟩
  · refine ⟨by decide, List.forall_mem_singleton.2 ?_⟩
    exact ⟨by decide, by decide, by decide, hoption⟩

/-- Settings that bring in texts of their own. -/
def Settings.annotated : Settings where
  compact := true
  modelPackage := "shop.model"
  imports := ["shop.Clock"]
  sizeHints := ⟨[(("Order", "levels"), "8")]⟩

theorem Schema.generate_catalogue :
    catalogue.Plain ∧ Settings.annotated.Plain ∧ Settings.annotated.naming.PlainOn catalogue ∧
    ∃ files, catalogue.generate .annotated = .ok files ∧
      WellBracketed files.wire.contents ∧ WellBracketed files.model.contents := by
  have hset : Settings.annotated.Plain :=
    ⟨by decide, by decide, by decide, by decide, by decide, by decide, by decide⟩
  have hn : Settings.annotated.naming.PlainOn catalogue :=
    ⟨by decide +kernel, by decide +kernel, by decide +kernel, by decide +kernel, by decide +kernel⟩
  have h : verdict (catalogue.generate .annotated) = .ok () := by decide +kernel
  obtain ⟨files, h⟩ := verdict_eq_ok_iff.1 h
  exact ⟨catalogue_plain, hset, hn, files, h, generate_wellBracketed h catalogue_plain hset hn⟩

end WireModel
