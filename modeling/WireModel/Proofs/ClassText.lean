import Mathlib.Data.List.Basic
import WireModel.Proofs.Brackets
import WireModel.Proofs.SortedImports

namespace WireModel

open Text Stmt

structure Accessors.Plain (a : Accessors) : Prop where
  accessor : IsPlainName a.accessor
  capitalized : IsPlainName a.capitalized

instance : DecidablePred Accessors.Plain := fun a =>
  decidable_of_iff (IsPlainName a.accessor ∧ IsPlainName a.capitalized)
    ⟨fun h => ⟨h.1, h.2⟩, fun h => ⟨h.accessor, h.capitalized⟩⟩

def Rule.Plain : Rule → Prop
  | .scalar => True
  | .enumeration enumClass => IsPlain enumClass
  | .message messageClass wireClass => IsPlain messageClass ∧ IsPlain wireClass
  | .union unionClass => IsPlain unionClass

def Decoding.Plain : Decoding → Prop
  | .single field rule => field.Plain ∧ rule.Plain
  | .optional field rule => field.Plain ∧ rule.Plain
  | .literal expr => Neutral expr

def Filling.Plain : Filling → Prop
  | .elements field rule => field.Plain ∧ rule.Plain
  | .entries field rule => field.Plain ∧ rule.Plain

def Encoding.Plain : Encoding → Prop
  | .single field rule => field.Plain ∧ rule.Plain
  | .optional field rule => field.Plain ∧ rule.Plain
  | .elements field rule => field.Plain ∧ rule.Plain
  | .entries field rule => field.Plain ∧ rule.Plain

structure Conversion.Plain (c : Conversion) : Prop where
  decoding : c.decoding.Plain
  filling : ∀ f ∈ c.filling, f.Plain
  encoding : c.encoding.Plain

structure Representation.Plain (r : Representation) : Prop where
  nativeType : IsPlain r.nativeType
  construct : ∀ hint : Option String, (∀ size ∈ hint, IsPlain size) → Neutral (r.construct hint)

structure Selection.Plain (s : Selection) : Prop where
  representation : s.representation.Plain
  imports : ∀ i ∈ s.imports, IsPlain i

structure FieldModel.Plain (f : FieldModel) : Prop where
  accessors : f.accessors.Plain
  selection : f.description.selection.Plain
  conversion : f.description.conversion.Plain

structure MessageModel.Plain (m : MessageModel) : Prop where
  className : IsPlain m.className
  wireClass : IsPlain m.wireClass
  fields : ∀ f ∈ m.fields, f.Plain

structure EnumModel.Plain (m : EnumModel) : Prop where
  className : IsPlain m.className
  wireClass : IsPlainName m.wireClass
  values : ∀ v ∈ m.values, IsPlainName v
  defaultValue : IsPlain m.defaultValue

structure AlternativeModel.Plain (a : AlternativeModel) : Prop where
  variant : IsPlain a.variant
  caseConstant : IsPlain a.caseConstant
  accessors : a.accessors.Plain
  nativeType : IsPlain a.nativeType
  rule : a.rule.Plain

structure UnionModel.Plain (m : UnionModel) : Prop where
  className : IsPlain m.className
  messageWireClass : IsPlainName m.messageWireClass
  accessors : m.accessors.Plain
  alternatives : ∀ a ∈ m.alternatives, a.Plain

structure ObjectModel.Plain (o : ObjectModel) : Prop where
  enums : ∀ e ∈ o.enums, e.Plain
  unions : ∀ u ∈ o.unions, u.Plain
  messages : ∀ m ∈ o.messages, m.Plain

namespace Rule

variable {rule : Rule} {field : Accessors} {raw value builder proto self : String}

theorem neutral_read (h : rule.Plain) (hraw : Neutral raw) : Neutral (rule.read raw) := by
  have hcall {type : String} (ht : IsPlain type) : Neutral (type ++ ".fromProto(" ++ raw ++ ")") :=
    ht.neutral.enclosed hraw rfl
  cases rule with
  | scalar => exact hraw
  | enumeration type => exact hcall h
  | message type wireClass => exact hcall h.1
  | union type => exact hcall h

theorem stands_write (hf : field.Plain) (hv : Stands value) (hb : IsPlainName builder) :
    Stands (rule.write value builder field) := by
  have hfield : IsPlainName (builder ++ "." ++ field.accessor ++ " = ") :=
    (hb.qualified hf.accessor.plain).append (by decide)
  cases rule with
  | scalar => exact hfield.stands.append hv.neutral
  | enumeration type => exact (hfield.stands.append hv.neutral).append fun _ => rfl
  | message type wireClass =>
    have hnested : IsPlain (builder ++ "." ++ field.accessor) :=
      hb.plain.qualified hf.accessor.plain
    have hline :
        Stands (value ++ ".toProto(" ++ (builder ++ "." ++ field.accessor) ++ "Builder)") :=
      hv.enclosed hnested.neutral rfl
    rwa [← String.append_assoc, ← String.append_assoc] at hline
  | union type => exact hv.enclosed hb.plain.neutral rfl

theorem isPlain_source (hf : field.Plain) (hp : IsPlain proto) :
    IsPlain (rule.source proto field) := by
  unfold source
  split
  · exact hp
  · exact hp.qualified hf.accessor.plain

theorem neutral_absent (hf : field.Plain) (hp : IsPlain proto) :
    Neutral (rule.absent proto field) := by
  have htest : IsPlain ("!" ++ proto ++ ".has" ++ field.capitalized) :=
    ((IsPlain.append (by decide) hp).append (by decide)).append hf.capitalized.plain
  unfold absent
  split
  · exact (hp.qualified hf.accessor.plain).neutral.append fun _ => rfl
  · exact htest.neutral.append fun _ => rfl

theorem tidy_method {method arguments : String} (hf : field.Plain) (hb : IsPlainName builder)
    (hm : IsPlain method) (ha : Neutral arguments) :
    Tidy [.line (builder ++ method ++ field.capitalized ++ arguments)] :=
  tidy_line (((hb.append hm).append hf.capitalized.plain).stands.append ha)

theorem tidy_append (hf : field.Plain) (hb : IsPlainName builder) :
    Tidy [.line (rule.append builder field)] := by
  cases rule with
  | scalar => exact tidy_method hf hb (by decide) fun _ => rfl
  | enumeration type => exact tidy_method hf hb (by decide) fun _ => rfl
  | message type wireClass =>
    have hnested : IsPlain (builder ++ ".add" ++ field.capitalized) :=
      (hb.plain.append (by decide)).append hf.capitalized.plain
    have hline : Stands ("elem.toProto(" ++ (builder ++ ".add" ++ field.capitalized) ++
        "Builder())") :=
      .between (by decide) hnested.neutral rfl
    rw [← String.append_assoc, ← String.append_assoc] at hline
    exact tidy_line hline
  | union type => exact tidy_line (.between (by decide) hb.plain.neutral rfl)

theorem tidy_put (h : rule.Plain) (hf : field.Plain) (hb : IsPlainName builder) :
    Tidy ((rule.put builder field).map .line) := by
  cases rule with
  | scalar => exact tidy_method hf hb (by decide) fun _ => rfl
  | enumeration type => exact tidy_method hf hb (by decide) fun _ => rfl
  | message type wireClass =>
    have hdeclare : Stands ("val valueBuilder = " ++ wireClass ++ ".newBuilder()") :=
      .between (by decide) h.2.neutral rfl
    have hwrite : Stands "value.toProto(valueBuilder)" := ⟨by decide, fun _ => rfl⟩
    exact .cons (tidy_line hdeclare) (.cons (tidy_line hwrite)
      (tidy_method hf hb (by decide) fun _ => rfl))
  | union type => exact tidy_line (.between (by decide) hb.plain.neutral rfl)

theorem tidy_writeOptional (hf : field.Plain) (hs : IsPlainName self) (hb : IsPlainName builder) :
    Tidy [.line (rule.writeOptional self builder field)] := by
  have hproperty : IsPlainName (self ++ "." ++ field.accessor) :=
    hs.qualified hf.accessor.plain
  have hclear : Neutral (builder ++ ".clear" ++ field.capitalized ++ "()") :=
    ((hb.plain.append (by decide)).append hf.capitalized.plain).neutral.append fun _ => rfl
  have hvalue : IsPlainName "value" := by decide
  have hwrite : Stands (rule.write "value" builder field) := stands_write hf hvalue.stands hb
  unfold writeOptional
  dsimp only
  split
  · have hnested : IsPlain (builder ++ "." ++ field.accessor) :=
      hb.plain.qualified hf.accessor.plain
    have hline : Stands (self ++ "." ++ field.accessor ++ "?.toProto(" ++
        (builder ++ "." ++ field.accessor) ++ "Builder) ?: ") :=
      hproperty.stands.enclosed hnested.neutral rfl
    rw [← String.append_assoc, ← String.append_assoc] at hline
    exact tidy_line (hline.append hclear)
  · exact tidy_line ((hproperty.stands.enclosed hwrite.neutral rfl).append hclear)

end Rule

variable {proto self builder : String}

theorem Decoding.neutral_expr {d : Decoding} (h : d.Plain) (hp : IsPlain proto) :
    Neutral (d.expr proto) := by
  cases d with
  | single field rule => exact Rule.neutral_read h.2 (Rule.isPlain_source h.1 hp).neutral
  | optional field rule =>
    have habsent : Neutral (rule.absent proto field) := Rule.neutral_absent h.1 hp
    have hsource : IsPlain (rule.source proto field) := Rule.isPlain_source h.1 hp
    exact (habsent.between rfl).append (Rule.neutral_read h.2 hsource.neutral)
  | literal expr => exact h

theorem Stmt.tidy_forEach {container params : String} {body : List Stmt}
    (hc : IsPlainName container) (hp : Neutral params) (hbody : Tidy body) :
    Tidy [.forEach container params body] := by
  refine tidy_block (c := '\x7d') (by decide) (((hc.begins.append _).append _).append _) ?_ hbody
    rfl rfl
  simp only [scanLine_append, hc.plain.neutral, hp, Option.bind_some, Option.bind_fun_some]
  rfl

/-- A loop over a container of the wire that adds each element to a property. -/
theorem Stmt.tidy_fill {field : Accessors} {rule : Rule}
    {instanceName sort params call raw : String} (hp : IsPlainName proto)
    (hi : IsPlainName instanceName) (hf : field.Plain) (hr : rule.Plain) (hsort : IsPlain sort)
    (hparams : Neutral params) (hraw : Neutral raw) (hcall : scanLine [] (call ++ ")") = some []) :
    Tidy [.forEach (proto ++ "." ++ field.accessor ++ sort) params
      [.line (instanceName ++ "." ++ field.accessor ++ call ++ rule.read raw ++ ")")]] := by
  have hcontainer : IsPlainName (proto ++ "." ++ field.accessor ++ sort) :=
    (hp.qualified hf.accessor.plain).append hsort
  have hproperty : IsPlainName (instanceName ++ "." ++ field.accessor) :=
    hi.qualified hf.accessor.plain
  refine tidy_forEach hcontainer hparams (tidy_line ?_)
  exact hproperty.stands.enclosed (Rule.neutral_read hr hraw) hcall

theorem Filling.tidy_stmt {f : Filling} (h : f.Plain) {instanceName : String}
    (hp : IsPlainName proto) (hi : IsPlainName instanceName) :
    Tidy [f.stmt proto instanceName] := by
  cases f with
  | elements field rule =>
    exact tidy_fill hp hi h.1 h.2 (by decide) (fun _ => rfl) (fun _ => rfl) rfl
  | entries field rule =>
    exact tidy_fill hp hi h.1 h.2 (by decide) (fun _ => rfl) (fun _ => rfl) rfl

theorem Encoding.tidy_stmt {e : Encoding} (h : e.Plain) (hs : IsPlainName self)
    (hb : IsPlainName builder) : Tidy [e.stmt self builder] := by
  have hproperty {field : Accessors} (hf : field.Plain) :
      IsPlainName (self ++ "." ++ field.accessor) :=
    hs.qualified hf.accessor.plain
  cases e with
  | single field rule => exact tidy_line (Rule.stands_write h.1 (hproperty h.1).stands hb)
  | optional field rule => exact Rule.tidy_writeOptional h.1 hs hb
  | elements field rule =>
    exact tidy_forEach (hproperty h.1) (fun _ => rfl) (Rule.tidy_append h.1 hb)
  | entries field rule =>
    exact tidy_forEach (hproperty h.1) (fun _ => rfl) (Rule.tidy_put h.2 h.1 hb)

namespace FieldModel

variable {f : FieldModel}

theorem tidy_declaration (h : f.Plain) : Tidy [.line f.declaration] := by
  have hkeyword : IsPlainName f.description.selection.representation.keyword := by
    rw [Representation.keyword]
    split_ifs <;> decide
  have hname := (hkeyword.append (t := " ") (by decide)).append h.accessors.accessor.plain
  have htype := (hname.append (t := ": ") (by decide)).append h.selection.representation.nativeType
  exact tidy_line (htype.append (by decide)).stands

theorem tidy_argument (h : f.Plain) {value : String} (hv : Neutral value) :
    Tidy [.line (f.argument value)] := by
  have hname : IsPlainName (f.accessors.accessor ++ " = ") :=
    h.accessors.accessor.append (by decide)
  exact tidy_line ((hname.stands.append hv).append fun _ => rfl)

theorem neutral_initial (h : f.Plain) : Neutral f.initial :=
  h.selection.representation.construct none (by simp)

theorem neutral_decoded (h : f.Plain) : Neutral f.decoded :=
  Decoding.neutral_expr h.conversion.decoding (by decide)

theorem tidy_filling (h : f.Plain) : ∀ s ∈ f.filling?, Tidy [s] := by
  intro s hs
  obtain ⟨step, hstep, rfl⟩ := Option.map_eq_some_iff.1 hs
  exact Filling.tidy_stmt (h.conversion.filling step hstep) (by decide) (by decide)

theorem tidy_encoder (h : f.Plain) : Tidy [f.encoder] :=
  Encoding.tidy_stmt h.conversion.encoding (by decide) (by decide)

end FieldModel

namespace MessageModel

variable {m : MessageModel}

theorem tidy_call (h : m.Plain) {opening : String} {value : FieldModel → String}
    (ho : Stands opening) (hv : ∀ f ∈ m.fields, Neutral (value f)) :
    Tidy [m.call opening value] := by
  have hcallee : Stands (opening ++ m.className) := ho.append h.className.neutral
  rw [call]
  split
  · exact tidy_line (hcallee.append fun _ => rfl)
  · refine tidy_block (c := ')') (by decide) (hcallee.begins.append _) ?_ ?_ rfl rfl
    · rw [scanLine_append, hcallee.neutral]
      rfl
    · exact tidy_map fun f hf => FieldModel.tidy_argument (h.fields f hf) (hv f hf)

theorem tidy_companion (h : m.Plain) : Tidy [m.companion] := by
  have hobject : IsPlainName "companion object" := by decide
  have hinstance : IsPlainName "val instance = " := by decide
  have hreturn : IsPlainName "return instance" := by decide
  have hcreate : Stands ("fun create(): " ++ m.className ++ " = ") :=
    .between (by decide) h.className.neutral rfl
  have hread : Stands ("fun fromProto(proto: " ++ m.wireClass ++ "): " ++ m.className) :=
    (Stands.between (by decide) h.wireClass.neutral rfl).append h.className.neutral
  have hfill : Tidy (m.fields.filterMap FieldModel.filling?) := by
    refine tidy_of_forall fun s hs => ?_
    obtain ⟨f, hf, he⟩ := List.mem_filterMap.1 hs
    exact FieldModel.tidy_filling (h.fields f hf) s he
  have hnew : Tidy [m.call ("fun create(): " ++ m.className ++ " = ") FieldModel.initial] :=
    tidy_call h hcreate fun f hf => FieldModel.neutral_initial (h.fields f hf)
  have hold : Tidy [m.call "val instance = " FieldModel.decoded] :=
    tidy_call h hinstance.stands fun f hf => FieldModel.neutral_decoded (h.fields f hf)
  refine tidy_braces hobject.stands (hnew.cons (tidy_blank.cons (tidy_braces hread ?_)))
  exact hold.cons (hfill.append (tidy_line hreturn.stands))

theorem tidy_writers (h : m.Plain) : Tidy m.writers := by
  have hwire := h.wireClass.neutral
  have hfresh : Stands ("fun toProto(): " ++ m.wireClass) :=
    .append ⟨by decide, fun _ => rfl⟩ hwire
  have hdeclare : Stands ("val builder = " ++ m.wireClass ++ ".newBuilder()") :=
    .between (by decide) hwire rfl
  have hwrite : Stands "toProto(builder)" := ⟨by decide, fun _ => rfl⟩
  have hreturn : Stands "return builder.build()" := ⟨by decide, fun _ => rfl⟩
  have hgiven : Stands ("fun toProto(builder: " ++ m.wireClass ++ ".Builder)") :=
    .between (by decide) hwire rfl
  refine .cons (tidy_braces hfresh ?_) (tidy_blank.cons (tidy_braces hgiven ?_))
  · exact (tidy_line hdeclare).cons ((tidy_line hwrite).cons (tidy_line hreturn))
  · exact tidy_map fun f hf => FieldModel.tidy_encoder (h.fields f hf)

theorem tidy_source (h : m.Plain) : Tidy m.source := by
  have hbody : Tidy (m.companion :: .blank :: m.writers) :=
    .cons (tidy_companion h) (tidy_blank.cons (tidy_writers h))
  have hclass : IsPlainName "class " := by decide
  have hdata : IsPlainName "data class " := by decide
  unfold source
  dsimp only
  split
  · exact tidy_braces (hclass.append h.className).stands hbody
  · refine tidy_parenthesized (hdata.append h.className).stands ?_ hbody
    exact tidy_map fun f hf => FieldModel.tidy_declaration (h.fields f hf)

end MessageModel

namespace EnumModel

variable {m : EnumModel}

theorem tidy_constants {wireClass : String} (hw : IsPlain wireClass) {vs : List String}
    (h : ∀ v ∈ vs, IsPlainName v) : Tidy (constants wireClass vs) := by
  have hconstant {v stop : String} (hv : IsPlainName v) (hs : scanLine [] ("(" ++ stop) = some []) :
      Tidy [.line (v ++ "(" ++ wireClass ++ "." ++ v ++ stop)] := by
    have hargument : IsPlain (wireClass ++ "." ++ v) := hw.qualified hv.plain
    have hline := hv.stands.enclosed hargument.neutral hs
    rw [← String.append_assoc, ← String.append_assoc] at hline
    exact tidy_line hline
  induction vs with
  | nil => exact tidy_nil
  | cons v vs ih =>
    have hv := h v List.mem_cons_self
    cases vs with
    | nil => exact hconstant hv rfl
    | cons w ws =>
      exact (hconstant hv rfl).cons (ih fun u hu => h u (List.mem_cons_of_mem v hu))

theorem tidy_cases (h : m.Plain) : Tidy m.cases := by
  have helse : IsPlainName "else -> defaultValue" := by decide
  refine (tidy_map fun v hv => ?_).append (tidy_line helse.stands)
  have hconstant : IsPlainName (m.wireClass ++ "." ++ v) :=
    h.wireClass.qualified (h.values v hv).plain
  exact tidy_line ((hconstant.append (by decide)).append (h.values v hv).plain).stands

theorem tidy_source (h : m.Plain) : Tidy [m.source] := by
  have hwire := h.wireClass.plain.neutral
  have henum : IsPlainName "enum class " := by decide
  have hobject : IsPlainName "companion object" := by decide
  have hdefault : IsPlainName "val defaultValue = " := by decide
  have hopening : Stands ("enum class " ++ m.className ++ "(val proto: " ++ m.wireClass ++ ")") :=
    (henum.append h.className).stands.enclosed hwire rfl
  have hwriter : Stands ("fun toProto(): " ++ m.wireClass ++ " = proto") :=
    .between (by decide) hwire rfl
  have hreader : Stands ("fun fromProto(proto: " ++ m.wireClass ++ "): " ++ m.className ++
      " = when (proto)") :=
    ((Stands.between (by decide) hwire rfl).append h.className.neutral).append fun _ => rfl
  have hcompanion := tidy_braces hobject.stands
    ((tidy_line (hdefault.append h.defaultValue).stands).cons
      (tidy_blank.cons (tidy_braces hreader (tidy_cases h))))
  exact tidy_braces hopening ((tidy_constants h.wireClass.plain h.values).append
    (tidy_blank.cons ((tidy_line hwriter).cons (tidy_blank.cons hcompanion))))

end EnumModel

namespace UnionModel

variable {m : UnionModel}

theorem tidy_variantLine (h : m.Plain) {a : AlternativeModel} (ha : a.Plain) :
    Tidy [.line (m.variantLine a)] := by
  have hkeyword : IsPlainName "data class " := by decide
  have hvariant : Stands ("data class " ++ a.variant ++ "(val value: " ++ a.nativeType ++ ") : ") :=
    (hkeyword.append ha.variant).stands.enclosed ha.nativeType.neutral rfl
  exact tidy_line ((hvariant.append h.className.neutral).append fun _ => rfl)

theorem tidy_writer (h : m.Plain) : Tidy [m.writer] := by
  have hopening : Stands ("fun toProto(builder: " ++ m.messageWireClass ++ ".Builder)") :=
    .between (by decide) h.messageWireClass.plain.neutral rfl
  have hwhen : Stands "when (this)" := ⟨by decide, fun _ => rfl⟩
  have hunset : Stands ("Unset -> builder.clear" ++ m.accessors.capitalized ++ "()") :=
    .between (by decide) h.accessors.capitalized.plain.neutral rfl
  have his : IsPlainName "is " := by decide
  have hvalue : IsPlainName "this.value" := by decide
  refine tidy_braces hopening (tidy_braces hwhen ?_)
  refine (tidy_line hunset).cons (tidy_map fun a ha => ?_)
  have ha := h.alternatives a ha
  have hvariant : IsPlainName ("is " ++ a.variant ++ " -> ") :=
    (his.append ha.variant).append (by decide)
  have hwrite : Stands (a.rule.write "this.value" "builder" a.accessors) :=
    Rule.stands_write ha.accessors hvalue.stands (by decide)
  exact tidy_line (hvariant.stands.append hwrite.neutral)

theorem tidy_reader (h : m.Plain) : Tidy [m.reader] := by
  have hstart : Stands ("fun fromProto(proto: " ++ m.messageWireClass ++ "): ") :=
    .between (by decide) h.messageWireClass.plain.neutral rfl
  have hopening : Stands ("fun fromProto(proto: " ++ m.messageWireClass ++ "): " ++ m.className ++
      " = when (proto." ++ m.accessors.accessor ++ "Case)") :=
    (hstart.append h.className.neutral).enclosed h.accessors.accessor.plain.neutral rfl
  have hcase : IsPlainName (m.messageWireClass ++ "." ++ m.accessors.capitalized ++ "Case") :=
    (h.messageWireClass.qualified h.accessors.capitalized.plain).append (by decide)
  have helse : IsPlainName "else -> Unset" := by decide
  refine tidy_braces hopening ((tidy_map fun a ha => ?_).append (tidy_line helse.stands))
  have ha := h.alternatives a ha
  have hraw : IsPlain ("proto." ++ a.accessors.accessor) :=
    .append (by decide) ha.accessors.accessor.plain
  have hconstant := hcase.qualified ha.caseConstant
  have hvariant := (hconstant.append (t := " -> ") (by decide)).append ha.variant
  exact tidy_line (hvariant.stands.enclosed (Rule.neutral_read ha.rule hraw.neutral) rfl)

theorem tidy_source (h : m.Plain) : Tidy [m.source] := by
  have hsealed : IsPlainName "sealed class " := by decide
  have hobject : IsPlainName "companion object" := by decide
  have hunset : Stands ("object Unset : " ++ m.className ++ "()") :=
    .between (by decide) h.className.neutral rfl
  have hvariants : Tidy (m.alternatives.flatMap fun a => [.blank, .line (m.variantLine a)]) :=
    tidy_flatMap fun a ha => tidy_blank.cons (tidy_variantLine h (h.alternatives a ha))
  have hcompanion := tidy_braces hobject.stands (tidy_reader h)
  exact tidy_braces (hsealed.append h.className).stands ((tidy_line hunset).cons
    (hvariants.append (tidy_blank.cons ((tidy_writer h).cons (tidy_blank.cons hcompanion)))))

end UnionModel

namespace ObjectModel

variable {o : ObjectModel}

theorem tidy_classes (h : o.Plain) : Tidy (spaced o.classes) := by
  apply tidy_spaced
  intro g hg
  obtain hg | hg := List.mem_append.1 hg
  · obtain ⟨e, he, rfl⟩ := List.mem_map.1 hg
    exact EnumModel.tidy_source (h.enums e he)
  · obtain ⟨m, hm, hg⟩ := List.mem_flatMap.1 hg
    obtain hg | hg := List.mem_append.1 hg
    · obtain ⟨u, hu, rfl⟩ := List.mem_map.1 hg
      exact UnionModel.tidy_source (h.unions u (List.mem_of_mem_filter hu))
    · obtain rfl := List.mem_singleton.1 hg
      exact MessageModel.tidy_source (h.messages m hm)

theorem flows_header {package : String} {imports : List String} (hp : IsPlain package)
    (hi : ∀ i ∈ imports, IsPlain i) : Flows [] (header package imports) [] := by
  have hpackage : IsPlainName "package " := by decide
  have himport : IsPlainName "import " := by decide
  refine ((flows_paragraph ?_).append (flows_paragraph ?_)).append (flows_paragraph ?_)
  · decide
  · split_ifs
    · simp
    · exact List.forall_mem_singleton.2 (hpackage.append hp)
  · exact List.forall_mem_map.2 fun i h => himport.append (hi i h)

theorem wellBracketed_render (h : o.Plain) {package : String} {moreImports : List String}
    (hp : IsPlain package) (hi : ∀ i ∈ moreImports, IsPlain i) :
    WellBracketed (o.render package moreImports) := by
  refine (tidy_classes h).wellBracketed (flows_header hp ?_)
  intro i him
  obtain ⟨m, hm, f, hf, him⟩ | him := mem_imports_iff.1 him
  · exact ((h.messages m hm).fields f hf).selection.imports i him
  · exact hi i him

end ObjectModel

end WireModel
