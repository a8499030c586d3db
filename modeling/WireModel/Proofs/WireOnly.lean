import WireModel.Proofs.Blocks
import WireModel.Proofs.Stages

namespace WireModel

open Outcome

def Field.core (f : Field) : Field :=
  ⟨f.type, f.name, 0, []⟩

/-- Of the number of a constant only whether it is zero is kept. -/
def EnumValue.core (v : EnumValue) : EnumValue :=
  ⟨v.name, if v.number = 0 then 0 else 1, false, []⟩

def OneOf.core (o : OneOf) : OneOf :=
  ⟨o.name, o.fields.map fun f => .field f.core⟩

def Enumeration.core (e : Enumeration) : Enumeration :=
  ⟨e.name, e.values.map fun v => .value v.core⟩

namespace Member

mutual

def core : Member → List Member
  | .field f => [.field f.core]
  | .oneOf o => [.oneOf o.core]
  | .enumeration e => [.enumeration e.core]
  | .message name members => [.message name (cores members)]
  | .option _ => []
  | .reserved _ => []

/-- Members without settings and reserved items. -/
def cores : List Member → List Member
  | [] => []
  | m :: ms => m.core ++ cores ms

end

end Member

def Message.core (m : Message) : Message :=
  ⟨m.name, Member.cores m.members⟩

def Definition.core : Definition → List Definition
  | .message m => [.message m.core]
  | .enumeration e => [.enumeration e.core]
  | .service _ => []

/-- A schema without what only the wire schema shows: the numbers of fields, the numbers of
constants other than zero, settings, reserved items and services. -/
def Schema.core (s : Schema) : Schema :=
  ⟨s.package, s.definitions.flatMap Definition.core⟩

theorem EnumValue.number_core (v : EnumValue) : v.core.number = 0 ↔ v.number = 0 := by
  rw [core]
  by_cases h : v.number = 0
  · rw [if_pos h]
    exact iff_of_true rfl h
  · rw [if_neg h]
    exact iff_of_false Int.one_ne_zero h

theorem OneOf.fields_core (o : OneOf) : o.core.fields = o.fields.map Field.core := by
  simp [core, fields, List.filterMap_map]

theorem Enumeration.values_core (e : Enumeration) :
    e.core.values = e.values.map EnumValue.core := by
  simp [core, values, List.filterMap_map]

theorem Enumeration.zeroValue?_core (e : Enumeration) :
    e.core.zeroValue? = e.zeroValue?.map EnumValue.core := by
  have hzero :
      ((fun v : EnumValue => v.number == 0) ∘ EnumValue.core) = fun v => v.number == 0 := by
    funext v
    rw [Bool.eq_iff_iff]
    simpa using v.number_core
  rw [zeroValue?, zeroValue?, values_core, List.find?_map, hzero]
  cases e.values.find? fun v => v.number == 0 with
  | none => simp
  | some v => rfl

def Property.core : Property → Property
  | .field f => .field f.core
  | .oneOf o => .oneOf o.core

theorem Message.properties_core (m : Message) :
    m.core.properties = m.properties.map Property.core := by
  obtain ⟨name, members⟩ := m
  rw [core, properties, properties]
  induction members with
  | nil => rfl
  | cons m ms ih =>
    rw [Member.cores, List.filterMap_append, ih]
    cases m <;> rfl

theorem Message.oneOfs_core (m : Message) : m.core.oneOfs = m.oneOfs.map OneOf.core := by
  obtain ⟨name, members⟩ := m
  rw [core, oneOfs, oneOfs]
  induction members with
  | nil => rfl
  | cons m ms ih =>
    rw [Member.cores, List.filterMap_append, ih]
    cases m <;> rfl

namespace Member

variable (scope : TypeName)

theorem messagesOf_append (ms ns : List Member) :
    messagesOf scope (ms ++ ns) = messagesOf scope ms ++ messagesOf scope ns := by
  induction ms with
  | nil => rfl
  | cons m ms ih => rw [List.cons_append, messagesOf, ih, messagesOf, List.append_assoc]

theorem messagesOf_singleton (m : Member) : messagesOf scope [m] = m.messages scope := by
  rw [messagesOf, messagesOf, List.append_nil]

end Member

def Message.scopedCore (m : TypeName × Message) : TypeName × Message :=
  (m.1, m.2.core)

def Enumeration.scopedCore (e : TypeName × Enumeration) : TypeName × Enumeration :=
  (e.1, e.2.core)

def ScopedOneOf.core (o : ScopedOneOf) : ScopedOneOf :=
  ⟨o.message, o.oneOf.core⟩

namespace Member

mutual

theorem messagesOf_core : ∀ (scope : TypeName) (m : Member),
    messagesOf scope m.core = (m.messages scope).map Message.scopedCore
  | scope, .message name members => by
    rw [core, messagesOf_singleton, messages, messages, List.map_cons,
      messagesOf_cores (scope.child name) members]
    rfl
  | _, .field _ | _, .oneOf _ | _, .enumeration _ | _, .option _ | _, .reserved _ => rfl

theorem messagesOf_cores : ∀ (scope : TypeName) (ms : List Member),
    messagesOf scope (cores ms) = (messagesOf scope ms).map Message.scopedCore
  | _, [] => rfl
  | scope, m :: ms => by
    rw [cores, messagesOf_append, messagesOf_core scope m, messagesOf_cores scope ms, messagesOf,
      List.map_append]

end

theorem ownEnumerations_cores (scope : TypeName) (ms : List Member) :
    ownEnumerations scope (cores ms) =
      (ownEnumerations scope ms).map Enumeration.scopedCore := by
  rw [ownEnumerations, ownEnumerations]
  induction ms with
  | nil => rfl
  | cons m ms ih =>
    rw [cores, List.filterMap_append, ih]
    cases m <;> rfl

theorem nestedEnumerations_cores (scope : TypeName) (ms : List Member) :
    nestedEnumerations scope (cores ms) =
      (nestedEnumerations scope ms).map Enumeration.scopedCore := by
  rw [nestedEnumerations_eq, nestedEnumerations_eq, messagesOf_cores, List.flatMap_map,
    List.map_flatMap]
  congr 1
  funext p
  exact ownEnumerations_cores p.1 p.2.members

end Member

namespace Schema

variable (s : Schema)

theorem messages_core : s.core.messages = s.messages.map Message.scopedCore := by
  rw [messages, messages, core, List.flatMap_assoc, List.map_flatMap]
  congr 1
  funext d
  cases d with
  | message m =>
    simp only [Definition.core, List.flatMap_singleton, Definition.messages, Message.core,
      Member.messagesOf_cores, List.map_cons]
    rfl
  | enumeration e => rfl
  | service d => rfl

theorem enumerations_core : s.core.enumerations = s.enumerations.map Enumeration.scopedCore := by
  rw [enumerations, enumerations, core, List.flatMap_assoc, List.map_flatMap]
  congr 1
  funext d
  cases d with
  | message m =>
    simp only [Definition.core, List.flatMap_singleton, Definition.enumerations, Message.core,
      Member.ownEnumerations_cores, Member.nestedEnumerations_cores, List.map_append]
  | enumeration e => rfl
  | service d => rfl

theorem oneOfs_core : s.core.oneOfs = s.oneOfs.map ScopedOneOf.core := by
  rw [oneOfs, oneOfs, messages_core, List.flatMap_map, List.map_flatMap]
  congr 1
  funext m
  simp only [Message.scopedCore, Message.oneOfs_core, List.map_map]
  rfl

/-- The names of a schema stand for the same types without what only the wire schema shows. -/
theorem symbols_core : s.core.symbols = s.symbols := by
  rw [symbols, symbols, Symbols.declarations, Symbols.declarations, messages_core,
    enumerations_core, List.map_map, List.map_map]
  rfl

end Schema

/-- The property without the number of its field. -/
def FieldModel.untagged (f : FieldModel) : FieldModel :=
  { f with spec := { f.spec with tag := none } }

def MessageModel.untagged (m : MessageModel) : MessageModel :=
  { m with fields := m.fields.map FieldModel.untagged }

def ObjectModel.untagged (o : ObjectModel) : ObjectModel :=
  { o with messages := o.messages.map MessageModel.untagged }

namespace MessageModel

variable (m : MessageModel)

theorem call_untagged (opening : String) (value : FieldModel → String)
    (h : ∀ f : FieldModel, value f.untagged = value f) :
    m.untagged.call opening value = m.call opening value := by
  obtain ⟨name, className, wireClass, fields⟩ := m
  cases fields with
  | nil => rfl
  | cons f fs =>
    simp only [call, untagged, List.map_cons, List.map_map, Function.comp_def, h,
      FieldModel.argument]
    rfl

/-- The class of a message does not show the numbers of its fields. -/
theorem source_untagged : m.untagged.source = m.source := by
  have hcreate := m.call_untagged ("fun create(): " ++ m.className ++ " = ") FieldModel.initial
    fun _ => rfl
  have hinstance := m.call_untagged "val instance = " FieldModel.decoded fun _ => rfl
  have hfilling : m.untagged.fields.filterMap FieldModel.filling? =
      m.fields.filterMap FieldModel.filling? := by
    rw [untagged, List.filterMap_map]
    rfl
  have hcompanion : m.untagged.companion = m.companion := by
    rw [companion, companion, hinstance, hfilling]
    exact congrArg (fun s => Stmt.braces "companion object" (s :: _)) hcreate
  have hwriters : m.untagged.writers = m.writers := by
    rw [writers, writers, untagged, List.map_map]
    rfl
  rw [source, source, hcompanion, hwriters]
  obtain ⟨name, className, wireClass, fields⟩ := m
  cases fields with
  | nil => rfl
  | cons f fs =>
    simp only [untagged, List.map_cons, List.map_map, Function.comp_def]
    rfl

theorem imports_untagged : m.untagged.imports = m.imports := by
  rw [imports, imports, untagged, List.flatMap_map]
  rfl

end MessageModel

theorem ObjectModel.render_untagged (o : ObjectModel) (package : String) (more : List String) :
    o.untagged.render package more = o.render package more := by
  have himports : o.untagged.imports more = o.imports more := by
    rw [imports, imports, untagged, List.flatMap_map]
    simp only [MessageModel.imports_untagged]
  have hclasses : o.untagged.classes = o.classes := by
    rw [classes, classes, untagged, List.flatMap_map]
    simp only [MessageModel.source_untagged]
    rfl
  rw [render, render, himports, hclasses]

namespace Generator

variable (s : Schema) (settings : Settings)

theorem describeEnum_core (n : TypeName) (e : Enumeration) :
    (s.core.generator settings).describeEnum n e.core =
      (s.generator settings).describeEnum n e := by
  rw [describeEnum, describeEnum, Enumeration.zeroValue?_core, Enumeration.values_core,
    List.map_map]
  cases e.zeroValue? <;> rfl

theorem enums_core : (s.core.generator settings).enums = (s.generator settings).enums := by
  rw [enums, enums]
  simp only [Schema.generator]
  rw [Schema.enumerations_core, List.mapM_map]
  congr 1
  funext e
  exact describeEnum_core s settings e.1 e.2

theorem describeAlternative_core (n : TypeName) (f : Field) :
    (s.core.generator settings).describeAlternative n f.core =
      (s.generator settings).describeAlternative n f := by
  simp only [describeAlternative, Schema.generator, Schema.symbols_core]
  rfl

theorem describeUnion_core (o : ScopedOneOf) :
    (s.core.generator settings).describeUnion o.core = (s.generator settings).describeUnion o := by
  have halternatives :
      o.oneOf.core.fields.mapM ((s.core.generator settings).describeAlternative o.message) =
        o.oneOf.fields.mapM ((s.generator settings).describeAlternative o.message) := by
    rw [OneOf.fields_core, List.mapM_map]
    congr 1
    exact funext (describeAlternative_core s settings o.message)
  simp only [describeUnion, ScopedOneOf.core, halternatives]
  rfl

theorem unions_core : (s.core.generator settings).unions = (s.generator settings).unions := by
  rw [unions, unions]
  simp only [Schema.generator]
  rw [Schema.oneOfs_core, List.mapM_map]
  congr 1
  exact funext (describeUnion_core s settings)

/-- The number of a field goes into its description only as the number. -/
theorem map_describeProperty_core (n : TypeName) (p : Property) :
    ((s.core.generator settings).describeProperty n p.core).map FieldModel.untagged =
      ((s.generator settings).describeProperty n p).map FieldModel.untagged := by
  cases p with
  | field f =>
    simp only [describeProperty, specOf, Property.core, Schema.generator, Schema.symbols_core,
      Field.core, bind_pure_eq_map]
    cases s.symbols.shapeOf f.type (some n) f.name with
    | error e => rfl
    | ok shape =>
      let spec : FieldSpec := ⟨f.name, shape, some f.tag⟩
      let hint := (s.generator settings).sizeHint n spec
      change Except.map _ (Except.map _ (spec.describe settings.target hint)) =
        Except.map _ (Except.map _ (spec.describe settings.target hint))
      rw [map_map, map_map]
      rfl
  | oneOf o => rfl

theorem map_describeScoped_core (n : TypeName) (m : Message) :
    ((s.core.generator settings).describeScoped n m.core).map MessageModel.untagged =
      ((s.generator settings).describeScoped n m).map MessageModel.untagged := by
  have hfields : (m.core.properties.mapM
        ((s.core.generator settings).describeProperty n)).map (List.map FieldModel.untagged) =
      (m.properties.mapM ((s.generator settings).describeProperty n)).map
        (List.map FieldModel.untagged) := by
    rw [map_mapM, map_mapM, Message.properties_core, List.mapM_map]
    congr 1
    exact funext (map_describeProperty_core s settings n)
  have hclass := congrArg (Except.map fun fields : List FieldModel =>
    (⟨n, settings.naming.classSymbol n, settings.target.wireClass n, fields⟩ : MessageModel))
    hfields
  rw [map_map, map_map] at hclass
  simp only [describeScoped, bind_pure_eq_map, map_map]
  exact hclass

theorem map_messages_core :
    (s.core.generator settings).messages.map (List.map MessageModel.untagged) =
      (s.generator settings).messages.map (List.map MessageModel.untagged) := by
  rw [messages, messages, map_mapM, map_mapM]
  simp only [Schema.generator]
  rw [Schema.messages_core, List.mapM_map]
  congr 1
  funext m
  exact map_describeScoped_core s settings m.1 m.2

variable {s} {settings}

/-- Schemas that differ only in what the wire schema shows have the same model but for the numbers
of fields. -/
theorem untagged_eq_of_core_eq {s' : Schema} {model model' : ObjectModel} (h : s.core = s'.core)
    (hm : (s.generator settings).model = .ok model)
    (hm' : (s'.generator settings).model = .ok model') : model.untagged = model'.untagged := by
  obtain ⟨he, hu, hc⟩ := parts_of_model hm
  obtain ⟨he', hu', hc'⟩ := parts_of_model hm'
  rw [← enums_core, h, enums_core, he'] at he
  rw [← unions_core, h, unions_core, hu'] at hu
  have hmessages := map_messages_core s settings
  rw [h, map_messages_core s' settings] at hmessages
  have hclasses := eq_of_map_eq_map hmessages hc' hc
  rw [ObjectModel.untagged, ObjectModel.untagged, Except.ok.inj he, Except.ok.inj hu, hclasses]

end Generator

/-- The object model file of a run does not depend on what only the wire schema shows. -/
theorem Schema.generate_model_eq {s s' : Schema} {settings : Settings}
    {files files' : GeneratedFiles} (hcore : s.core = s'.core)
    (h : s.generate settings = .ok files) (h' : s'.generate settings = .ok files') :
    files.model = files'.model := by
  obtain ⟨g, hg, h⟩ := bind_eq_ok_iff.1 h
  obtain ⟨g', hg', h'⟩ := bind_eq_ok_iff.1 h'
  obtain ⟨model, hm, rfl⟩ := Generator.model_of_generate h
  obtain ⟨model', hm', rfl⟩ := Generator.model_of_generate h'
  cases Generator.eq_of_ofSchema hg
  cases Generator.eq_of_ofSchema hg'
  have hmodel := Generator.untagged_eq_of_core_eq hcore hm hm'
  have hpackage : s.package = s'.package := (congrArg package hcore :)
  have himports := Generator.moreImports_congr hpackage settings
  change (s.generator settings).modelFile model = (s'.generator settings).modelFile model'
  rw [Generator.modelFile, Generator.modelFile, ← model.render_untagged, hmodel,
    model'.render_untagged]
  exact congrArg (fun imports => GeneratedFile.mk _ (model'.render _ imports)) himports

/-- A schema with few numbers and without settings. -/
def Schema.bare : Schema where
  package := "shop"
  definitions := [
    .enumeration ⟨"Level", [
      .value { name := "LOW", tag := 0, isNegative := true }, .value { name := "HIGH", tag := 1 }]⟩,
    .message ⟨"Order", [
      .field { type := { expr := .named "Level" }, name := "level", tag := 1 },
      .message "Part" [
        .field { type := { expr := .map "string" "Level" }, name := "levels", tag := 1 }],
      .oneOf ⟨"content", [
        .field { type := { expr := .named "Part" }, name := "part", tag := 2 }]⟩]⟩]

/-- The same definitions with other numbers, settings, reserved items and a service. -/
def Schema.adorned : Schema where
  package := "shop"
  definitions := [
    .service ⟨"Shop", [.rpc { name := "Buy", inType := "Order", outType := "Order.Part" }]⟩,
    .enumeration ⟨"Level", [
      .option ⟨"allow_alias", "true"⟩,
      .value { name := "LOW", tag := 0, options := [⟨"deprecated", "true"⟩] },
      .value { name := "HIGH", tag := 7, isNegative := true }]⟩,
    .message ⟨"Order", [
      .reserved [.range 5 9, .name "old"],
      .field {
        type := { expr := .named "Level" }
        name := "level"
        tag := 40
        options := [⟨"deprecated", "true"⟩] },
      .message "Part" [
        .option ⟨"map_entry", "false"⟩,
        .field { type := { expr := .map "string" "Level" }, name := "levels", tag := 3 }],
      .oneOf ⟨"content", [
        .option ⟨"lazy", "true"⟩,
        .field { type := { expr := .named "Part" }, name := "part", tag := 1 }]⟩]⟩]

theorem Schema.generate_adorned :
    bare.core = adorned.core ∧
    ∃ files files', bare.generate { validateTags := true } = .ok files ∧
      adorned.generate { validateTags := true } = .ok files' ∧ files.model = files'.model := by
  have hcore : bare.core = adorned.core := rfl
  have h : verdict (bare.generate { validateTags := true }) = .ok () := by decide +kernel
  have h' : verdict (adorned.generate { validateTags := true }) = .ok () := by decide +kernel
  obtain ⟨files, h⟩ := verdict_eq_ok_iff.1 h
  obtain ⟨files', h'⟩ := verdict_eq_ok_iff.1 h'
  exact ⟨hcore, files, files', h, h', generate_model_eq hcore h h'⟩

end WireModel
