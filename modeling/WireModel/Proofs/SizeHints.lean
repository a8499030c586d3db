import WireModel.Proofs.Agreement
import WireModel.Proofs.ReaderLines

namespace WireModel

open Outcome

/-- Two runs fail alike or give related results. -/
inductive Outcome.Both {ε α β : Type} (R : α → β → Prop) : Except ε α → Except ε β → Prop
  | ok {a : α} {b : β} (h : R a b) : Both R (.ok a) (.ok b)
  | error (e : ε) : Both R (.error e) (.error e)

theorem Outcome.both_map {ε α β : Type} {R : α → β → Prop} {x : Except ε α} {h : α → β}
    (hr : ∀ a, x = .ok a → R a (h a)) : Both R x (x.map h) := by
  cases x with
  | error e => exact .error e
  | ok a => exact .ok (hr a rfl)

/-- Settings with other hints for the size of containers. -/
def Settings.withHints (a : Settings) (counts : Bool) (hints : SizeHints) : Settings :=
  { a with countHints := counts, sizeHints := hints }

/-- The description with a container of another size. -/
def FieldDescription.sized (shape : Shape) (hint : Option String) (d : FieldDescription) :
    FieldDescription :=
  if shape.isCollection then
    ⟨d.selection, .literal (d.selection.representation.construct hint), d.conversion.filling,
      d.conversion.encoding⟩
  else d

/-- The default that the representation of the property states. -/
def FieldModel.default (f : FieldModel) : String :=
  f.description.selection.representation.defaultExpr

/-- The property with a container of another size. -/
def FieldModel.sized (hint : Option String) (f : FieldModel) : FieldModel :=
  { f with description := f.description.sized f.spec.shape hint }

def MessageModel.sized (hint : FieldSpec → Option String) (m : MessageModel) : MessageModel :=
  { m with fields := m.fields.map fun f => f.sized (hint f.spec) }

def ObjectModel.sized (hint : TypeName → FieldSpec → Option String) (o : ObjectModel) :
    ObjectModel :=
  { o with messages := o.messages.map fun m => m.sized (hint m.name) }

/-- A hint goes only into the expression that makes a container. -/
theorem FieldSpec.describe_hint (t : Target) (field : FieldSpec) (hint hint' : Option String) :
    field.describe t hint' = (field.describe t hint).map (.sized field.shape hint') := by
  obtain ⟨name, shape, tag⟩ := field
  rw [describe, describe]
  cases Selection.ofShape t name shape with
  | error e => rfl
  | ok s =>
    cases shape with
    | single k =>
      simp only [Conversion.ofField]
      cases Rule.ofKind t name k <;> rfl
    | optional k =>
      simp only [Conversion.ofField]
      cases Rule.ofKind t name k <;> rfl
    | repeated k =>
      simp only [Conversion.ofField]
      cases Rule.ofElement t name k <;> rfl
    | map key k =>
      simp only [Conversion.ofField]
      cases key.keyType name with
      | error e => rfl
      | ok keyType => cases Rule.ofElement t name k <;> rfl
    | stream inner => rfl

theorem Selection.list_container (t : Target) (k : Kind) (element : String) :
    ∃ type c, (list t k element).representation = .container type c := by
  rw [list]
  split
  · exact ⟨_, _, rfl⟩
  · exact ⟨_, _, rfl⟩

theorem Selection.map_container (t : Target) (key : Scalar) (k : Kind) (keyType value : String) :
    ∃ type c, (map t key k keyType value).representation = .container type c := by
  rw [map]
  split
  · exact ⟨_, _, rfl⟩
  · exact ⟨_, _, rfl⟩

/-- A container without a size is the default of its property. -/
theorem Selection.construct_none {t : Target} {f : String} {shape : Shape} {s : Selection}
    (h : ofShape t f shape = .ok s) :
    s.representation.construct none = s.representation.defaultExpr := by
  have hsome := isSome_constructor h
  have hplain (hshape : shape.isCollection = false) :
      s.representation.construct none = s.representation.defaultExpr := by
    rw [hshape, Option.isSome_eq_false_iff, Option.isNone_iff_eq_none] at hsome
    rw [Representation.construct, hsome]
  cases shape with
  | single k => exact hplain rfl
  | optional k => exact hplain rfl
  | repeated k =>
    obtain ⟨element, _, h⟩ := bind_eq_ok_iff.1 h
    cases h
    obtain ⟨type, c, hr⟩ := list_container t k element.nativeType
    rw [hr]
    rfl
  | map key k =>
    obtain ⟨keyType, _, h⟩ := bind_eq_ok_iff.1 h
    obtain ⟨element, _, h⟩ := bind_eq_ok_iff.1 h
    cases h
    obtain ⟨type, c, hr⟩ := map_container t key k keyType element.nativeType
    rw [hr]
    rfl
  | stream inner => exact hplain rfl

namespace FieldModel

variable {t : Target} {naming : Naming} {spec : FieldSpec} {hint : Option String}
  {d : FieldDescription}

theorem resized_sized (h : spec.describe t hint = .ok d) (hint' : Option String) :
    Resized ⟨spec, .ofName naming spec.name, d⟩
      (sized hint' ⟨spec, .ofName naming spec.name, d⟩) := by
  obtain ⟨rule, _, hplan⟩ := FieldSpec.describe_plan h
  obtain ⟨name, shape, tag⟩ := spec
  obtain ⟨selection, conversion⟩ := d
  cases hplan with
  | single k => exact .same _
  | optional k => exact .same _
  | repeated k c hint hc => exact .container rfl _ _ _ _ _ _
  | map key k c hint hc => exact .container rfl _ _ _ _ _ _

theorem initial_eq_default (h : spec.describe t hint = .ok d) :
    d.selection.representation.construct none = d.selection.representation.defaultExpr := by
  obtain ⟨s, hs, h⟩ := bind_eq_ok_iff.1 h
  obtain ⟨c, _, h⟩ := bind_eq_ok_iff.1 h
  cases h
  exact Selection.construct_none hs

end FieldModel

namespace SizeHints

theorem lookup_filter_ne {α β : Type} [BEq α] [LawfulBEq α] [DecidableEq α] {k other : α}
    (h : k ≠ other) (entries : List (α × β)) :
    (entries.filter fun e => e.1 ≠ other).lookup k = entries.lookup k := by
  induction entries with
  | nil => rfl
  | cons e entries ih =>
    obtain ⟨key, value⟩ := e
    by_cases hother : key = other
    · subst hother
      rw [List.filter_cons_of_neg (by simp), ih, List.lookup_cons, beq_eq_false_iff_ne.2 h]
    · rw [List.filter_cons_of_pos (by simpa using hother), List.lookup_cons, List.lookup_cons, ih]

theorem get?_insert (h : SizeHints) (message field expr m f : String) :
    (h.insert message field expr).get? m f =
      if m = message ∧ f = field then some expr else h.get? m f := by
  rw [get?, insert, List.lookup_cons]
  by_cases hkey : (m, f) = (message, field)
  · rw [beq_iff_eq.2 hkey, if_pos (Prod.mk.inj hkey)]
  · rw [beq_eq_false_iff_ne.2 hkey, if_neg (fun h => hkey (Prod.ext h.1 h.2))]
    exact lookup_filter_ne hkey h.entries

end SizeHints

/-- The class with containers of a given size in the properties with a name. -/
def MessageModel.override (field expr : String) (m : MessageModel) : MessageModel :=
  { m with fields := m.fields.map fun f =>
      if f.spec.name = field ∧ f.spec.shape.isCollection = true then f.sized (some expr) else f }

namespace Generator

variable (s : Schema) (a : Settings) (counts : Bool) (hints : SizeHints)

theorem describeProperty_withHints (n : TypeName) (p : Property) :
    (s.generator (a.withHints counts hints)).describeProperty n p =
      ((s.generator a).describeProperty n p).map fun f =>
        f.sized ((s.generator (a.withHints counts hints)).sizeHint n f.spec) := by
  have hspec :
      (s.generator (a.withHints counts hints)).specOf n p = (s.generator a).specOf n p := by
    cases p <;> rfl
  rw [describeProperty, describeProperty, hspec]
  cases (s.generator a).specOf n p with
  | error e => rfl
  | ok spec =>
    have hdescribe := spec.describe_hint a.target ((s.generator a).sizeHint n spec)
      ((s.generator (a.withHints counts hints)).sizeHint n spec)
    change (spec.describe a.target _ >>= fun d => pure _) =
      Except.map _ (spec.describe a.target _ >>= fun d => pure _)
    rw [bind_pure_eq_map, bind_pure_eq_map, hdescribe, map_map, map_map]
    rfl

theorem describeScoped_withHints (n : TypeName) (m : Message) :
    (s.generator (a.withHints counts hints)).describeScoped n m =
      ((s.generator a).describeScoped n m).map
        (.sized ((s.generator (a.withHints counts hints)).sizeHint n)) := by
  simp only [describeScoped, bind_pure_eq_map, map_map]
  have hfields := map_mapM ((s.generator a).describeProperty n)
    (fun f => f.sized ((s.generator (a.withHints counts hints)).sizeHint n f.spec)) m.properties
  simp only [← describeProperty_withHints] at hfields
  change Except.map _ (m.properties.mapM _) = _
  rw [← hfields, map_map]
  rfl

theorem describeMessage_withHints (n : TypeName) :
    (s.generator (a.withHints counts hints)).describeMessage n =
      ((s.generator a).describeMessage n).map
        (.sized ((s.generator (a.withHints counts hints)).sizeHint n)) := by
  simp only [describeMessage, Schema.generator]
  cases hfind : s.messages.find? fun m => m.1 == n with
  | none => rfl
  | some m =>
    have hname : m.1 = n := eq_of_beq (List.find?_some hfind :)
    cases hname
    exact describeScoped_withHints s a counts hints m.1 m.2

theorem messages_withHints :
    (s.generator (a.withHints counts hints)).messages =
      (s.generator a).messages.map (List.map fun m =>
        m.sized ((s.generator (a.withHints counts hints)).sizeHint m.name)) := by
  rw [messages, messages, map_mapM]
  congr 1
  funext m
  change (s.generator (a.withHints counts hints)).describeScoped m.1 m.2 =
    ((s.generator a).describeScoped m.1 m.2).map _
  rw [describeScoped_withHints]
  cases h : (s.generator a).describeScoped m.1 m.2 with
  | error e => rfl
  | ok model =>
    obtain ⟨fields, _, rfl⟩ := describeScoped_eq_ok_iff.1 h
    rfl

theorem model_withHints :
    (s.generator (a.withHints counts hints)).model =
      (s.generator a).model.map (.sized (s.generator (a.withHints counts hints)).sizeHint) := by
  have hservices : (s.generator (a.withHints counts hints)).checkServices =
    (s.generator a).checkServices := rfl
  have henums : (s.generator (a.withHints counts hints)).enums = (s.generator a).enums := rfl
  have hunions : (s.generator (a.withHints counts hints)).unions = (s.generator a).unions := rfl
  rw [model, model, hservices, henums, hunions, messages_withHints]
  cases (s.generator a).checkServices with
  | error e => rfl
  | ok _ =>
    cases (s.generator a).enums with
    | error e => rfl
    | ok enums =>
      cases (s.generator a).unions with
      | error e => rfl
      | ok unions => cases (s.generator a).messages <;> rfl

variable {s a}

theorem exists_describe {g : Generator} {n : TypeName} {m : Message} {model : MessageModel}
    (h : g.describeScoped n m = .ok model) {f : FieldModel} (hf : f ∈ model.fields) :
    ∃ spec d, spec.describe g.target (g.sizeHint n spec) = .ok d ∧
      f = ⟨spec, .ofName g.settings.naming spec.name, d⟩ := by
  obtain ⟨fields, hfields, rfl⟩ := describeScoped_eq_ok_iff.1 h
  obtain ⟨p, _, hp⟩ := exists_source hfields hf
  obtain ⟨spec, d, _, hd, rfl⟩ := describeProperty_eq_ok_iff.1 hp
  exact ⟨spec, d, hd, rfl⟩

theorem resized_sized {g : Generator} {n : TypeName} {m : Message} {model : MessageModel}
    (h : g.describeScoped n m = .ok model) (hint : FieldSpec → Option String) :
    model.Resized (model.sized hint) := by
  obtain ⟨name, className, wireClass, fields⟩ := model
  apply MessageModel.Resized.fields
  rw [List.forall₂_map_right_iff, List.forall₂_same]
  intro f hf
  obtain ⟨spec, d, hd, rfl⟩ := exists_describe h hf
  exact FieldModel.resized_sized hd _

theorem create_eq_default {g : Generator} {n : TypeName} {m : Message} {model : MessageModel}
    (h : g.describeScoped n m = .ok model) (opening : String) :
    model.call opening FieldModel.initial = model.call opening FieldModel.default := by
  apply MessageModel.call_congr
  intro f hf
  obtain ⟨spec, d, hd, rfl⟩ := exists_describe h hf
  exact FieldModel.initial_eq_default hd

/-- A property that has been described is the one with its own hint. -/
theorem sized_sizeHint {g : Generator} {n : TypeName} {m : Message} {model : MessageModel}
    (h : g.describeScoped n m = .ok model) {f : FieldModel} (hf : f ∈ model.fields) :
    f.sized (g.sizeHint n f.spec) = f := by
  obtain ⟨spec, d, hd, rfl⟩ := exists_describe h hf
  have hsame := spec.describe_hint g.target (g.sizeHint n spec) (g.sizeHint n spec)
  rw [hd] at hsame
  exact congrArg (FieldModel.mk spec _) (Except.ok.inj hsame).symm

theorem exists_constructor {g : Generator} {n : TypeName} {m : Message} {model : MessageModel}
    (h : g.describeScoped n m = .ok model) {f : FieldModel} (hf : f ∈ model.fields)
    (hc : f.spec.shape.isCollection = true) :
    ∃ c, f.description.selection.representation.constructor = some c := by
  obtain ⟨spec, d, hd, rfl⟩ := exists_describe h hf
  obtain ⟨selection, hs, hd⟩ := bind_eq_ok_iff.1 hd
  obtain ⟨conversion, _, hd⟩ := bind_eq_ok_iff.1 hd
  cases hd
  have hsome := Selection.isSome_constructor hs
  exact Option.isSome_iff_exists.1 (hsome.trans hc)

/-- An added hint is the hint of one field of one message and of no other. -/
theorem sizeHint_insert (message field expr : String) (n : TypeName) (spec : FieldSpec) :
    (s.generator
        (a.withHints a.countHints (a.sizeHints.insert message field expr))).sizeHint n spec =
      if n.text = message ∧ spec.name = field ∧ spec.shape.isCollection = true then some expr
      else (s.generator a).sizeHint n spec := by
  rw [sizeHint, sizeHint]
  cases hc : spec.shape.isCollection with
  | false => simp
  | true =>
    simp only [Schema.generator, Settings.withHints, SizeHints.get?_insert, and_true]
    by_cases hkey : n.text = message ∧ spec.name = field
    · rw [if_pos hkey, if_pos hkey]
      rfl
    · rw [if_neg hkey, if_neg hkey]
      rfl

theorem sized_insert {n : TypeName} {m : Message} {model : MessageModel}
    (h : (s.generator a).describeScoped n m = .ok model) (message field expr : String) :
    model.sized ((s.generator
        (a.withHints a.countHints (a.sizeHints.insert message field expr))).sizeHint n) =
      if n.text = message then model.override field expr else model := by
  obtain ⟨name, className, wireClass, fields⟩ := model
  have hfield : ∀ f ∈ fields, f.sized ((s.generator
        (a.withHints a.countHints (a.sizeHints.insert message field expr))).sizeHint n f.spec) =
      if n.text = message ∧ f.spec.name = field ∧ f.spec.shape.isCollection = true then
        f.sized (some expr) else f := by
    intro f hf
    rw [sizeHint_insert]
    split
    · rfl
    · exact sized_sizeHint h hf
  rw [MessageModel.sized, List.map_congr_left hfield]
  by_cases hn : n.text = message
  · rw [if_pos hn, MessageModel.override]
    simp only [hn, true_and]
  · rw [if_neg hn]
    simp [hn]

theorem exists_scoped {g : Generator} {n : TypeName} {model : MessageModel}
    (h : g.describeMessage n = .ok model) : ∃ m, g.describeScoped n m = .ok model := by
  rw [describeMessage] at h
  split at h
  · next name m hfind =>
    have hname : name = n := eq_of_beq (List.find?_some hfind :)
    cases hname
    exact ⟨m, h⟩
  · cases h

/-- The lines of the object model file. -/
def modelLines (g : Generator) (o : ObjectModel) : List String :=
  o.lines g.settings.modelPackage g.moreImports

/-- Two runs that differ only in the expressions with which readers make containers. -/
structure SameButSizes (g g' : Generator) : Prop where
  classes : ∀ n, Both MessageModel.Resized (g.describeMessage n) (g'.describeMessage n)
  lines : Both (fun o o' => (g.modelFile o).contents = Text.unlines (g.modelLines o) ∧
    (g'.modelFile o').contents = Text.unlines (g'.modelLines o') ∧
    Alike o.messages o'.messages (g.modelLines o) (g'.modelLines o') ∧
    (g.modelLines o).length = (g'.modelLines o').length) g.model g'.model
  create : ∀ n m m', g.describeMessage n = .ok m → g'.describeMessage n = .ok m' → ∀ opening,
    m.call opening FieldModel.initial = m'.call opening FieldModel.initial ∧
      m.call opening FieldModel.initial = m.call opening FieldModel.default

theorem sameButSizes (s : Schema) (a : Settings) (counts : Bool) (hints : SizeHints) :
    (s.generator a).SameButSizes (s.generator (a.withHints counts hints)) := by
  have hclass : ∀ n m, (s.generator a).describeMessage n = .ok m →
      m.Resized (m.sized ((s.generator (a.withHints counts hints)).sizeHint n)) := by
    intro n m hm
    obtain ⟨message, hm⟩ := exists_scoped hm
    exact resized_sized hm _
  refine ⟨?_, ?_, ?_⟩
  · intro n
    rw [describeMessage_withHints]
    exact both_map (hclass n)
  · rw [model_withHints]
    apply both_map
    intro o ho
    have hmessages : List.Forall₂ MessageModel.Resized o.messages
        (o.sized (s.generator (a.withHints counts hints)).sizeHint).messages := by
      rw [ObjectModel.sized, List.forall₂_map_right_iff, List.forall₂_same]
      intro m hm
      obtain ⟨p, _, hp⟩ := (mem_messages_iff ho).1 hm
      exact resized_sized hp _
    have halike := alike_lines o (o.sized (s.generator (a.withHints counts hints)).sizeHint) rfl rfl
      hmessages a.modelPackage (s.generator a).moreImports
    exact ⟨ObjectModel.render_eq _ _ _, ObjectModel.render_eq _ _ _, halike, halike.length_eq⟩
  · intro n m m' hm hm' opening
    rw [describeMessage_withHints, hm] at hm'
    cases hm'
    obtain ⟨message, hmessage⟩ := exists_scoped hm
    exact ⟨(hclass n m hm).create_eq opening, create_eq_default hmessage opening⟩

theorem ofSchema_withHints {g : Generator} (h : ofSchema s a = .ok g) (counts : Bool)
    (hints : SizeHints) :
    ofSchema s (a.withHints counts hints) = .ok (s.generator (a.withHints counts hints)) := by
  obtain ⟨hn, hv, _⟩ := ofSchema_eq_ok_iff.1 h
  exact ofSchema_eq_ok_iff.2 ⟨hn, hv, rfl⟩

/-- Hints for sizes change nothing but the containers that readers make, and a hint for one field
only that of this field. -/
theorem sizeHints_frame {s : Schema} {a : Settings} {g : Generator} (h : ofSchema s a = .ok g) :
    (∀ counts hints, ∃ g',
      ofSchema s { a with countHints := counts, sizeHints := hints } = .ok g' ∧
        g.SameButSizes g') ∧
    (∀ message field expr, ∃ g',
      ofSchema s { a with sizeHints := a.sizeHints.insert message field expr } = .ok g' ∧
        ∀ n, g'.describeMessage n = (g.describeMessage n).map fun m =>
          if n.text = message then m.override field expr else m) ∧
    ∀ n m, g.describeMessage n = .ok m → ∀ f ∈ m.fields, f.spec.shape.isCollection = true →
      ∃ c, f.description.selection.representation.constructor = some c ∧
        ∀ expr, (f.sized (some expr)).description.conversion.decoding =
          .literal (c.sized ++ "(" ++ expr ++ ")") := by
  cases eq_of_ofSchema h
  refine ⟨?_, ?_, ?_⟩
  · intro counts hints
    exact ⟨_, ofSchema_withHints h counts hints, sameButSizes s a counts hints⟩
  · intro message field expr
    let hints := a.sizeHints.insert message field expr
    refine ⟨_, ofSchema_withHints h a.countHints hints, ?_⟩
    intro n
    rw [describeMessage_withHints]
    cases hm : (s.generator a).describeMessage n with
    | error e => rfl
    | ok m =>
      obtain ⟨message', hm⟩ := exists_scoped hm
      exact congrArg Except.ok (sized_insert hm message field expr)
  · intro n m hm f hf hc
    obtain ⟨message, hm⟩ := exists_scoped hm
    obtain ⟨c, hconstructor⟩ := exists_constructor hm hf hc
    refine ⟨c, hconstructor, ?_⟩
    intro expr
    rw [FieldModel.sized, FieldDescription.sized, if_pos hc,
      Representation.construct_of_constructor hconstructor]
    rfl

end Generator

/-- Containers, a field that is none, and a message without fields. -/
def Schema.stocked : Schema where
  package := "shop"
  definitions := [
    .message ⟨"Order", [
      .field { type := { repeated := true, expr := .named "Part" }, name := "parts", tag := 1 },
      .field { type := { expr := .map "string" "int32" }, name := "stock", tag := 2 },
      .field { type := { expr := .named "int64" }, name := "count", tag := 3 }]⟩,
    .message ⟨"Part", []⟩]

theorem Generator.sizeHints_stocked :
    ∃ g g' g'', ofSchema .stocked {} = .ok g ∧
      ofSchema .stocked { countHints := false } = .ok g' ∧ g.SameButSizes g' ∧
      ofSchema .stocked { sizeHints := .insert {} "Order" "parts" "64" } = .ok g'' ∧
      (g''.describeMessage ⟨"Order"⟩).map (fun m => m.fields.map FieldModel.decoded) =
        .ok ["ArrayList(64)", "LinkedHashMap(proto.stockCount)", "proto.count"] := by
  have hrun : verdict (ofSchema .stocked {}) = .ok () := by decide +kernel
  obtain ⟨g, hg⟩ := verdict_eq_ok_iff.1 hrun
  obtain ⟨hframe, hadd, _⟩ := sizeHints_frame hg
  obtain ⟨g', hg', hsame⟩ := hframe false {}
  obtain ⟨g'', hg'', hdescribe⟩ := hadd "Order" "parts" "64"
  refine ⟨g, g', g'', hg, hg', hsame, hg'', ?_⟩
  rw [hdescribe]
  cases eq_of_ofSchema hg
  decide +kernel

end WireModel
