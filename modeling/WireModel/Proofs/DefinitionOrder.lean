import WireModel.Proofs.Acceptance
import WireModel.Proofs.FieldNumbers
import WireModel.Proofs.ImportBlock

namespace WireModel

open Outcome

/-- Two tables that answer every question alike. -/
structure Symbols.Agree (t t' : Symbols) : Prop where
  category? : ∀ n, t.category? n = t'.category? n
  lookup? : ∀ name scope, t.lookup? name scope = t'.lookup? name scope
  kindOf : ∀ name scope, t.kindOf name scope = t'.kindOf name scope
  shapeOf : ∀ type scope field, t.shapeOf type scope field = t'.shapeOf type scope field
  rpcShape : ∀ name stream scope, t.rpcShape name stream scope = t'.rpcShape name stream scope

/-- The answers of a table come from its package and from what it has under each full name. -/
theorem Symbols.agree_of_category? {t t' : Symbols} (hp : t.package = t'.package)
    (hc : ∀ n, t.category? n = t'.category? n) : t.Agree t' := by
  have hwithout : t.withoutPackage? = t'.withoutPackage? := by
    funext cs
    rw [withoutPackage?, withoutPackage?, hp]
  have hanchored (name : String) : t.anchored? name = t'.anchored? name := by
    simp only [anchored?, hwithout]
  have hfind : t.find? = t'.find? := by
    funext n
    rw [find?, find?, hc]
  have hlookup (name : String) (scope : Option TypeName) :
      t.lookup? name scope = t'.lookup? name scope := by
    rw [lookup?, lookup?, hanchored, hfind]
  have hkind (name : String) (scope : Option TypeName) :
      t.kindOf name scope = t'.kindOf name scope := by
    rw [kindOf, kindOf, hlookup]
  refine ⟨hc, hlookup, hkind, ?_, ?_⟩
  · intro type scope field
    simp only [shapeOf, hkind]
  · intro name stream scope
    rw [rpcShape, rpcShape, hkind]

variable {s s' : Schema}

namespace Schema

theorem messages_perm (h : s.definitions.Perm s'.definitions) : s.messages.Perm s'.messages :=
  h.flatMap_right _

theorem enumerations_perm (h : s.definitions.Perm s'.definitions) :
    s.enumerations.Perm s'.enumerations :=
  h.flatMap_right _

theorem services_perm (h : s.definitions.Perm s'.definitions) : s.services.Perm s'.services :=
  h.filterMap _

theorem nodup_names_iff (h : s.definitions.Perm s'.definitions) :
    s.names.Nodup ↔ s'.names.Nodup :=
  (((messages_perm h).map _).append ((enumerations_perm h).map _)).nodup_iff

theorem symbols_agree (hp : s.package = s'.package) (h : s.definitions.Perm s'.definitions)
    (hn : s.names.Nodup) : s.symbols.Agree s'.symbols := by
  have hentries : s.symbols.entries.Perm s'.symbols.entries :=
    ((messages_perm h).map _).append ((enumerations_perm h).map _)
  rw [← Symbols.map_fst_declarations] at hn
  have hn' := (hentries.map Prod.fst).nodup_iff.1 hn
  apply Symbols.agree_of_category? hp
  intro n
  apply Option.ext
  intro c
  rw [Symbols.category?_eq_some_iff hn, Symbols.category?_eq_some_iff hn', hentries.mem_iff]

theorem validate_perm (h : s.definitions.Perm s'.definitions) :
    s.validate = .ok () ↔ s'.validate = .ok () := by
  simp only [validate_eq_ok_iff, (messages_perm h).mem_iff, (enumerations_perm h).mem_iff]

end Schema

/-- Requirements look at each definition for itself, once names stand for the same types. -/
theorem Requirement.met_perm (hp : s.package = s'.package) (h : s.definitions.Perm s'.definitions)
    (settings : Settings) (hmet : ∀ r : Requirement, r.Met s settings) (r : Requirement) :
    r.Met s' settings := by
  have hagree := Schema.symbols_agree hp h (hmet .names)
  have hr := hmet r
  cases r with
  | names => exact (Schema.nodup_names_iff h).1 hr
  | numbers => exact fun hv => (Schema.validate_perm h).1 (hr hv)
  | procedures =>
    intro d hd p hrpc
    have hcarries := hr d ((Schema.services_perm h).mem_iff.2 hd) p hrpc
    simpa only [Rpc.CarriesMessages, hagree.kindOf] using hcarries
  | constants => exact fun e he => hr e ((Schema.enumerations_perm h).mem_iff.2 he)
  | alternatives =>
    intro m hm o ho f hf
    have hfits := hr m ((Schema.messages_perm h).mem_iff.2 hm) o ho f hf
    simpa only [FieldType.FitsAlternative, hagree.kindOf] using hfits
  | fields =>
    intro m hm f hf
    have hfits := hr m ((Schema.messages_perm h).mem_iff.2 hm) f hf
    simpa only [FieldType.FitsField, hagree.kindOf] using hfits

namespace Generator

variable {settings : Settings} {model model' : ObjectModel}

theorem describeScoped_perm (h : s.symbols.Agree s'.symbols) (settings : Settings) (n : TypeName)
    (m : Message) :
    (s.generator settings).describeScoped n m = (s'.generator settings).describeScoped n m := by
  have hspec : (s.generator settings).specOf n = (s'.generator settings).specOf n := by
    funext p
    cases p with
    | field f => simp only [specOf, Schema.generator, h.shapeOf]
    | oneOf o => rfl
  have hproperty : (s.generator settings).describeProperty n =
      (s'.generator settings).describeProperty n := by
    funext p
    rw [describeProperty, describeProperty, hspec]
    rfl
  rw [describeScoped, describeScoped, hproperty]
  rfl

theorem describeMessage_perm (hp : s.package = s'.package)
    (h : s.definitions.Perm s'.definitions) (hn : s.names.Nodup) (settings : Settings)
    (n : TypeName) :
    (s.generator settings).describeMessage n = (s'.generator settings).describeMessage n := by
  have hagree := Schema.symbols_agree hp h hn
  have hnodup : (s.messages.map Prod.fst).Nodup := (List.nodup_append.1 hn).1
  have hnodup' := ((Schema.messages_perm h).map Prod.fst).nodup_iff.1 hnodup
  have hfind : s.messages.find? (fun m => m.1 == n) = s'.messages.find? fun m => m.1 == n := by
    apply Option.ext
    intro p
    rw [find?_fst_eq_some_iff hnodup, find?_fst_eq_some_iff hnodup',
      (Schema.messages_perm h).mem_iff]
  simp only [describeMessage, Schema.generator]
  rw [hfind]
  split
  · exact describeScoped_perm hagree settings _ _
  · rfl

/-- The imports of a file are those of the same messages in any order. -/
theorem imports_perm (hp : s.package = s'.package) (h : s.definitions.Perm s'.definitions)
    (hn : s.names.Nodup) (hm : (s.generator settings).model = .ok model)
    (hm' : (s'.generator settings).model = .ok model') :
    model.imports (s.generator settings).moreImports =
      model'.imports (s'.generator settings).moreImports := by
  have hagree := Schema.symbols_agree hp h hn
  have hmem (m : MessageModel) : m ∈ model.messages ↔ m ∈ model'.messages := by
    simp only [mem_messages_iff hm, mem_messages_iff hm', describeScoped_perm hagree settings]
    exact exists_congr fun p => and_congr_left' (Schema.messages_perm h).mem_iff
  rw [ObjectModel.imports, ObjectModel.imports, moreImports_congr hp]
  apply sortedUnique_congr
  intro x
  simp only [List.mem_append, List.mem_flatMap, hmem]

end Generator

/-- What two schemas have in common that list the same definitions. -/
structure Schema.Interchangeable (s s' : Schema) (settings : Settings) : Prop where
  symbols : (∃ t, Symbols.ofSchema s = .ok t) ↔ ∃ t, Symbols.ofSchema s' = .ok t
  answers : ∀ t t', Symbols.ofSchema s = .ok t → Symbols.ofSchema s' = .ok t' → t.Agree t'
  generators :
    (∃ g, Generator.ofSchema s settings = .ok g) ↔ ∃ g, Generator.ofSchema s' settings = .ok g
  descriptions : ∀ g g', Generator.ofSchema s settings = .ok g →
    Generator.ofSchema s' settings = .ok g' → ∀ n, g.describeMessage n = g'.describeMessage n
  runs : (∃ files, s.generate settings = .ok files) ↔ ∃ files, s'.generate settings = .ok files
  imports : ∀ files files', s.generate settings = .ok files → s'.generate settings = .ok files' →
    ∃ g g' model model', Generator.ofSchema s settings = .ok g ∧
      Generator.ofSchema s' settings = .ok g' ∧ g.model = .ok model ∧ g'.model = .ok model' ∧
      files = ⟨g.wireFile, g.modelFile model⟩ ∧ files' = ⟨g'.wireFile, g'.modelFile model'⟩ ∧
      files.model.contents = Text.unlines (model.lines settings.modelPackage g.moreImports) ∧
      files'.model.contents = Text.unlines (model'.lines settings.modelPackage g'.moreImports) ∧
      (model.lines settings.modelPackage g.moreImports).filter isImportLine =
        (model'.lines settings.modelPackage g'.moreImports).filter isImportLine

/-- The order of the definitions of a schema does not matter. -/
theorem Schema.interchangeable_of_perm (hp : s.package = s'.package)
    (h : s.definitions.Perm s'.definitions) (settings : Settings) :
    s.Interchangeable s' settings where
  symbols := by
    simp only [Symbols.ofSchema_eq_ok_iff, exists_and_left, exists_eq, and_true]
    exact nodup_names_iff h
  answers := by
    intro t t' ht ht'
    obtain ⟨hn, rfl⟩ := Symbols.ofSchema_eq_ok_iff.1 ht
    obtain ⟨_, rfl⟩ := Symbols.ofSchema_eq_ok_iff.1 ht'
    exact symbols_agree hp h hn
  generators := by
    simp only [Generator.ofSchema_eq_ok_iff, exists_and_left, exists_eq, and_true]
    rw [nodup_names_iff h, validate_perm h]
  descriptions := by
    intro g g' hg hg'
    obtain ⟨hn, _, rfl⟩ := Generator.ofSchema_eq_ok_iff.1 hg
    obtain ⟨_, _, rfl⟩ := Generator.ofSchema_eq_ok_iff.1 hg'
    exact Generator.describeMessage_perm hp h hn settings
  runs := by
    rw [succeeds_iff_met, succeeds_iff_met]
    exact ⟨Requirement.met_perm hp h settings, Requirement.met_perm hp.symm h.symm settings⟩
  imports := by
    intro files files' hf hf'
    obtain ⟨g, hg, hf⟩ := bind_eq_ok_iff.1 hf
    obtain ⟨g', hg', hf'⟩ := bind_eq_ok_iff.1 hf'
    obtain ⟨model, hm, rfl⟩ := Generator.model_of_generate hf
    obtain ⟨model', hm', rfl⟩ := Generator.model_of_generate hf'
    obtain ⟨hn, _, rfl⟩ := Generator.ofSchema_eq_ok_iff.1 hg
    obtain ⟨_, _, rfl⟩ := Generator.ofSchema_eq_ok_iff.1 hg'
    refine ⟨_, _, model, model', hg, hg', hm, hm', rfl, rfl, model.render_eq _ _,
      model'.render_eq _ _, ?_⟩
    rw [model.filter_isImportLine, model'.filter_isImportLine,
      Generator.imports_perm hp h hn hm hm']

/-- A schema whose definitions refer to later ones. -/
def Schema.forward : Schema where
  package := "shop"
  definitions := [
    .service ⟨"Shop", [.rpc { name := "Buy", inType := "Order", outType := "Order.Part" }]⟩,
    .message ⟨"Order", [
      .message "Part" [
        .field
          { type := { repeated := true, expr := .named "Level" }, name := "levels", tag := 1 }],
      .field { type := { expr := .map "string" "Stock" }, name := "stocks", tag := 1 }]⟩,
    .message ⟨"Stock", [
      .field { type := { repeated := true, expr := .named "int32" }, name := "counts", tag := 1 }]⟩,
    .enumeration ⟨"Level", [.value { name := "LOW", tag := 0 }]⟩]

/-- The same definitions in the opposite order. -/
def Schema.backward : Schema where
  package := "shop"
  definitions := forward.definitions.reverse

theorem Schema.interchangeable_backward :
    forward.package = backward.package ∧ forward.definitions.Perm backward.definitions ∧
    (∃ files, forward.generate { compact := true, validateTags := true } = .ok files) ∧
    forward.Interchangeable backward { compact := true, validateTags := true } := by
  have h : verdict (forward.generate { compact := true, validateTags := true }) = .ok () := by
    decide +kernel
  have hpackage : forward.package = backward.package := rfl
  have hperm : forward.definitions.Perm backward.definitions :=
    (List.reverse_perm forward.definitions).symm
  exact ⟨hpackage, hperm, verdict_eq_ok_iff.1 h, interchangeable_of_perm hpackage hperm _⟩

end WireModel
