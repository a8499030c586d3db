import WireModel.Proofs.Description
import WireModel.Proofs.SortedImports
import WireModel.Proofs.SourceLines
import WireModel.Proofs.Stages

namespace WireModel

open Outcome

/-- Lines that start with the word for an import. -/
def isImportLine (line : String) : Bool :=
  "import ".toList.isPrefixOf line.toList

/-- A type without its arguments. -/
def rawType (type : String) : String :=
  String.ofList (type.toList.takeWhile (· ≠ '<'))

/-- The package of the wire classes: the one that is set for them, or that of the wire schema, or
that of the schema itself. -/
def Settings.wireClassPackage (settings : Settings) (s : Schema) : String :=
  settings.javaPackage.getD (settings.wirePackage.getD s.package)

/-- What has to be imported for a field of a shape in a container of unboxed values. -/
def Shape.Needs (container i : String) : Shape → Prop
  | .repeated _ => i = "ktx.collections." ++ container
  | .map _ _ =>
    i = "com.badlogic.gdx.utils." ++ container ∨ i = "ktx.collections.component1" ∨
      i = "ktx.collections.component2"
  | .single _ | .optional _ | .stream _ => False

/-- What has to be imported for a property that is declared with such a container. -/
def FieldModel.Needs (f : FieldModel) (i : String) : Prop :=
  f.spec.shape.Needs (rawType f.description.selection.representation.nativeType) i

section Lines

theorem isImportLine_of_head? {line : String} (h : line.toList.head? ≠ some 'i') :
    isImportLine line = false := by
  rw [isImportLine, Bool.eq_false_iff, ne_eq, List.isPrefixOf_iff_prefix]
  rintro ⟨rest, hrest⟩
  apply h
  rw [← hrest]
  rfl

theorem isImportLine_import (i : String) : isImportLine ("import " ++ i) = true := by
  rw [isImportLine, String.toList_append, List.isPrefixOf_iff_prefix]
  exact List.prefix_append _ _

theorem unindented_isImportLine : Stmt.Unindented isImportLine := by
  intro l h
  apply isImportLine_of_head?
  intro hl
  cases h 'i' hl

theorem MessageModel.filter_isImportLine (m : MessageModel) :
    (m.source.flatMap Stmt.outerTexts).filter isImportLine = [] := by
  by_cases h : m.fields = []
  · rw [outerTexts_source_of_nil h]
    simp [isImportLine]
  · rw [outerTexts_source_of_ne_nil h]
    simp [isImportLine]

theorem ObjectModel.filter_isImportLine_of_mem_classes {o : ObjectModel} {c : List Stmt}
    (hc : c ∈ o.classes) : (c.flatMap Stmt.outerTexts).filter isImportLine = [] := by
  obtain hc | hc := List.mem_append.1 hc
  · obtain ⟨e, _, rfl⟩ := List.mem_map.1 hc
    simp [EnumModel.outerTexts_source, isImportLine]
  · obtain ⟨m, _, hc⟩ := List.mem_flatMap.1 hc
    obtain hc | hc := List.mem_append.1 hc
    · obtain ⟨u, _, rfl⟩ := List.mem_map.1 hc
      simp [UnionModel.outerTexts_source, isImportLine]
    · cases List.mem_singleton.1 hc
      exact m.filter_isImportLine

/-- The import lines of a file are those of its header. -/
theorem ObjectModel.filter_isImportLine (o : ObjectModel) (package : String)
    (moreImports : List String) :
    (o.lines package moreImports).filter isImportLine =
      (o.imports moreImports).map fun i => "import " ++ i := by
  have hclasses : (o.classes.flatMap fun c => (c.flatMap Stmt.outerTexts).filter isImportLine) =
      [] := by
    rw [List.flatMap_eq_nil_iff]
    exact fun c hc => filter_isImportLine_of_mem_classes hc
  have hpackage : (if package = "" then [] else ["package " ++ package]).filter isImportLine =
      [] := by
    split_ifs
    · rfl
    · simp [isImportLine]
  have himports : ((o.imports moreImports).map fun i => "import " ++ i).filter isImportLine =
      (o.imports moreImports).map fun i => "import " ++ i := by
    rw [List.filter_eq_self]
    intro l hl
    obtain ⟨i, _, rfl⟩ := List.mem_map.1 hl
    exact isImportLine_import i
  rw [filter_lines _ _ _ unindented_isImportLine, filter_header _ rfl, hclasses, hpackage, himports,
    List.append_nil]
  rfl

theorem pairwise_import {is : List String} (h : is.Pairwise (· < ·)) :
    (is.map fun i => "import " ++ i).Pairwise (· < ·) := by
  apply List.Pairwise.map _ _ h
  intro a b hab
  rw [String.lt_iff_toList_lt] at hab ⊢
  rw [String.toList_append, String.toList_append]
  exact List.append_left_lt hab

end Lines

section Containers

variable {t : Target} {f i : String} {k : Kind}

theorem rawType_append {start : String} (h : '<' ∈ start.toList) (rest : String) :
    rawType (start ++ rest) = rawType start := by
  have hlength : (start.toList.takeWhile (· ≠ '<')).length ≠ start.toList.length := by
    intro hl
    have hself := (List.takeWhile_prefix (· ≠ '<')).eq_of_length hl
    rw [← hself] at h
    simpa using List.all_eq_true.1 List.all_takeWhile '<' h
  rw [rawType, String.toList_append, List.takeWhile_append, if_neg hlength, rawType]

theorem rawType_generic {start : String} (h : '<' ∈ start.toList) (type : String) :
    rawType (start ++ type ++ ">") = rawType start := by
  rw [rawType_append (by simp [h]), rawType_append h]

namespace Selection

theorem rawType_compactList (k : Kind) (element : String) :
    rawType (compactList k element).2 = (compactList k element).1 := by
  rw [compactList]
  split_ifs <;> dsimp only
  · decide
  · decide
  · decide
  · exact (rawType_generic (by decide) _).trans (by decide)

theorem rawType_compactMap (key : Scalar) (k : Kind) (keyType valueType : String) :
    rawType (compactMap key k keyType valueType).2 = (compactMap key k keyType valueType).1 := by
  rw [compactMap]
  split_ifs <;> dsimp only
  · decide
  · decide
  · exact (rawType_generic (by decide) _).trans (by decide)
  · exact (rawType_generic (by decide) _).trans (by decide)
  · exact (rawType_generic (by decide) _).trans (by decide)
  · exact (rawType_generic (by decide) _).trans (by decide)
  · exact (rawType_generic (by decide) _).trans (by decide)
  · apply (rawType_generic (by simp) _).trans
    rw [rawType_append (by simp), rawType_append (by decide)]
    decide

theorem mem_imports_list {element : String} :
    i ∈ (list t k element).imports ↔ t.compact = true ∧
      i = "ktx.collections." ++ rawType (list t k element).representation.nativeType := by
  rw [list]
  split_ifs with hc
  · change i ∈ ["ktx.collections." ++ (compactList k element).1] ↔
      _ ∧ i = _ ++ rawType (compactList k element).2
    rw [rawType_compactList, List.mem_singleton]
    simp [hc]
  · simp [hc]

theorem mem_imports_map {key : Scalar} {keyType valueType : String} :
    i ∈ (map t key k keyType valueType).imports ↔ t.compact = true ∧
      (i = "com.badlogic.gdx.utils." ++
        rawType (map t key k keyType valueType).representation.nativeType ∨
      i = "ktx.collections.component1" ∨ i = "ktx.collections.component2") := by
  rw [map]
  split_ifs with hc
  · change i ∈ ["com.badlogic.gdx.utils." ++ (compactMap key k keyType valueType).1, _, _] ↔
      _ ∧ (i = _ ++ rawType (compactMap key k keyType valueType).2 ∨ _)
    rw [rawType_compactMap]
    simp [hc]
  · simp [hc]

/-- A field imports what its container needs, and only where values are kept unboxed. -/
theorem mem_imports_iff {shape : Shape} {s : Selection} (h : ofShape t f shape = .ok s) :
    i ∈ s.imports ↔
      t.compact = true ∧ shape.Needs (rawType s.representation.nativeType) i := by
  cases shape with
  | single k =>
    obtain ⟨_, _, h⟩ := bind_eq_ok_iff.1 h
    cases h
    simp [Shape.Needs]
  | optional k =>
    obtain ⟨_, _, h⟩ := bind_eq_ok_iff.1 h
    cases h
    simp [Shape.Needs]
  | repeated k =>
    obtain ⟨_, _, h⟩ := bind_eq_ok_iff.1 h
    cases h
    exact mem_imports_list
  | map key k =>
    obtain ⟨_, _, h⟩ := bind_eq_ok_iff.1 h
    obtain ⟨_, _, h⟩ := bind_eq_ok_iff.1 h
    cases h
    exact mem_imports_map
  | stream inner => cases h

end Selection

end Containers

namespace Generator

variable {g : Generator} {model : ObjectModel} {n : TypeName} {i : String}

theorem mem_imports_of_describeProperty {p : Property} {c : FieldModel}
    (h : g.describeProperty n p = .ok c) :
    i ∈ c.description.selection.imports ↔ g.settings.compact = true ∧ c.Needs i := by
  obtain ⟨spec, d, _, hd, rfl⟩ := describeProperty_eq_ok_iff.1 h
  obtain ⟨selection, hs, hd⟩ := bind_eq_ok_iff.1 hd
  obtain ⟨conversion, _, hd⟩ := bind_eq_ok_iff.1 hd
  cases hd
  exact Selection.mem_imports_iff hs

/-- The properties of a model that need an import are made from fields, never from oneofs. -/
theorem exists_import_iff (h : g.model = .ok model) :
    (∃ m ∈ model.messages, ∃ c ∈ m.fields, i ∈ c.description.selection.imports) ↔
      g.settings.compact = true ∧ ∃ p ∈ g.schema.messages, ∃ f ∈ p.2.fields,
        ∃ c, g.describeProperty p.1 (.field f) = .ok c ∧ c.Needs i := by
  constructor
  · rintro ⟨m, hm, c, hc, hi⟩
    obtain ⟨p, hp, hd⟩ := (mem_messages_iff h).1 hm
    obtain ⟨fields, hfields, rfl⟩ := describeScoped_eq_ok_iff.1 hd
    obtain ⟨property, hproperty, hpc⟩ := exists_source hfields hc
    obtain ⟨hcompact, hneeds⟩ := (mem_imports_of_describeProperty hpc).1 hi
    cases property with
    | field f =>
      have hf := Message.field_mem_properties_iff.1 hproperty
      exact ⟨hcompact, p, hp, f, hf, c, hpc, hneeds⟩
    | oneOf o =>
      obtain ⟨spec, d, hspec, _, rfl⟩ := describeProperty_eq_ok_iff.1 hpc
      cases hspec
      exact hneeds.elim
  · rintro ⟨hcompact, p, hp, f, hf, c, hpc, hneeds⟩
    obtain ⟨m, hm, hd⟩ := exists_result (parts_of_model h).2.2 hp
    obtain ⟨fields, hfields, rfl⟩ := describeScoped_eq_ok_iff.1 hd
    obtain ⟨c', hc, hpc'⟩ := exists_result hfields (Message.field_mem_properties_iff.2 hf)
    cases hpc.symm.trans hpc'
    exact ⟨_, hm, c, hc, (mem_imports_of_describeProperty hpc).2 ⟨hcompact, hneeds⟩⟩

theorem mem_moreImports_iff :
    i ∈ g.moreImports ↔ i ∈ g.settings.imports ∨
      (g.javaPackage ≠ "" ∧ g.settings.outerClass ≠ "" ∧
        i = g.javaPackage ++ "." ++ g.settings.outerClass) := by
  rw [moreImports, List.mem_append]
  split_ifs with hempty
  · simp only [List.not_mem_nil, or_false, iff_self_or]
    rintro ⟨hp, ho, _⟩
    exact (hempty.elim hp ho).elim
  · obtain ⟨hp, ho⟩ := not_or.1 hempty
    simp [hp, ho]

end Generator

/-- The import lines of a file are in ascending order, each once: those that the settings ask for,
that of the wire classes, and those that the containers of the fields need. They are the import
lines of its text unless a name brings in a line break of its own. The alternatives of oneofs need
none. -/
theorem Schema.generate_imports {s : Schema} {settings : Settings} {files : GeneratedFiles}
    (h : s.generate settings = .ok files) :
    ∃ g model, Generator.ofSchema s settings = .ok g ∧ g.model = .ok model ∧
      files.model.contents = Text.unlines (model.lines settings.modelPackage g.moreImports) ∧
      (model.lines settings.modelPackage g.moreImports).filter isImportLine =
        (model.imports g.moreImports).map (fun i => "import " ++ i) ∧
      ((∀ l ∈ model.lines settings.modelPackage g.moreImports, '\n' ∉ l.toList) →
        (Text.splitAt '\n' files.model.contents).filter isImportLine =
          (model.imports g.moreImports).map fun i => "import " ++ i) ∧
      ((model.imports g.moreImports).map fun i => "import " ++ i).Pairwise (· < ·) ∧
      (∀ i, i ∈ model.imports g.moreImports ↔
        i ∈ settings.imports ∨
        (settings.wireClassPackage s ≠ "" ∧ settings.outerClass ≠ "" ∧
          i = settings.wireClassPackage s ++ "." ++ settings.outerClass) ∨
        (settings.compact = true ∧ ∃ p ∈ s.messages, ∃ f ∈ p.2.fields,
          ∃ c, g.describeProperty p.1 (.field f) = .ok c ∧ c.Needs i)) ∧
      ∀ o ∈ s.oneOfs, ∀ f ∈ o.oneOf.fields, ∃ k selection,
        g.symbols.shapeOf f.type (some o.message) f.name = .ok (.single k) ∧
        Selection.ofShape g.target f.name (.single k) = .ok selection ∧ selection.imports = [] := by
  obtain ⟨g, hg, h⟩ := bind_eq_ok_iff.1 h
  obtain ⟨model, hm, rfl⟩ := Generator.model_of_generate h
  cases Generator.eq_of_ofSchema hg
  have himports := model.filter_isImportLine settings.modelPackage
    (s.generator settings).moreImports
  refine ⟨_, model, hg, hm, model.render_eq _ _, himports,
    fun hlines => (model.filter_splitAt _ _ hlines rfl).trans himports,
    pairwise_import (pairwise_sortedUnique _), ?_, ?_⟩
  · intro i
    rw [ObjectModel.mem_imports_iff, Generator.exists_import_iff hm,
      Generator.mem_moreImports_iff, or_comm, or_assoc]
    rfl
  · intro o ho f hf
    obtain ⟨u, _, hu⟩ := exists_result (Generator.parts_of_model hm).2.1 ho
    obtain ⟨alternatives, halternatives, _⟩ := bind_eq_ok_iff.1 hu
    obtain ⟨a, _, ha⟩ := exists_result halternatives hf
    obtain ⟨k, _, selection, hshape, _, hselection, _⟩ :=
      Generator.describeAlternative_eq_ok_iff.1 ha
    refine ⟨k, selection, hshape, hselection, ?_⟩
    rw [List.eq_nil_iff_forall_not_mem]
    intro i hi
    exact ((Selection.mem_imports_iff hselection).1 hi).2

/-- Containers at two levels, some of them for the same kind of values. -/
def Schema.containers : Schema where
  package := "shop"
  definitions := [
    .message ⟨"Order", [
      .field { type := { repeated := true, expr := .named "int32" }, name := "counts", tag := 1 },
      .field { type := { repeated := true, expr := .named "Part" }, name := "parts", tag := 2 },
      .message "Part" [
        .field { type := { expr := .map "string" "float" }, name := "weights", tag := 1 },
        .field { type := { repeated := true, expr := .named "Part" }, name := "parts", tag := 2 },
        .oneOf ⟨"content", [
          .field { type := { expr := .named "Order" }, name := "order", tag := 3 }]⟩]]⟩]

/-- Settings with imports of their own, one of them twice, and a package for the wire schema. -/
def Settings.unboxed : Settings where
  compact := true
  wirePackage := some "wire"
  imports := ["util.Zip", "app.Base", "util.Zip"]

theorem Schema.generate_containers :
    ∃ files, containers.generate .unboxed = .ok files ∧
      ∃ g model, Generator.ofSchema containers .unboxed = .ok g ∧ g.model = .ok model ∧
        files.model.contents = Text.unlines (model.lines "" g.moreImports) ∧
        (model.lines "" g.moreImports).filter isImportLine = [
          "import app.Base", "import com.badlogic.gdx.utils.ObjectFloatMap",
          "import ktx.collections.GdxArray", "import ktx.collections.GdxIntArray",
          "import ktx.collections.component1", "import ktx.collections.component2",
          "import util.Zip", "import wire.SchemaProto"] ∧
        ∃ p ∈ containers.messages, ∃ f ∈ p.2.fields, ∃ c,
          g.describeProperty p.1 (.field f) = .ok c ∧
            c.Needs "com.badlogic.gdx.utils.ObjectFloatMap" := by
  have h : verdict (containers.generate .unboxed) = .ok () := by decide +kernel
  obtain ⟨files, h⟩ := verdict_eq_ok_iff.1 h
  obtain ⟨g, model, hg, hm, hcontents, hlines, _, _, hmem, _⟩ := generate_imports h
  cases Generator.eq_of_ofSchema hg
  have hmodel : ((containers.generator .unboxed).model.map fun m =>
      m.imports (containers.generator .unboxed).moreImports) = .ok [
        "app.Base", "com.badlogic.gdx.utils.ObjectFloatMap", "ktx.collections.GdxArray",
        "ktx.collections.GdxIntArray", "ktx.collections.component1",
        "ktx.collections.component2", "util.Zip", "wire.SchemaProto"] := by
    decide +kernel
  rw [hm] at hmodel
  have hnames : model.imports _ = _ := Except.ok.inj hmodel
  rw [hnames] at hlines hmem
  refine ⟨files, h, _, model, hg, hm, hcontents, hlines.trans (by decide), ?_⟩
  obtain hown | ⟨_, _, hwire⟩ | ⟨_, hfield⟩ :=
    (hmem "com.badlogic.gdx.utils.ObjectFloatMap").1 (by decide)
  · exact absurd hown (by decide)
  · exact absurd hwire (by decide)
  · exact hfield

end WireModel
