import WireModel.Proofs.ImportBlock

namespace WireModel

/-- Two properties that differ at most in the expression that makes a container. -/
inductive FieldModel.Resized : FieldModel → FieldModel → Prop
  | same (f : FieldModel) : Resized f f
  | container {spec : FieldSpec} (h : spec.shape.isCollection = true) (accessors : Accessors)
    (selection : Selection) (filling : Option Filling) (encoding : Encoding) (x y : String) :
    Resized ⟨spec, accessors, selection, .literal x, filling, encoding⟩
      ⟨spec, accessors, selection, .literal y, filling, encoding⟩

/-- Two classes whose properties differ at most in the expressions that make containers. -/
inductive MessageModel.Resized : MessageModel → MessageModel → Prop
  | fields (name : TypeName) (className wireClass : String) {fs fs' : List FieldModel}
    (h : List.Forall₂ FieldModel.Resized fs fs') :
    Resized ⟨name, className, wireClass, fs⟩ ⟨name, className, wireClass, fs'⟩

namespace MessageModel

/-- The lines that open the call of the class in the reader. -/
def readerOpening (m : MessageModel) : List String :=
  [Stmt.indented 2 ("fun fromProto(proto: " ++ m.wireClass ++ "): " ++ m.className ++ " \x7b"),
    Stmt.indented 3 ("val instance = " ++ m.className ++ "(")]

/-- The lines of the arguments in that call. -/
def readerArguments (m : MessageModel) : List String :=
  m.fields.map fun f => Stmt.indented 4 (f.argument f.decoded)

end MessageModel

/-- Two lists of lines that are the same but for the arguments in the readers of some classes. -/
inductive Alike : List MessageModel → List MessageModel → List String → List String → Prop
  | same (ls : List String) : Alike [] [] ls ls
  | reader {m m' : MessageModel} {ms ms' : List MessageModel} {ls ls' : List String}
    (before : List String) (hm : m.Resized m')
    (hb : m.fields = [] ∨ m.readerOpening <:+ before) (h : Alike ms ms' ls ls') :
    Alike (m :: ms) (m' :: ms') (before ++ m.readerArguments ++ ls)
      (before ++ m'.readerArguments ++ ls')

section

variable {f f' : FieldModel} {m m' : MessageModel} {ms ms' ns ns' : List MessageModel}
  {ls ls' ks ks' : List String}

theorem map_eq_of_forall₂ {α β : Type} {R : α → α → Prop} {h : α → β}
    (hr : ∀ a b, R a b → h a = h b) {as bs : List α} (hs : List.Forall₂ R as bs) :
    as.map h = bs.map h := by
  induction hs with
  | nil => rfl
  | cons hab _ ih => rw [List.map_cons, List.map_cons, hr _ _ hab, ih]

namespace FieldModel.Resized

theorem declaration_eq (h : f.Resized f') : f.declaration = f'.declaration := by
  cases h <;> rfl

theorem initial_eq (h : f.Resized f') : f.argument f.initial = f'.argument f'.initial := by
  cases h <;> rfl

theorem filling?_eq (h : f.Resized f') : f.filling? = f'.filling? := by
  cases h <;> rfl

theorem encoder_eq (h : f.Resized f') : f.encoder = f'.encoder := by
  cases h <;> rfl

theorem imports_eq (h : f.Resized f') :
    f.description.selection.imports = f'.description.selection.imports := by
  cases h <;> rfl

end FieldModel.Resized

namespace Alike

theorem prepend (h : Alike ms ms' ls ls') (ks : List String) :
    Alike ms ms' (ks ++ ls) (ks ++ ls') := by
  cases h with
  | same ls => exact .same (ks ++ ls)
  | reader before hm hb h =>
    rw [← List.append_assoc, ← List.append_assoc, ← List.append_assoc, ← List.append_assoc]
    exact .reader (ks ++ before) hm (hb.imp_right fun hb => hb.trans (List.suffix_append ks _)) h

theorem append (h : Alike ms ms' ls ls') (hk : Alike ns ns' ks ks') :
    Alike (ms ++ ns) (ms' ++ ns') (ls ++ ks) (ls' ++ ks') := by
  induction h with
  | same ls => exact hk.prepend ls
  | reader before hm hb _ ih =>
    rw [List.append_assoc, List.append_assoc _ _ ks']
    exact .reader before hm hb ih

theorem length_eq (h : Alike ms ms' ls ls') : ls.length = ls'.length := by
  induction h with
  | same ls => rfl
  | @reader m m' _ _ _ _ before hm _ _ ih =>
    have harguments : m.readerArguments.length = m'.readerArguments.length := by
      cases hm with
      | fields name className wireClass h =>
        rw [MessageModel.readerArguments, MessageModel.readerArguments, List.length_map,
          List.length_map, h.length_eq]
    simp only [List.length_append, harguments, ih]

end Alike

/-- Groups of statements whose lines are alike, with as many blank lines between them. -/
def AlikeGroups (ms ms' : List MessageModel) (gs gs' : List (List Stmt)) : Prop :=
  (gs = [] ↔ gs' = []) ∧
    Alike ms ms' (Stmt.linesOf 0 (Stmt.spaced gs)) (Stmt.linesOf 0 (Stmt.spaced gs'))

namespace AlikeGroups

variable {g g' : List Stmt} {gs gs' : List (List Stmt)}

theorem cons (hg : Alike ms ms' (Stmt.linesOf 0 g) (Stmt.linesOf 0 g'))
    (h : AlikeGroups ns ns' gs gs') :
    AlikeGroups (ms ++ ns) (ms' ++ ns') (g :: gs) (g' :: gs') := by
  obtain ⟨hnil, h⟩ := h
  refine ⟨iff_of_false (List.cons_ne_nil g gs) (List.cons_ne_nil g' gs'), ?_⟩
  by_cases hgs : gs = []
  · cases hgs
    cases hnil.1 rfl
    have hend := hg.append h
    rw [Stmt.spaced, Stmt.linesOf, List.append_nil, List.append_nil] at hend
    exact hend
  · have hgs' : gs' ≠ [] := fun h => hgs (hnil.2 h)
    rw [Stmt.spaced, Stmt.spaced, Stmt.linesOf_append, Stmt.linesOf_append]
    · exact hg.append (h.prepend [""])
    · exact hgs'
    · exact hgs

theorem prepend (h : AlikeGroups ms ms' gs gs') (common : List (List Stmt)) :
    AlikeGroups ms ms' (common ++ gs) (common ++ gs') := by
  induction common with
  | nil => exact h
  | cons g common ih => exact cons (.same (Stmt.linesOf 0 g)) ih

end AlikeGroups

namespace MessageModel

/-- The function that reads an object. -/
def reader (m : MessageModel) : Stmt :=
  .braces ("fun fromProto(proto: " ++ m.wireClass ++ "): " ++ m.className)
    (m.call "val instance = " FieldModel.decoded ::
      m.fields.filterMap FieldModel.filling? ++ [.line "return instance"])

/-- The arguments stand in the reader right after the call is opened. -/
theorem lines_reader (h : m.fields ≠ []) :
    m.reader.lines 2 = m.readerOpening ++ m.readerArguments ++
      (Stmt.indented 3 ")" ::
        Stmt.linesOf 3 (m.fields.filterMap FieldModel.filling? ++ [.line "return instance"]) ++
          [Stmt.indented 2 "\x7d"]) := by
  obtain ⟨name, className, wireClass, fields⟩ := m
  cases fields with
  | nil => exact absurd rfl h
  | cons f fs =>
    rw [readerArguments, ← Stmt.linesOf_map_line]
    simp only [reader, Stmt.braces, Stmt.lines, List.cons_append, Stmt.linesOf, call, readerOpening,
      List.nil_append, List.append_assoc]

theorem call_congr {value value' : FieldModel → String} (h : ∀ f ∈ m.fields, value f = value' f)
    (opening : String) : m.call opening value = m.call opening value' := by
  obtain ⟨name, className, wireClass, fields⟩ := m
  cases fields with
  | nil => rfl
  | cons f fs =>
    have harguments : ((f :: fs).map fun f => Stmt.line (f.argument (value f))) =
        (f :: fs).map fun f => Stmt.line (f.argument (value' f)) := by
      apply List.map_congr_left
      intro f hf
      rw [h f hf]
    exact congrArg (fun body => Stmt.block (opening ++ className ++ "(") body ")") harguments

namespace Resized

theorem name_eq (h : m.Resized m') : m.name = m'.name := by
  cases h
  rfl

theorem imports_eq (h : m.Resized m') : m.imports = m'.imports := by
  cases h with
  | fields name className wireClass h =>
    have hmap := map_eq_of_forall₂ (fun _ _ hf => FieldModel.Resized.imports_eq hf) h
    exact congrArg (fun lists : List (List String) => sortedUnique lists.flatten) hmap

theorem filterMap_filling?_eq (h : m.Resized m') :
    m.fields.filterMap FieldModel.filling? = m'.fields.filterMap FieldModel.filling? := by
  cases h with
  | @fields _ _ _ fs fs' h =>
    have hmap := map_eq_of_forall₂ (fun _ _ hf => FieldModel.Resized.filling?_eq hf) h
    have hid := congrArg (List.filterMap id) hmap
    rw [List.filterMap_map, List.filterMap_map] at hid
    exact hid

theorem writers_eq (h : m.Resized m') : m.writers = m'.writers := by
  cases h with
  | fields name className wireClass h =>
    have hmap := map_eq_of_forall₂ (fun _ _ hf => FieldModel.Resized.encoder_eq hf) h
    rw [writers, writers]
    simp only [hmap]

theorem create_eq (h : m.Resized m') (opening : String) :
    m.call opening FieldModel.initial = m'.call opening FieldModel.initial := by
  cases h with
  | fields name className wireClass h =>
    cases h with
    | nil => rfl
    | @cons f f' fs fs' hf hfs =>
      have harguments := map_eq_of_forall₂
        (fun _ _ hf => congrArg Stmt.line (FieldModel.Resized.initial_eq hf)) (.cons hf hfs)
      exact congrArg (fun body => Stmt.block (opening ++ className ++ "(") body ")") harguments

theorem alike_reader (h : m.Resized m') :
    Alike [m] [m'] (m.reader.lines 2) (m'.reader.lines 2) := by
  have hfilling := h.filterMap_filling?_eq
  by_cases hm : m.fields = []
  · have hm' : m'.fields = [] := by
      cases h with
      | fields name className wireClass h =>
        cases hm
        cases h
        rfl
    have hreader : m.reader = m'.reader := by
      cases h
      cases hm
      cases hm'
      rfl
    have hlines := Alike.reader (m.reader.lines 2) h (.inl hm) (.same [])
    rw [readerArguments, readerArguments, hm, hm', List.map_nil, List.append_nil,
      List.append_nil] at hlines
    rw [← hreader]
    exact hlines
  · have hm' : m'.fields ≠ [] := by
      cases h with
      | fields name className wireClass h =>
        rintro rfl
        cases h
        exact hm rfl
    have hopening : m.readerOpening = m'.readerOpening := by
      cases h
      rfl
    rw [lines_reader hm, lines_reader hm', hfilling, ← hopening]
    exact .reader _ h (.inr (List.suffix_refl _)) (.same _)

theorem alike_companion (h : m.Resized m') :
    Alike [m] [m'] (m.companion.lines 1) (m'.companion.lines 1) := by
  have hname : m.className = m'.className := by
    cases h
    rfl
  have hlines : ∀ k : MessageModel, k.companion.lines 1 =
      (Stmt.indented 1 "companion object \x7b" ::
        ((k.call ("fun create(): " ++ k.className ++ " = ") FieldModel.initial).lines 2 ++ [""])) ++
      (k.reader.lines 2 ++ [Stmt.indented 1 "\x7d"]) := by
    intro k
    simp only [companion, reader, Stmt.braces, Stmt.lines, Stmt.linesOf, List.append_nil,
      List.cons_append, List.append_assoc]
    rfl
  rw [hlines, hlines, ← hname, ← h.create_eq]
  exact (h.alike_reader.append (.same _)).prepend _

theorem alike_source (h : m.Resized m') :
    Alike [m] [m'] (Stmt.linesOf 0 m.source) (Stmt.linesOf 0 m'.source) := by
  have hcompanion := h.alike_companion
  have hwriters := h.writers_eq
  -- both forms of the class end in the same body
  have hbody : ∀ opening, Alike [m] [m']
      (Stmt.linesOf 0 [.braces opening (m.companion :: .blank :: m.writers)])
      (Stmt.linesOf 0 [.braces opening (m'.companion :: .blank :: m'.writers)]) := by
    intro opening
    have hlines : ∀ k : MessageModel,
        Stmt.linesOf 0 [.braces opening (k.companion :: .blank :: k.writers)] =
          [Stmt.indented 0 (opening ++ " \x7b")] ++
            (k.companion.lines 1 ++
              (Stmt.linesOf 1 (.blank :: k.writers) ++ [Stmt.indented 0 "\x7d"])) := by
      intro k
      simp only [Stmt.braces, Stmt.lines, Stmt.linesOf, List.append_nil, List.cons_append,
        List.append_assoc, List.nil_append]
    rw [hlines, hlines, hwriters]
    exact (hcompanion.append (.same _)).prepend _
  cases h with
  | fields name className wireClass h =>
    cases h with
    | nil => exact hbody _
    | @cons f f' fs fs' hf hfs =>
      have hdeclarations := map_eq_of_forall₂
        (fun _ _ hf => congrArg Stmt.line (FieldModel.Resized.declaration_eq hf)) (.cons hf hfs)
      have hopening := congrArg (fun ds => Stmt.linesOf 0
        [.line ("data class " ++ className ++ "("), .indent ds]) hdeclarations
      have hclass := (hbody ")").prepend (Stmt.linesOf 0
        [.line ("data class " ++ className ++ "("),
          .indent ((f :: fs).map fun f => .line f.declaration)])
      rw [← Stmt.linesOf_append] at hclass
      rw [hopening, ← Stmt.linesOf_append] at hclass
      exact hclass

end Resized

end MessageModel

theorem alikeGroups_classes {o o' : ObjectModel} (henums : o.enums = o'.enums)
    (hunions : o.unions = o'.unions)
    (h : List.Forall₂ MessageModel.Resized o.messages o'.messages) :
    AlikeGroups o.messages o'.messages o.classes o'.classes := by
  rw [ObjectModel.classes, ObjectModel.classes, henums]
  apply AlikeGroups.prepend
  generalize o.messages = ms, o'.messages = ms' at h
  induction h with
  | nil => exact ⟨Iff.rfl, .same []⟩
  | @cons m m' ms ms' hm _ ih =>
    have hown : o.unionsOf m = o'.unionsOf m' := by
      rw [ObjectModel.unionsOf, ObjectModel.unionsOf, hunions, hm.name_eq]
    rw [List.flatMap_cons, List.flatMap_cons, hown, List.append_assoc, List.append_assoc]
    exact (AlikeGroups.cons hm.alike_source ih).prepend _

/-- Files of classes that differ in the size of containers differ in the arguments of readers. -/
theorem alike_lines (o o' : ObjectModel) (henums : o.enums = o'.enums)
    (hunions : o.unions = o'.unions)
    (h : List.Forall₂ MessageModel.Resized o.messages o'.messages) (package : String)
    (more : List String) :
    Alike o.messages o'.messages (o.lines package more) (o'.lines package more) := by
  have himports : o.imports more = o'.imports more := by
    rw [ObjectModel.imports, ObjectModel.imports, List.flatMap_def, List.flatMap_def,
      map_eq_of_forall₂ (fun _ _ hm => MessageModel.Resized.imports_eq hm) h]
  rw [ObjectModel.lines, ObjectModel.lines, himports]
  exact (alikeGroups_classes henums hunions h).2.prepend _

end

end WireModel
