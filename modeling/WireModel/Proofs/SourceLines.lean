import Mathlib.Data.List.Basic
import WireModel.ObjectModel.SourceFile
import WireModel.Proofs.Brackets

namespace WireModel

namespace Stmt

/-- The texts of a statement that stand at its own level. -/
def outerTexts : Stmt → List String
  | .line text => [text]
  | .block opening _ closing => [opening, closing]
  | .blank | .indent _ => []

theorem head?_indented_succ (level : Nat) (text : String) :
    (indented (level + 1) text).toList.head? = some ' ' := by
  simp [indented, Nat.mul_add, List.replicate_succ]

mutual

theorem head?_of_mem_lines : ∀ (s : Stmt) (level : Nat), ∀ l ∈ s.lines (level + 1),
    ∀ c ∈ l.toList.head?, c = ' '
  | .line text, level, l, hl => by
    cases List.mem_singleton.1 hl
    simp [head?_indented_succ, eq_comm]
  | .blank, level, l, hl => by
    cases List.mem_singleton.1 hl
    simp
  | .block opening body closing, level, l, hl => by
    rw [lines, List.mem_cons, List.mem_append, List.mem_singleton] at hl
    obtain rfl | hl | rfl := hl
    · simp [head?_indented_succ, eq_comm]
    · exact head?_of_mem_linesOf body (level + 1) l hl
    · simp [head?_indented_succ, eq_comm]
  | .indent body, level, l, hl => head?_of_mem_linesOf body (level + 1) l hl

/-- Below the outer level every line starts with a space or is empty. -/
theorem head?_of_mem_linesOf : ∀ (ss : List Stmt) (level : Nat), ∀ l ∈ linesOf (level + 1) ss,
    ∀ c ∈ l.toList.head?, c = ' '
  | [], level, l, hl => by cases hl
  | s :: ss, level, l, hl => by
    obtain hl | hl := List.mem_append.1 hl
    · exact head?_of_mem_lines s level l hl
    · exact head?_of_mem_linesOf ss level l hl

end

/-- What is sought at the start of a line, where no space is. -/
def Unindented (p : String → Bool) : Prop :=
  ∀ l : String, (∀ c ∈ l.toList.head?, c = ' ') → p l = false

variable {p : String → Bool}

theorem filter_linesOf_succ (h : Unindented p) (level : Nat) (ss : List Stmt) :
    (linesOf (level + 1) ss).filter p = [] := by
  rw [List.filter_eq_nil_iff]
  intro l hl
  rw [h l (head?_of_mem_linesOf ss level l hl)]
  exact Bool.false_ne_true

theorem filter_lines (h : Unindented p) (s : Stmt) :
    (s.lines 0).filter p = s.outerTexts.filter p := by
  cases s with
  | line text => rw [lines, indented_zero, outerTexts]
  | blank =>
    have hempty : p "" = false := h "" (by simp)
    simp [lines, outerTexts, hempty]
  | block opening body closing =>
    rw [lines, indented_zero, indented_zero, outerTexts, List.filter_cons, List.filter_append,
      filter_linesOf_succ h, List.nil_append, ← List.filter_cons]
  | indent body => exact filter_linesOf_succ h 0 body

theorem filter_linesOf (h : Unindented p) (ss : List Stmt) :
    (linesOf 0 ss).filter p = (ss.flatMap outerTexts).filter p := by
  induction ss with
  | nil => rfl
  | cons s ss ih =>
    rw [linesOf, List.filter_append, filter_lines h, ih, List.flatMap_cons, List.filter_append]

/-- Between neighbours stands an empty line. -/
theorem linesOf_spaced (level : Nat) (gs : List (List Stmt)) :
    linesOf level (spaced gs) = [""].intercalate (gs.map (linesOf level)) := by
  induction gs with
  | nil => rfl
  | cons g gs ih =>
    cases gs with
    | nil => simp [spaced]
    | cons g' gs =>
      rw [spaced.eq_3 g _ (List.cons_ne_nil g' gs), linesOf_append, linesOf, ih]
      simp [lines, List.intercalate]

theorem flatMap_outerTexts_spaced (gs : List (List Stmt)) :
    (spaced gs).flatMap outerTexts = gs.flatMap (List.flatMap outerTexts) := by
  induction gs with
  | nil => rfl
  | cons g gs ih =>
    cases gs with
    | nil => simp [spaced]
    | cons g' gs =>
      rw [spaced.eq_3 g _ (List.cons_ne_nil g' gs), List.flatMap_append, List.flatMap_cons, ih]
      rfl

end Stmt

section Classes

variable {m : MessageModel}

theorem EnumModel.outerTexts_source (m : EnumModel) :
    m.source.outerTexts =
      ["enum class " ++ m.className ++ "(val proto: " ++ m.wireClass ++ ")" ++ " \x7b", "\x7d"] :=
  rfl

theorem UnionModel.outerTexts_source (m : UnionModel) :
    m.source.outerTexts = ["sealed class " ++ m.className ++ " \x7b", "\x7d"] :=
  rfl

theorem MessageModel.outerTexts_source_of_nil (h : m.fields = []) :
    m.source.flatMap Stmt.outerTexts = ["class " ++ m.className ++ " \x7b", "\x7d"] := by
  rw [source, h]
  rfl

theorem MessageModel.outerTexts_source_of_ne_nil (h : m.fields ≠ []) :
    m.source.flatMap Stmt.outerTexts =
      ["data class " ++ m.className ++ "(", ")" ++ " \x7b", "\x7d"] := by
  obtain ⟨f, fs, hf⟩ := List.exists_cons_of_ne_nil h
  rw [source, hf]
  rfl

end Classes

theorem filter_paragraph {p : String → Bool} (hp : p "" = false) (ls : List String) :
    (paragraph ls).filter p = ls.filter p := by
  rw [paragraph]
  split_ifs with h
  · rw [h]
  · simp [List.filter_append, hp]

namespace ObjectModel

/-- The lines of a source file. -/
def lines (o : ObjectModel) (package : String) (moreImports : List String) : List String :=
  header package (o.imports moreImports) ++ Stmt.linesOf 0 (Stmt.spaced o.classes)

variable (o : ObjectModel) (package : String) (moreImports : List String) {p : String → Bool}

theorem render_eq : o.render package moreImports = Text.unlines (o.lines package moreImports) := by
  rw [lines, Text.unlines_append]
  rfl

theorem lines_eq :
    o.lines package moreImports = header package (o.imports moreImports) ++
      [""].intercalate (o.classes.map (Stmt.linesOf 0)) := by
  rw [lines, Stmt.linesOf_spaced]

/-- What is sought at the start of lines is found in the header and on the outer lines of
classes. -/
theorem filter_lines (h : Stmt.Unindented p) :
    (o.lines package moreImports).filter p =
      (header package (o.imports moreImports)).filter p ++
        o.classes.flatMap fun c => (c.flatMap Stmt.outerTexts).filter p := by
  rw [lines, List.filter_append, Stmt.filter_linesOf h, Stmt.flatMap_outerTexts_spaced,
    List.filter_flatMap]

theorem filter_header (hp : p "" = false) (imports : List String) :
    (header package imports).filter p =
      [generatedNotice].filter p ++
        (if package = "" then [] else ["package " ++ package]).filter p ++
        (imports.map fun i => "import " ++ i).filter p := by
  rw [header, List.filter_append, List.filter_append, filter_paragraph hp, filter_paragraph hp,
    filter_paragraph hp]

theorem filter_splitAt (h : ∀ l ∈ o.lines package moreImports, '\n' ∉ l.toList)
    (hp : p "" = false) :
    (Text.splitAt '\n' (o.render package moreImports)).filter p =
      (o.lines package moreImports).filter p := by
  rw [render_eq, Text.splitAt_unlines h, List.filter_append, List.filter_singleton, hp]
  exact List.append_nil _

end ObjectModel

end WireModel
