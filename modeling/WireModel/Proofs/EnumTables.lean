import WireModel.Proofs.Acceptance
import WireModel.Proofs.Brackets

namespace WireModel

/-- The class of an enumeration as a table: each constant with the wire constant that it holds, each
case with the constant that it gives, and the constant that all other cases give. -/
structure EnumTable where
  constants : List (String × String)
  cases : List (String × String)
  fallback : String
deriving DecidableEq

namespace EnumTable

/-- The wire constant of a constant. -/
def toProto? (t : EnumTable) (constant : String) : Option String :=
  t.constants.lookup constant

/-- The constant for a wire constant: that of the first case for it. -/
def fromProto (t : EnumTable) (wire : String) : String :=
  (t.cases.lookup wire).getD t.fallback

/-- The constants, one to a line; a semicolon ends the last one and commas the others. -/
def constantLines (t : EnumTable) : List String :=
  t.constants.dropLast.map (fun c => c.1 ++ "(" ++ c.2 ++ "),") ++
    t.constants.getLast?.toList.map (fun c => c.1 ++ "(" ++ c.2 ++ ");")

def caseLines (t : EnumTable) : List String :=
  t.cases.map (fun c => c.1 ++ " -> " ++ c.2) ++ ["else -> defaultValue"]

/-- The lines of a class with this table. -/
def lines (t : EnumTable) (className wireClass : String) (level : Nat) : List String :=
  Stmt.indented level ("enum class " ++ className ++ "(val proto: " ++ wireClass ++ ") \x7b") ::
    t.constantLines.map (Stmt.indented (level + 1)) ++
    ["",
      Stmt.indented (level + 1) ("fun toProto(): " ++ wireClass ++ " = proto"),
      "",
      Stmt.indented (level + 1) "companion object \x7b",
      Stmt.indented (level + 2) ("val defaultValue = " ++ t.fallback),
      "",
      Stmt.indented (level + 2) ("fun fromProto(proto: " ++ wireClass ++ "): " ++ className ++
        " = when (proto) \x7b")] ++
    t.caseLines.map (Stmt.indented (level + 3)) ++
    [Stmt.indented (level + 2) "\x7d", Stmt.indented (level + 1) "\x7d", Stmt.indented level "\x7d"]

/-- A constant up to its bracket, and what stands in the brackets. -/
def readConstant (line : String) : String × String :=
  (String.ofList (line.toList.takeWhile (· ≠ '(')),
    String.ofList ((line.toList.dropWhile (· ≠ '(')).drop 1).dropLast.dropLast)

/-- What a case is for, and the constant behind its last blank. -/
def readCase? (line : String) : Option (String × String) :=
  (Text.beforeLast? ' ' line.toList).map fun before =>
    (String.ofList (before.take (before.length - 3)),
      String.ofList (line.toList.drop (before.length + 1)))

end EnumTable

def Stmt.text? : Stmt → Option String
  | .line text => some text
  | .blank | .block _ _ _ | .indent _ => none

/-- The table of a class, read off the lines with its constants, its default and its cases. -/
def EnumTable.ofLines? (constants : List String) (default : String) (cases : List String) :
    Option EnumTable :=
  if cases.getLast? = some "else -> defaultValue" then
    some ⟨constants.map readConstant, cases.dropLast.filterMap readCase?,
      String.ofList (default.toList.drop "val defaultValue = ".toList.length)⟩
  else none

/-- The table of a class, read off its statements. -/
def EnumTable.read? : Stmt → Option EnumTable
  | .block _ body _ =>
    match body.dropWhile fun s => s.text?.isSome with
    | [.blank, .line _, .blank, .block _ [.line default, .blank, .block _ cases _] _] =>
      ofLines? ((body.takeWhile fun s => s.text?.isSome).filterMap Stmt.text?) default
        (cases.filterMap Stmt.text?)
    | _ => none
  | _ => none

namespace EnumModel

def table (m : EnumModel) : EnumTable where
  constants := m.values.map fun v => (v, m.wireClass ++ "." ++ v)
  cases := m.values.map fun v => (m.wireClass ++ "." ++ v, v)
  fallback := m.defaultValue

theorem constants_eq_map (m : EnumModel) :
    constants m.wireClass m.values = m.table.constantLines.map .line := by
  obtain ⟨name, className, wireClass, values, default⟩ := m
  simp only [table, EnumTable.constantLines]
  induction values with
  | nil => rfl
  | cons v vs ih =>
    cases vs with
    | nil => simp [constants, String.append_assoc]
    | cons u us =>
      rw [constants.eq_3 _ _ _ (List.cons_ne_nil u us), ih]
      simp [String.append_assoc]

theorem cases_eq_map (m : EnumModel) : m.cases = m.table.caseLines.map .line := by
  simp [cases, EnumTable.caseLines, table, Function.comp_def]

/-- A class is printed as its table. -/
theorem lines_source (m : EnumModel) (level : Nat) :
    m.source.lines level = m.table.lines m.className m.wireClass level := by
  have hlines (level : Nat) (ls : List String) :
      Stmt.linesOf level (ls.map .line) = ls.map (Stmt.indented level) :=
    Stmt.linesOf_map_line level id ls
  simp only [source, Stmt.braces, constants_eq_map, cases_eq_map, Stmt.lines, Stmt.linesOf,
    Stmt.linesOf_append, hlines, EnumTable.lines]
  simp [table, String.append_assoc]

end EnumModel

namespace EnumTable

theorem readConstant_append {constant wire ending : String} (h : '(' ∉ constant.toList)
    (hending : ending.toList.length = 2) :
    readConstant (constant ++ "(" ++ wire ++ ending) = (constant, wire) := by
  have htext : (constant ++ "(" ++ wire ++ ending).toList =
      constant.toList ++ '(' :: (wire.toList ++ ending.toList) := by
    simp
  have hname : ∀ c ∈ constant.toList, decide (c ≠ '(') = true := by
    intro c hc
    exact decide_eq_true (Text.ne_of_mem_of_notMem h c hc)
  obtain ⟨a, b, hab⟩ := List.length_eq_two.1 hending
  rw [readConstant, htext, List.takeWhile_append_of_pos hname, List.dropWhile_append_of_pos hname,
    hab]
  simp

theorem readCase?_append {wire constant : String} (h : ' ' ∉ constant.toList) :
    readCase? (wire ++ " -> " ++ constant) = some (wire, constant) := by
  have htext : (wire ++ " -> " ++ constant).toList =
      (wire.toList ++ [' ', '-', '>']) ++ ' ' :: constant.toList := by
    simp
  have hbefore := Text.beforeLast?_eq_some_iff.2 ⟨constant.toList, htext, h⟩
  rw [readCase?, hbefore, Option.map_some, htext, ← List.drop_drop, List.drop_left]
  simp

theorem map_readConstant {t : EnumTable} (h : ∀ c ∈ t.constants, '(' ∉ c.1.toList) :
    t.constantLines.map readConstant = t.constants := by
  have hread : ∀ ending : String, ending.toList.length = 2 → ∀ cs ⊆ t.constants,
      (cs.map fun c => readConstant (c.1 ++ "(" ++ c.2 ++ ending)) = cs := by
    intro ending hending cs hcs
    rw [List.map_congr_left fun c hc => readConstant_append (h c (hcs hc)) hending]
    exact List.map_id' cs
  rw [constantLines, List.map_append, List.map_map, List.map_map]
  simp only [Function.comp_def]
  rw [hread ")," rfl _ (List.dropLast_subset _), hread ");" rfl]
  · rcases List.eq_nil_or_concat t.constants with hnil | ⟨cs, c, hc⟩
    · rw [hnil]
      rfl
    · simp [hc]
  · intro c hc
    exact List.mem_of_getLast? (Option.mem_toList.1 hc)

theorem filterMap_readCase? {t : EnumTable} (h : ∀ c ∈ t.cases, ' ' ∉ c.2.toList) :
    t.caseLines.dropLast.filterMap readCase? = t.cases := by
  rw [caseLines, List.dropLast_concat, List.filterMap_map]
  simp only [Function.comp_def]
  rw [List.filterMap_congr fun c hc => readCase?_append (h c hc)]
  exact List.filterMap_some

theorem filterMap_text? (ls : List String) : (ls.map Stmt.line).filterMap Stmt.text? = ls := by
  rw [List.filterMap_map]
  exact List.filterMap_some

theorem ofLines?_table {m : EnumModel} (h : ∀ v ∈ m.values, '(' ∉ v.toList ∧ ' ' ∉ v.toList) :
    ofLines? m.table.constantLines ("val defaultValue = " ++ m.defaultValue) m.table.caseLines =
      some m.table := by
  have hconstants : m.table.constantLines.map readConstant = m.table.constants := by
    apply map_readConstant
    intro c hc
    obtain ⟨v, hv, rfl⟩ := List.mem_map.1 hc
    exact (h v hv).1
  have hcases : m.table.caseLines.dropLast.filterMap readCase? = m.table.cases := by
    apply filterMap_readCase?
    intro c hc
    obtain ⟨v, hv, rfl⟩ := List.mem_map.1 hc
    exact (h v hv).2
  have hlast : m.table.caseLines.getLast? = some "else -> defaultValue" := by
    simp [caseLines]
  rw [ofLines?, if_pos hlast, hconstants, hcases, String.toList_append, List.drop_left,
    String.ofList_toList]
  rfl

/-- The table can be read off the class if the names of its constants can be told from what stands
around them. -/
theorem read?_source {m : EnumModel} (h : ∀ v ∈ m.values, '(' ∉ v.toList ∧ ' ' ∉ v.toList) :
    read? m.source = some m.table := by
  have hline : ∀ s ∈ m.table.constantLines.map Stmt.line, s.text?.isSome = true := by
    intro s hs
    obtain ⟨l, _, rfl⟩ := List.mem_map.1 hs
    rfl
  rw [EnumModel.source, EnumModel.constants_eq_map, EnumModel.cases_eq_map, Stmt.braces, read?,
    List.dropWhile_append_of_pos hline, List.takeWhile_append_of_pos hline]
  change ofLines? ((_ ++ []).filterMap Stmt.text?) _ ((_ : List Stmt).filterMap Stmt.text?) = _
  rw [List.append_nil, filterMap_text?, filterMap_text?, ofLines?_table h]

theorem lookup_map_of_mem {α β : Type} [BEq β] [LawfulBEq β] {k : α → β}
    (hk : ∀ a b, k a = k b → a = b) {as : List α} {a : α} (ha : a ∈ as) {γ : Type}
    (f : α → γ) : (as.map fun b => (k b, f b)).lookup (k a) = some (f a) := by
  induction as with
  | nil => cases ha
  | cons b bs ih =>
    rw [List.map_cons, List.lookup_cons]
    by_cases hab : k a = k b
    · rw [hk a b hab, beq_self_eq_true]
    · rw [beq_false_of_ne hab]
      rcases List.mem_cons.1 ha with rfl | ha
      · exact (hab rfl).elim
      · exact ih ha

/-- The first case for the wire constant of a constant leads back to the constant, also where a name
is repeated: what is repeated is the same case. -/
theorem fromProto_of_mem {m : EnumModel} {v : String} (hv : v ∈ m.values) :
    ∃ w, m.table.toProto? v = some w ∧ m.table.fromProto w = v := by
  have hwire : ∀ a b, m.wireClass ++ "." ++ a = m.wireClass ++ "." ++ b → a = b := by
    intro a b hab
    exact (String.append_right_inj _).1 hab
  refine ⟨m.wireClass ++ "." ++ v, ?_, ?_⟩
  · exact lookup_map_of_mem (k := id) (fun _ _ hab => hab) hv fun u => m.wireClass ++ "." ++ u
  · have hcase : m.table.cases.lookup (m.wireClass ++ "." ++ v) = some v :=
      lookup_map_of_mem hwire hv id
    rw [fromProto, hcase]
    rfl

end EnumTable

theorem EnumValue.number_eq_zero_iff (v : EnumValue) : v.number = 0 ↔ v.tag = 0 := by
  rw [number, ← UInt32.toNat_inj]
  split
  · rw [Int.neg_eq_zero]
    exact Int.natCast_eq_zero
  · exact Int.natCast_eq_zero

/-- The constant for wire constants without one of their own: the first with number zero, or the
first of all if there is none. -/
def Enumeration.IsDefault (e : Enumeration) (v : EnumValue) : Prop :=
  (∃ before after, e.values = before ++ v :: after ∧ v.number = 0 ∧ ∀ u ∈ before, u.number ≠ 0) ∨
    (∀ u ∈ e.values, u.number ≠ 0) ∧ e.values.head? = some v

theorem Enumeration.isDefault_of_zeroValue? {e : Enumeration} {v : EnumValue}
    (h : e.zeroValue? = some v) : v ∈ e.values ∧ e.IsDefault v := by
  rw [zeroValue?] at h
  split at h
  · next u hu =>
    cases h
    obtain ⟨hzero, before, after, hsplit, hbefore⟩ := List.find?_eq_some_iff_append.1 hu
    refine ⟨List.mem_of_find?_eq_some hu, .inl ⟨before, after, hsplit, by simpa using hzero, ?_⟩⟩
    intro b hb
    simpa using hbefore b hb
  · next hnone =>
    refine ⟨List.mem_of_head? h, .inr ⟨?_, h⟩⟩
    intro u hu
    simpa using List.find?_eq_none.1 hnone u hu

/-- The class of an enumeration with constants holds each of them in order, and reading a wire
constant undoes writing it. Wire constants without a constant are read as the default. -/
theorem Generator.describeEnum_invertible (g : Generator) (n : TypeName) (e : Enumeration)
    (h : e.values ≠ []) :
    ∃ m t, g.describeEnum n e = .ok m ∧
      (∀ level, m.source.lines level =
        t.lines (g.settings.naming.enumSymbol n) (g.target.wireClass n) level) ∧
      ((∀ v ∈ e.values, '(' ∉ v.name.toList ∧ ' ' ∉ v.name.toList) →
        EnumTable.read? m.source = some t) ∧
      t.constants = (e.values.map fun v => (v.name, g.target.wireClass n ++ "." ++ v.name)) ∧
      t.cases = (e.values.map fun v => (g.target.wireClass n ++ "." ++ v.name, v.name)) ∧
      (∀ v ∈ e.values, ∃ w, t.toProto? v.name = some w ∧ t.fromProto w = v.name) ∧
      (∃ z ∈ e.values, t.fallback = z.name ∧ e.IsDefault z) ∧
      ∀ v ∈ e.values, v.number = 0 ↔ v.tag = 0 := by
  obtain ⟨z, hz⟩ := Option.ne_none_iff_exists'.1 (mt zeroValue?_eq_none_iff.1 h)
  obtain ⟨hmem, hdefault⟩ := Enumeration.isDefault_of_zeroValue? hz
  let m : EnumModel := ⟨n, g.settings.naming.enumSymbol n, g.target.wireClass n,
    e.values.map EnumValue.name, z.name⟩
  refine ⟨m, m.table, ?_, m.lines_source, ?_, ?_, ?_, ?_, ⟨z, hmem, rfl, hdefault⟩,
    fun v _ => v.number_eq_zero_iff⟩
  · rw [describeEnum, hz]
  · intro hnames
    exact EnumTable.read?_source (List.forall_mem_map.2 hnames)
  · exact List.map_map
  · exact List.map_map
  · intro v hv
    exact EnumTable.fromProto_of_mem (List.mem_map_of_mem hv)

/-- An enumeration with a setting between its constants, a repeated name and a negative zero. -/
def Enumeration.levels : Enumeration where
  name := "Level"
  members := [
    .value { name := "LOW", tag := 2 },
    .option ⟨"allow_alias", "true"⟩,
    .value { name := "NONE", tag := 0, isNegative := true },
    .value { name := "LOW", tag := 2, isNegative := true },
    .value { name := "ZERO", tag := 0 }]

theorem Generator.describeEnum_levels :
    Enumeration.levels.values ≠ [] ∧
    ∃ m t, (Schema.generator {} {}).describeEnum ⟨"Level"⟩ .levels = .ok m ∧
      EnumTable.read? m.source = some t ∧
      t.constantLines = ["LOW(SchemaProto.Level.LOW),", "NONE(SchemaProto.Level.NONE),",
        "LOW(SchemaProto.Level.LOW),", "ZERO(SchemaProto.Level.ZERO);"] ∧
      (∀ v ∈ Enumeration.levels.values, ∃ w, t.toProto? v.name = some w ∧ t.fromProto w = v.name) ∧
      t.fromProto "SchemaProto.Level.UNRECOGNIZED" = "NONE" := by
  have hvalues : Enumeration.levels.values ≠ [] := by decide
  obtain ⟨m, t, hm, _, hread, _, _, hback, _⟩ :=
    describeEnum_invertible (Schema.generator {} {}) ⟨"Level"⟩ .levels hvalues
  refine ⟨hvalues, m, t, hm, hread (by decide), ?_⟩
  have htable : EnumTable.read? m.source = some ⟨
      [("LOW", "SchemaProto.Level.LOW"), ("NONE", "SchemaProto.Level.NONE"),
        ("LOW", "SchemaProto.Level.LOW"), ("ZERO", "SchemaProto.Level.ZERO")],
      [("SchemaProto.Level.LOW", "LOW"), ("SchemaProto.Level.NONE", "NONE"),
        ("SchemaProto.Level.LOW", "LOW"), ("SchemaProto.Level.ZERO", "ZERO")], "NONE"⟩ := by
    cases hm
    decide +kernel
  rw [hread (by decide)] at htable
  cases htable
  exact ⟨by decide, hback, by decide⟩

end WireModel
