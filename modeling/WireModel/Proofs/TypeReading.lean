import Mathlib.Data.List.TakeWhile
import WireModel.Proofs.LineTrees
import WireModel.Proofs.TypeNames
import WireModel.Proofs.WireText

namespace WireModel

/-- The last of the words of a type has the name in it that is looked up. -/
theorem FieldType.exists_words_eq {t : FieldType} (h : t.expr.WellFormed) :
    ∃ ws w, t.words = ws ++ [w] ∧
      String.ofList (w.toList.takeWhile (· ≠ '>')) = t.reference := by
  have hname {name : String} (hn : IsName name) : '>' ∉ name.toList := hn.notMem (by decide)
  rw [FieldType.words, FieldType.reference]
  cases he : t.expr with
  | named name =>
    rw [he] at h
    refine ⟨t.modifier?.toList, name, rfl, ?_⟩
    rw [List.takeWhile_eq_self_iff.2 (Text.decide_ne_of_notMem (hname h.1)), String.ofList_toList]
  | map key value =>
    rw [he] at h
    refine ⟨t.modifier?.toList ++ ["map<" ++ key ++ ","], value ++ ">",
      by simp [TypeExpr.words], ?_⟩
    rw [String.toList_append, Text.takeWhile_append_eq (Text.decide_ne_of_notMem (hname h.2))
      (by simp), String.ofList_toList]

namespace WireSchema

open WireBlock (heading? Spells)

/-- The type name on a line that declares a field, in front of the last word before the equals sign;
the type of a map ends in that of its values. -/
def fieldType? (text : String) : Option String :=
  if (Text.afterStart? "option ".toList text.toList).isSome then none
  else if '=' ∈ text.toList then
    match (Text.pieces (· == ' ') (text.toList.takeWhile (· ≠ '='))).reverse with
    | _ :: _ :: type :: _ => some (String.ofList (type.takeWhile (· ≠ '>')))
    | _ => none
  else none

/-- The type of one side of a procedure. -/
def sideType (side : List Char) : String :=
  String.ofList ((Text.afterStart? "stream ".toList side).getD side)

/-- The type names on a line that declares a procedure. -/
def rpcTypes (text : String) : List Reference :=
  match (Text.afterStart? "rpc ".toList text.toList).map
      (Text.pieces fun c => c == '(' || c == ')') with
  | some [_, input, _, output, _] => [(sideType input, none), (sideType output, none)]
  | _ => []

mutual

/-- The type names in a statement, given the names of the messages around it. -/
def typeNames (path : List String) : Stmt → List Reference
  | .line text =>
    if path = [] then rpcTypes text
    else (fieldType? text).toList.map fun name => (name, some ⟨Text.joinWith "." path⟩)
  | .blank => []
  | .indent body => typeNamesOf path body
  | .block opening body _ =>
    match heading? opening with
    | some (.message, name) => typeNamesOf (path ++ [name]) body
    | some (.oneOf, _) => typeNamesOf path body
    | some (.enumeration, _) => []
    | none => rpcTypes opening ++ typeNamesOf path body

def typeNamesOf (path : List String) : List Stmt → List Reference
  | [] => []
  | s :: ss => typeNames path s ++ typeNamesOf path ss

end

/-- The type names in the text of a wire schema, unless its braces do not match. -/
def typeNamesIn? (text : String) : Option (List Reference) :=
  (Stmt.ofLines? (Text.splitAt '\n' text)).map (typeNamesOf [])

section Lines

theorem fieldType?_optionLine (o : OptionSetting) : fieldType? (optionLine o) = none := by
  rw [fieldType?, if_pos (isSome_afterStart?_optionLine o)]

theorem fieldType?_of_equals_notMem {text : String} (h : '=' ∉ text.toList) :
    fieldType? text = none := by
  rw [fieldType?, if_neg h, ite_self]

theorem fieldType?_fieldLine {f : Field} (h : f.WellFormed) :
    fieldType? (fieldLine f) = some f.type.reference := by
  obtain ⟨ws, w, hwords, hname⟩ := FieldType.exists_words_eq h.type
  have hline := toList_fieldLine f
  have hword := isWord_of_mem_fieldLine h
  have hstart : Text.afterStart? "option ".toList (fieldLine f).toList = none := by
    cases hw : f.type.words with
    | nil => simp [hw] at hwords
    | cons v vs =>
      rw [hline, hw]
      rw [hw] at hword
      exact Text.afterStart?_assignment (hword v List.mem_cons_self)
        (FieldType.head_words_ne_option h.type hw) _ _
  have hpieces : Text.pieces (· == ' ') ((fieldLine f).toList.takeWhile (· ≠ '=')) =
      (f.type.words ++ [f.name]).map String.toList ++ [[]] := by
    rw [hline, Text.takeWhile_assignment hword]
    exact Text.pieces_words fun v hv => (hword v hv).1
  have hreverse : ((ws ++ [w] ++ [f.name]).map String.toList ++ [[]]).reverse =
      [] :: f.name.toList :: w.toList :: (ws.map String.toList).reverse := by
    simp
  rw [fieldType?, hstart, if_neg (by simp), if_pos (equals_mem_fieldLine f), hpieces, hwords,
    hreverse]
  exact congrArg some hname

theorem sideType_rpcSide (stream : Bool) {type : String} (h : IsName type) :
    sideType (rpcSide stream type).toList = type := by
  cases stream with
  | true =>
    have hside : (rpcSide true type).toList = "stream ".toList ++ type.toList :=
      String.toList_append
    rw [sideType, hside, Text.afterStart?_append, Option.getD_some, String.ofList_toList]
  | false =>
    have hplain : Text.afterStart? "stream ".toList type.toList = none := by
      rw [Option.eq_none_iff_forall_ne_some]
      intro rest hrest
      have hblank : ' ' ∈ type.toList := by
        rw [Text.afterStart?_eq_some_iff.1 hrest]
        exact List.mem_append_left _ (by decide)
      exact h.notMem (by decide) hblank
    change sideType type.toList = type
    rw [sideType, hplain, Option.getD_none, String.ofList_toList]

/-- The types of a procedure stand between its parentheses. -/
theorem rpcTypes_append {r : Rpc} (h : r.WellFormed) {ending : String}
    (he : '(' ∉ ending.toList ∧ ')' ∉ ending.toList) :
    rpcTypes (rpcSignature r ++ ending) = r.references := by
  have htext : (rpcSignature r ++ ending).toList = "rpc ".toList ++ (r.name.toList ++
      '(' :: ((rpcSide r.inStream r.inType).toList ++ ')' :: (" returns ".toList ++
        '(' :: ((rpcSide r.outStream r.outType).toList ++ ')' :: ending.toList)))) := by
    simp [rpcSignature]
  have hcut {cs : List Char} (hopen : '(' ∉ cs) (hclose : ')' ∉ cs) :
      Text.pieces (fun c => c == '(' || c == ')') cs = [cs] := by
    apply Text.pieces_of_forall
    intro c hc
    rw [Bool.or_eq_false_iff]
    exact ⟨beq_false_of_ne (Text.ne_of_mem_of_notMem hopen c hc),
      beq_false_of_ne (Text.ne_of_mem_of_notMem hclose c hc)⟩
  have hside {stream : Bool} {type : String} (ht : IsName type) :
      Text.pieces (fun c => c == '(' || c == ')') (rpcSide stream type).toList =
        [(rpcSide stream type).toList] :=
    hcut (notMem_rpcSide ht (by decide) (by decide)) (notMem_rpcSide ht (by decide) (by decide))
  rw [rpcTypes, htext, Text.afterStart?_append, Option.map_some, Text.pieces_append_cut rfl,
    Text.pieces_append_cut rfl, Text.pieces_append_cut rfl, Text.pieces_append_cut rfl,
    hcut (h.name.notMem (by decide)) (h.name.notMem (by decide)), hside h.inType, hside h.outType,
    hcut he.1 he.2]
  change [(sideType _, none), (sideType _, none)] = _
  rw [sideType_rpcSide _ h.inType, sideType_rpcSide _ h.outType]
  rfl

theorem rpcTypes_eq_nil {text : String} {c : Char} (h : text.toList.head? = some c) (hc : c ≠ 'r') :
    rpcTypes text = [] := by
  rw [rpcTypes, Text.afterStart?_eq_none (c := 'r') rfl h hc.symm]
  rfl

end Lines

theorem typeNames_outer_line (text : String) : typeNames [] (.line text) = rpcTypes text := by
  rw [typeNames, if_pos rfl]

theorem typeNamesOf_append (path : List String) (ss ts : List Stmt) :
    typeNamesOf path (ss ++ ts) = typeNamesOf path ss ++ typeNamesOf path ts := by
  induction ss with
  | nil => rfl
  | cons s ss ih => rw [List.cons_append, typeNamesOf, ih, typeNamesOf, List.append_assoc]

theorem typeNamesOf_singleton (path : List String) (s : Stmt) :
    typeNamesOf path [s] = typeNames path s :=
  List.append_nil _

theorem typeNamesOf_eq_nil {path : List String} {ss : List Stmt}
    (h : ∀ s ∈ ss, typeNames path s = []) : typeNamesOf path ss = [] := by
  induction ss with
  | nil => rfl
  | cons s ss ih =>
    rw [typeNamesOf, h s List.mem_cons_self, List.nil_append]
    exact ih fun t ht => h t (List.mem_cons_of_mem s ht)

/-- Names are read off statements that come from a list where they are read off each of them. -/
theorem typeNamesOf_map {α β : Type} {path : List String} {f : α → Stmt} {pick : α → Option β}
    {g : β → List Reference} {as : List α}
    (h : ∀ a ∈ as, typeNames path (f a) = (pick a).toList.flatMap g) :
    typeNamesOf path (as.map f) = (as.filterMap pick).flatMap g := by
  induction as with
  | nil => rfl
  | cons a as ih =>
    rw [List.map_cons, typeNamesOf, h a List.mem_cons_self,
      ih fun b hb => h b (List.mem_cons_of_mem a hb), flatMap_filterMap_cons]

section Members

variable {path : List String} {scope : TypeName}

theorem typeNames_fieldLine (hs : Spells path scope) {f : Field} (h : f.WellFormed) :
    typeNames path (.line (fieldLine f)) = [(f.type.reference, some scope)] := by
  rw [typeNames, if_neg hs.ne_nil, fieldType?_fieldLine h, hs.text]
  rfl

theorem typeNames_line_of_none (hs : Spells path scope) {text : String}
    (h : fieldType? text = none) : typeNames path (.line text) = [] := by
  rw [typeNames, if_neg hs.ne_nil, h]
  rfl

theorem typeNames_oneOfBlock (hs : Spells path scope) {o : OneOf} (h : o.WellFormed) :
    typeNames path (oneOfBlock o) = o.fields.map fun f => (f.type.reference, some scope) := by
  have hheading : heading? ("oneof " ++ o.name ++ " \x7b") = some (.oneOf, o.name) :=
    WireBlock.heading?_keyword .oneOf o.name
  rw [List.map_eq_flatMap, oneOfBlock, Stmt.braces, typeNames, hheading]
  apply typeNamesOf_map
  intro member hm
  have hm := h.members member hm
  cases member with
  | field f => exact typeNames_fieldLine hs hm
  | option s => exact typeNames_line_of_none hs (fieldType?_optionLine s)

theorem typeNames_enumBlock (path : List String) (e : Enumeration) :
    typeNames path (enumBlock e) = [] := by
  have hheading : heading? ("enum " ++ e.name ++ " \x7b") = some (.enumeration, e.name) :=
    WireBlock.heading?_keyword .enumeration e.name
  rw [enumBlock, Stmt.braces, typeNames, hheading]

theorem typeNames_message (path : List String) (name : String) (body : List Stmt) :
    typeNames path (.braces ("message " ++ name) body) = typeNamesOf (path ++ [name]) body := by
  have hheading : heading? ("message " ++ name ++ " \x7b") = some (.message, name) :=
    WireBlock.heading?_keyword .message name
  rw [Stmt.braces, typeNames, hheading]

theorem typeNamesOf_reservedLines (hp : Spells path scope) {items : List ReservedItem}
    (h : ∀ i ∈ items, i.WellFormed) : typeNamesOf path (reservedLines items) = [] := by
  rw [reservedLines, reservedNumbers_eq, reservedNames_eq, reservedLine_map_text,
    reservedLine_map_text, ← List.map_append]
  apply typeNamesOf_eq_nil
  intro s hs
  obtain ⟨m, hm, rfl⟩ := List.mem_map.1 hs
  obtain ⟨group, rfl, _, hsub⟩ := Member.mem_splitReserved hm
  exact typeNames_line_of_none hp (fieldType?_of_equals_notMem
    (equals_notMem_reservedText fun i hi => h i (hsub i hi)))

mutual

theorem typeNamesOf_memberStmts : ∀ {path : List String} {scope : TypeName}, Spells path scope →
    ∀ {m : Member}, m.WellFormed → typeNamesOf path (memberStmts m) = m.references scope
  | _, _, hs, .field f, h => by
    cases h with
    | field hf =>
      rw [memberStmts, typeNamesOf_singleton, typeNames_fieldLine hs hf]
      rfl
  | _, _, hs, .oneOf o, h => by
    cases h with
    | oneOf ho =>
      rw [memberStmts, typeNamesOf_singleton, typeNames_oneOfBlock hs ho]
      rfl
  | _, _, _, .enumeration e, _ => by
    rw [memberStmts, typeNamesOf_singleton, typeNames_enumBlock]
    rfl
  | _, _, hs, .message name members, h => by
    cases h with
    | message _ hmembers =>
      rw [memberStmts, typeNamesOf_singleton, typeNames_message,
        typeNamesOf_membersStmts (hs.child name) hmembers]
      rfl
  | _, _, hs, .option o, _ => by
    rw [memberStmts, typeNamesOf_singleton, typeNames_line_of_none hs (fieldType?_optionLine o)]
    rfl
  | _, _, hs, .reserved items, h => by
    cases h with
    | reserved hi =>
      rw [memberStmts, typeNamesOf_reservedLines hs hi]
      rfl

theorem typeNamesOf_membersStmts : ∀ {path : List String} {scope : TypeName}, Spells path scope →
    ∀ {ms : List Member}, (∀ m ∈ ms, m.WellFormed) →
      typeNamesOf path (membersStmts ms) = Member.referencesOf scope ms
  | _, _, _, [], _ => rfl
  | _, _, hs, m :: ms, h => by
    rw [membersStmts, typeNamesOf_append, typeNamesOf_memberStmts hs (h m List.mem_cons_self),
      typeNamesOf_membersStmts hs fun n hn => h n (List.mem_cons_of_mem m hn)]
    rfl

end

end Members

section Definitions

theorem typeNames_outer_optionLine (o : OptionSetting) :
    typeNames [] (.line (optionLine o)) = [] := by
  rw [typeNames_outer_line, rpcTypes_eq_nil (c := 'o') (by simp [optionLine]) (by decide)]

theorem typeNames_rpcStmt {r : Rpc} (h : r.WellFormed) :
    typeNames [] (rpcStmt r) = r.references := by
  rw [rpcStmt]
  split
  · rw [typeNames_outer_line, rpcTypes_append h (by decide)]
  · have hheading : heading? (rpcSignature r ++ " \x7b") = none :=
      WireBlock.heading?_eq_none (d := 'r') (by simp [rpcSignature]) (by decide)
    have hoptions : typeNamesOf [] (r.options.map fun o => .line (optionLine o)) = [] := by
      apply typeNamesOf_eq_nil
      intro s hs
      obtain ⟨o, _, rfl⟩ := List.mem_map.1 hs
      exact typeNames_outer_optionLine o
    rw [Stmt.braces, typeNames, hheading]
    change rpcTypes _ ++ typeNamesOf [] _ = _
    rw [rpcTypes_append h (by decide), hoptions, List.append_nil]

theorem typeNames_serviceBlock {d : Service} (h : d.WellFormed) :
    typeNames [] (serviceBlock d) = d.rpcs.flatMap Rpc.references := by
  have hhead : ("service " ++ d.name ++ " \x7b").toList.head? = some 's' := by simp
  rw [serviceBlock, Stmt.braces, typeNames, WireBlock.heading?_eq_none hhead (by decide)]
  change rpcTypes _ ++ typeNamesOf [] _ = _
  rw [rpcTypes_eq_nil hhead (by decide), List.nil_append]
  apply typeNamesOf_map
  intro member hm
  have hm := h.members member hm
  cases member with
  | option o => exact typeNames_outer_optionLine o
  | rpc r =>
    rw [Option.toList_some, List.flatMap_singleton]
    exact typeNames_rpcStmt hm

theorem typeNames_definitionBlock {d : Definition} (h : d.WellFormed) :
    typeNames [] (definitionBlock d) = d.references := by
  cases d with
  | message m =>
    rw [definitionBlock, messageBlock, typeNames_message]
    exact typeNamesOf_membersStmts (WireBlock.spells_singleton m.name) h.2
  | enumeration e => exact typeNames_enumBlock [] e
  | service d => exact typeNames_serviceBlock h

/-- The type names of a well-formed schema are read off its statements in order. -/
theorem typeNamesOf_body {s : Schema} (h : s.WellFormed) :
    typeNamesOf [] (body s.definitions) = s.definitions.flatMap Definition.references := by
  have hblocks : ∀ ds : List Definition, (∀ d ∈ ds, d.WellFormed) →
      typeNamesOf [] (ds.flatMap fun d => [.blank, definitionBlock d]) =
        ds.flatMap Definition.references := by
    intro ds hds
    induction ds with
    | nil => rfl
    | cons d ds ih =>
      rw [List.flatMap_cons, List.flatMap_cons, typeNamesOf_append,
        ih fun e he => hds e (List.mem_cons_of_mem d he)]
      change typeNamesOf [] [definitionBlock d] ++ _ = _
      rw [typeNamesOf_singleton, typeNames_definitionBlock (hds d List.mem_cons_self)]
  cases hd : s.definitions with
  | nil => rfl
  | cons d ds =>
    have hwell : ∀ e ∈ d :: ds, e.WellFormed := fun e he => h e (hd ▸ he)
    rw [body, Stmt.spaced_cons, typeNamesOf, List.flatMap_cons,
      typeNames_definitionBlock (hwell d List.mem_cons_self),
      hblocks ds fun e he => hwell e (List.mem_cons_of_mem d he)]

end Definitions

section Files

variable {package outerClass : String} {javaPackage : Option String}

/-- A line that stands alone, and is not one of a procedure. -/
def StandsAlone (l : String) : Prop :=
  l = "" ∨ (∃ c, l.toList.head? = some c ∧ c ∉ [' ', '\x7d', 'r']) ∧
    l.toList.getLast? ≠ some '\x7b'

theorem standsAlone_append {text ending : String} {c d : Char} (hc : text.toList.head? = some c)
    (hcs : c ∉ [' ', '\x7d', 'r']) (hd : ending.toList.getLast? = some d) (hne : d ≠ '\x7b') :
    StandsAlone (text ++ ending) := by
  have hlast : (text ++ ending).toList.getLast? = some d := by
    rw [String.toList_append, List.getLast?_append, hd, Option.some_or]
  refine .inr ⟨⟨c, ?_, hcs⟩, ?_⟩
  · rw [String.toList_append, List.head?_append, hc, Option.some_or]
  · rw [hlast]
    exact fun he => hne (Option.some.inj he)

theorem mem_paragraph_iff {l : String} {ls : List String} :
    l ∈ paragraph ls ↔ l ∈ ls ∨ ls ≠ [] ∧ l = "" := by
  rw [paragraph]
  split_ifs with hls <;> simp [hls]

theorem standsAlone_of_mem_paragraph {ls : List String} (h : ∀ l ∈ ls, StandsAlone l) :
    ∀ l ∈ paragraph ls, StandsAlone l := by
  intro l hl
  obtain hl | ⟨_, hblank⟩ := mem_paragraph_iff.1 hl
  · exact h l hl
  · exact .inl hblank

theorem standsAlone_of_mem_header :
    ∀ l ∈ header package javaPackage outerClass, StandsAlone l := by
  have hpackage : ∀ l ∈ if package = "" then [] else ["package " ++ package ++ ";"],
      StandsAlone l := by
    intro l hl
    split_ifs at hl
    · cases hl
    · cases List.mem_singleton.1 hl
      exact standsAlone_append (c := 'p') (d := ';') (by simp) (by decide) (by decide) (by decide)
  have hoptions : ∀ l ∈ fileOptions javaPackage outerClass, StandsAlone l := by
    intro l hl
    obtain hl | hl := List.mem_append.1 hl
    · cases javaPackage with
      | none => cases hl
      | some java =>
        cases List.mem_singleton.1 hl
        exact standsAlone_append (c := 'o') (d := ';') (by simp) (by decide) (by decide) (by decide)
    · split_ifs at hl
      · cases hl
      · cases List.mem_singleton.1 hl
        exact standsAlone_append (c := 'o') (d := ';') (by simp) (by decide) (by decide) (by decide)
  intro l hl
  obtain hl | hl := List.mem_append.1 hl
  · obtain hl | hl := List.mem_append.1 hl
    · obtain hl | hl := List.mem_append.1 hl
      · refine standsAlone_of_mem_paragraph (fun l hl => ?_) l hl
        cases List.mem_singleton.1 hl
        exact .inr ⟨⟨'/', rfl, by decide⟩, by decide⟩
      · refine standsAlone_of_mem_paragraph (fun l hl => ?_) l hl
        cases List.mem_singleton.1 hl
        exact .inr ⟨⟨'s', rfl, by decide⟩, by decide⟩
    · exact standsAlone_of_mem_paragraph hpackage l hl
  · exact standsAlone_of_mem_paragraph hoptions l hl

/-- Lines that stand alone are statements without type names. -/
theorem exists_stmts_of_standsAlone {ls : List String} (h : ∀ l ∈ ls, StandsAlone l)
    (hbreak : ∀ l ∈ ls, '\n' ∉ l.toList) :
    ∃ ss, Stmt.Readable ss ∧ Stmt.linesOf 0 ss = ls ∧ typeNamesOf [] ss = [] := by
  induction ls with
  | nil => exact ⟨[], .nil, rfl, rfl⟩
  | cons l ls ih =>
    obtain ⟨ss, hss, hlines, hnames⟩ := ih (fun k hk => h k (List.mem_cons_of_mem l hk))
      fun k hk => hbreak k (List.mem_cons_of_mem l hk)
    obtain rfl | ⟨⟨c, hc, hne⟩, hlast⟩ := h l List.mem_cons_self
    · exact ⟨.blank :: ss, .blank hss, congrArg ("" :: ·) hlines, hnames⟩
    · have hline : Stmt.IsLine l :=
        ⟨hbreak l List.mem_cons_self, c, hc, fun he => hne (by simp [he]),
          fun he => hne (by simp [he])⟩
      refine ⟨.line l :: ss, .line hline hlast hss, ?_, ?_⟩
      · rw [Stmt.linesOf, Stmt.lines, Stmt.indented_zero, hlines]
        rfl
      · rw [typeNamesOf, hnames, List.append_nil, typeNames_outer_line,
          rpcTypes_eq_nil hc fun he => hne (by simp [he])]

theorem render_eq (s : Schema) : render s package javaPackage outerClass =
    Text.unlines (header package javaPackage outerClass ++ Stmt.linesOf 0 (body s.definitions)) :=
  (Text.unlines_append _ _).symm

/-- The type names of a well-formed schema are read off its text in order. -/
theorem typeNamesIn?_render {s : Schema} (h : s.WellFormed)
    (hheader : ∀ l ∈ header package javaPackage outerClass, '\n' ∉ l.toList) :
    typeNamesIn? (render s package javaPackage outerClass) =
      some (s.definitions.flatMap Definition.references) := by
  have hbody : Stmt.Readable (body s.definitions) :=
    Stmt.readable_spaced fun d hd => readable_definitionBlock (h d hd)
  obtain ⟨ss, hss, hlines, hnames⟩ :=
    exists_stmts_of_standsAlone standsAlone_of_mem_header hheader
  have hall : Stmt.Readable (ss ++ body s.definitions ++ [.blank]) :=
    (hss.append hbody).append (.blank .nil)
  have htext : Text.splitAt '\n' (render s package javaPackage outerClass) =
      Stmt.linesOf 0 (ss ++ body s.definitions ++ [.blank]) := by
    rw [render_eq, Text.splitAt_unlines, Stmt.linesOf_append, Stmt.linesOf_append, hlines]
    · rfl
    · intro l hl
      obtain hl | hl := List.mem_append.1 hl
      · exact hheader l hl
      · exact Stmt.newline_notMem_linesOf hbody 0 l hl
  rw [typeNamesIn?, htext, Stmt.ofLines?_linesOf hall, Option.map_some, typeNamesOf_append,
    typeNamesOf_append, hnames, typeNamesOf_body h]
  simp [typeNamesOf, typeNames]

end Files

end WireSchema

end WireModel
