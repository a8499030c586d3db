import Mathlib.Data.List.TakeWhile
import WireModel.Proofs.Blocks
import WireModel.Proofs.Stages
import WireModel.Proofs.WireText

namespace WireModel

open Outcome

/-- The name of a field or oneof, and the number of a field. -/
abbrev Entry := String × Option Tag

def Property.entry : Property → Entry
  | .field f => (f.name, some f.tag)
  | .oneOf o => (o.name, none)

def FieldModel.entry (f : FieldModel) : Entry :=
  (f.spec.name, f.spec.tag)

namespace Stmt

/-- Statements that declare a field or a oneof. -/
inductive Declares : Stmt → Entry → Prop where
  | field (type name options : String) (tag : Tag)
    (h : options = "" ∨ ∃ text, options = " [" ++ text ++ "]") :
    Declares (.line (type ++ " " ++ name ++ " = " ++ tag.toNat.repr ++ options ++ ";"))
      (name, some tag)
  | oneOf (name : String) (body : List Stmt) :
    Declares (.block ("oneof " ++ name ++ " \x7b") body "\x7d") (name, none)

/-- Statements of a message that declare neither. -/
inductive Passes : Stmt → Prop where
  | option (text : String) : Passes (.line ("option " ++ text ++ ";"))
  | reserved (text : String) : Passes (.line ("reserved " ++ text ++ ";"))
  | enumeration (name : String) (body : List Stmt) :
    Passes (.block ("enum " ++ name ++ " \x7b") body "\x7d")
  | message (name : String) (body : List Stmt) :
    Passes (.block ("message " ++ name ++ " \x7b") body "\x7d")

/-- What statements declare, in order. -/
inductive Lists : List Stmt → List Entry → Prop where
  | nil : Lists [] []
  | entry {s : Stmt} {ss : List Stmt} {e : Entry} {es : List Entry} (h : s.Declares e)
    (hs : Lists ss es) : Lists (s :: ss) (e :: es)
  | pass {s : Stmt} {ss : List Stmt} {es : List Entry} (h : s.Passes) (hs : Lists ss es) :
    Lists (s :: ss) es

theorem Lists.passes {ss ts : List Stmt} {es : List Entry} (hs : ∀ s ∈ ss, s.Passes)
    (ht : Lists ts es) : Lists (ss ++ ts) es := by
  induction ss with
  | nil => exact ht
  | cons s ss ih =>
    exact .pass (hs s List.mem_cons_self) (ih fun t ht => hs t (List.mem_cons_of_mem s ht))

end Stmt

namespace WireSchema

theorem declares_fieldLine (f : Field) :
    Stmt.Declares (.line (fieldLine f)) (f.name, some f.tag) := by
  refine .field (typeText f.type) f.name (optionSuffix f.options) f.tag ?_
  cases f.options with
  | nil => exact .inl rfl
  | cons o os => exact .inr ⟨_, rfl⟩

theorem passes_optionLine (o : OptionSetting) : Stmt.Passes (.line (optionLine o)) := by
  have htext : optionLine o = "option " ++ (o.name ++ " = " ++ o.value) ++ ";" := by
    simp only [optionLine, String.append_assoc]
  rw [htext]
  exact .option _

theorem passes_reservedLines {items : List ReservedItem} :
    ∀ s ∈ reservedLines items, s.Passes := by
  have hline : ∀ group, ∀ s ∈ reservedLine group, s.Passes := by
    intro group s hs
    cases group with
    | nil => cases hs
    | cons g gs =>
      cases List.mem_singleton.1 hs
      exact .reserved _
  intro s hs
  obtain hs | hs := List.mem_append.1 hs
  · exact hline _ s hs
  · exact hline _ s hs

theorem lists_membersStmts (name : String) (ms : List Member) :
    Stmt.Lists (membersStmts ms) ((Message.properties ⟨name, ms⟩).map Property.entry) := by
  induction ms with
  | nil => exact .nil
  | cons m ms ih =>
    cases m with
    | field f => exact .entry (declares_fieldLine f) ih
    | oneOf o => exact .entry (.oneOf o.name _) ih
    | enumeration e => exact .pass (.enumeration e.name _) ih
    | message name members => exact .pass (.message name _) ih
    | option o => exact .pass (passes_optionLine o) ih
    | reserved items => exact ih.passes passes_reservedLines

/-- The name and the number that a line declares, unless it is a setting. -/
def readLine? (text : String) : Option (String × String) :=
  if (Text.afterStart? "option ".toList text.toList).isSome then none
  else match text.toList.dropWhile (· ≠ '=') with
    | '=' :: ' ' :: value =>
      let words := text.toList.takeWhile (· ≠ '=')
      some (String.ofList ((words.reverse.drop 1).takeWhile (· ≠ ' ')).reverse,
        String.ofList (value.takeWhile Char.isDigit))
    | _ => none

/-- What a statement of a message declares. -/
def readStmt? : Stmt → Option (String × Option String)
  | .line text => (readLine? text).map fun e => (e.1, some e.2)
  | .block opening _ _ =>
    match WireBlock.heading? opening with
    | some (.oneOf, name) => some (name, none)
    | _ => none
  | _ => none

theorem blank_of_getLast?_words (ws : List String) :
    ∀ c ∈ (ws.flatMap fun w => w.toList ++ [' ']).getLast?, c = ' ' := by
  induction ws with
  | nil => simp
  | cons w ws ih =>
    intro c hc
    rw [List.flatMap_cons, List.getLast?_append, Option.mem_def, Option.or_eq_some_iff] at hc
    obtain hc | ⟨_, hc⟩ := hc
    · exact ih c hc
    · simpa using hc.symm

/-- The last word before an equals sign is a name and the digits after it are a number. -/
theorem readLine?_of_assignment {text : String} {w name : String} {ws : List String}
    {number rest : List Char}
    (htext : text.toList = Text.assignment (w :: ws ++ [name]) (number ++ rest))
    (hw : ∀ v ∈ w :: ws ++ [name], Text.IsWord v) (hoption : w ≠ "option")
    (hnumber : ∀ c ∈ number, c.isDigit = true) (hrest : ∀ c ∈ rest.head?, c.isDigit = false) :
    readLine? text = some (name, String.ofList number) := by
  have hstart : Text.afterStart? "option ".toList text.toList = none := by
    rw [htext]
    exact Text.afterStart?_assignment (hw w List.mem_cons_self) hoption _ _
  have hbefore : (text.toList.takeWhile (· ≠ '=')) =
      (w :: ws ++ [name]).flatMap fun v => v.toList ++ [' '] := by
    rw [htext, Text.takeWhile_assignment hw]
  have hafter : text.toList.dropWhile (· ≠ '=') = '=' :: ' ' :: (number ++ rest) := by
    rw [htext, Text.assignment,
      List.dropWhile_append_of_pos (Text.decide_ne_of_notMem (Text.equals_notMem_words hw))]
    simp
  have hname : (((text.toList.takeWhile (· ≠ '=')).reverse.drop 1).takeWhile (· ≠ ' ')).reverse =
      name.toList := by
    have hreverse : ((w :: ws ++ [name]).flatMap fun v => v.toList ++ [' ']).reverse.drop 1 =
        name.toList.reverse ++ ((w :: ws).flatMap fun v => v.toList ++ [' ']).reverse := by
      simp
    have hblank : ' ' ∉ name.toList.reverse := by
      simpa using (hw name (by simp)).1
    rw [hbefore, hreverse, Text.takeWhile_append_eq (Text.decide_ne_of_notMem hblank),
      List.reverse_reverse]
    intro c hc
    rw [List.head?_reverse] at hc
    simp [blank_of_getLast?_words _ c hc]
  rw [readLine?, hstart, hafter]
  simp only [Option.isSome_none, Bool.false_eq_true, if_false, hname,
    Text.takeWhile_append_eq hnumber hrest, String.ofList_toList]

theorem readLine?_fieldLine {f : Field} (h : f.WellFormed) :
    readLine? (fieldLine f) = some (f.name, f.tag.toNat.repr) := by
  have hline := toList_fieldLine f
  have hword := isWord_of_mem_fieldLine h
  have hdigit : ∀ c ∈ f.tag.toNat.repr.toList, c.isDigit = true := fun _ => isDigit_of_mem_natRepr
  have hrest : ∀ c ∈ ((optionSuffix f.options).toList ++ [';']).head?, c.isDigit = false := by
    intro c hc
    cases ho : f.options with
    | nil =>
      rw [ho] at hc
      cases hc
      decide
    | cons o os =>
      rw [ho, toList_optionSuffix_cons] at hc
      cases hc
      decide
  cases hw : f.type.words with
  | nil =>
    have hne : f.type.expr.words = [] := (List.append_eq_nil_iff.1 hw).2
    cases he : f.type.expr <;> rw [he] at hne <;> cases hne
  | cons w ws =>
    rw [hw] at hline hword
    have hentry := readLine?_of_assignment hline hword
      (FieldType.head_words_ne_option h.type hw) hdigit hrest
    rw [hentry, String.ofList_toList]

theorem readLine?_optionLine (o : OptionSetting) : readLine? (optionLine o) = none := by
  rw [readLine?, if_pos (isSome_afterStart?_optionLine o)]

theorem readLine?_of_equals_notMem {text : String} (h : '=' ∉ text.toList) :
    readLine? text = none := by
  have hnone : text.toList.dropWhile (· ≠ '=') = [] :=
    List.dropWhile_eq_nil_iff.2 (Text.decide_ne_of_notMem h)
  rw [readLine?, hnone]
  split <;> rfl

theorem readStmt?_reservedLines {items : List ReservedItem} (h : ∀ i ∈ items, i.WellFormed) :
    (reservedLines items).filterMap readStmt? = [] := by
  rw [reservedLines, reservedNumbers_eq, reservedNames_eq, reservedLine_map_text,
    reservedLine_map_text, ← List.map_append, List.filterMap_eq_nil_iff]
  intro s hs
  obtain ⟨m, hm, rfl⟩ := List.mem_map.1 hs
  obtain ⟨group, rfl, _, hsub⟩ := Member.mem_splitReserved hm
  have hequals := equals_notMem_reservedText fun i hi => h i (hsub i hi)
  rw [Member.stmt, readStmt?, readLine?_of_equals_notMem hequals, Option.map_none]

theorem readStmt?_braces (sort : BlockSort) (name : String) (body : List Stmt) :
    readStmt? (.braces (sort.keyword ++ name) body) =
      if sort = .oneOf then some (name, none) else none := by
  rw [Stmt.braces, readStmt?, WireBlock.heading?_keyword]
  cases sort <;> rfl

/-- In a well-formed message the fields and oneofs can be read off the statements. -/
theorem filterMap_membersStmts (name : String) {ms : List Member}
    (h : ∀ m ∈ ms, m.WellFormed) :
    (membersStmts ms).filterMap readStmt? = (Message.properties ⟨name, ms⟩).map fun p =>
      (p.entry.1, p.entry.2.map fun tag => tag.toNat.repr) := by
  induction ms with
  | nil => rfl
  | cons m ms ih =>
    have hms := ih fun n hn => h n (List.mem_cons_of_mem m hn)
    have hm := h m List.mem_cons_self
    rw [membersStmts, List.filterMap_append, hms]
    cases hm with
    | @field f hf =>
      have hline : readStmt? (.line (fieldLine f)) = some (f.name, some f.tag.toNat.repr) := by
        rw [readStmt?, readLine?_fieldLine hf, Option.map_some]
      rw [memberStmts, List.filterMap_cons_some hline]
      rfl
    | @oneOf o ho =>
      have hblock : readStmt? (oneOfBlock o) = some (o.name, none) :=
        readStmt?_braces .oneOf o.name _
      rw [memberStmts, List.filterMap_cons_some hblock]
      rfl
    | @enumeration e he =>
      have hblock : readStmt? (enumBlock e) = none := readStmt?_braces .enumeration e.name _
      rw [memberStmts, List.filterMap_cons_none hblock]
      rfl
    | @message name members _ _ =>
      have hblock : readStmt? (.braces ("message " ++ name) (membersStmts members)) = none :=
        readStmt?_braces .message name _
      rw [memberStmts, List.filterMap_cons_none hblock]
      rfl
    | @option o ho =>
      have hline : readStmt? (.line (optionLine o)) = none := by
        rw [readStmt?, readLine?_optionLine, Option.map_none]
      rw [memberStmts, List.filterMap_cons_none hline]
      rfl
    | @reserved items hi =>
      rw [memberStmts, readStmt?_reservedLines hi]
      rfl

end WireSchema

theorem Schema.wellFormed_of_mem_messages {s : Schema} (h : s.WellFormed) {p : TypeName × Message}
    (hp : p ∈ s.messages) : ∀ n ∈ p.2.members, n.WellFormed := by
  refine messages_induction (P := fun _ m => ∀ n ∈ m.members, n.WellFormed) ?_ ?_ p hp
  · intro m hm
    exact (h _ hm).2
  · intro _ m name members hmembers hm
    cases hmembers _ hm with
    | message _ hnested => exact hnested

namespace Generator

variable {g : Generator}

theorem entry_of_describeProperty {n : TypeName} {p : Property} {f : FieldModel}
    (h : g.describeProperty n p = .ok f) : f.entry = p.entry := by
  obtain ⟨spec, d, hspec, _, rfl⟩ := describeProperty_eq_ok_iff.1 h
  cases p with
  | field f =>
    obtain ⟨shape, _, rfl⟩ := specOf_field_eq_ok_iff.1 hspec
    rfl
  | oneOf o =>
    cases hspec
    rfl

theorem map_entry_of_mapM {n : TypeName} {ps : List Property} {fields : List FieldModel}
    (h : ps.mapM (g.describeProperty n) = .ok fields) :
    fields.map FieldModel.entry = ps.map Property.entry := by
  have hpairs := mapM_eq_ok_iff.1 h
  clear h
  induction hpairs with
  | nil => rfl
  | cons hp _ ih => rw [List.map_cons, List.map_cons, entry_of_describeProperty hp, ih]

/-- The names of the messages are all different, so a message is found under its own. -/
theorem describeMessage_of_mem (hn : (g.schema.messages.map Prod.fst).Nodup)
    {p : TypeName × Message} (hp : p ∈ g.schema.messages) :
    g.describeMessage p.1 = g.describeScoped p.1 p.2 := by
  rw [describeMessage, (find?_fst_eq_some_iff hn).2 ⟨hp, rfl⟩]

end Generator

/-- How the block of a message in the wire schema and the class of the message belong together. In a
well-formed schema the fields and oneofs can also be told from other statements by their text. -/
structure WireBlock.Describes (g : Generator) (b : WireBlock) (m : MessageModel) : Prop where
  described : g.describeMessage b.name = .ok m
  wireClass : m.wireClass = if g.settings.outerClass = "" then b.name.text
    else g.settings.outerClass ++ "." ++ b.name.text
  lists : Stmt.Lists b.body (m.fields.map FieldModel.entry)
  entries : g.schema.WellFormed → b.body.filterMap WireSchema.readStmt? =
    m.fields.map fun f => (f.spec.name, f.spec.tag.map fun tag => tag.toNat.repr)

theorem WireBlock.describes_ofMessage {g : Generator}
    (hn : (g.schema.messages.map Prod.fst).Nodup) {p : TypeName × Message}
    (hp : p ∈ g.schema.messages) {m : MessageModel} (h : g.describeScoped p.1 p.2 = .ok m) :
    (ofMessage p).Describes g m := by
  obtain ⟨fields, hfields, rfl⟩ := Generator.describeScoped_eq_ok_iff.1 h
  have hentries := Generator.map_entry_of_mapM hfields
  refine ⟨(Generator.describeMessage_of_mem hn hp).trans h, rfl, ?_, ?_⟩
  · change Stmt.Lists _ (fields.map FieldModel.entry)
    rw [hentries]
    exact WireSchema.lists_membersStmts p.2.name p.2.members
  · intro hs
    have hread := WireSchema.filterMap_membersStmts p.2.name
      (Schema.wellFormed_of_mem_messages hs hp)
    have hmap := congrArg (List.map fun e : Entry => (e.1, e.2.map fun tag => tag.toNat.repr))
      hentries
    rw [List.map_map, List.map_map] at hmap
    exact hread.trans hmap.symm

/-- The blocks of the wire schema are those of the schema, and each message block lists what the
class of the message holds. -/
structure Schema.Mirrored (s : Schema) (g : Generator) (model : ObjectModel) : Prop where
  messages : (WireBlock.ofSort .message [] (WireSchema.body s.definitions)).map WireBlock.name =
    s.messages.map Prod.fst
  enumerations :
    ((WireBlock.ofSort .enumeration [] (WireSchema.body s.definitions)).map WireBlock.name).Perm
      (s.enumerations.map Prod.fst)
  oneOfs : ((WireBlock.ofSort .oneOf [] (WireSchema.body s.definitions)).map WireBlock.name).Perm
    (s.oneOfs.map ScopedOneOf.name)
  classes : List.Forall₂ (WireBlock.Describes g)
    (WireBlock.ofSort .message [] (WireSchema.body s.definitions)) model.messages

/-- A run that succeeds describes one tree twice. -/
theorem Schema.generate_mirrored {s : Schema} {settings : Settings} {files : GeneratedFiles}
    (h : s.generate settings = .ok files) :
    ∃ g model, Generator.ofSchema s settings = .ok g ∧ g.model = .ok model ∧
      files = ⟨g.wireFile, g.modelFile model⟩ ∧
      files.wire.contents = Text.unlines (WireSchema.header g.wirePackage settings.javaPackage
        settings.outerClass) ++ Stmt.render (WireSchema.body s.definitions) ∧
      s.Mirrored g model := by
  obtain ⟨g, hg, h⟩ := bind_eq_ok_iff.1 h
  obtain ⟨model, hm, rfl⟩ := Generator.model_of_generate h
  have hnames := Generator.nodup_names_of_ofSchema hg
  have hnodup : (s.messages.map Prod.fst).Nodup := (List.nodup_append.1 hnames).1
  cases Generator.eq_of_ofSchema hg
  have hblocks := WireBlock.ofSort_message_body s
  have hclasses := mapM_eq_ok_iff.1 (Generator.parts_of_model hm).2.2
  refine ⟨_, model, hg, hm, rfl, rfl, ?_, WireBlock.names_enumeration_body s,
    WireBlock.names_oneOf_body s, ?_⟩
  · rw [hblocks, List.map_map]
    rfl
  · rw [hblocks, List.forall₂_map_left_iff]
    have hpairs := (List.forall₂_and_left (p := fun p => p ∈ s.messages) _ _).2
      ⟨fun p hp => hp, hclasses⟩
    exact hpairs.imp fun p m hpm => WireBlock.describes_ofMessage hnodup hpm.1 hpm.2

/-- A schema in which blocks of every sort stand beside one another and nested. -/
def Schema.interleaved : Schema where
  package := "shop"
  definitions := [
    .message ⟨"Order", [
      .enumeration ⟨"State", [.value { name := "OPEN", tag := 0 }]⟩,
      .field { type := { expr := .named "State" }, name := "state", tag := 1 },
      .message "Part" [
        .reserved [.tag 9, .name "old"],
        .enumeration ⟨"Kind", [.value { name := "RAW", tag := 0 }]⟩,
        .oneOf ⟨"size", [.field { type := { expr := .named "int32" }, name := "width", tag := 1 }]⟩,
        .field { type := { expr := .named "Kind" }, name := "kind", tag := 3 }],
      .oneOf ⟨"content", [.field { type := { expr := .named "Part" }, name := "part", tag := 2 }]⟩,
      .option ⟨"deprecated", "true"⟩,
      .field { type := { repeated := true, expr := .named "Part" }, name := "parts", tag := 7 }]⟩,
    .service ⟨"Shop", [.rpc { name := "Buy", inType := "Order", outType := "Order.Part" }]⟩,
    .enumeration ⟨"Level", [.value { name := "LOW", tag := 0 }]⟩]

theorem Schema.generate_interleaved :
    ∃ files, interleaved.generate { outerClass := "Wire" } = .ok files ∧
      ∃ g model, Generator.ofSchema interleaved { outerClass := "Wire" } = .ok g ∧
        g.model = .ok model ∧ files = ⟨g.wireFile, g.modelFile model⟩ ∧
        files.wire.contents = Text.unlines (WireSchema.header g.wirePackage none "Wire") ++
          Stmt.render (WireSchema.body interleaved.definitions) ∧
        interleaved.Mirrored g model := by
  have h : verdict (interleaved.generate { outerClass := "Wire" }) = .ok () := by decide +kernel
  obtain ⟨files, h⟩ := verdict_eq_ok_iff.1 h
  exact ⟨files, h, generate_mirrored h⟩

end WireModel
