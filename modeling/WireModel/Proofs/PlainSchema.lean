import Mathlib.Data.List.Basic
import WireModel.WireSchema
import WireModel.Proofs.Brackets
import WireModel.Proofs.Traversal
import WireModel.Proofs.WireLines

namespace WireModel

open Text

structure OptionSetting.Plain (o : OptionSetting) : Prop where
  name : IsPlain o.name
  value : IsPlain o.value

def TypeExpr.Plain : TypeExpr → Prop
  | .named name => IsPlainName name
  | .map key value => IsPlainName key ∧ IsPlainName value

structure Field.Plain (f : Field) : Prop where
  type : f.type.expr.Plain
  name : IsPlainName f.name
  options : ∀ o ∈ f.options, o.Plain

structure EnumValue.Plain (v : EnumValue) : Prop where
  name : IsPlainName v.name
  options : ∀ o ∈ v.options, o.Plain

structure Rpc.Plain (r : Rpc) : Prop where
  name : IsPlainName r.name
  inType : IsPlainName r.inType
  outType : IsPlainName r.outType
  options : ∀ o ∈ r.options, o.Plain

def ReservedItem.Plain : ReservedItem → Prop
  | .tag _ => True
  | .range _ _ => True
  | .name s => IsPlain s

def OneOfMember.Plain : OneOfMember → Prop
  | .field f => f.Plain
  | .option o => o.Plain

structure OneOf.Plain (o : OneOf) : Prop where
  name : IsPlainName o.name
  members : ∀ m ∈ o.members, m.Plain

def EnumMember.Plain : EnumMember → Prop
  | .option o => o.Plain
  | .value v => v.Plain

structure Enumeration.Plain (e : Enumeration) : Prop where
  name : IsPlainName e.name
  members : ∀ m ∈ e.members, m.Plain

def ServiceMember.Plain : ServiceMember → Prop
  | .option o => o.Plain
  | .rpc r => r.Plain

structure Service.Plain (s : Service) : Prop where
  name : IsPlainName s.name
  members : ∀ m ∈ s.members, m.Plain

inductive Member.Plain : Member → Prop where
  | field {f : Field} (h : f.Plain) : Plain (.field f)
  | oneOf {o : OneOf} (h : o.Plain) : Plain (.oneOf o)
  | enumeration {e : Enumeration} (h : e.Plain) : Plain (.enumeration e)
  | message {name : String} {members : List Member} (hname : IsPlainName name)
    (hmembers : ∀ m ∈ members, Plain m) : Plain (.message name members)
  | option {o : OptionSetting} (h : o.Plain) : Plain (.option o)
  | reserved {items : List ReservedItem} (h : ∀ i ∈ items, i.Plain) : Plain (.reserved items)

structure Message.Plain (m : Message) : Prop where
  name : IsPlainName m.name
  members : ∀ member ∈ m.members, member.Plain

def Definition.Plain : Definition → Prop
  | .message m => m.Plain
  | .enumeration e => e.Plain
  | .service s => s.Plain

/-- No text of the schema has a newline or a bracket in it, and no name is empty or starts with a
space. -/
structure Schema.Plain (s : Schema) : Prop where
  package : IsPlain s.package
  definitions : ∀ d ∈ s.definitions, d.Plain

theorem Schema.Plain.message {s : Schema} (h : s.Plain) {p : TypeName × Message}
    (hp : p ∈ s.messages) : IsPlainName p.1.text ∧ p.2.Plain := by
  refine messages_induction (P := fun n m => IsPlainName n.text ∧ m.Plain) ?_ ?_ p hp
  · intro m hm
    have hplain : m.Plain := h.definitions _ hm
    exact ⟨hplain.name, hplain⟩
  · intro n m name members hplain hm
    obtain ⟨hscope, hmessage⟩ := hplain
    cases hmessage.members _ hm with
    | message hname hmembers => exact ⟨hscope.qualified hname.plain, hname, hmembers⟩

theorem Schema.Plain.enumeration {s : Schema} (h : s.Plain) {e : TypeName × Enumeration}
    (he : e ∈ s.enumerations) : IsPlainName e.1.text ∧ e.2.Plain := by
  obtain ⟨hd, hname⟩ | ⟨p, hp, hm, hname⟩ := mem_enumerations_cases he
  · have hplain : e.2.Plain := h.definitions _ hd
    rw [hname]
    exact ⟨hplain.name, hplain⟩
  · obtain ⟨hscope, hmessage⟩ := h.message hp
    cases hmessage.members _ hm with
    | enumeration hplain =>
      rw [hname]
      exact ⟨hscope.qualified hplain.name.plain, hplain⟩

theorem IsNumberChar.notMem_marks {c : Char} (h : IsNumberChar c) : c ∉ marks := by
  intro hm
  simp only [marks, List.mem_cons, List.not_mem_nil, or_false] at hm
  rcases hm with rfl | rfl | rfl | rfl | rfl | rfl | rfl <;> exact absurd h (by decide)

theorem isPlain_natRepr (n : Nat) : IsPlain n.repr :=
  fun c hc => (isNumberChar_natRepr n c hc).notMem_marks

theorem isPlain_intRepr (n : Int) : IsPlain n.repr :=
  fun c hc => (isNumberChar_intRepr n c hc).notMem_marks

namespace WireSchema

open Stmt

theorem isPlainName_typeText {t : FieldType} (h : t.expr.Plain) : IsPlainName (typeText t) := by
  have hbase : IsPlainName (match t.expr with
      | .named name => name
      | .map key value => "map<" ++ key ++ ", " ++ value ++ ">") := by
    cases ht : t.expr with
    | named name =>
      rw [ht] at h
      exact h
    | map key value =>
      rw [ht] at h
      have hmap : IsPlainName "map<" := by decide
      exact (((hmap.append h.1.plain).append (by decide)).append h.2.plain).append (by decide)
  have hrepeated : IsPlainName "repeated " := by decide
  have hoptional : IsPlainName "optional " := by decide
  unfold typeText
  dsimp only
  split_ifs
  · exact hrepeated.append hbase.plain
  · exact hoptional.append hbase.plain
  · exact hbase

theorem tidy_optionLine {o : OptionSetting} (h : o.Plain) : Tidy [.line (optionLine o)] := by
  have hkeyword : IsPlainName "option " := by decide
  have hline : IsPlainName (optionLine o) :=
    (((hkeyword.append h.name).append (by decide)).append h.value).append (by decide)
  exact tidy_line hline.stands

theorem neutral_optionSuffix {options : List OptionSetting} (h : ∀ o ∈ options, o.Plain) :
    Neutral (optionSuffix options) := by
  cases options with
  | nil => exact fun _ => rfl
  | cons o os =>
    have hsettings :
        IsPlain (joinWith ", " ((o :: os).map fun o => o.name ++ " = " ++ o.value)) := by
      refine isPlain_joinWith (by decide) (List.forall_mem_map.2 fun p hp => ?_)
      exact ((h p hp).name.append (by decide)).append (h p hp).value
    exact hsettings.neutral.between rfl

/-- A declaration starts with a name and ends in a number with settings. -/
theorem tidy_declaration {start number : String} {options : List OptionSetting}
    (hs : IsPlainName start) (hn : IsPlain number) (ho : ∀ o ∈ options, o.Plain) :
    Tidy [.line (start ++ " = " ++ number ++ optionSuffix options ++ ";")] := by
  have hplain : IsPlainName (start ++ " = " ++ number) := (hs.append (by decide)).append hn
  exact tidy_line ((hplain.stands.append (neutral_optionSuffix ho)).append fun _ => rfl)

theorem tidy_fieldLine {f : Field} (h : f.Plain) : Tidy [.line (fieldLine f)] :=
  tidy_declaration (((isPlainName_typeText h.type).append (by decide)).append h.name.plain)
    (isPlain_natRepr _) h.options

theorem tidy_valueLine {v : EnumValue} (h : v.Plain) : Tidy [.line (valueLine v)] :=
  tidy_declaration h.name (isPlain_intRepr _) h.options

/-- A block in braces under a keyword and a name. -/
theorem tidy_named {keyword name : String} {body : List Stmt} (hk : IsPlainName keyword)
    (hn : IsPlain name) (hbody : Tidy body) : Tidy [.braces (keyword ++ name) body] :=
  tidy_braces (hk.append hn).stands hbody

theorem tidy_oneOfBlock {o : OneOf} (h : o.Plain) : Tidy [oneOfBlock o] := by
  refine tidy_named (by decide) h.name.plain (tidy_map fun m hm => ?_)
  cases m with
  | field f => exact tidy_fieldLine (h.members _ hm)
  | option o => exact tidy_optionLine (h.members _ hm)

theorem tidy_enumBlock {e : Enumeration} (h : e.Plain) : Tidy [enumBlock e] := by
  refine tidy_named (by decide) h.name.plain (tidy_map fun m hm => ?_)
  cases m with
  | option o => exact tidy_optionLine (h.members _ hm)
  | value v => exact tidy_valueLine (h.members _ hm)

theorem tidy_reservedLine {group : List String} (h : ∀ s ∈ group, IsPlain s) :
    Tidy (reservedLine group) := by
  cases group with
  | nil => exact tidy_nil
  | cons s ss =>
    have hkeyword : IsPlainName "reserved " := by decide
    have hline : IsPlainName ("reserved " ++ joinWith ", " (s :: ss) ++ ";") :=
      (hkeyword.append (isPlain_joinWith (by decide) h)).append (by decide)
    exact tidy_line hline.stands

theorem tidy_reservedLines {items : List ReservedItem} (h : ∀ i ∈ items, i.Plain) :
    Tidy (reservedLines items) := by
  refine (tidy_reservedLine ?_).append (tidy_reservedLine ?_)
  · intro s hs
    obtain ⟨i, _, he⟩ := List.mem_filterMap.1 hs
    cases i with
    | tag n =>
      cases he
      exact isPlain_natRepr _
    | range first last =>
      cases he
      exact ((isPlain_natRepr _).append (by decide)).append (isPlain_natRepr _)
    | name s => cases he
  · intro s hs
    obtain ⟨i, hi, he⟩ := List.mem_filterMap.1 hs
    cases i with
    | tag n => cases he
    | range first last => cases he
    | name s =>
      cases he
      have hquote : IsPlain "\"" := by decide
      exact (hquote.append (h _ hi)).append hquote

mutual

theorem tidy_memberStmts : ∀ {m : Member}, m.Plain → Tidy (memberStmts m)
  | .field _, .field h => tidy_fieldLine h
  | .oneOf _, .oneOf h => tidy_oneOfBlock h
  | .enumeration _, .enumeration h => tidy_enumBlock h
  | .message _ _, .message hname hmembers =>
    tidy_named (by decide) hname.plain (tidy_membersStmts hmembers)
  | .option _, .option h => tidy_optionLine h
  | .reserved _, .reserved h => tidy_reservedLines h

theorem tidy_membersStmts : ∀ {ms : List Member}, (∀ m ∈ ms, m.Plain) → Tidy (membersStmts ms)
  | [], _ => tidy_nil
  | m :: _, h =>
    (tidy_memberStmts (h m List.mem_cons_self)).append
      (tidy_membersStmts fun _ hn => h _ (List.mem_cons_of_mem m hn))

end

theorem isPlain_rpcSide {stream : Bool} {type : String} (h : IsPlain type) :
    IsPlain (rpcSide stream type) := by
  have hstream : IsPlain "stream " := by decide
  rw [rpcSide]
  split_ifs
  · exact hstream.append h
  · exact h

theorem stands_rpcSignature {r : Rpc} (h : r.Plain) : Stands (rpcSignature r) := by
  have hkeyword : IsPlainName "rpc " := by decide
  have hin : IsPlain (rpcSide r.inStream r.inType) := isPlain_rpcSide h.inType.plain
  have hout : IsPlain (rpcSide r.outStream r.outType) := isPlain_rpcSide h.outType.plain
  have hname : IsPlainName ("rpc " ++ r.name) := hkeyword.append h.name.plain
  refine ⟨((((hname.begins.append _).append _).append _).append _).append _, ?_⟩
  intro due
  simp only [rpcSignature, scanLine_append, h.name.plain.neutral, hin.neutral, hout.neutral,
    Option.bind_fun_some]
  rfl

theorem tidy_rpcStmt {r : Rpc} (h : r.Plain) : Tidy [rpcStmt r] := by
  rw [rpcStmt]
  split
  · exact tidy_line ((stands_rpcSignature h).append fun _ => rfl)
  · exact tidy_braces (stands_rpcSignature h)
      (tidy_map fun o ho => tidy_optionLine (h.options o ho))

theorem tidy_serviceBlock {s : Service} (h : s.Plain) : Tidy [serviceBlock s] := by
  refine tidy_named (by decide) h.name.plain (tidy_map fun m hm => ?_)
  cases m with
  | option o => exact tidy_optionLine (h.members _ hm)
  | rpc r => exact tidy_rpcStmt (h.members _ hm)

theorem tidy_body {s : Schema} (h : s.Plain) : Tidy (body s.definitions) := by
  refine tidy_spaced (List.forall_mem_map.2 fun d hd => ?_)
  have hd := h.definitions d hd
  cases d with
  | message m => exact tidy_named (by decide) hd.name.plain (tidy_membersStmts hd.members)
  | enumeration e => exact tidy_enumBlock hd
  | service s => exact tidy_serviceBlock hd

theorem flows_header {package outerClass : String} {javaPackage : Option String}
    (hp : IsPlain package) (hj : ∀ j ∈ javaPackage, IsPlain j) (ho : IsPlain outerClass) :
    Flows [] (header package javaPackage outerClass) [] := by
  have hpackage : IsPlainName "package " := by decide
  have hjava : IsPlainName "option java_package = \"" := by decide
  have houter : IsPlainName "option java_outer_classname = \"" := by decide
  refine (((flows_paragraph ?_).append (flows_paragraph ?_)).append (flows_paragraph ?_)).append
    (flows_paragraph ?_)
  · decide
  · decide
  · split_ifs
    · simp
    · exact List.forall_mem_singleton.2 ((hpackage.append hp).append (by decide))
  · refine List.forall_mem_append.2 ⟨?_, ?_⟩
    · split
      · next j => exact List.forall_mem_singleton.2 ((hjava.append (hj j rfl)).append (by decide))
      · simp
    · split_ifs
      · simp
      · exact List.forall_mem_singleton.2 ((houter.append ho).append (by decide))

theorem wellBracketed_render {s : Schema} {package outerClass : String}
    {javaPackage : Option String} (hs : s.Plain) (hp : IsPlain package)
    (hj : ∀ j ∈ javaPackage, IsPlain j) (ho : IsPlain outerClass) :
    WellBracketed (render s package javaPackage outerClass) :=
  (tidy_body hs).wellBracketed (flows_header hp hj ho)

end WireSchema

end WireModel
