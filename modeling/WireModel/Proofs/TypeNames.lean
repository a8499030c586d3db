import WireModel.Proofs.Blocks
import WireModel.Proofs.LineTrees
import WireModel.Proofs.WireText

namespace WireModel

/-- A type name with the message that it stands in, if any. -/
abbrev Reference := String × Option TypeName

/-- The name in a declared type that is looked up. -/
def FieldType.reference (t : FieldType) : String :=
  match t.expr with
  | .named name => name
  | .map _ value => value

/-- The type names of the fields and alternatives of a message. -/
def Message.references (m : TypeName × Message) : List Reference :=
  (m.2.fields ++ m.2.oneOfs.flatMap OneOf.fields).map fun f => (f.type.reference, some m.1)

def Rpc.references (r : Rpc) : List Reference :=
  [(r.inType, none), (r.outType, none)]

/-- The type names of all messages and procedures. -/
def Schema.references (s : Schema) : List Reference :=
  s.messages.flatMap Message.references ++
    s.services.flatMap fun d => d.rpcs.flatMap Rpc.references

namespace Member

/-- The type names of a field or of the alternatives of a oneof. -/
def ownReferences (scope : TypeName) : Member → List Reference
  | .field f => [(f.type.reference, some scope)]
  | .oneOf o => o.fields.map fun f => (f.type.reference, some scope)
  | .enumeration _ | .message _ _ | .option _ | .reserved _ => []

mutual

/-- The type names in a member in the order of their text. -/
def references (scope : TypeName) : Member → List Reference
  | .message name members => referencesOf (scope.child name) members
  | m => m.ownReferences scope

def referencesOf (scope : TypeName) : List Member → List Reference
  | [] => []
  | m :: ms => m.references scope ++ referencesOf scope ms

end

end Member

/-- The type names in a definition in the order of their text. -/
def Definition.references : Definition → List Reference
  | .message m => Member.referencesOf ⟨m.name⟩ m.members
  | .enumeration _ => []
  | .service d => d.rpcs.flatMap Rpc.references

section Order

theorem Message.references_perm (scope : TypeName) (m : Message) :
    (m.members.flatMap (Member.ownReferences scope)).Perm (references (scope, m)) := by
  obtain ⟨name, members⟩ := m
  induction members with
  | nil => exact .nil
  | cons m ms ih =>
    rw [List.flatMap_cons]
    cases m with
    | field f => exact ih.cons _
    | oneOf o =>
      have hfields : ∀ (fs : List Field) (os : List OneOf),
          ((o.fields ++ (fs ++ os.flatMap OneOf.fields)).Perm
            (fs ++ (o.fields ++ os.flatMap OneOf.fields))) :=
        fun fs os => List.perm_append_comm_assoc _ _ _
      refine (ih.append_left _).trans ?_
      rw [references, Member.ownReferences, ← List.map_append]
      exact (hfields _ _).map _
    | enumeration e => exact ih
    | message name members => exact ih
    | option o => exact ih
    | reserved items => exact ih

namespace Member

mutual

theorem references_perm (scope : TypeName) : ∀ m : Member,
    (m.references scope).Perm
      (m.ownReferences scope ++ (m.messages scope).flatMap Message.references)
  | .message name members => by
    have hown := Message.references_perm (scope.child name) ⟨name, members⟩
    refine (referencesOf_perm (scope.child name) members).trans ?_
    rw [messages, List.flatMap_cons]
    exact hown.append_right _
  | .field _ | .oneOf _ | .enumeration _ | .option _ | .reserved _ =>
    .of_eq (List.append_nil _).symm

/-- The names in the order of their text are those of the members and of the messages in them. -/
theorem referencesOf_perm (scope : TypeName) : ∀ ms : List Member,
    (referencesOf scope ms).Perm (ms.flatMap (ownReferences scope) ++
      (messagesOf scope ms).flatMap Message.references)
  | [] => .nil
  | m :: ms => by
    rw [referencesOf, List.flatMap_cons, messagesOf, List.flatMap_append]
    refine ((references_perm scope m).append (referencesOf_perm scope ms)).trans ?_
    rw [List.append_assoc, List.append_assoc]
    exact (List.perm_append_comm_assoc _ _ _).append_left _

end

end Member

theorem Schema.references_perm (s : Schema) :
    (s.definitions.flatMap Definition.references).Perm s.references := by
  rw [references, messages, services]
  induction s.definitions with
  | nil => exact .nil
  | cons d ds ih =>
    rw [List.flatMap_cons, List.flatMap_cons, List.flatMap_append]
    cases d with
    | message m =>
      have hm := (Member.referencesOf_perm ⟨m.name⟩ m.members).trans
        ((Message.references_perm ⟨m.name⟩ m).append_right _)
      refine (hm.append ih).trans ?_
      rw [← List.append_assoc]
      exact .refl _
    | enumeration e => exact ih
    | service d => exact (ih.append_left _).trans (List.perm_append_comm_assoc _ _ _)

end Order

namespace WireSchema

open Stmt (indented)

/-- A type as it is written, and the name in it that is looked up. -/
inductive WritesType : String → String → Prop where
  | named (name : String) : WritesType name name
  | map (key value : String) : WritesType ("map<" ++ key ++ ", " ++ value ++ ">") value
  | modified {word text name : String} (hword : word = "repeated " ∨ word = "optional ")
    (h : WritesType text name) : WritesType (word ++ text) name

/-- One side of a procedure as it is written, and its type. -/
inductive WritesSide : String → String → Prop where
  | single (name : String) : WritesSide name name
  | stream (name : String) : WritesSide ("stream " ++ name) name

/-- A procedure as it is written, and the names of its two types. -/
inductive WritesRpc : String → List Reference → Prop where
  | mk {input output a b : String} (name : String) (hin : WritesSide input a)
    (hout : WritesSide output b) :
    WritesRpc ("rpc " ++ name ++ "(" ++ input ++ ") returns (" ++ output ++ ")")
      [(a, none), (b, none)]

/-- The full name of a message in another one or in none. -/
def nameIn (scope : Option TypeName) (name : String) : TypeName :=
  (scope.map fun m => m.child name).getD ⟨name⟩

/-- Lines at a level, in a message or in none, with the type names that stand on them. -/
inductive Mentions : Nat → Option TypeName → List String → List Reference → Prop where
  | nil {level : Nat} {scope : Option TypeName} : Mentions level scope [] []
  | append {level : Nat} {scope : Option TypeName} {ls ls' : List String} {rs rs' : List Reference}
    (h : Mentions level scope ls rs) (h' : Mentions level scope ls' rs') :
    Mentions level scope (ls ++ ls') (rs ++ rs')
  | blank {level : Nat} {scope : Option TypeName} : Mentions level scope [""] []
  | option {level : Nat} {scope : Option TypeName} (text : String) :
    Mentions level scope [indented level ("option " ++ text)] []
  | reserved {level : Nat} {scope : Option TypeName} (text : String) :
    Mentions level scope [indented level ("reserved " ++ text)] []
  | field {level : Nat} {m : TypeName} {type name : String} (field number : String)
    (h : WritesType type name) :
    Mentions level (some m) [indented level (type ++ " " ++ field ++ " = " ++ number ++ ";")]
      [(name, some m)]
  | rpc {level : Nat} {text : String} {rs : List Reference} (h : WritesRpc text rs) :
    Mentions level none [indented level (text ++ ";")] rs
  | rpcBlock {level : Nat} {text : String} {body : List String} {rs : List Reference}
    (h : WritesRpc text rs) (hbody : Mentions (level + 1) none body []) :
    Mentions level none
      (indented level (text ++ " \x7b") :: (body ++ [indented level "\x7d"])) rs
  | service {level : Nat} {body : List String} {rs : List Reference} (name : String)
    (h : Mentions (level + 1) none body rs) :
    Mentions level none
      (indented level ("service " ++ name ++ " \x7b") :: (body ++ [indented level "\x7d"])) rs
  | message {level : Nat} {scope : Option TypeName} {body : List String} {rs : List Reference}
    (name : String) (h : Mentions (level + 1) (some (nameIn scope name)) body rs) :
    Mentions level scope
      (indented level ("message " ++ name ++ " \x7b") :: (body ++ [indented level "\x7d"])) rs
  | oneOf {level : Nat} {scope : Option TypeName} {body : List String} {rs : List Reference}
    (name : String) (h : Mentions (level + 1) scope body rs) :
    Mentions level scope
      (indented level ("oneof " ++ name ++ " \x7b") :: (body ++ [indented level "\x7d"])) rs
  | enumeration {level : Nat} {scope : Option TypeName} (name : String) (texts : List String) :
    Mentions level scope
      (indented level ("enum " ++ name ++ " \x7b") ::
        (texts.map (indented (level + 1)) ++ [indented level "\x7d"])) []

variable {level : Nat} {scope : Option TypeName}

theorem writesType_typeText (t : FieldType) : WritesType (typeText t) t.reference := by
  obtain ⟨optional, repeated, expr⟩ := t
  have hbase : WritesType (typeText ⟨false, false, expr⟩)
      (FieldType.reference ⟨false, false, expr⟩) := by
    cases expr with
    | named name => exact .named name
    | map key value => exact .map key value
  cases repeated with
  | true => exact .modified (.inl rfl) hbase
  | false =>
    cases optional with
    | true => exact .modified (.inr rfl) hbase
    | false => exact hbase

theorem mentions_fieldLine (m : TypeName) (f : Field) :
    Mentions level (some m) [indented level (fieldLine f)] [(f.type.reference, some m)] := by
  have htext : fieldLine f = typeText f.type ++ " " ++ f.name ++ " = " ++
      (f.tag.toNat.repr ++ optionSuffix f.options) ++ ";" := by
    simp only [fieldLine, String.append_assoc]
  rw [htext]
  exact .field _ _ (writesType_typeText f.type)

theorem mentions_optionLine (o : OptionSetting) :
    Mentions level scope [indented level (optionLine o)] [] := by
  have htext : optionLine o = "option " ++ (o.name ++ " = " ++ o.value ++ ";") := by
    simp only [optionLine, String.append_assoc]
  rw [htext]
  exact .option _

theorem writesSide_rpcSide (stream : Bool) (type : String) :
    WritesSide (rpcSide stream type) type := by
  cases stream with
  | true => exact .stream type
  | false => exact .single type

theorem writesRpc_rpcSignature (r : Rpc) : WritesRpc (rpcSignature r) r.references :=
  .mk r.name (writesSide_rpcSide _ _) (writesSide_rpcSide _ _)

theorem flatMap_filterMap_cons {α β γ : Type} (pick : α → Option β) (g : β → List γ) (a : α)
    (as : List α) :
    ((a :: as).filterMap pick).flatMap g =
      (pick a).toList.flatMap g ++ (as.filterMap pick).flatMap g := by
  cases hp : pick a <;> simp [hp]

/-- Statements one after another mention the names of those among their sources that have any. -/
theorem mentions_linesOf {α β : Type} {f : α → Stmt} {pick : α → Option β}
    {g : β → List Reference} {as : List α}
    (h : ∀ a ∈ as, Mentions level scope ((f a).lines level) ((pick a).toList.flatMap g)) :
    Mentions level scope (Stmt.linesOf level (as.map f)) ((as.filterMap pick).flatMap g) := by
  induction as with
  | nil => exact .nil
  | cons a as ih =>
    rw [flatMap_filterMap_cons]
    exact (h a List.mem_cons_self).append (ih fun b hb => h b (List.mem_cons_of_mem a hb))

theorem mentions_optionLines (os : List OptionSetting) :
    Mentions level scope (Stmt.linesOf level (os.map fun o => .line (optionLine o))) [] := by
  induction os with
  | nil => exact .nil
  | cons o os ih => exact (mentions_optionLine o).append ih

theorem mentions_rpcStmt (r : Rpc) :
    Mentions level none ((rpcStmt r).lines level) r.references := by
  rw [rpcStmt]
  split
  · exact .rpc (writesRpc_rpcSignature r)
  · exact .rpcBlock (writesRpc_rpcSignature r) (mentions_optionLines _)

theorem mentions_oneOfBlock (m : TypeName) (o : OneOf) :
    Mentions level (some m) ((oneOfBlock o).lines level)
      (o.fields.map fun f => (f.type.reference, some m)) := by
  rw [List.map_eq_flatMap]
  apply Mentions.oneOf
  apply mentions_linesOf
  intro member _
  cases member with
  | field f => exact mentions_fieldLine m f
  | option s => exact mentions_optionLine s

theorem mentions_enumBlock (e : Enumeration) :
    Mentions level scope ((enumBlock e).lines level) [] := by
  have hlines {ss : List Stmt} (h : ∀ s ∈ ss, ∃ text, s = .line text) :
      Mentions level scope ((Stmt.braces ("enum " ++ e.name) ss).lines level) [] := by
    obtain ⟨texts, rfl⟩ := Stmt.exists_texts h
    rw [Stmt.braces, Stmt.lines, Stmt.linesOf_map_line]
    exact .enumeration e.name texts
  apply hlines
  intro s hs
  obtain ⟨member, _, rfl⟩ := List.mem_map.1 hs
  cases member <;> exact ⟨_, rfl⟩

theorem mentions_reservedLines (items : List ReservedItem) :
    Mentions level scope (Stmt.linesOf level (reservedLines items)) [] := by
  have hline : ∀ group, Mentions level scope (Stmt.linesOf level (reservedLine group)) [] := by
    intro group
    cases group with
    | nil => exact .nil
    | cons item items =>
      have htext : reservedLine (item :: items) =
          [.line ("reserved " ++ (Text.joinWith ", " (item :: items) ++ ";"))] :=
        congrArg (fun text => [Stmt.line text]) String.append_assoc
      rw [htext]
      exact .reserved _
  rw [reservedLines, Stmt.linesOf_append]
  exact (hline _).append (hline _)

mutual

theorem mentions_memberStmts (level : Nat) (m : TypeName) : ∀ member : Member,
    Mentions level (some m) (Stmt.linesOf level (memberStmts member)) (member.references m)
  | .field f => mentions_fieldLine m f
  | .oneOf o => by
    rw [memberStmts, Stmt.linesOf_singleton]
    exact mentions_oneOfBlock m o
  | .enumeration e => by
    rw [memberStmts, Stmt.linesOf_singleton]
    exact mentions_enumBlock e
  | .message name members => by
    rw [memberStmts, Stmt.linesOf_singleton]
    exact .message name (mentions_membersStmts (level + 1) (m.child name) members)
  | .option o => mentions_optionLine o
  | .reserved items => mentions_reservedLines items

theorem mentions_membersStmts (level : Nat) (m : TypeName) : ∀ members : List Member,
    Mentions level (some m) (Stmt.linesOf level (membersStmts members))
      (Member.referencesOf m members)
  | [] => .nil
  | member :: members => by
    rw [membersStmts, Stmt.linesOf_append]
    exact (mentions_memberStmts level m member).append (mentions_membersStmts level m members)

end

theorem mentions_definitionBlock (d : Definition) :
    Mentions 0 none ((definitionBlock d).lines 0) d.references := by
  cases d with
  | message m => exact .message m.name (mentions_membersStmts 1 ⟨m.name⟩ m.members)
  | enumeration e => exact mentions_enumBlock e
  | service d =>
    apply Mentions.service
    apply mentions_linesOf
    intro member _
    cases member with
    | option o => exact mentions_optionLine o
    | rpc r =>
      rw [Option.toList_some, List.flatMap_singleton]
      exact mentions_rpcStmt r

/-- The type names on the lines of a wire schema are those of its definitions, in order. -/
theorem mentions_body (ds : List Definition) :
    Mentions 0 none (Stmt.linesOf 0 (body ds)) (ds.flatMap Definition.references) := by
  cases ds with
  | nil => exact .nil
  | cons d ds =>
    rw [body, Stmt.spaced_cons, List.flatMap_cons]
    apply (mentions_definitionBlock d).append
    induction ds with
    | nil => exact .nil
    | cons e es ih =>
      have hlines : Stmt.linesOf 0 [.blank, definitionBlock e] =
          [""] ++ (definitionBlock e).lines 0 :=
        congrArg ("" :: ·) (Stmt.linesOf_singleton 0 _)
      rw [List.flatMap_cons, List.flatMap_cons, Stmt.linesOf_append, hlines]
      exact (Mentions.blank.append (mentions_definitionBlock e)).append ih

end WireSchema

end WireModel
