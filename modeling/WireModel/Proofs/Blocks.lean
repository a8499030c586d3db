import Mathlib.Data.List.Perm.Basic
import WireModel.WireSchema
import WireModel.Proofs.Tokens
import WireModel.Proofs.Traversal

namespace WireModel

/-- What a block of a wire schema declares. -/
inductive BlockSort where
  | message
  | enumeration
  | oneOf
deriving DecidableEq, Repr

def BlockSort.keyword : BlockSort → String
  | .message => "message "
  | .enumeration => "enum "
  | .oneOf => "oneof "

/-- A block under its full name. -/
structure WireBlock where
  sort : BlockSort
  name : TypeName
  body : List Stmt

namespace WireBlock

/-- The name between the keyword and the brace of a line that opens a block. -/
def nameAfter? (keyword opening : String) : Option String :=
  (Text.afterStart? keyword.toList opening.toList).bind fun cs =>
    (Text.afterStart? ['\x7b', ' '] cs.reverse).map fun name => String.ofList name.reverse

def heading? (opening : String) : Option (BlockSort × String) :=
  [.message, .enumeration, .oneOf].findSome? fun sort =>
    (nameAfter? sort.keyword opening).map fun name => (sort, name)

mutual

/-- The blocks of a statement, each before those in it; the path are the names of the messages
around it. -/
def ofStmt (path : List String) : Stmt → List WireBlock
  | .line _ => []
  | .blank => []
  | .indent body => ofStmts path body
  | .block opening body _ =>
    match heading? opening with
    | some (.message, name) =>
      ⟨.message, ⟨Text.joinWith "." (path ++ [name])⟩, body⟩ :: ofStmts (path ++ [name]) body
    | some (sort, name) =>
      ⟨sort, ⟨Text.joinWith "." (path ++ [name])⟩, body⟩ :: ofStmts path body
    | none => ofStmts path body

def ofStmts (path : List String) : List Stmt → List WireBlock
  | [] => []
  | s :: ss => ofStmt path s ++ ofStmts path ss

end

/-- The blocks of one sort. -/
def ofSort (sort : BlockSort) (path : List String) (stmts : List Stmt) : List WireBlock :=
  (ofStmts path stmts).filter fun b => b.sort = sort

variable {path : List String}

theorem nameAfter?_keyword (keyword name : String) :
    nameAfter? keyword (keyword ++ name ++ " \x7b") = some name := by
  have htext : (keyword ++ name ++ " \x7b").toList =
      keyword.toList ++ (name.toList ++ [' ', '\x7b']) := by
    simp
  have hend : (name.toList ++ [' ', '\x7b']).reverse = ['\x7b', ' '] ++ name.toList.reverse := by
    simp
  rw [nameAfter?, htext, Text.afterStart?_append, Option.bind_some, hend, Text.afterStart?_append,
    Option.map_some, List.reverse_reverse, String.ofList_toList]

theorem nameAfter?_eq_none {keyword opening : String} {c d : Char}
    (hk : keyword.toList.head? = some c) (ho : opening.toList.head? = some d) (hcd : c ≠ d) :
    nameAfter? keyword opening = none := by
  rw [nameAfter?, Text.afterStart?_eq_none hk ho hcd, Option.bind_none]

theorem heading?_keyword (sort : BlockSort) (name : String) :
    heading? (sort.keyword ++ name ++ " \x7b") = some (sort, name) := by
  have hself := nameAfter?_keyword sort.keyword name
  -- The keywords start with different letters.
  cases sort with
  | message => simp [heading?, hself]
  | enumeration =>
    have hhead : (BlockSort.keyword .enumeration ++ name ++ " \x7b").toList.head? = some 'e' := by
      simp [BlockSort.keyword]
    have hmessage : nameAfter? (BlockSort.keyword .message) _ = none :=
      nameAfter?_eq_none (c := 'm') rfl hhead (by decide)
    simp [heading?, hself, hmessage]
  | oneOf =>
    have hhead : (BlockSort.keyword .oneOf ++ name ++ " \x7b").toList.head? = some 'o' := by
      simp [BlockSort.keyword]
    have hmessage : nameAfter? (BlockSort.keyword .message) _ = none :=
      nameAfter?_eq_none (c := 'm') rfl hhead (by decide)
    have henum : nameAfter? (BlockSort.keyword .enumeration) _ = none :=
      nameAfter?_eq_none (c := 'e') rfl hhead (by decide)
    simp [heading?, hself, hmessage, henum]

theorem heading?_eq_none {opening : String} {d : Char} (ho : opening.toList.head? = some d)
    (hd : d ∉ ['m', 'e', 'o']) : heading? opening = none := by
  have hnone : ∀ sort : BlockSort, nameAfter? sort.keyword opening = none := by
    intro sort
    cases sort with
    | message => exact nameAfter?_eq_none (c := 'm') rfl ho (by grind)
    | enumeration => exact nameAfter?_eq_none (c := 'e') rfl ho (by grind)
    | oneOf => exact nameAfter?_eq_none (c := 'o') rfl ho (by grind)
  simp [heading?, hnone]

theorem ofStmts_append (ss ts : List Stmt) :
    ofStmts path (ss ++ ts) = ofStmts path ss ++ ofStmts path ts := by
  induction ss with
  | nil => rfl
  | cons s ss ih => rw [List.cons_append, ofStmts, ih, ofStmts, List.append_assoc]

theorem ofStmts_singleton (s : Stmt) : ofStmts path [s] = ofStmt path s := by
  rw [ofStmts, ofStmts, List.append_nil]

theorem ofStmts_eq_nil {ss : List Stmt} (h : ∀ s ∈ ss, ofStmt path s = []) :
    ofStmts path ss = [] := by
  induction ss with
  | nil => rfl
  | cons s ss ih =>
    rw [ofStmts, h s List.mem_cons_self, List.nil_append]
    exact ih fun t ht => h t (List.mem_cons_of_mem s ht)

theorem ofStmts_spaced (gs : List (List Stmt)) :
    ofStmts path (Stmt.spaced gs) = gs.flatMap (ofStmts path) := by
  induction gs with
  | nil => rfl
  | cons g gs ih =>
    cases gs with
    | nil => simp [Stmt.spaced]
    | cons h hs =>
      rw [Stmt.spaced.eq_3 g _ (List.cons_ne_nil h hs), ofStmts_append, ofStmts, ih,
        List.flatMap_cons]
      rfl

/-- The path of a message spells its name. -/
structure Spells (path : List String) (scope : TypeName) : Prop where
  ne_nil : path ≠ []
  text : Text.joinWith "." path = scope.text

theorem Spells.child {scope : TypeName} (h : Spells path scope) (name : String) :
    Spells (path ++ [name]) (scope.child name) := by
  refine ⟨List.append_ne_nil_of_right_ne_nil path (List.cons_ne_nil name []), ?_⟩
  rw [Text.joinWith_append_singleton "." name h.ne_nil, h.text, TypeName.child]

theorem spells_singleton (name : String) : Spells [name] ⟨name⟩ :=
  ⟨List.cons_ne_nil name [], rfl⟩

theorem ofStmt_message {name : String} {scope : TypeName} {body : List Stmt}
    (h : Spells (path ++ [name]) scope) :
    ofStmt path (.braces ("message " ++ name) body) =
      ⟨.message, scope, body⟩ :: ofStmts (path ++ [name]) body := by
  have hname : (⟨Text.joinWith "." (path ++ [name])⟩ : TypeName) = scope :=
    congrArg TypeName.mk h.text
  rw [Stmt.braces, ofStmt, ← hname]
  rw [show heading? ("message " ++ name ++ " \x7b") = _ from heading?_keyword .message name]

/-- A block of another sort holds lines only. -/
theorem ofStmt_leaf {sort : BlockSort} (hs : sort ≠ .message) {name : String} {scope : TypeName}
    {body : List Stmt} (h : Spells (path ++ [name]) scope)
    (hbody : ∀ s ∈ body, ∃ text, s = .line text) :
    ofStmt path (.braces (sort.keyword ++ name) body) = [⟨sort, scope, body⟩] := by
  have hname : (⟨Text.joinWith "." (path ++ [name])⟩ : TypeName) = scope :=
    congrArg TypeName.mk h.text
  have hlines : ofStmts path body = [] := by
    apply ofStmts_eq_nil
    intro s hs
    obtain ⟨text, rfl⟩ := hbody s hs
    rw [ofStmt]
  rw [Stmt.braces, ofStmt, heading?_keyword, ← hname]
  cases sort with
  | message => exact (hs rfl).elim
  | enumeration => simp only [hlines]
  | oneOf => simp only [hlines]

theorem ofStmt_enumBlock {e : Enumeration} {scope : TypeName}
    (h : Spells (path ++ [e.name]) scope) :
    ∃ body, ofStmt path (WireSchema.enumBlock e) = [⟨.enumeration, scope, body⟩] := by
  refine ⟨_, @ofStmt_leaf _ .enumeration (by decide) _ _ _ h ?_⟩
  intro s hs
  obtain ⟨m, _, rfl⟩ := List.mem_map.1 hs
  cases m <;> exact ⟨_, rfl⟩

theorem ofStmt_oneOfBlock {o : OneOf} {scope : TypeName} (h : Spells (path ++ [o.name]) scope) :
    ∃ body, ofStmt path (WireSchema.oneOfBlock o) = [⟨.oneOf, scope, body⟩] := by
  refine ⟨_, @ofStmt_leaf _ .oneOf (by decide) _ _ _ h ?_⟩
  intro s hs
  obtain ⟨m, _, rfl⟩ := List.mem_map.1 hs
  cases m <;> exact ⟨_, rfl⟩

theorem ofSort_append {sort : BlockSort} (ss ts : List Stmt) :
    ofSort sort path (ss ++ ts) = ofSort sort path ss ++ ofSort sort path ts := by
  rw [ofSort, ofStmts_append, List.filter_append, ofSort, ofSort]

theorem ofStmts_reservedLines (items : List ReservedItem) :
    ofStmts path (WireSchema.reservedLines items) = [] := by
  have hline : ∀ group, ofStmts path (WireSchema.reservedLine group) = [] := by
    intro group
    cases group <;> simp [WireSchema.reservedLine, ofStmts, ofStmt]
  rw [WireSchema.reservedLines, ofStmts_append, hline, hline, List.append_nil]

/-- The block that a message is written as. -/
def ofMessage (m : TypeName × Message) : WireBlock :=
  ⟨.message, m.1, WireSchema.membersStmts m.2.members⟩

mutual

theorem ofSort_memberStmts : ∀ {path : List String} {scope : TypeName}, Spells path scope →
    ∀ m : Member, ofSort .message path (WireSchema.memberStmts m) = (m.messages scope).map ofMessage
  | _, _, _, .field f => rfl
  | _, _, _, .option o => rfl
  | _, _, _, .reserved items => by
    rw [WireSchema.memberStmts, ofSort, ofStmts_reservedLines]
    rfl
  | _, _, h, .enumeration e => by
    obtain ⟨body, hblock⟩ := ofStmt_enumBlock (h.child e.name)
    rw [WireSchema.memberStmts, ofSort, ofStmts_singleton, hblock]
    rfl
  | _, _, h, .oneOf o => by
    obtain ⟨body, hblock⟩ := ofStmt_oneOfBlock (h.child o.name)
    rw [WireSchema.memberStmts, ofSort, ofStmts_singleton, hblock]
    rfl
  | _, _, h, .message name members => by
    have hmembers := ofSort_membersStmts (h.child name) members
    rw [WireSchema.memberStmts, ofSort, ofStmts_singleton, ofStmt_message (h.child name),
      List.filter_cons_of_pos (by simp), ← ofSort, hmembers, Member.messages, List.map_cons]
    rfl

/-- The message blocks among members are those of the messages nested in one another there. -/
theorem ofSort_membersStmts : ∀ {path : List String} {scope : TypeName}, Spells path scope →
    ∀ ms : List Member,
      ofSort .message path (WireSchema.membersStmts ms) = (Member.messagesOf scope ms).map ofMessage
  | _, _, _, [] => rfl
  | _, _, h, m :: ms => by
    rw [WireSchema.membersStmts, ofSort_append, ofSort_memberStmts h m, ofSort_membersStmts h ms,
      Member.messagesOf, List.map_append]

end

end WireBlock

/-- The full names of the enumerations or of the oneofs that stand directly in a message. -/
def Member.ownNames (sort : BlockSort) (scope : TypeName) : Member → List TypeName
  | .enumeration e => if sort = .enumeration then [scope.child e.name] else []
  | .oneOf o => if sort = .oneOf then [scope.child o.name] else []
  | _ => []

/-- The full names of the enumerations or of the oneofs of a message. -/
def Message.ownNames (sort : BlockSort) (m : TypeName × Message) : List TypeName :=
  m.2.members.flatMap (Member.ownNames sort m.1)

theorem Member.map_ownEnumerations (scope : TypeName) (ms : List Member) :
    (ownEnumerations scope ms).map Prod.fst = ms.flatMap (ownNames .enumeration scope) := by
  induction ms with
  | nil => rfl
  | cons m ms ih =>
    rw [List.flatMap_cons, ← ih]
    cases m <;> rfl

theorem Message.map_oneOfs (m : TypeName × Message) :
    m.2.oneOfs.map (fun o => (⟨m.1, o⟩ : ScopedOneOf).name) = Message.ownNames .oneOf m := by
  obtain ⟨scope, name, members⟩ := m
  rw [ownNames, oneOfs]
  induction members with
  | nil => rfl
  | cons m ms ih =>
    rw [List.flatMap_cons, ← ih]
    cases m <;> rfl

namespace WireBlock

variable {sort : BlockSort}

mutual

theorem names_memberStmts (hs : sort ≠ .message) : ∀ {path : List String} {scope : TypeName},
    Spells path scope → ∀ m : Member,
      ((ofSort sort path (WireSchema.memberStmts m)).map name).Perm
        (m.ownNames sort scope ++ (m.messages scope).flatMap (Message.ownNames sort))
  | _, _, _, .field f => .refl _
  | _, _, _, .option o => .refl _
  | _, _, _, .reserved items => by
    rw [WireSchema.memberStmts, ofSort, ofStmts_reservedLines]
    rfl
  | _, _, h, .enumeration e => by
    obtain ⟨body, hblock⟩ := ofStmt_enumBlock (h.child e.name)
    rw [WireSchema.memberStmts, ofSort, ofStmts_singleton, hblock]
    cases sort <;> exact .refl _
  | _, _, h, .oneOf o => by
    obtain ⟨body, hblock⟩ := ofStmt_oneOfBlock (h.child o.name)
    rw [WireSchema.memberStmts, ofSort, ofStmts_singleton, hblock]
    cases sort <;> exact .refl _
  | _, _, h, .message name members => by
    have hmembers := names_membersStmts hs (h.child name) members
    rw [WireSchema.memberStmts, ofSort, ofStmts_singleton, ofStmt_message (h.child name),
      List.filter_cons_of_neg (by simpa using hs.symm), ← ofSort, Member.messages,
      List.flatMap_cons]
    exact hmembers

/-- The blocks of a sort other than messages are, in some order, those that the members declare and
those that the messages among them declare. -/
theorem names_membersStmts (hs : sort ≠ .message) : ∀ {path : List String} {scope : TypeName},
    Spells path scope → ∀ ms : List Member,
      ((ofSort sort path (WireSchema.membersStmts ms)).map name).Perm
        (ms.flatMap (Member.ownNames sort scope) ++
          (Member.messagesOf scope ms).flatMap (Message.ownNames sort))
  | _, _, _, [] => .refl _
  | _, _, h, m :: ms => by
    have hm := names_memberStmts hs h m
    have hms := names_membersStmts hs h ms
    rw [WireSchema.membersStmts, ofSort_append, List.map_append, List.flatMap_cons,
      Member.messagesOf, List.flatMap_append]
    refine (hm.append hms).trans ?_
    rw [List.append_assoc, List.append_assoc]
    exact (List.perm_append_comm_assoc _ _ _).append_left _

end

theorem ofStmt_braces_of_heading?_eq_none {opening : String} {body : List Stmt}
    (h : heading? (opening ++ " \x7b") = none) :
    ofStmt path (.braces opening body) = ofStmts path body := by
  rw [Stmt.braces, ofStmt, h]

/-- A service holds procedures, which hold settings. -/
theorem ofStmt_serviceBlock (s : Service) : ofStmt path (WireSchema.serviceBlock s) = [] := by
  have hrpc : ∀ r, ofStmt path (WireSchema.rpcStmt r) = [] := by
    intro r
    rw [WireSchema.rpcStmt]
    split
    · rfl
    · rw [ofStmt_braces_of_heading?_eq_none (heading?_eq_none (d := 'r')
        (by simp [WireSchema.rpcSignature]) (by decide))]
      refine ofStmts_eq_nil fun s hs => ?_
      obtain ⟨o, _, rfl⟩ := List.mem_map.1 hs
      rfl
  rw [WireSchema.serviceBlock, ofStmt_braces_of_heading?_eq_none (heading?_eq_none (d := 's')
    (by simp) (by decide))]
  refine ofStmts_eq_nil fun t ht => ?_
  obtain ⟨m, _, rfl⟩ := List.mem_map.1 ht
  cases m with
  | option o => rfl
  | rpc r => exact hrpc r

theorem ofSort_body (sort : BlockSort) (ds : List Definition) :
    ofSort sort [] (WireSchema.body ds) =
      ds.flatMap fun d => ofSort sort [] [WireSchema.definitionBlock d] := by
  rw [ofSort, WireSchema.body, ofStmts_spaced, List.flatMap_map, List.filter_flatMap]
  rfl

/-- The message blocks of a file, in the order in which they open, are the messages of a schema. -/
theorem ofSort_message_body (s : Schema) :
    ofSort .message [] (WireSchema.body s.definitions) = s.messages.map ofMessage := by
  rw [ofSort_body, Schema.messages, List.map_flatMap]
  congr 1
  funext d
  rw [ofSort, ofStmts_singleton]
  cases d with
  | message m =>
    have hspells := spells_singleton m.name
    rw [WireSchema.definitionBlock, WireSchema.messageBlock, ofStmt_message hspells,
      List.filter_cons_of_pos (by simp), ← ofSort, List.nil_append, ofSort_membersStmts hspells,
      Definition.messages, List.map_cons]
    rfl
  | enumeration e =>
    obtain ⟨body, hblock⟩ := @ofStmt_enumBlock [] e _ (spells_singleton e.name)
    rw [WireSchema.definitionBlock, hblock]
    rfl
  | service s =>
    rw [WireSchema.definitionBlock, ofStmt_serviceBlock]
    rfl

theorem names_message {sort : BlockSort} (hs : sort ≠ .message) (m : Message) :
    ((ofSort sort [] [WireSchema.messageBlock m]).map name).Perm
      ((Definition.messages (.message m)).flatMap (Message.ownNames sort)) := by
  have hspells := spells_singleton m.name
  have hmembers := names_membersStmts hs hspells m.members
  rw [ofSort, ofStmts_singleton, WireSchema.messageBlock, ofStmt_message hspells,
    List.filter_cons_of_neg (by simpa using hs.symm), ← ofSort, Definition.messages,
    List.flatMap_cons]
  exact hmembers

theorem names_enumeration_body (s : Schema) :
    ((ofSort .enumeration [] (WireSchema.body s.definitions)).map name).Perm
      (s.enumerations.map Prod.fst) := by
  rw [ofSort_body, Schema.enumerations, List.map_flatMap, List.map_flatMap]
  apply List.Perm.flatMap_left
  intro d _
  cases d with
  | message m =>
    have hown : (Definition.enumerations (.message m)).map Prod.fst =
        (Definition.messages (.message m)).flatMap (Message.ownNames .enumeration) := by
      rw [Definition.enumerations, Member.nestedEnumerations_eq, List.map_append,
        Member.map_ownEnumerations, List.map_flatMap, Definition.messages, List.flatMap_cons]
      simp only [Member.map_ownEnumerations]
      rfl
    rw [hown]
    exact names_message (by decide) m
  | enumeration e =>
    obtain ⟨body, hblock⟩ := @ofStmt_enumBlock [] e _ (spells_singleton e.name)
    rw [WireSchema.definitionBlock, ofSort, ofStmts_singleton, hblock]
    rfl
  | service s =>
    rw [WireSchema.definitionBlock, ofSort, ofStmts_singleton, ofStmt_serviceBlock]
    rfl

theorem names_oneOf_body (s : Schema) :
    ((ofSort .oneOf [] (WireSchema.body s.definitions)).map name).Perm
      (s.oneOfs.map ScopedOneOf.name) := by
  have hown : s.oneOfs.map ScopedOneOf.name =
      s.definitions.flatMap fun d => d.messages.flatMap (Message.ownNames .oneOf) := by
    rw [Schema.oneOfs, Schema.messages, List.map_flatMap, List.flatMap_assoc]
    congr 1
    funext d
    congr 1
    funext m
    rw [List.map_map]
    exact Message.map_oneOfs m
  rw [hown, ofSort_body, List.map_flatMap]
  apply List.Perm.flatMap_left
  intro d _
  cases d with
  | message m => exact names_message (by decide) m
  | enumeration e =>
    obtain ⟨body, hblock⟩ := @ofStmt_enumBlock [] e _ (spells_singleton e.name)
    rw [WireSchema.definitionBlock, ofSort, ofStmts_singleton, hblock]
    rfl
  | service s =>
    rw [WireSchema.definitionBlock, ofSort, ofStmts_singleton, ofStmt_serviceBlock]
    rfl

end WireBlock

end WireModel
