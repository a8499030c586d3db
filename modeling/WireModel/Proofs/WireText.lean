import WireModel.Proofs.WireLines

namespace WireModel

namespace Member

/-- Members have a property if they have it whenever all messages among them have it. -/
theorem nested_induction {P : List Member → Prop}
    (step : ∀ ms, (∀ name sub, Member.message name sub ∈ ms → P sub) → P ms) (ms : List Member) :
    P ms :=
  step ms fun name sub h =>
    have : sizeOf sub < sizeOf ms := by
      have hsize := List.sizeOf_lt_of_mem h
      rw [Member.message.sizeOf_spec] at hsize
      omega
    nested_induction step sub
termination_by sizeOf ms

/-- The members that are one statement each. -/
def parts : Member → List Member
  | .reserved items => splitReserved items
  | m => [m]

/-- The statement for a member that is one. -/
def stmt : Member → Stmt
  | .field f => .line (WireSchema.fieldLine f)
  | .oneOf o => WireSchema.oneOfBlock o
  | .enumeration e => WireSchema.enumBlock e
  | .message name members => .braces ("message " ++ name) (WireSchema.membersStmts members)
  | .option o => .line (WireSchema.optionLine o)
  | .reserved items => .line (WireSchema.reservedText items)

/-- A well-formed member that is one statement. -/
structure IsPart (m : Member) : Prop where
  wellFormed : m.WellFormed
  ne_reserved_nil : m ≠ .reserved []

theorem mem_reservedGroup {m : Member} {group : List ReservedItem} :
    m ∈ reservedGroup group ↔ m = .reserved group ∧ group ≠ [] := by
  cases group with
  | nil => simp [reservedGroup]
  | cons i is => simp [reservedGroup]

theorem mem_splitReserved {m : Member} {items : List ReservedItem} (h : m ∈ splitReserved items) :
    ∃ group, m = .reserved group ∧ group ≠ [] ∧ ∀ i ∈ group, i ∈ items := by
  obtain h | h := List.mem_append.1 h
  · obtain ⟨rfl, hne⟩ := mem_reservedGroup.1 h
    exact ⟨_, rfl, hne, fun i hi => List.mem_of_mem_filter hi⟩
  · obtain ⟨rfl, hne⟩ := mem_reservedGroup.1 h
    exact ⟨_, rfl, hne, fun i hi => List.mem_of_mem_filter hi⟩

theorem mem_parts_cases {p m : Member} (h : p ∈ m.parts) :
    (p = m ∧ ∀ items, m ≠ .reserved items) ∨
      ∃ items group, m = .reserved items ∧ p = .reserved group ∧ group ≠ [] ∧
        ∀ i ∈ group, i ∈ items := by
  by_cases hm : ∃ items, m = .reserved items
  · obtain ⟨items, rfl⟩ := hm
    obtain ⟨group, hp, hne, hsub⟩ := mem_splitReserved h
    exact .inr ⟨items, group, rfl, hp, hne, hsub⟩
  · have hm := not_exists.1 hm
    rw [parts.eq_2 m hm] at h
    exact .inl ⟨List.mem_singleton.1 h, hm⟩

theorem map_reservedGroup (group : List ReservedItem) :
    (reservedGroup group).map canonical = reservedGroup group := by
  cases group <;> rfl

theorem map_splitReserved (items : List ReservedItem) :
    (splitReserved items).map canonical = splitReserved items := by
  rw [splitReserved, List.map_append, map_reservedGroup, map_reservedGroup]

theorem canonicals_eq (ms : List Member) : canonicals ms = (ms.flatMap parts).map canonical := by
  induction ms with
  | nil => rfl
  | cons m ms ih =>
    rw [List.flatMap_cons, List.map_append, ← ih]
    cases m with
    | reserved items => rw [canonicals, parts, map_splitReserved]
    | field f => rfl
    | oneOf o => rfl
    | enumeration e => rfl
    | message name members => rfl
    | option o => rfl

theorem isPart_of_mem {ms : List Member} (h : ∀ m ∈ ms, m.WellFormed) {p : Member}
    (hp : p ∈ ms.flatMap parts) : p.IsPart := by
  obtain ⟨m, hm, hp⟩ := List.mem_flatMap.1 hp
  obtain ⟨rfl, hne⟩ | ⟨items, group, rfl, rfl, hne, hsub⟩ := mem_parts_cases hp
  · exact ⟨h p hm, hne []⟩
  · cases h _ hm with
    | reserved hi =>
      exact ⟨.reserved fun i hg => hi i (hsub i hg), fun he => hne (Member.reserved.inj he)⟩

theorem message_mem_of_mem_parts {ms : List Member} {name : String} {sub : List Member}
    (h : Member.message name sub ∈ ms.flatMap parts) : Member.message name sub ∈ ms := by
  obtain ⟨m, hm, h⟩ := List.mem_flatMap.1 h
  obtain ⟨rfl, _⟩ | ⟨_, _, _, he, _⟩ := mem_parts_cases h
  · exact hm
  · cases he

end Member

namespace WireSchema

theorem reservedNumbers_eq (items : List ReservedItem) :
    reservedNumbers items = (items.filter fun i => !i.isName).map ReservedItem.text := by
  induction items with
  | nil => rfl
  | cons i is ih =>
    cases i <;> simp_all [reservedNumbers, ReservedItem.isName, ReservedItem.text]

theorem reservedNames_eq (items : List ReservedItem) :
    reservedNames items = (items.filter fun i => i.isName).map ReservedItem.text := by
  induction items with
  | nil => rfl
  | cons i is ih =>
    cases i <;> simp_all [reservedNames, ReservedItem.isName, ReservedItem.text]

theorem reservedLine_map_text (group : List ReservedItem) :
    reservedLine (group.map ReservedItem.text) = (Member.reservedGroup group).map Member.stmt := by
  cases group <;> rfl

theorem membersStmts_eq (ms : List Member) :
    membersStmts ms = (ms.flatMap Member.parts).map Member.stmt := by
  induction ms with
  | nil => rfl
  | cons m ms ih =>
    rw [List.flatMap_cons, List.map_append, ← ih]
    cases m with
    | reserved items =>
      rw [membersStmts, memberStmts, reservedLines, reservedNumbers_eq, reservedNames_eq,
        reservedLine_map_text, reservedLine_map_text, ← List.map_append]
      rfl
    | field f => rfl
    | oneOf o => rfl
    | enumeration e => rfl
    | message name members => rfl
    | option o => rfl

theorem oneOfBlock_inj {o p : OneOf} (ho : o.WellFormed) (hp : p.WellFormed)
    (h : oneOfBlock o = oneOfBlock p) : o.canonical = p.canonical := by
  obtain ⟨hname, hbody⟩ := Stmt.braces_inj h
  have hmembers : o.members.map OneOfMember.canonical = p.members.map OneOfMember.canonical := by
    refine Text.map_eq_of_map_eq ?_ hbody
    intro a ha b hb hab
    have ha := ho.members a ha
    have hb := hp.members b hb
    cases a with
    | field f =>
      cases b with
      | field g => exact congrArg OneOfMember.field (fieldLine_inj ha hb (Stmt.line.inj hab))
      | option t => exact (fieldLine_ne_optionLine ha hb (Stmt.line.inj hab)).elim
    | option s =>
      cases b with
      | field g => exact (fieldLine_ne_optionLine hb ha (Stmt.line.inj hab).symm).elim
      | option t => exact congrArg OneOfMember.option (optionLine_inj ha hb (Stmt.line.inj hab))
  rw [OneOf.canonical, OneOf.canonical, hmembers, (String.append_right_inj _).1 hname]

theorem enumBlock_inj {d e : Enumeration} (hd : d.WellFormed) (he : e.WellFormed)
    (h : enumBlock d = enumBlock e) : d.canonical = e.canonical := by
  obtain ⟨hname, hbody⟩ := Stmt.braces_inj h
  have hmembers : d.members.map EnumMember.canonical = e.members.map EnumMember.canonical := by
    refine Text.map_eq_of_map_eq ?_ hbody
    intro a ha b hb hab
    have ha := hd.members a ha
    have hb := he.members b hb
    cases a with
    | option s =>
      cases b with
      | option t => exact congrArg EnumMember.option (optionLine_inj ha hb (Stmt.line.inj hab))
      | value w => exact (valueLine_ne_optionLine hb ha (Stmt.line.inj hab).symm).elim
    | value v =>
      cases b with
      | option t => exact (valueLine_ne_optionLine ha hb (Stmt.line.inj hab)).elim
      | value w => exact congrArg EnumMember.value (valueLine_inj ha hb (Stmt.line.inj hab))
  rw [Enumeration.canonical, Enumeration.canonical, hmembers, (String.append_right_inj _).1 hname]

theorem rpcStmt_ne_optionLine (r : Rpc) (o : OptionSetting) : rpcStmt r ≠ .line (optionLine o) := by
  intro h
  rw [rpcStmt] at h
  split at h
  · have htext := String.toList_inj.2 (Stmt.line.inj h)
    simp [rpcSignature, optionLine] at htext
  · cases h

theorem serviceBlock_inj {s t : Service} (hs : s.WellFormed) (ht : t.WellFormed)
    (h : serviceBlock s = serviceBlock t) : s = t := by
  obtain ⟨hname, hbody⟩ := Stmt.braces_inj h
  have hmembers : s.members.map id = t.members.map id := by
    refine Text.map_eq_of_map_eq ?_ hbody
    intro a ha b hb hab
    have ha := hs.members a ha
    have hb := ht.members b hb
    cases a with
    | option o =>
      cases b with
      | option p => exact congrArg ServiceMember.option (optionLine_inj ha hb (Stmt.line.inj hab))
      | rpc q => exact (rpcStmt_ne_optionLine q o hab.symm).elim
    | rpc r =>
      cases b with
      | option p => exact (rpcStmt_ne_optionLine r p hab).elim
      | rpc q => exact congrArg ServiceMember.rpc (rpcStmt_inj ha hb hab)
  rw [List.map_id, List.map_id] at hmembers
  have hname := (String.append_right_inj _).1 hname
  cases s
  cases t
  exact Service.mk.injEq .. ▸ ⟨hname, hmembers⟩

theorem fieldLine_ne_reservedText {f : Field} {is : List ReservedItem}
    (hi : ∀ i ∈ is, i.WellFormed) : fieldLine f ≠ reservedText is :=
  fun h => equals_notMem_reservedText hi (h ▸ equals_mem_fieldLine f)

theorem optionLine_ne_reservedText {o : OptionSetting} {is : List ReservedItem}
    (hi : ∀ i ∈ is, i.WellFormed) : optionLine o ≠ reservedText is :=
  fun h => equals_notMem_reservedText hi (h ▸ equals_mem_optionLine o)

theorem readable_oneOfBlock {o : OneOf} (h : o.WellFormed) : Stmt.Readable [oneOfBlock o] := by
  have hword : Stmt.IsLine "oneof " := ⟨by decide, 'o', rfl, by decide⟩
  apply Stmt.readable_braces (hword.append h.name.newline)
  apply Stmt.readable_map
  intro m hm
  have hm := h.members m hm
  cases m with
  | field f => exact readable_fieldLine hm
  | option s => exact readable_optionLine hm

theorem readable_enumBlock {e : Enumeration} (h : e.WellFormed) : Stmt.Readable [enumBlock e] := by
  have hword : Stmt.IsLine "enum " := ⟨by decide, 'e', rfl, by decide⟩
  apply Stmt.readable_braces (hword.append h.name.newline)
  apply Stmt.readable_map
  intro m hm
  have hm := h.members m hm
  cases m with
  | option s => exact readable_optionLine hm
  | value v => exact readable_valueLine hm

theorem readable_serviceBlock {s : Service} (h : s.WellFormed) :
    Stmt.Readable [serviceBlock s] := by
  have hword : Stmt.IsLine "service " := ⟨by decide, 's', rfl, by decide⟩
  apply Stmt.readable_braces (hword.append h.name.newline)
  apply Stmt.readable_map
  intro m hm
  have hm := h.members m hm
  cases m with
  | option o => exact readable_optionLine hm
  | rpc r => exact readable_rpcStmt hm

theorem readable_messageBraces {name : String} {body : List Stmt} (hname : IsName name)
    (hbody : Stmt.Readable body) : Stmt.Readable [.braces ("message " ++ name) body] := by
  have hword : Stmt.IsLine "message " := ⟨by decide, 'm', rfl, by decide⟩
  exact Stmt.readable_braces (hword.append hname.newline) hbody

end WireSchema

namespace Member

open WireSchema

/-- A member can be read off its statement if the members of a message can be read off theirs. -/
theorem stmt_inj {p q : Member} (hp : p.IsPart) (hq : q.IsPart)
    (ih : ∀ name sub sub', p = .message name sub → q = .message name sub' →
      membersStmts sub = membersStmts sub' → canonicals sub = canonicals sub')
    (h : p.stmt = q.stmt) : p.canonical = q.canonical := by
  obtain ⟨hp, hpne⟩ := hp
  obtain ⟨hq, hqne⟩ := hq
  cases hp with
  | @field f hf =>
    cases hq with
    | field hg => exact congrArg Member.field (fieldLine_inj hf hg (Stmt.line.inj h))
    | option ho => exact (fieldLine_ne_optionLine hf ho (Stmt.line.inj h)).elim
    | reserved hi => exact (fieldLine_ne_reservedText hi (Stmt.line.inj h)).elim
    | oneOf ho => cases h
    | enumeration he => cases h
    | message hn hs => cases h
  | @option o ho =>
    cases hq with
    | field hg => exact (fieldLine_ne_optionLine hg ho (Stmt.line.inj h).symm).elim
    | option ho' => exact congrArg Member.option (optionLine_inj ho ho' (Stmt.line.inj h))
    | reserved hi => exact (optionLine_ne_reservedText hi (Stmt.line.inj h)).elim
    | oneOf ho => cases h
    | enumeration he => cases h
    | message hn hs => cases h
  | @reserved is hi =>
    cases hq with
    | field hg => exact (fieldLine_ne_reservedText hi (Stmt.line.inj h).symm).elim
    | option ho => exact (optionLine_ne_reservedText hi (Stmt.line.inj h).symm).elim
    | reserved hj =>
      exact congrArg Member.reserved (reservedText_inj hi hj (fun he => hpne (he ▸ rfl))
        (fun he => hqne (he ▸ rfl)) (Stmt.line.inj h))
    | oneOf ho => cases h
    | enumeration he => cases h
    | message hn hs => cases h
  | @oneOf o ho =>
    cases hq with
    | oneOf ho' => exact congrArg Member.oneOf (oneOfBlock_inj ho ho' h)
    | enumeration he =>
      exact (Stmt.braces_keyword_ne rfl rfl (by decide) _ _ _ _ h).elim
    | message hn hs =>
      exact (Stmt.braces_keyword_ne rfl rfl (by decide) _ _ _ _ h).elim
    | field hg => cases h
    | option ho => cases h
    | reserved hi => cases h
  | @enumeration e he =>
    cases hq with
    | oneOf ho =>
      exact (Stmt.braces_keyword_ne rfl rfl (by decide) _ _ _ _ h).elim
    | enumeration he' => exact congrArg Member.enumeration (enumBlock_inj he he' h)
    | message hn hs =>
      exact (Stmt.braces_keyword_ne rfl rfl (by decide) _ _ _ _ h).elim
    | field hg => cases h
    | option ho => cases h
    | reserved hi => cases h
  | @message name sub hn hs =>
    cases hq with
    | oneOf ho =>
      exact (Stmt.braces_keyword_ne rfl rfl (by decide) _ _ _ _ h).elim
    | enumeration he =>
      exact (Stmt.braces_keyword_ne rfl rfl (by decide) _ _ _ _ h).elim
    | @message name' sub' hn' hs' =>
      obtain ⟨hname, hbody⟩ := Stmt.braces_inj h
      obtain rfl := (String.append_right_inj _).1 hname
      exact congrArg (Member.message name) (ih name sub sub' rfl rfl hbody)
    | field hg => cases h
    | option ho => cases h
    | reserved hi => cases h

/-- Members can be read off their statements, up to what these do not tell. -/
theorem canonicals_of_membersStmts {ms ns : List Member} (hm : ∀ m ∈ ms, m.WellFormed)
    (hn : ∀ n ∈ ns, n.WellFormed) (h : membersStmts ms = membersStmts ns) :
    canonicals ms = canonicals ns := by
  induction ms using Member.nested_induction generalizing ns with
  | step ms ih =>
    rw [canonicals_eq, canonicals_eq]
    rw [membersStmts_eq, membersStmts_eq] at h
    refine Text.map_eq_of_map_eq ?_ h
    intro p hp q hq hpq
    apply stmt_inj (isPart_of_mem hm hp) (isPart_of_mem hn hq) _ hpq
    intro name sub sub' hsub hsub' hbody
    have hmem := message_mem_of_mem_parts (hsub ▸ hp)
    have hmem' := message_mem_of_mem_parts (hsub' ▸ hq)
    cases hm _ hmem with
    | message _ hs =>
      cases hn _ hmem' with
      | message _ hs' => exact ih name sub hmem hs hs' hbody

theorem readable_membersStmts {ms : List Member} (h : ∀ m ∈ ms, m.WellFormed) :
    Stmt.Readable (membersStmts ms) := by
  induction ms using Member.nested_induction with
  | step ms ih =>
    rw [membersStmts_eq]
    apply Stmt.readable_map
    intro p hp
    cases (isPart_of_mem h hp).wellFormed with
    | field hf => exact readable_fieldLine hf
    | oneOf ho => exact readable_oneOfBlock ho
    | enumeration he => exact readable_enumBlock he
    | @message name sub hname hs =>
      exact readable_messageBraces hname (ih name sub (message_mem_of_mem_parts hp) hs)
    | option ho => exact readable_optionLine ho
    | reserved hi => exact readable_reservedText hi

end Member

namespace WireSchema

theorem fieldLine_canonical (f : Field) : fieldLine f.canonical = fieldLine f := by
  obtain ⟨⟨optional, repeated, expr⟩, name, tag, options⟩ := f
  cases optional <;> cases repeated <;> rfl

theorem number_canonical (v : EnumValue) : v.canonical.number = v.number := by
  obtain ⟨name, tag, negative, options⟩ := v
  cases negative with
  | false => rfl
  | true =>
    by_cases htag : tag = 0
    · rw [htag]
      rfl
    · simp [EnumValue.canonical, EnumValue.number, htag]

theorem valueLine_canonical (v : EnumValue) : valueLine v.canonical = valueLine v := by
  rw [valueLine, valueLine, number_canonical]
  rfl

theorem oneOfBlock_canonical (o : OneOf) : oneOfBlock o.canonical = oneOfBlock o := by
  rw [oneOfBlock, oneOfBlock, OneOf.canonical, List.map_map]
  congr 1
  apply List.map_congr_left
  intro m _
  cases m with
  | field f => exact congrArg Stmt.line (fieldLine_canonical f)
  | option s => rfl

theorem enumBlock_canonical (e : Enumeration) : enumBlock e.canonical = enumBlock e := by
  rw [enumBlock, enumBlock, Enumeration.canonical, List.map_map]
  congr 1
  apply List.map_congr_left
  intro m _
  cases m with
  | option s => rfl
  | value v => exact congrArg Stmt.line (valueLine_canonical v)

end WireSchema

namespace Member

open WireSchema

theorem flatMap_parts_reservedGroup {group : List ReservedItem}
    (h : splitReserved group = reservedGroup group) :
    (reservedGroup group).flatMap parts = reservedGroup group := by
  cases group with
  | nil => rfl
  | cons i is => simpa [reservedGroup, parts] using h

theorem flatMap_parts_splitReserved (items : List ReservedItem) :
    (splitReserved items).flatMap parts = splitReserved items := by
  rw [splitReserved, List.flatMap_append, flatMap_parts_reservedGroup, flatMap_parts_reservedGroup]
  · simp [splitReserved, List.filter_filter, reservedGroup]
  · simp [splitReserved, List.filter_filter, reservedGroup]

theorem flatMap_parts_canonicals (ms : List Member) :
    (canonicals ms).flatMap parts = canonicals ms := by
  induction ms with
  | nil => rfl
  | cons m ms ih =>
    cases m with
    | reserved items =>
      rw [canonicals, List.flatMap_append, flatMap_parts_splitReserved, ih]
    | field f => exact congrArg _ ih
    | oneOf o => exact congrArg _ ih
    | enumeration e => exact congrArg _ ih
    | message name members => exact congrArg _ ih
    | option o => exact congrArg _ ih

/-- Leaving out what the statements do not tell changes none of them. -/
theorem membersStmts_canonicals (ms : List Member) :
    membersStmts (canonicals ms) = membersStmts ms := by
  induction ms using Member.nested_induction with
  | step ms ih =>
    rw [membersStmts_eq, membersStmts_eq ms, flatMap_parts_canonicals, canonicals_eq, List.map_map]
    apply List.map_congr_left
    intro p hp
    cases p with
    | field f => exact congrArg Stmt.line (fieldLine_canonical f)
    | oneOf o => exact oneOfBlock_canonical o
    | enumeration e => exact enumBlock_canonical e
    | message name sub =>
      exact congrArg (Stmt.braces _) (ih name sub (message_mem_of_mem_parts hp))
    | option o => rfl
    | reserved items => rfl

end Member

namespace WireSchema

theorem definitionBlock_canonical (d : Definition) :
    definitionBlock d.canonical = definitionBlock d := by
  cases d with
  | message m => exact congrArg (Stmt.braces _) (Member.membersStmts_canonicals m.members)
  | enumeration e => exact enumBlock_canonical e
  | service s => rfl

theorem readable_definitionBlock {d : Definition} (h : d.WellFormed) :
    Stmt.Readable [definitionBlock d] := by
  cases d with
  | message m => exact readable_messageBraces h.1 (Member.readable_membersStmts h.2)
  | enumeration e => exact readable_enumBlock h
  | service s => exact readable_serviceBlock h

theorem definitionBlock_inj {d e : Definition} (hd : d.WellFormed) (he : e.WellFormed)
    (h : definitionBlock d = definitionBlock e) : d.canonical = e.canonical := by
  cases d with
  | message m =>
    cases e with
    | message n =>
      obtain ⟨hname, hbody⟩ := Stmt.braces_inj h
      rw [Definition.canonical, Definition.canonical, (String.append_right_inj _).1 hname,
        Member.canonicals_of_membersStmts hd.2 he.2 hbody]
    | enumeration e =>
      exact (Stmt.braces_keyword_ne rfl rfl (by decide) _ _ _ _ h).elim
    | service s =>
      exact (Stmt.braces_keyword_ne rfl rfl (by decide) _ _ _ _ h).elim
  | enumeration d =>
    cases e with
    | message n =>
      exact (Stmt.braces_keyword_ne rfl rfl (by decide) _ _ _ _ h).elim
    | enumeration e => exact congrArg Definition.enumeration (enumBlock_inj hd he h)
    | service s =>
      exact (Stmt.braces_keyword_ne rfl rfl (by decide) _ _ _ _ h).elim
  | service s =>
    cases e with
    | message n =>
      exact (Stmt.braces_keyword_ne rfl rfl (by decide) _ _ _ _ h).elim
    | enumeration e =>
      exact (Stmt.braces_keyword_ne rfl rfl (by decide) _ _ _ _ h).elim
    | service t => exact congrArg Definition.service (serviceBlock_inj hd he h)

/-- Two schemas have the same text exactly when they have the same definitions, up to what the text
does not tell: how reserved items are grouped, a modifier that does not count, the sign of zero. -/
theorem render_eq_iff {s t : Schema} (hs : s.WellFormed) (ht : t.WellFormed) (package : String)
    (javaPackage : Option String) (outerClass : String) :
    render s package javaPackage outerClass = render t package javaPackage outerClass ↔
      s.definitions.map Definition.canonical = t.definitions.map Definition.canonical := by
  rw [render, render, String.append_right_inj]
  refine ⟨?_, ?_⟩
  · intro h
    have hbody := Stmt.render_inj
      (Stmt.readable_spaced fun d hd => readable_definitionBlock (hs d hd))
      (Stmt.readable_spaced fun d hd => readable_definitionBlock (ht d hd)) h
    refine Text.map_eq_of_map_eq ?_ (Stmt.spaced_inj hbody)
    intro d hd e he
    exact definitionBlock_inj (hs d hd) (ht e he)
  · intro h
    have hblocks : ∀ ds : List Definition, body (ds.map Definition.canonical) = body ds := by
      intro ds
      rw [body, body, List.map_map]
      congr 1
      apply List.map_congr_left
      intro d _
      exact congrArg (fun b => [b]) (definitionBlock_canonical d)
    rw [← hblocks, h, hblocks]

end WireSchema

/-- A repeated field that may have a second modifier, reserved items in some groups, and a zero that
may have a sign. -/
def Schema.order (optional negative : Bool) (reserved : List (List ReservedItem)) : Schema where
  definitions := [.message ⟨"Order", [
    .field {
      type := { optional := optional, repeated := true, expr := .named "State" }
      name := "states"
      tag := 1
      options := [⟨"(shop.note)", "\"a = b;\""⟩] },
    .message "Part" (reserved.map .reserved),
    .enumeration ⟨"State", [.value { name := "NONE", tag := 0, isNegative := negative }]⟩]⟩]

theorem Schema.order_wellFormed (optional negative : Bool) (reserved : List (List ReservedItem))
    (h : ∀ items ∈ reserved, ∀ i ∈ items, i.WellFormed) :
    (order optional negative reserved).WellFormed := by
  have horder : IsName "Order" := by decide
  have hstate : IsName "State" := by decide
  have hstates : IsName "states" := by decide
  have hnone : IsName "NONE" := by decide
  intro d hd
  cases List.mem_singleton.1 hd
  refine ⟨horder, ?_⟩
  intro m hm
  simp only [List.mem_cons, List.not_mem_nil, or_false] at hm
  obtain rfl | rfl | rfl := hm
  · refine .field ⟨⟨hstate, by decide⟩, hstates, ?_⟩
    intro o ho
    cases List.mem_singleton.1 ho
    exact ⟨by decide, by simp [IsNameChar], by decide, by decide⟩
  · refine .message (by decide) ?_
    intro m hm
    obtain ⟨items, hi, rfl⟩ := List.mem_map.1 hm
    exact .reserved (h items hi)
  · refine .enumeration ⟨hstate, ?_⟩
    intro v hv
    cases List.mem_singleton.1 hv
    exact ⟨hnone, fun o ho => by cases ho⟩

theorem WireSchema.render_order :
    (Schema.order true true [[.tag 4, .name "old", .range 8 9]]).WellFormed ∧
      (Schema.order false false [[.tag 4, .range 8 9], [.name "old"]]).WellFormed ∧
      render (.order true true [[.tag 4, .name "old", .range 8 9]]) "shop" none "" =
        render (.order false false [[.tag 4, .range 8 9], [.name "old"]]) "shop" none "" := by
  have hold : IsName "old" := by decide
  have hs := Schema.order_wellFormed true true [[.tag 4, .name "old", .range 8 9]]
    (by simp [ReservedItem.WellFormed, hold])
  have ht := Schema.order_wellFormed false false [[.tag 4, .range 8 9], [.name "old"]]
    (by simp [ReservedItem.WellFormed, hold])
  exact ⟨hs, ht, (render_eq_iff hs ht "shop" none "").2 rfl⟩

end WireModel
