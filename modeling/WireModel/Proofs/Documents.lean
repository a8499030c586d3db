import Mathlib.Data.List.Nodup
import WireModel.Schema.Decoder
import WireModel.Schema.Encoder
import WireModel.Proofs.JsonNesting

namespace WireModel

open Json (Value)

namespace Json.Value

theorem lookup_keyed (key : String) (members : List (String × Value)) :
    (keyed members).lookup (some key) = members.lookup key := by
  induction members with
  | nil => rfl
  | cons m ms ih =>
    rw [keyed_cons, List.lookup_cons, List.lookup_cons, ih]
    rfl

theorem filter_keyed (key : String) (members : List (String × Value)) :
    ((keyed members).filter fun m => m.1 == some key).length =
      (members.map Prod.fst).count key := by
  induction members with
  | nil => rfl
  | cons m ms ih =>
    rw [keyed_cons, List.map_cons, List.count_cons, List.filter_cons, ← ih]
    by_cases h : m.1 = key <;> simp [h]

/-- A record gives the value under each key, or nothing. -/
theorem fields?_record {members : List (String × Value)} (h : (members.map Prod.fst).Nodup)
    (keys : List String) :
    (record members).fields? keys = some (keys.map fun key => members.lookup key) := by
  have htext : (keyed members).all (fun m => m.1.isSome) = true := by
    simp [keyed]
  have honce : keys.all (fun key =>
      ((keyed members).filter fun m => m.1 == some key).length ≤ 1) = true := by
    simpa [filter_keyed] using fun key _ => List.nodup_iff_count_le_one.1 h key
  rw [record_eq, fields?, if_pos ⟨htext, honce⟩]
  simp only [lookup_keyed]

@[simp]
theorem text?_text (s : String) : (text s).text? = some s :=
  rfl

@[simp]
theorem word?_nat (n : UInt32) : (nat n.toNat).word? = some n := by
  rw [nat, word?, Numeral.natural?_ofNat, Option.bind_some, if_pos n.toNat_lt,
    UInt32.ofNat_toNat]

@[simp]
theorem variant?_variant (tag : String) (payload : Value) :
    (variant tag payload).variant? = some (tag, payload) := by
  rw [variant, record_eq]
  rfl

@[simp]
theorem nesting_variant_le_iff {room : Nat} {tag : String} {payload : Value} :
    (variant tag payload).nesting ≤ room + 1 ↔ payload.nesting ≤ room := by
  simp [variant]

@[simp]
theorem nesting_variant_ne_zero (tag : String) (payload : Value) :
    (variant tag payload).nesting ≠ 0 :=
  nesting_record_ne_zero _

end Json.Value

namespace Decode

variable {α : Type} {encode : α → Value} {decode : Nat → Value → Option α} {room : Nat}

/-- With this much room, what has been encoded is decoded if its containers fit and refused if they
do not. -/
def Inverts (decode : Nat → Value → Option α) (encode : α → Value) (room : Nat) : Prop :=
  ∀ x, decode room (encode x) = if (encode x).nesting ≤ room then some x else none

@[simp]
theorem orElse_some (default : α) (f : Value → Option α) (v : Value) :
    orElse default f (some v) = f v :=
  rfl

theorem orElse_modifier (b : Bool) :
    orElse false Value.bool? (if b then some (.bool true) else none) = some b := by
  cases b <;> rfl

theorem inverts_zero (hdecode : ∀ v, decode 0 v = none) (hencode : ∀ x, (encode x).nesting ≠ 0) :
    Inverts decode encode 0 := by
  intro x
  rw [hdecode, if_neg fun h => hencode x (Nat.le_zero.1 h)]

theorem mapM_encode (h : Inverts decode encode room) (xs : List α) :
    (xs.map encode).mapM (decode room) =
      if ∀ x ∈ xs, (encode x).nesting ≤ room then some xs else none := by
  induction xs with
  | nil => rfl
  | cons x xs ih =>
    have hcons : (∀ y ∈ x :: xs, (encode y).nesting ≤ room) ↔
        (encode x).nesting ≤ room ∧ ∀ y ∈ xs, (encode y).nesting ≤ room :=
      List.forall_mem_cons
    rw [List.map_cons, List.mapM_cons, h x, ih]
    by_cases hx : (encode x).nesting ≤ room
    · by_cases hxs : ∀ y ∈ xs, (encode y).nesting ≤ room
      · rw [if_pos hx, if_pos hxs, if_pos (hcons.2 ⟨hx, hxs⟩)]
        rfl
      · rw [if_pos hx, if_neg hxs, if_neg fun hall => hxs (hcons.1 hall).2]
        rfl
    · rw [if_neg hx, if_neg fun hall => hx (hcons.1 hall).1]
      rfl

theorem inverts_list (h : ∀ r < room, Inverts decode encode r) :
    Inverts (list decode) (fun xs => .array (xs.map encode)) room := by
  intro xs
  cases room with
  | zero => simp [list]
  | succ room =>
    rw [list, mapM_encode (h room (Nat.lt_succ_self room))]
    simp

theorem named_encode (h : ∀ r < room, Inverts decode encode r) (name : String) (xs : List α) :
    named decode room (.record [("name", .text name), ("members", .array (xs.map encode))]) =
      if (Value.record [("name", .text name), ("members", .array (xs.map encode))]).nesting ≤ room
        then some (name, xs) else none := by
  cases room with
  | zero => simp [named]
  | succ room =>
    have hlist := inverts_list (fun r hr => h r (Nat.lt_succ_of_lt hr)) xs
    have hfields : (Value.record [("name", .text name),
        ("members", .array (xs.map encode))]).fields? ["name", "members"] =
        some [some (.text name), some (.array (xs.map encode))] := by
      rw [Value.fields?_record (by simp)]
      rfl
    by_cases hfit : (Value.array (xs.map encode)).nesting ≤ room <;>
      simp [named, hfields, hlist, hfit]

@[simp]
theorem variant?_variant (room : Nat) (tag : String) (payload : Value) :
    variant? (room + 1) (.variant tag payload) = some (tag, room, payload) := by
  rw [variant?.eq_def, Value.variant?_variant]

end Decode

open Decode

theorem OptionSetting.inverts (room : Nat) :
    Inverts OptionSetting.ofJson? OptionSetting.toJson room := by
  intro o
  have hfields : o.toJson.fields? ["name", "value"] =
      some [some (.text o.name), some (.text o.value)] := by
    rw [toJson, Value.fields?_record (by simp)]
    rfl
  cases room with
  | zero => simp [ofJson?, toJson]
  | succ room =>
    simp only [ofJson?, hfields]
    simp [toJson]

theorem OptionSetting.listOfJson?_array (room : Nat) (os : List OptionSetting) :
    listOfJson? room (some (.array (os.map toJson))) =
      if (Value.array (os.map toJson)).nesting ≤ room then some os else none :=
  inverts_list (fun r _ => OptionSetting.inverts r) os

theorem TypeExpr.ofJson?_toJson (e : TypeExpr) : ofJson? e.toJson = some e := by
  cases e with
  | named name => rfl
  | map key value =>
    have hfields : (Value.record [("key", .text key), ("value", .text value)]).fields?
        ["key", "value"] = some [some (.text key), some (.text value)] := by
      rw [Value.fields?_record (by simp)]
      rfl
    rw [toJson, Value.record_eq, ofJson?, ← Value.record_eq, hfields]
    rfl

theorem TypeExpr.isReadable_toJson (e : TypeExpr) (room : Nat) :
    e.toJson.isReadable room = decide (e.toJson.nesting ≤ room) := by
  cases e with
  | named name => simp [toJson, Value.text, Value.isReadable, Value.nesting]
  | map key value =>
    cases room with
    | zero => simp [toJson, Value.record_eq, Value.isReadable, Value.nesting]
    | succ room =>
      simp [toJson, Value.record_eq, Value.keyed, Value.isReadable, Value.areMembersReadable,
        Value.text, Value.nesting, Value.memberNesting]

/-- A modifier that is not written is one that is not set. -/
theorem Field.fields?_toJson (f : Field) :
    f.toJson.fields? (ownKeys ++ ["optional", "repeated", "type"]) =
      some [some (.text f.name), some (.nat f.tag.toNat),
        some (.array (f.options.map OptionSetting.toJson)),
        if f.type.optional then some (.bool true) else none,
        if f.type.repeated then some (.bool true) else none, some f.type.expr.toJson] := by
  obtain ⟨⟨optional, repeated, expr⟩, name, tag, options⟩ := f
  rw [toJson, Value.fields?_record]
  · cases optional <;> cases repeated <;> rfl
  · cases optional <;> cases repeated <;> simp [FieldType.toMembers]

theorem Field.all_readable (f : Field) (room : Nat) :
    (Value.keyed (f.type.toMembers ++ [("name", .text f.name), ("tag", .nat f.tag.toNat),
      ("options", .array (f.options.map OptionSetting.toJson))])).all
        (fun (key, value) => ownKeys.any (some · == key) || value.isReadable room) =
      decide (f.type.expr.toJson.nesting ≤ room) := by
  obtain ⟨⟨optional, repeated, expr⟩, name, tag, options⟩ := f
  have htype := TypeExpr.isReadable_toJson expr room
  cases optional <;> cases repeated <;>
    simp [FieldType.toMembers, Value.keyed, ownKeys, Value.isReadable, htype]

theorem Field.nesting_toJson_le_iff (f : Field) (room : Nat) :
    f.toJson.nesting ≤ room + 1 ↔ f.type.expr.toJson.nesting ≤ room ∧
      (Value.array (f.options.map OptionSetting.toJson)).nesting ≤ room := by
  obtain ⟨⟨optional, repeated, expr⟩, name, tag, options⟩ := f
  cases optional <;> cases repeated <;> simp [toJson, FieldType.toMembers]

theorem Field.inverts (room : Nat) : Inverts Field.ofJson? Field.toJson room := by
  intro f
  cases room with
  | zero => simp [ofJson?, toJson]
  | succ room =>
    have hobject : f.toJson = .object (Value.keyed (f.type.toMembers ++
        [("name", .text f.name), ("tag", .nat f.tag.toNat),
          ("options", .array (f.options.map OptionSetting.toJson))])) :=
      rfl
    have hfields := Field.fields?_toJson f
    have hdecode : ofJson? (room + 1) f.toJson =
        if f.type.expr.toJson.nesting ≤ room then
          (OptionSetting.listOfJson? room
            (some (.array (f.options.map OptionSetting.toJson)))).map fun options =>
              ⟨f.type, f.name, f.tag, options⟩
        else none := by
      rw [hobject] at hfields
      rw [hobject, ofJson?, Field.all_readable, hfields]
      simp only [orElse_modifier, orElse_some, TypeExpr.ofJson?_toJson, Value.text?_text,
        Value.word?_nat, decide_eq_true_eq, Option.map_eq_bind]
      rfl
    rw [hdecode, OptionSetting.listOfJson?_array]
    by_cases hexpr : f.type.expr.toJson.nesting ≤ room <;>
      simp [Field.nesting_toJson_le_iff, hexpr, Option.map_if]

theorem OneOfMember.inverts (room : Nat) : Inverts OneOfMember.ofJson? OneOf.memberToJson room := by
  intro m
  cases room with
  | zero => cases m <;> simp [ofJson?, variant?, OneOf.memberToJson]
  | succ room =>
    cases m with
    | field f => simp [ofJson?, OneOf.memberToJson, Field.inverts room f, Option.map_if]
    | option o => simp [ofJson?, OneOf.memberToJson, OptionSetting.inverts room o, Option.map_if]

theorem OneOf.inverts (room : Nat) : Inverts OneOf.ofJson? OneOf.toJson room := by
  intro o
  rw [ofJson?, toJson, named_encode (fun r _ => OneOfMember.inverts r), Option.map_if]

theorem EnumValue.inverts (room : Nat) : Inverts EnumValue.ofJson? EnumValue.toJson room := by
  intro v
  have hoptions := fun r => OptionSetting.listOfJson?_array r v.options
  have hfields : v.toJson.fields? ["name", "tag", "is_negative", "options"] =
      some [some (.text v.name), some (.nat v.tag.toNat), some (.bool v.isNegative),
        some (.array (v.options.map OptionSetting.toJson))] := by
    rw [toJson, Value.fields?_record (by simp)]
    rfl
  cases room with
  | zero => simp [ofJson?, toJson]
  | succ room =>
    simp only [ofJson?, hfields, hoptions]
    by_cases hfit : (Value.array (v.options.map OptionSetting.toJson)).nesting ≤ room <;>
      simp [toJson, Value.bool?, hfit]

theorem EnumMember.inverts (room : Nat) :
    Inverts EnumMember.ofJson? Enumeration.memberToJson room := by
  intro m
  cases room with
  | zero => cases m <;> simp [ofJson?, variant?, Enumeration.memberToJson]
  | succ room =>
    cases m with
    | option o =>
      simp [ofJson?, Enumeration.memberToJson, OptionSetting.inverts room o, Option.map_if]
    | value v => simp [ofJson?, Enumeration.memberToJson, EnumValue.inverts room v, Option.map_if]

theorem Enumeration.inverts (room : Nat) : Inverts Enumeration.ofJson? Enumeration.toJson room := by
  intro e
  rw [ofJson?, toJson, named_encode (fun r _ => EnumMember.inverts r), Option.map_if]

theorem ReservedItem.inverts (room : Nat) :
    Inverts ReservedItem.ofJson? ReservedItem.toJson room := by
  intro item
  cases room with
  | zero => cases item <;> simp [ofJson?, variant?, toJson]
  | succ room =>
    cases item with
    | tag n => simp [ofJson?, toJson]
    | name s => simp [ofJson?, toJson]
    | range first last =>
      have hfields : (Value.record [("start", .nat first.toNat), ("end", .nat last.toNat)]).fields?
          ["start", "end"] = some [some (.nat first.toNat), some (.nat last.toNat)] := by
        rw [Value.fields?_record (by simp)]
        rfl
      cases room with
      | zero => simp [ofJson?, toJson]
      | succ room => simp [ofJson?, toJson, hfields]

theorem Member.listToJson_eq (ms : List Member) : listToJson ms = ms.map toJson := by
  induction ms with
  | nil => rfl
  | cons m ms ih => rw [listToJson, ih, List.map_cons]

theorem Member.ofJson?_zero (v : Value) : Member.ofJson? 0 v = none := by
  rw [ofJson?] <;> simp

theorem Member.nesting_toJson_ne_zero (m : Member) : m.toJson.nesting ≠ 0 := by
  cases m <;> simp [toJson]

/-- A message in a message takes up three containers before its members are reached. -/
theorem Member.inverts_message {room : Nat} {name : String} {ms : List Member}
    (h : ∀ r < room, Inverts Member.ofJson? Member.toJson r) :
    Member.ofJson? room (toJson (.message name ms)) =
      if (toJson (.message name ms)).nesting ≤ room then some (.message name ms) else none := by
  have hfields : (Value.record [("name", .text name), ("members", .array (ms.map toJson))]).fields?
      ["name", "members"] = some [some (.text name), some (.array (ms.map toJson))] := by
    rw [Value.fields?_record (by simp)]
    rfl
  rw [toJson, listToJson_eq]
  match room with
  | 0 => simp [ofJson?]
  | 1 =>
    rw [ofJson?.eq_def]
    simp
  | 2 => simp [ofJson?, hfields]
  | room + 3 =>
    have hlist := mapM_encode (h room (by omega)) ms
    by_cases hfit : ∀ m ∈ ms, m.toJson.nesting ≤ room
    · rw [if_pos hfit] at hlist
      simpa [ofJson?, hfields, hlist] using hfit
    · rw [if_neg hfit] at hlist
      simpa [ofJson?, hfields, hlist] using hfit

theorem Member.inverts (room : Nat) : Inverts Member.ofJson? Member.toJson room := by
  induction room using Nat.strongRecOn with
  | ind room ih =>
    intro m
    match room with
    | 0 => exact inverts_zero ofJson?_zero nesting_toJson_ne_zero m
    | room + 1 =>
      cases m with
      | field f => simp [ofJson?, toJson, Field.inverts room f, Option.map_if]
      | oneOf o => simp [ofJson?, toJson, OneOf.inverts room o, Option.map_if]
      | enumeration e => simp [ofJson?, toJson, Enumeration.inverts room e, Option.map_if]
      | message name ms => exact inverts_message ih
      | option o => simp [ofJson?, toJson, OptionSetting.inverts room o, Option.map_if]
      | reserved items =>
        have hlist := inverts_list (fun r (_ : r < room) => ReservedItem.inverts r) items
        simp [ofJson?, toJson, hlist, Option.map_if]

theorem Message.inverts (room : Nat) : Inverts Message.ofJson? Message.toJson room := by
  intro m
  rw [ofJson?, toJson, Member.listToJson_eq, named_encode (fun r _ => Member.inverts r),
    Option.map_if]

theorem Rpc.inverts (room : Nat) : Inverts Rpc.ofJson? Rpc.toJson room := by
  intro p
  have hoptions := fun r => OptionSetting.listOfJson?_array r p.options
  have hfields : p.toJson.fields? ["name", "in_stream", "in_type", "out_stream", "out_type",
      "options"] = some [some (.text p.name), some (.bool p.inStream), some (.text p.inType),
        some (.bool p.outStream), some (.text p.outType),
        some (.array (p.options.map OptionSetting.toJson))] := by
    rw [toJson, Value.fields?_record (by simp)]
    rfl
  cases room with
  | zero => simp [ofJson?, toJson]
  | succ room =>
    simp only [ofJson?, hfields, hoptions]
    by_cases hfit : (Value.array (p.options.map OptionSetting.toJson)).nesting ≤ room <;>
      simp [toJson, Value.bool?, hfit]

theorem ServiceMember.inverts (room : Nat) :
    Inverts ServiceMember.ofJson? Service.memberToJson room := by
  intro m
  cases room with
  | zero => cases m <;> simp [ofJson?, variant?, Service.memberToJson]
  | succ room =>
    cases m with
    | option o =>
      simp [ofJson?, Service.memberToJson, OptionSetting.inverts room o, Option.map_if]
    | rpc r => simp [ofJson?, Service.memberToJson, Rpc.inverts room r, Option.map_if]

theorem Service.inverts (room : Nat) : Inverts Service.ofJson? Service.toJson room := by
  intro s
  rw [ofJson?, toJson, named_encode (fun r _ => ServiceMember.inverts r), Option.map_if]

theorem Definition.inverts (room : Nat) : Inverts Definition.ofJson? Definition.toJson room := by
  intro d
  cases room with
  | zero => cases d <;> simp [ofJson?, variant?, toJson]
  | succ room =>
    cases d with
    | message m => simp [ofJson?, toJson, Message.inverts room m, Option.map_if]
    | enumeration e => simp [ofJson?, toJson, Enumeration.inverts room e, Option.map_if]
    | service s => simp [ofJson?, toJson, Service.inverts room s, Option.map_if]

theorem Schema.ofJson?_toJson (s : Schema) :
    ofJson? s.toJson = if s.toJson.nesting ≤ maxNesting then some s else none := by
  have hfields : s.toJson.fields? ["package", "definitions"] =
      some [some (.text s.package), some (.array (s.definitions.map Definition.toJson))] := by
    rw [toJson, Value.fields?_record (by simp)]
    rfl
  have hlist := inverts_list (fun r (_ : r < 126) => Definition.inverts r) s.definitions
  have hnesting : s.toJson.nesting ≤ 126 + 1 ↔
      (Value.array (s.definitions.map Definition.toJson)).nesting ≤ 126 := by
    simp [toJson]
  simp only [ofJson?, maxNesting, hfields, hnesting]
  by_cases hfit : (Value.array (s.definitions.map Definition.toJson)).nesting ≤ 126 <;>
    simp [hlist, hfit]

namespace Json.Value

theorem isPlain_variant {tag : String} {payload : Value} (h : payload.IsPlain) :
    (variant tag payload).IsPlain :=
  .record (List.forall_mem_singleton.2 h)

theorem isPlain_array_map {α : Type} {encode : α → Value} (h : ∀ x, (encode x).IsPlain)
    (xs : List α) : (array (xs.map encode)).IsPlain :=
  .array (List.forall_mem_map.2 fun x _ => h x)

theorem isPlain_named {name : String} {items : List Value} (h : ∀ v ∈ items, v.IsPlain) :
    (record [("name", text name), ("members", array items)]).IsPlain :=
  .record (by simp [IsPlain.text, IsPlain.array h])

end Json.Value

open Json.Value

theorem OptionSetting.isPlain_toJson (o : OptionSetting) : o.toJson.IsPlain :=
  .record (by simp [IsPlain.text])

theorem TypeExpr.isPlain_toJson (e : TypeExpr) : e.toJson.IsPlain := by
  cases e with
  | named name => exact .text name
  | map key value => exact .record (by simp [IsPlain.text])

theorem FieldType.isPlain_of_mem_toMembers (t : FieldType) : ∀ m ∈ t.toMembers, m.2.IsPlain := by
  obtain ⟨optional, repeated, expr⟩ := t
  have hexpr := expr.isPlain_toJson
  cases optional <;> cases repeated <;> simp [toMembers, IsPlain.bool, hexpr]

theorem Field.isPlain_toJson (f : Field) : f.toJson.IsPlain := by
  have hoptions := isPlain_array_map OptionSetting.isPlain_toJson f.options
  have hown : ∀ m ∈ [("name", text f.name), ("tag", nat f.tag.toNat),
      ("options", array (f.options.map OptionSetting.toJson))], m.2.IsPlain := by
    simp [IsPlain.text, IsPlain.nat, hoptions]
  exact .record (List.forall_mem_append.2 ⟨f.type.isPlain_of_mem_toMembers, hown⟩)

theorem OneOf.isPlain_toJson (o : OneOf) : o.toJson.IsPlain := by
  refine isPlain_named (List.forall_mem_map.2 fun m _ => ?_)
  cases m with
  | field f => exact isPlain_variant f.isPlain_toJson
  | option s => exact isPlain_variant s.isPlain_toJson

theorem EnumValue.isPlain_toJson (v : EnumValue) : v.toJson.IsPlain := by
  have hoptions := isPlain_array_map OptionSetting.isPlain_toJson v.options
  exact .record (by simp [IsPlain.text, IsPlain.nat, IsPlain.bool, hoptions])

theorem Enumeration.isPlain_toJson (e : Enumeration) : e.toJson.IsPlain := by
  refine isPlain_named (List.forall_mem_map.2 fun m _ => ?_)
  cases m with
  | option o => exact isPlain_variant o.isPlain_toJson
  | value v => exact isPlain_variant v.isPlain_toJson

theorem ReservedItem.isPlain_toJson (item : ReservedItem) : item.toJson.IsPlain := by
  cases item with
  | tag n => exact isPlain_variant (.nat _)
  | range first last => exact isPlain_variant (.record (by simp [IsPlain.nat]))
  | name s => exact isPlain_variant (.text s)

mutual

theorem Member.isPlain_toJson : ∀ m : Member, m.toJson.IsPlain
  | .field f => isPlain_variant f.isPlain_toJson
  | .oneOf o => isPlain_variant o.isPlain_toJson
  | .enumeration e => isPlain_variant e.isPlain_toJson
  | .message _ members => isPlain_variant (isPlain_named (Member.isPlain_of_mem_listToJson members))
  | .option o => isPlain_variant o.isPlain_toJson
  | .reserved items => isPlain_variant (isPlain_array_map ReservedItem.isPlain_toJson items)

theorem Member.isPlain_of_mem_listToJson : ∀ ms : List Member, ∀ v ∈ listToJson ms, v.IsPlain
  | [], _, hv => (List.not_mem_nil hv).elim
  | m :: ms, v, hv => by
    rcases List.mem_cons.1 hv with rfl | htail
    · exact Member.isPlain_toJson m
    · exact Member.isPlain_of_mem_listToJson ms v htail

end

theorem Rpc.isPlain_toJson (r : Rpc) : r.toJson.IsPlain := by
  have hoptions := isPlain_array_map OptionSetting.isPlain_toJson r.options
  exact .record (by simp [IsPlain.text, IsPlain.bool, hoptions])

theorem Service.isPlain_toJson (s : Service) : s.toJson.IsPlain := by
  refine isPlain_named (List.forall_mem_map.2 fun m _ => ?_)
  cases m with
  | option o => exact isPlain_variant o.isPlain_toJson
  | rpc r => exact isPlain_variant r.isPlain_toJson

theorem Definition.isPlain_toJson (d : Definition) : d.toJson.IsPlain := by
  cases d with
  | message m => exact isPlain_variant (isPlain_named (Member.isPlain_of_mem_listToJson m.members))
  | enumeration e => exact isPlain_variant e.isPlain_toJson
  | service s => exact isPlain_variant s.isPlain_toJson

theorem Schema.isPlain_toJson (s : Schema) : s.toJson.IsPlain := by
  have hdefinitions := isPlain_array_map Definition.isPlain_toJson s.definitions
  exact .record (by simp [IsPlain.text, hdefinitions])

/-- A document of a schema gives the schema back if at most 127 containers are open in it at once,
and is refused otherwise. -/
theorem Schema.document_roundTrip (s : Schema) :
    Schema.parse? s.render = if Json.depth s.render ≤ 127 then some s else none := by
  rw [parse?, render, Json.Value.parse?_render s.isPlain_toJson, Option.bind_some,
    Schema.ofJson?_toJson, Json.depth_render s.isPlain_toJson]
  rfl

end WireModel
