import WireModel.Json.Reader
import WireModel.Schema.Basic

namespace WireModel

open Json (Value)

namespace Decode

/-- The decoded value, or a default where the document leaves it out. -/
def orElse (default : α) (decode : Value → Option α) : Option Value → Option α
  | none => some default
  | some v => decode v

/-- An array whose elements are decoded one by one; `room` is the number of containers that may
still be entered. -/
def list (item : Nat → Value → Option α) : Nat → Value → Option (List α)
  | room + 1, .array items => items.mapM (item room)
  | _, _ => none

end Decode

/-- A setting, as an object or by position. -/
def OptionSetting.ofJson? (room : Nat) (v : Value) : Option OptionSetting :=
  match room, v.fields? ["name", "value"] with
  | _ + 1, some [some name, some value] => do
    return ⟨← name.text?, ← value.text?⟩
  | _, _ => none

def OptionSetting.listOfJson? (room : Nat) (v : Option Value) : Option (List OptionSetting) :=
  Decode.orElse [] (Decode.list OptionSetting.ofJson? room) v

/-- A type: a name, or an object with key and value. -/
def TypeExpr.ofJson? (v : Value) : Option TypeExpr :=
  match v with
  | .string name => name.map .named
  | .object _ =>
    match v.fields? ["key", "value"] with
    | some [some key, some value] => do
      return .map (← key.text?) (← value.text?)
    | _ => none
  | _ => none

def Field.ownKeys : List String :=
  ["name", "tag", "options"]

/-- A field, always as an object. Type and modifiers stand beside the field's own keys, so
everything under another key has to be readable. -/
def Field.ofJson? (room : Nat) (v : Value) : Option Field :=
  match room, v with
  | room + 1, .object members =>
    if members.all fun (key, value) => ownKeys.any (some · == key) || value.isReadable room then
      match v.fields? (ownKeys ++ ["optional", "repeated", "type"]) with
      | some [some name, some tag, options, optional, repeated, type] => do
        let name ← name.text?
        let tag ← tag.word?
        let options ← OptionSetting.listOfJson? room options
        let optional ← Decode.orElse false Value.bool? optional
        let repeated ← Decode.orElse false Value.bool? repeated
        let expr ← Decode.orElse (.named "") TypeExpr.ofJson? type
        return ⟨⟨optional, repeated, expr⟩, name, tag, options⟩
      | _ => none
    else none
  | _, _ => none

/-- A declared type on its own, as an object; other keys are passed over. -/
def FieldType.ofJson? (v : Value) : Option FieldType :=
  match v with
  | .object _ =>
    match v.fields? ["optional", "repeated", "type"] with
    | some [optional, repeated, type] => do
      let optional ← Decode.orElse false Value.bool? optional
      let repeated ← Decode.orElse false Value.bool? repeated
      let expr ← Decode.orElse (.named "") TypeExpr.ofJson? type
      return ⟨optional, repeated, expr⟩
    | _ => none
  | _ => none

/-- A name and a list of members, as an object or by position. -/
def Decode.named (item : Nat → Value → Option α) (room : Nat) (v : Value) :
    Option (String × List α) :=
  match room, v.fields? ["name", "members"] with
  | room + 1, some [some name, members] => do
    return (← name.text?, ← Decode.orElse [] (Decode.list item room) members)
  | _, _ => none

/-- The key of a one-member object and its value, with the room left for it. -/
def Decode.variant? (room : Nat) (v : Value) : Option (String × Nat × Value) :=
  match room, v.variant? with
  | room + 1, some (tag, payload) => some (tag, room, payload)
  | _, _ => none

def OneOfMember.ofJson? (room : Nat) (v : Value) : Option OneOfMember :=
  match Decode.variant? room v with
  | some ("field", room, v) => (Field.ofJson? room v).map .field
  | some ("option", room, v) => (OptionSetting.ofJson? room v).map .option
  | _ => none

def OneOf.ofJson? (room : Nat) (v : Value) : Option OneOf :=
  (Decode.named OneOfMember.ofJson? room v).map fun (name, members) => ⟨name, members⟩

def EnumValue.ofJson? (room : Nat) (v : Value) : Option EnumValue :=
  match room, v.fields? ["name", "tag", "is_negative", "options"] with
  | room + 1, some [some name, some tag, isNegative, options] => do
    let name ← name.text?
    let tag ← tag.word?
    let isNegative ← Decode.orElse false Value.bool? isNegative
    return ⟨name, tag, isNegative, ← OptionSetting.listOfJson? room options⟩
  | _, _ => none

def EnumMember.ofJson? (room : Nat) (v : Value) : Option EnumMember :=
  match Decode.variant? room v with
  | some ("option", room, v) => (OptionSetting.ofJson? room v).map .option
  | some ("value", room, v) => (EnumValue.ofJson? room v).map .value
  | _ => none

def Enumeration.ofJson? (room : Nat) (v : Value) : Option Enumeration :=
  (Decode.named EnumMember.ofJson? room v).map fun (name, members) => ⟨name, members⟩

def ReservedItem.ofJson? (room : Nat) (v : Value) : Option ReservedItem :=
  match Decode.variant? room v with
  | some ("tag", _, v) => v.word?.map .tag
  | some ("range", _ + 1, v) =>
    match v.fields? ["start", "end"] with
    | some [some first, some last] => do
      return .range (← first.word?) (← last.word?)
    | _ => none
  | some ("name", _, v) => v.text?.map .name
  | _ => none

/-- What stands in a message; nested messages take up room, which bounds their depth. -/
def Member.ofJson? (room : Nat) (v : Value) : Option Member :=
  match room, v.variant? with
  | room + 1, some ("field", v) => (Field.ofJson? room v).map .field
  | room + 1, some ("one_of", v) => (OneOf.ofJson? room v).map .oneOf
  | room + 1, some ("nested_enum", v) => (Enumeration.ofJson? room v).map .enumeration
  | room + 2, some ("nested_message", v) =>
    match v.fields? ["name", "members"] with
    | some [some name, none] => name.text?.map fun name => .message name []
    | some [some name, some members] =>
      match room, members with
      | room + 1, .array items => do
        return .message (← name.text?) (← items.mapM (Member.ofJson? room))
      | _, _ => none
    | _ => none
  | room + 1, some ("option", v) => (OptionSetting.ofJson? room v).map .option
  | room + 1, some ("reserved", v) => (Decode.list ReservedItem.ofJson? room v).map .reserved
  | _, _ => none

def Message.ofJson? (room : Nat) (v : Value) : Option Message :=
  (Decode.named Member.ofJson? room v).map fun (name, members) => ⟨name, members⟩

def Rpc.ofJson? (room : Nat) (v : Value) : Option Rpc :=
  match room, v.fields? ["name", "in_stream", "in_type", "out_stream", "out_type", "options"] with
  | room + 1, some [some name, inStream, some inType, outStream, some outType, options] => do
    let name ← name.text?
    let inStream ← Decode.orElse false Value.bool? inStream
    let inType ← inType.text?
    let outStream ← Decode.orElse false Value.bool? outStream
    let outType ← outType.text?
    return ⟨name, inStream, inType, outStream, outType, ← OptionSetting.listOfJson? room options⟩
  | _, _ => none

def ServiceMember.ofJson? (room : Nat) (v : Value) : Option ServiceMember :=
  match Decode.variant? room v with
  | some ("option", room, v) => (OptionSetting.ofJson? room v).map .option
  | some ("rpc", room, v) => (Rpc.ofJson? room v).map .rpc
  | _ => none

def Service.ofJson? (room : Nat) (v : Value) : Option Service :=
  (Decode.named ServiceMember.ofJson? room v).map fun (name, members) => ⟨name, members⟩

def Definition.ofJson? (room : Nat) (v : Value) : Option Definition :=
  match Decode.variant? room v with
  | some ("message", room, v) => (Message.ofJson? room v).map .message
  | some ("enum", room, v) => (Enumeration.ofJson? room v).map .enumeration
  | some ("service", room, v) => (Service.ofJson? room v).map .service
  | _ => none

/-- The number of containers that may stand in one another in a document. -/
def Schema.maxNesting : Nat := 127

def Schema.ofJson? (v : Value) : Option Schema :=
  match maxNesting, v.fields? ["package", "definitions"] with
  | room + 1, some [package, definitions] => do
    let package ← Decode.orElse "" Value.text? package
    return ⟨package, ← Decode.orElse [] (Decode.list Definition.ofJson? room) definitions⟩
  | _, _ => none

def Schema.parse? (document : String) : Option Schema :=
  (Value.parse? document).bind Schema.ofJson?

end WireModel
