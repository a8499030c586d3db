import WireModel.Json.Printer
import WireModel.Schema.Basic

namespace WireModel

open Json (Value)

namespace OptionSetting

def toJson (o : OptionSetting) : Value :=
  .record [("name", .text o.name), ("value", .text o.value)]

end OptionSetting

namespace TypeExpr

/-- The document form of a type: a name as a string, a map as an object. -/
def toJson : TypeExpr → Value
  | .named name => .text name
  | .map key value => .record [("key", .text key), ("value", .text value)]

end TypeExpr

namespace FieldType

/-- The members that a declared type adds to its field; a modifier is written only when set. -/
def toMembers (t : FieldType) : List (String × Value) :=
  (if t.optional then [("optional", .bool true)] else []) ++
    (if t.repeated then [("repeated", .bool true)] else []) ++ [("type", t.expr.toJson)]

end FieldType

namespace Field

def toJson (f : Field) : Value :=
  .record (f.type.toMembers ++
    [("name", .text f.name), ("tag", .nat f.tag.toNat),
      ("options", .array (f.options.map OptionSetting.toJson))])

end Field

namespace OneOf

def memberToJson : OneOfMember → Value
  | .field f => .variant "field" f.toJson
  | .option o => .variant "option" o.toJson

def toJson (o : OneOf) : Value :=
  .record [("name", .text o.name), ("members", .array (o.members.map memberToJson))]

end OneOf

namespace EnumValue

def toJson (v : EnumValue) : Value :=
  .record [("name", .text v.name), ("tag", .nat v.tag.toNat), ("is_negative", .bool v.isNegative),
    ("options", .array (v.options.map OptionSetting.toJson))]

end EnumValue

namespace Enumeration

def memberToJson : EnumMember → Value
  | .option o => .variant "option" o.toJson
  | .value v => .variant "value" v.toJson

def toJson (e : Enumeration) : Value :=
  .record [("name", .text e.name), ("members", .array (e.members.map memberToJson))]

end Enumeration

namespace ReservedItem

def toJson : ReservedItem → Value
  | .tag n => .variant "tag" (.nat n.toNat)
  | .range first last =>
    .variant "range" (.record [("start", .nat first.toNat), ("end", .nat last.toNat)])
  | .name s => .variant "name" (.text s)

end ReservedItem

namespace Member

mutual

def toJson : Member → Value
  | .field f => .variant "field" f.toJson
  | .oneOf o => .variant "one_of" o.toJson
  | .enumeration e => .variant "nested_enum" e.toJson
  | .message name members =>
    .variant "nested_message"
      (.record [("name", .text name), ("members", .array (listToJson members))])
  | .option o => .variant "option" o.toJson
  | .reserved items => .variant "reserved" (.array (items.map ReservedItem.toJson))

def listToJson : List Member → List Value
  | [] => []
  | m :: ms => m.toJson :: listToJson ms

end

end Member

namespace Message

def toJson (m : Message) : Value :=
  .record [("name", .text m.name), ("members", .array (Member.listToJson m.members))]

end Message

namespace Rpc

def toJson (r : Rpc) : Value :=
  .record [("name", .text r.name), ("in_stream", .bool r.inStream), ("in_type", .text r.inType),
    ("out_stream", .bool r.outStream), ("out_type", .text r.outType),
    ("options", .array (r.options.map OptionSetting.toJson))]

end Rpc

namespace Service

def memberToJson : ServiceMember → Value
  | .option o => .variant "option" o.toJson
  | .rpc r => .variant "rpc" r.toJson

def toJson (s : Service) : Value :=
  .record [("name", .text s.name), ("members", .array (s.members.map memberToJson))]

end Service

namespace Definition

def toJson : Definition → Value
  | .message m => .variant "message" m.toJson
  | .enumeration e => .variant "enum" e.toJson
  | .service s => .variant "service" s.toJson

end Definition

namespace Schema

def toJson (s : Schema) : Value :=
  .record [("package", .text s.package),
    ("definitions", .array (s.definitions.map Definition.toJson))]

/-- The document of a schema, without blanks and with every default written out. -/
def render (s : Schema) : String :=
  s.toJson.render

end Schema

end WireModel
