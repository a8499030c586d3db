namespace WireModel

/-- The number of a field on the wire. -/
abbrev Tag := UInt32

/-- A setting attached to a definition, both sides as written. -/
structure OptionSetting where
  name : String
  value : String
deriving DecidableEq, Repr

/-- The type of a field without its modifiers. -/
inductive TypeExpr where
  | named (name : String)
  | map (key value : String)
deriving DecidableEq, Repr

/-- The declared type of a field; which modifiers go together is decided when it is resolved. -/
structure FieldType where
  optional : Bool := false
  repeated : Bool := false
  expr : TypeExpr := .named ""
deriving DecidableEq, Repr

/-- A field of a message or an alternative of a oneof. -/
structure Field where
  type : FieldType
  name : String
  tag : Tag
  options : List OptionSetting := []
deriving DecidableEq, Repr

inductive OneOfMember where
  | field (f : Field)
  | option (o : OptionSetting)
deriving DecidableEq, Repr

/-- A choice between fields of which at most one is set. -/
structure OneOf where
  name : String
  members : List OneOfMember := []
deriving DecidableEq, Repr

/-- A constant of an enumeration, whose number is given by magnitude and sign. -/
structure EnumValue where
  name : String
  tag : Tag
  isNegative : Bool := false
  options : List OptionSetting := []
deriving DecidableEq, Repr

inductive EnumMember where
  | option (o : OptionSetting)
  | value (v : EnumValue)
deriving DecidableEq, Repr

structure Enumeration where
  name : String
  members : List EnumMember := []
deriving DecidableEq, Repr

/-- Field numbers and names that a message may not use. -/
inductive ReservedItem where
  | tag (n : Tag)
  | range (first last : Tag)
  | name (s : String)
deriving DecidableEq, Repr

inductive Member where
  | field (f : Field)
  | oneOf (o : OneOf)
  | enumeration (e : Enumeration)
  | message (name : String) (members : List Member)
  | option (o : OptionSetting)
  | reserved (items : List ReservedItem)
deriving Repr, BEq

structure Message where
  name : String
  members : List Member := []
deriving Repr, BEq

/-- A remote procedure; either side may be a stream of messages. -/
structure Rpc where
  name : String
  inStream : Bool := false
  inType : String
  outStream : Bool := false
  outType : String
  options : List OptionSetting := []
deriving DecidableEq, Repr

inductive ServiceMember where
  | option (o : OptionSetting)
  | rpc (r : Rpc)
deriving DecidableEq, Repr

structure Service where
  name : String
  members : List ServiceMember := []
deriving DecidableEq, Repr

inductive Definition where
  | message (m : Message)
  | enumeration (e : Enumeration)
  | service (s : Service)
deriving Repr, BEq

/-- A schema: its package, empty for none, and its definitions. -/
structure Schema where
  package : String := ""
  definitions : List Definition := []
deriving Repr, BEq

namespace EnumValue

def number (v : EnumValue) : Int :=
  if v.isNegative then -(v.tag.toNat : Int) else v.tag.toNat

end EnumValue

namespace Enumeration

def values (e : Enumeration) : List EnumValue :=
  e.members.filterMap fun
    | .value v => some v
    | .option _ => none

def options (e : Enumeration) : List OptionSetting :=
  e.members.filterMap fun
    | .option o => some o
    | .value _ => none

/-- The constant with number zero that comes first, or else the first constant. -/
def zeroValue? (e : Enumeration) : Option EnumValue :=
  match e.values.find? fun v => v.number == 0 with
  | some v => some v
  | none => e.values.head?

end Enumeration

namespace OneOf

def fields (o : OneOf) : List Field :=
  o.members.filterMap fun
    | .field f => some f
    | .option _ => none

def options (o : OneOf) : List OptionSetting :=
  o.members.filterMap fun
    | .option s => some s
    | .field _ => none

end OneOf

namespace ReservedItem

/-- Whether a field number is reserved by the item; ranges include both ends. -/
def contains (tag : Tag) : ReservedItem → Bool
  | .tag n => n = tag
  | .range first last => first ≤ tag && tag ≤ last
  | .name _ => false

end ReservedItem

namespace Message

/-- The plain fields in the order of declaration. -/
def fields (m : Message) : List Field :=
  m.members.filterMap fun
    | .field f => some f
    | _ => none

def oneOfs (m : Message) : List OneOf :=
  m.members.filterMap fun
    | .oneOf o => some o
    | _ => none

/-- The messages nested directly in this one. -/
def messages (m : Message) : List Message :=
  m.members.filterMap fun
    | .message name members => some ⟨name, members⟩
    | _ => none

def enumerations (m : Message) : List Enumeration :=
  m.members.filterMap fun
    | .enumeration e => some e
    | _ => none

/-- What all reserved statements together list. -/
def reserved (m : Message) : List ReservedItem :=
  m.members.flatMap fun
    | .reserved items => items
    | _ => []

/-- Whether the message carries no data. -/
def isEmpty (m : Message) : Bool :=
  m.fields.isEmpty && m.oneOfs.isEmpty

end Message

namespace Service

def rpcs (s : Service) : List Rpc :=
  s.members.filterMap fun
    | .rpc r => some r
    | .option _ => none

end Service

namespace Schema

def services (s : Schema) : List Service :=
  s.definitions.filterMap fun
    | .service d => some d
    | _ => none

end Schema

end WireModel
