import WireModel.Schema.Error
import WireModel.Schema.Traversal

namespace WireModel

/-- Whether a number may be used for a field: below `2 ^ 29` and outside the block kept for the
format's own use. -/
def Tag.isLegal (tag : Tag) : Bool :=
  1 ≤ tag.toNat && tag.toNat ≤ 536870911 && !(19000 ≤ tag.toNat && tag.toNat ≤ 19999)

namespace Message

/-- The plain fields, then the alternatives of all oneofs. -/
def allFields (m : Message) : List Field :=
  m.fields ++ m.oneOfs.flatMap OneOf.fields

/-- Checks the numbers of fields against the rules and against those seen before. -/
def checkTags (name : TypeName) (reserved : List ReservedItem) (seen : List Tag) :
    List Field → Except SchemaError Unit
  | [] => .ok ()
  | f :: fs =>
    if !Tag.isLegal f.tag then .error (.tagOutOfRange name f.name f.tag)
    else if seen.contains f.tag then .error (.duplicateTag name f.name f.tag)
    else if reserved.any (ReservedItem.contains f.tag) then .error (.reservedTag name f.name f.tag)
    else checkTags name reserved (f.tag :: seen) fs

def validate (name : TypeName) (m : Message) : Except SchemaError Unit :=
  checkTags name m.reserved [] m.allFields

end Message

namespace Enumeration

def checkNames (name : TypeName) (seen : List String) : List EnumValue → Except SchemaError Unit
  | [] => .ok ()
  | v :: vs =>
    if seen.contains v.name then .error (.duplicateValue name v.name)
    else checkNames name (v.name :: seen) vs

def validate (name : TypeName) (e : Enumeration) : Except SchemaError Unit :=
  match e.values with
  | [] => .error (.emptyEnumeration name)
  | values => checkNames name [] values

end Enumeration

/-- Checks all messages, then all enumerations; the first fault is the answer. -/
def Schema.validate (s : Schema) : Except SchemaError Unit := do
  s.messages.forM fun (name, m) => m.validate name
  s.enumerations.forM fun (name, e) => e.validate name

end WireModel
