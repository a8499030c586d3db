import WireModel.Conversion

namespace WireModel

structure FieldModel where
  spec : FieldSpec
  accessors : Accessors
  description : FieldDescription
deriving DecidableEq, Repr

structure MessageModel where
  name : TypeName
  className : String
  wireClass : String
  fields : List FieldModel
deriving DecidableEq, Repr

structure EnumModel where
  name : TypeName
  className : String
  wireClass : String
  values : List String
  defaultValue : String
deriving DecidableEq, Repr

structure AlternativeModel where
  name : String
  variant : String
  caseConstant : String
  accessors : Accessors
  nativeType : String
  rule : Rule
deriving DecidableEq, Repr

structure UnionModel where
  name : TypeName
  className : String
  /-- The wire class of the message that the oneof stands in. -/
  messageWireClass : String
  accessors : Accessors
  alternatives : List AlternativeModel
deriving DecidableEq, Repr

/-- Adds a string to an ascending list without repetitions. -/
def insertSorted (s : String) : List String → List String
  | [] => [s]
  | t :: ts => if s < t then s :: t :: ts else if s = t then t :: ts else t :: insertSorted s ts

/-- The strings in ascending order, each once. -/
def sortedUnique (ss : List String) : List String :=
  ss.foldr insertSorted []

namespace MessageModel

def imports (m : MessageModel) : List String :=
  sortedUnique (m.fields.flatMap fun f => f.description.selection.imports)

/-- The property for a field of the schema. -/
def field? (m : MessageModel) (name : String) : Option FieldModel :=
  m.fields.find? fun f => f.spec.name == name

end MessageModel

end WireModel
