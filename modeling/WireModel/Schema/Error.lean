import WireModel.Schema.Basic
import WireModel.TypeName

namespace WireModel

/-- The two sorts of named types. -/
inductive Category where
  | message
  | enumeration
deriving DecidableEq, Repr

def Category.label : Category → String
  | .message => "message"
  | .enumeration => "enum"

/-- Modifiers that do not go together. -/
inductive ModifierConflict where
  | optionalRepeated
  | onMap
deriving DecidableEq, Repr

def ModifierConflict.reason : ModifierConflict → String
  | .optionalRepeated => "optional and repeated are exclusive"
  | .onMap => "map fields take no modifier"

/-- What can be wrong with a schema. -/
inductive SchemaError where
  | conflictingModifiers (field : String) (conflict : ModifierConflict)
  | invalidMapKey (field key : String)
  | duplicateDefinition (category : Category) (name : TypeName)
  | duplicateTag (message : TypeName) (field : String) (tag : Tag)
  | tagOutOfRange (message : TypeName) (field : String) (tag : Tag)
  | reservedTag (message : TypeName) (field : String) (tag : Tag)
  | duplicateValue (enumeration : TypeName) (value : String)
  | emptyEnumeration (enumeration : TypeName)
deriving DecidableEq, Repr

def SchemaError.message : SchemaError → String
  | .conflictingModifiers field conflict =>
    "invalid shape for field '" ++ field ++ "': " ++ conflict.reason
  | .invalidMapKey field key => "invalid map key '" ++ key ++ "' for field '" ++ field ++ "'"
  | .duplicateDefinition category name =>
    "duplicate " ++ category.label ++ " definition: '" ++ name.text ++ "'"
  | .duplicateTag message field tag =>
    "duplicate tag " ++ tag.toNat.repr ++ " in message '" ++ message.text ++
      "' (field '" ++ field ++ "')"
  | .tagOutOfRange message field tag =>
    "tag " ++ tag.toNat.repr ++ " of field '" ++ field ++ "' in message '" ++ message.text ++
      "' is out of range"
  | .reservedTag message field tag =>
    "validation error: field '" ++ field ++ "' in message '" ++ message.text ++
      "' uses reserved tag " ++ tag.toNat.repr
  | .duplicateValue enumeration value =>
    "validation error: Duplicate enum value name '" ++ value ++ "' in enum '" ++
      enumeration.text ++ "'"
  | .emptyEnumeration enumeration =>
    "validation error: enum '" ++ enumeration.text ++ "' has no values"

end WireModel
