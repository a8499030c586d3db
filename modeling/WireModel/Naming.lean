import WireModel.Text.Words
import WireModel.TypeName

namespace WireModel

/-- How the names of a schema are spelled in the object model. -/
structure Naming where
  /-- The property that holds a field. -/
  accessor : String → String
  /-- The same name as it continues a compound such as `hasName`. -/
  capitalized : String → String
  /-- The class of a message or of a union. -/
  classSymbol : TypeName → String
  /-- The class of an enumeration. -/
  enumSymbol : TypeName → String
  /-- The constant that tells which alternative of a union is set. -/
  caseConstant : String → String

namespace Naming

/-- The segments of a name run together in camel case. -/
def flattened (t : TypeName) : String :=
  Text.joinWith "" (t.segments.map Text.upperCamel)

/-- Camel case for properties and classes, upper case with underscores for constants. -/
def camelCase : Naming where
  accessor := Text.lowerCamel
  capitalized := Text.upperCamel
  classSymbol := flattened
  enumSymbol := flattened
  caseConstant := Text.shoutySnake

end Naming

end WireModel
