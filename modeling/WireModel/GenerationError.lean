import WireModel.Schema.Error
import WireModel.Shape

namespace WireModel

/-- Why no object model can be generated for a schema. -/
inductive GenerationError where
  | schema (e : SchemaError)
  /-- A field whose values have no native type. -/
  | unsupported (field : String) (kind : Kind)
  /-- One side of a procedure is no message. -/
  | rpcWithoutMessage (rpc : String) (kind : Kind)
  /-- A shape that has no place where it stands. -/
  | misplaced (field : String) (shape : Shape)
  | unknownMessage (name : TypeName)
deriving DecidableEq, Repr

def GenerationError.message : GenerationError → String
  | .schema e => "schema error: " ++ e.message
  | .unsupported field kind =>
    "unsupported type " ++ kind.describe ++ " for field '" ++ field ++ "'"
  | .rpcWithoutMessage rpc kind =>
    "unsupported type " ++ kind.describe ++ " (rpc types must be messages) for field '" ++ rpc ++
      "'"
  | .misplaced field shape => "invalid shape " ++ shape.describe ++ " for field '" ++ field ++ "'"
  | .unknownMessage name => "unknown message '" ++ name.text ++ "'"

end WireModel
