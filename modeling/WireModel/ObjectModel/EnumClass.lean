import WireModel.Layout
import WireModel.ObjectModel.Basic

namespace WireModel.EnumModel

/-- The constants, with commas between them and a semicolon at the end. -/
def constants (wireClass : String) : List String → List Stmt
  | [] => []
  | [v] => [.line (v ++ "(" ++ wireClass ++ "." ++ v ++ ");")]
  | v :: vs => .line (v ++ "(" ++ wireClass ++ "." ++ v ++ "),") :: constants wireClass vs

/-- The constant for each wire constant, and the default for all others. -/
def cases (m : EnumModel) : List Stmt :=
  m.values.map (fun v => .line (m.wireClass ++ "." ++ v ++ " -> " ++ v)) ++
    [.line "else -> defaultValue"]

def source (m : EnumModel) : Stmt :=
  .braces ("enum class " ++ m.className ++ "(val proto: " ++ m.wireClass ++ ")")
    (constants m.wireClass m.values ++
      [.blank,
        .line ("fun toProto(): " ++ m.wireClass ++ " = proto"),
        .blank,
        .braces "companion object"
          [.line ("val defaultValue = " ++ m.defaultValue),
            .blank,
            .braces ("fun fromProto(proto: " ++ m.wireClass ++ "): " ++ m.className ++
              " = when (proto)") m.cases]])

end WireModel.EnumModel
