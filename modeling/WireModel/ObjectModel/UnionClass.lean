import WireModel.ObjectModel.Basic
import WireModel.ObjectModel.ConversionText

namespace WireModel.UnionModel

def variantLine (m : UnionModel) (a : AlternativeModel) : String :=
  "data class " ++ a.variant ++ "(val value: " ++ a.nativeType ++ ") : " ++ m.className ++ "()"

/-- Writes the alternative that is set. -/
def writer (m : UnionModel) : Stmt :=
  .braces ("fun toProto(builder: " ++ m.messageWireClass ++ ".Builder)")
    [.braces "when (this)"
      (.line ("Unset -> builder.clear" ++ m.accessors.capitalized ++ "()") ::
        m.alternatives.map fun a =>
          .line ("is " ++ a.variant ++ " -> " ++ a.rule.write "this.value" "builder" a.accessors))]

def reader (m : UnionModel) : Stmt :=
  let caseClass := m.messageWireClass ++ "." ++ m.accessors.capitalized ++ "Case"
  .braces ("fun fromProto(proto: " ++ m.messageWireClass ++ "): " ++ m.className ++
      " = when (proto." ++ m.accessors.accessor ++ "Case)")
    ((m.alternatives.map fun a =>
        .line (caseClass ++ "." ++ a.caseConstant ++ " -> " ++ a.variant ++ "(" ++
          a.rule.read ("proto." ++ a.accessors.accessor) ++ ")")) ++
      [.line "else -> Unset"])

def source (m : UnionModel) : Stmt :=
  .braces ("sealed class " ++ m.className)
    (.line ("object Unset : " ++ m.className ++ "()") ::
      (m.alternatives.flatMap fun a => [.blank, .line (m.variantLine a)]) ++
      [.blank, m.writer, .blank, .braces "companion object" [m.reader]])

end WireModel.UnionModel
