import WireModel.ObjectModel.Basic
import WireModel.ObjectModel.ConversionText

namespace WireModel

namespace FieldModel

def declaration (f : FieldModel) : String :=
  let r := f.description.selection.representation
  r.keyword ++ " " ++ f.accessors.accessor ++ ": " ++ r.nativeType ++ ","

def argument (f : FieldModel) (value : String) : String :=
  f.accessors.accessor ++ " = " ++ value ++ ","

/-- The value of the property in a new object. -/
def initial (f : FieldModel) : String :=
  f.description.selection.representation.construct none

/-- The value of the property in an object that is being decoded. -/
def decoded (f : FieldModel) : String :=
  f.description.conversion.decoding.expr "proto"

/-- The loop that fills the property, if it is a container. -/
def filling? (f : FieldModel) : Option Stmt :=
  f.description.conversion.filling.map fun step => step.stmt "proto" "instance"

def encoder (f : FieldModel) : Stmt :=
  f.description.conversion.encoding.stmt "this" "builder"

end FieldModel

namespace MessageModel

/-- A call of the class with one argument for each property, after an opening. -/
def call (m : MessageModel) (opening : String) (value : FieldModel → String) : Stmt :=
  match m.fields with
  | [] => .line (opening ++ m.className ++ "()")
  | fields =>
    .block (opening ++ m.className ++ "(") (fields.map fun f => .line (f.argument (value f))) ")"

def companion (m : MessageModel) : Stmt :=
  .braces "companion object"
    [m.call ("fun create(): " ++ m.className ++ " = ") FieldModel.initial,
      .blank,
      .braces ("fun fromProto(proto: " ++ m.wireClass ++ "): " ++ m.className)
        (m.call "val instance = " FieldModel.decoded ::
          m.fields.filterMap FieldModel.filling? ++ [.line "return instance"])]

def writers (m : MessageModel) : List Stmt :=
  [.braces ("fun toProto(): " ++ m.wireClass)
      [.line ("val builder = " ++ m.wireClass ++ ".newBuilder()"),
        .line "toProto(builder)",
        .line "return builder.build()"],
    .blank,
    .braces ("fun toProto(builder: " ++ m.wireClass ++ ".Builder)")
      (m.fields.map FieldModel.encoder)]

/-- The source of the class, which has a constructor only if it has properties. -/
def source (m : MessageModel) : List Stmt :=
  let body := m.companion :: .blank :: m.writers
  match m.fields with
  | [] => [.braces ("class " ++ m.className) body]
  | fields =>
    [.line ("data class " ++ m.className ++ "("),
      .indent (fields.map fun f => .line f.declaration),
      .braces ")" body]

end MessageModel

end WireModel
