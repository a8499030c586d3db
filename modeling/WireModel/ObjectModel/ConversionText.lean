import WireModel.Conversion
import WireModel.Layout

namespace WireModel

namespace Rule

/-- The native value of a wire value. -/
def read (rule : Rule) (raw : String) : String :=
  match rule with
  | .scalar => raw
  | .enumeration type => type ++ ".fromProto(" ++ raw ++ ")"
  | .message type _ => type ++ ".fromProto(" ++ raw ++ ")"
  | .union type => type ++ ".fromProto(" ++ raw ++ ")"

/-- Writes a native value to a field of a builder. -/
def write (rule : Rule) (value builder : String) (field : Accessors) : String :=
  match rule with
  | .scalar => builder ++ "." ++ field.accessor ++ " = " ++ value
  | .enumeration _ => builder ++ "." ++ field.accessor ++ " = " ++ value ++ ".toProto()"
  | .message _ _ => value ++ ".toProto(" ++ builder ++ "." ++ field.accessor ++ "Builder)"
  | .union _ => value ++ ".toProto(" ++ builder ++ ")"

/-- Where the wire value stands: a union is read off the whole message. -/
def source (rule : Rule) (proto : String) (field : Accessors) : String :=
  match rule with
  | .union _ => proto
  | _ => proto ++ "." ++ field.accessor

/-- The test that the wire holds no value. -/
def absent (rule : Rule) (proto : String) (field : Accessors) : String :=
  match rule with
  | .union _ => proto ++ "." ++ field.accessor ++ "Case.number == 0"
  | _ => "!" ++ proto ++ ".has" ++ field.capitalized ++ "()"

end Rule

def Decoding.expr (d : Decoding) (proto : String) : String :=
  match d with
  | .single field rule => rule.read (rule.source proto field)
  | .optional field rule =>
    "if (" ++ rule.absent proto field ++ ") null else " ++ rule.read (rule.source proto field)
  | .literal expr => expr

/-- A block that runs for each element, with the parameters of its function. -/
def Stmt.forEach (container params : String) (body : List Stmt) : Stmt :=
  .block (container ++ ".forEach \x7b " ++ params ++ " ->") body "\x7d"

def Filling.stmt (f : Filling) (proto instanceName : String) : Stmt :=
  match f with
  | .elements field rule =>
    .forEach (proto ++ "." ++ field.accessor ++ "List") "elem"
      [.line (instanceName ++ "." ++ field.accessor ++ ".add(" ++ rule.read "elem" ++ ")")]
  | .entries field rule =>
    .forEach (proto ++ "." ++ field.accessor ++ "Map") "entry"
      [.line (instanceName ++ "." ++ field.accessor ++ ".put(entry.key, " ++
        rule.read "entry.value" ++ ")")]

def Rule.append (rule : Rule) (builder : String) (field : Accessors) : String :=
  match rule with
  | .scalar => builder ++ ".add" ++ field.capitalized ++ "(elem)"
  | .enumeration _ => builder ++ ".add" ++ field.capitalized ++ "(elem.toProto())"
  | .message _ _ => "elem.toProto(" ++ builder ++ ".add" ++ field.capitalized ++ "Builder())"
  | .union _ => "elem.toProto(" ++ builder ++ ")"

def Rule.put (rule : Rule) (builder : String) (field : Accessors) : List String :=
  match rule with
  | .scalar => [builder ++ ".put" ++ field.capitalized ++ "(key, value)"]
  | .enumeration _ => [builder ++ ".put" ++ field.capitalized ++ "(key, value.toProto())"]
  | .message _ wireClass =>
    ["val valueBuilder = " ++ wireClass ++ ".newBuilder()", "value.toProto(valueBuilder)",
      builder ++ ".put" ++ field.capitalized ++ "(key, valueBuilder.build())"]
  | .union _ => ["value.toProto(" ++ builder ++ ")"]

/-- Writes an optional property, or clears the field if there is none. -/
def Rule.writeOptional (rule : Rule) (self builder : String) (field : Accessors) : String :=
  let property := self ++ "." ++ field.accessor
  let clear := builder ++ ".clear" ++ field.capitalized ++ "()"
  match rule with
  | .message _ _ =>
    property ++ "?.toProto(" ++ builder ++ "." ++ field.accessor ++ "Builder) ?: " ++ clear
  | _ =>
    property ++ "?.let \x7b value -> " ++ rule.write "value" builder field ++ " \x7d ?: " ++ clear

def Encoding.stmt (e : Encoding) (self builder : String) : Stmt :=
  match e with
  | .single field rule => .line (rule.write (self ++ "." ++ field.accessor) builder field)
  | .optional field rule => .line (rule.writeOptional self builder field)
  | .elements field rule =>
    .forEach (self ++ "." ++ field.accessor) "elem" [.line (rule.append builder field)]
  | .entries field rule =>
    .forEach (self ++ "." ++ field.accessor) "(key, value)"
      ((rule.put builder field).map .line)

end WireModel
