import WireModel.Representation

namespace WireModel

/-- The names under which the two sides know a field. -/
structure Accessors where
  accessor : String
  capitalized : String
deriving DecidableEq, Repr

def Accessors.ofName (naming : Naming) (name : String) : Accessors :=
  ⟨naming.accessor name, naming.capitalized name⟩

/-- How one value is converted between the wire and the object model. -/
inductive Rule where
  | scalar
  | enumeration (enumClass : String)
  | message (messageClass wireClass : String)
  | union (unionClass : String)
deriving DecidableEq, Repr

/-- How a property gets its first value from the wire. -/
inductive Decoding where
  | single (field : Accessors) (rule : Rule)
  | optional (field : Accessors) (rule : Rule)
  /-- A container that is filled afterwards. -/
  | literal (expr : String)
deriving DecidableEq, Repr

inductive Filling where
  | elements (field : Accessors) (rule : Rule)
  | entries (field : Accessors) (rule : Rule)
deriving DecidableEq, Repr

inductive Encoding where
  | single (field : Accessors) (rule : Rule)
  | optional (field : Accessors) (rule : Rule)
  | elements (field : Accessors) (rule : Rule)
  | entries (field : Accessors) (rule : Rule)
deriving DecidableEq, Repr

def Encoding.clearsWhenAbsent : Encoding → Bool
  | .optional _ _ => true
  | _ => false

structure Conversion where
  decoding : Decoding
  filling : Option Filling
  encoding : Encoding
deriving DecidableEq, Repr

def Rule.ofKind (t : Target) (field : String) (kind : Kind) : Except GenerationError Rule :=
  match kind with
  | .scalar s =>
    match s.native? with
    | some _ => .ok .scalar
    | none => .error (.unsupported field kind)
  | .enumeration name => .ok (.enumeration (t.naming.enumSymbol name))
  | .message name => .ok (.message (t.naming.classSymbol name) (t.wireClass name))
  | .union name => .ok (.union (t.naming.classSymbol name))
  | .unresolved _ => .error (.unsupported field kind)
  | .missing => .error (.unsupported field kind)

/-- The rule for elements of a container; unions have no place there. -/
def Rule.ofElement (t : Target) (field : String) (kind : Kind) : Except GenerationError Rule :=
  match kind with
  | .union _ => .error (.misplaced field (.single kind))
  | _ => Rule.ofKind t field kind

/-- A field as far as its description depends on it; a property for a oneof has no number. -/
structure FieldSpec where
  name : String
  shape : Shape
  tag : Option Tag := none
deriving DecidableEq, Repr

namespace Conversion

/-- How a field is converted that is held in the given way; a hint gives the size of a container. -/
def ofField (t : Target) (field : FieldSpec) (r : Representation) (hint : Option String) :
    Except GenerationError Conversion :=
  let names := Accessors.ofName t.naming field.name
  match field.shape with
  | .single kind => do
    let rule ← Rule.ofKind t field.name kind
    return ⟨.single names rule, none, .single names rule⟩
  | .optional kind => do
    let rule ← Rule.ofKind t field.name kind
    return ⟨.optional names rule, none, .optional names rule⟩
  | .repeated kind => do
    let rule ← Rule.ofElement t field.name kind
    return ⟨.literal (r.construct hint), some (.elements names rule), .elements names rule⟩
  | .map key kind => do
    let _ ← key.keyType field.name
    let rule ← Rule.ofElement t field.name kind
    return ⟨.literal (r.construct hint), some (.entries names rule), .entries names rule⟩
  | .stream _ => .error (.misplaced field.name field.shape)

end Conversion

/-- Everything about a field that does not come from the schema alone. -/
structure FieldDescription where
  selection : Selection
  conversion : Conversion
deriving DecidableEq, Repr

def FieldSpec.describe (t : Target) (field : FieldSpec) (hint : Option String) :
    Except GenerationError FieldDescription := do
  let selection ← Selection.ofShape t field.name field.shape
  let conversion ← Conversion.ofField t field selection.representation hint
  return ⟨selection, conversion⟩

end WireModel
