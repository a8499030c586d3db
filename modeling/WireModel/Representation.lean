import WireModel.GenerationError
import WireModel.Settings

namespace WireModel

/-- The functions that make an empty container, and one with room for a number of elements. -/
structure Constructor where
  empty : String
  sized : String
deriving DecidableEq, Repr

/-- The call that makes a container, sized if there is a hint. -/
def Constructor.call (c : Constructor) : Option String → String
  | some hint => c.sized ++ "(" ++ hint ++ ")"
  | none => c.empty ++ "()"

def Constructor.uniform (callee : String) : Constructor :=
  ⟨callee, callee⟩

/-- How a field is held in the object model. -/
structure Representation where
  nativeType : String
  /-- Whether the property is replaced on change, not changed in place. -/
  isValue : Bool
  defaultExpr : String
  constructor : Option Constructor := none
deriving DecidableEq, Repr

namespace Representation

def construct (r : Representation) (hint : Option String) : String :=
  match r.constructor with
  | some c => c.call hint
  | none => r.defaultExpr

def keyword (r : Representation) : String :=
  if r.isValue then "var" else "val"

/-- A property that is replaced on change. -/
def value (nativeType defaultExpr : String) : Representation :=
  ⟨nativeType, true, defaultExpr, none⟩

/-- A container that is changed in place. -/
def container (nativeType : String) (constructor : Constructor) : Representation :=
  ⟨nativeType, false, constructor.call none, some constructor⟩

end Representation

/-- A representation together with the imports that it needs. -/
structure Selection where
  representation : Representation
  imports : List String := []
deriving DecidableEq, Repr

/-- The native type of a scalar and its default, for the scalars that have one. -/
def Scalar.native? : Scalar → Option (String × String)
  | .bool => some ("Boolean", "false")
  | .int32 | .sint32 => some ("Int", "0")
  | .int64 | .sint64 => some ("Long", "0L")
  | .float => some ("Float", "0f")
  | .double => some ("Double", "0.0")
  | .string => some ("String", "\"\"")
  | _ => none

namespace Representation

def ofKind (t : Target) (field : String) (kind : Kind) : Except GenerationError Representation :=
  match kind with
  | .scalar s =>
    match s.native? with
    | some (type, default) => .ok (value type default)
    | none => .error (.unsupported field kind)
  | .enumeration name =>
    let type := t.naming.enumSymbol name
    .ok (value type (type ++ ".defaultValue"))
  | .message name =>
    let type := t.naming.classSymbol name
    .ok ⟨type, false, type ++ ".create()", none⟩
  | .union name =>
    let type := t.naming.classSymbol name
    .ok (value type (type ++ ".Unset"))
  | .unresolved _ => .error (.unsupported field kind)
  | .missing => .error (.unsupported field kind)

/-- How an element of a container is held; unions have no place there. -/
def ofElement (t : Target) (field : String) (kind : Kind) :
    Except GenerationError Representation :=
  match kind with
  | .union _ => .error (.misplaced field (.single kind))
  | _ => ofKind t field kind

end Representation

def Scalar.keyType (field : String) (key : Scalar) : Except GenerationError String :=
  match key.native? with
  | some (type, _) => .ok type
  | none => .error (.unsupported field (.scalar key))

namespace Selection

/-- The unboxed list for elements of a kind, with its type. -/
def compactList (kind : Kind) (element : String) : String × String :=
  if kind.isInt then ("GdxIntArray", "GdxIntArray")
  else if kind.isLong then ("GdxLongArray", "GdxLongArray")
  else if kind.isFloat then ("GdxFloatArray", "GdxFloatArray")
  else ("GdxArray", "GdxArray<" ++ element ++ ">")

/-- The unboxed map for keys and values of a kind, with its type. -/
def compactMap (key : Scalar) (kind : Kind) (keyType valueType : String) : String × String :=
  if key.isInt then
    if kind.isInt then ("IntIntMap", "IntIntMap")
    else if kind.isFloat then ("IntFloatMap", "IntFloatMap")
    else ("IntMap", "IntMap<" ++ valueType ++ ">")
  else if key.isLong then ("LongMap", "LongMap<" ++ valueType ++ ">")
  else if kind.isInt then ("ObjectIntMap", "ObjectIntMap<" ++ keyType ++ ">")
  else if kind.isLong then ("ObjectLongMap", "ObjectLongMap<" ++ keyType ++ ">")
  else if kind.isFloat then ("ObjectFloatMap", "ObjectFloatMap<" ++ keyType ++ ">")
  else ("ObjectMap", "ObjectMap<" ++ keyType ++ ", " ++ valueType ++ ">")

def list (t : Target) (kind : Kind) (element : String) : Selection :=
  if t.compact then
    let (name, type) := compactList kind element
    ⟨.container type (.uniform name), ["ktx.collections." ++ name]⟩
  else
    ⟨.container ("MutableList<" ++ element ++ ">") ⟨"mutableListOf", "ArrayList"⟩, []⟩

def map (t : Target) (key : Scalar) (kind : Kind) (keyType valueType : String) : Selection :=
  if t.compact then
    let (name, type) := compactMap key kind keyType valueType
    ⟨.container type (.uniform name),
      ["com.badlogic.gdx.utils." ++ name, "ktx.collections.component1",
        "ktx.collections.component2"]⟩
  else
    ⟨.container ("MutableMap<" ++ keyType ++ ", " ++ valueType ++ ">")
      ⟨"mutableMapOf", "LinkedHashMap"⟩, []⟩

def ofShape (t : Target) (field : String) (shape : Shape) : Except GenerationError Selection :=
  match shape with
  | .single kind => do
    return ⟨← Representation.ofKind t field kind, []⟩
  | .optional kind => do
    let inner ← Representation.ofKind t field kind
    return ⟨.value (inner.nativeType ++ "?") "null", []⟩
  | .repeated kind => do
    let element ← Representation.ofElement t field kind
    return list t kind element.nativeType
  | .map key kind => do
    let keyType ← key.keyType field
    let element ← Representation.ofElement t field kind
    return map t key kind keyType element.nativeType
  | .stream _ => .error (.misplaced field shape)

end Selection

end WireModel
