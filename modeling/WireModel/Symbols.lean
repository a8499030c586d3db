import WireModel.Schema.Error
import WireModel.Schema.Traversal
import WireModel.Shape

namespace WireModel

/-- The named types of a schema, in the order in which they were declared. -/
structure Symbols where
  package : String
  entries : List (TypeName × Category)
deriving Repr

namespace Symbols

def category? (s : Symbols) (name : TypeName) : Option Category :=
  s.entries.lookup name

/-- Adds a type, whose name has to be new. -/
def declare (s : Symbols) (name : TypeName) (category : Category) : Except SchemaError Symbols :=
  match s.category? name with
  | some earlier => .error (.duplicateDefinition earlier name)
  | none => .ok { s with entries := s.entries ++ [(name, category)] }

/-- Every message, then every enumeration, with its sort. -/
def declarations (schema : Schema) : List (TypeName × Category) :=
  schema.messages.map (fun (name, _) => (name, .message)) ++
    schema.enumerations.map (fun (name, _) => (name, .enumeration))

def ofSchema (schema : Schema) : Except SchemaError Symbols :=
  (declarations schema).foldlM (fun s (name, category) => s.declare name category)
    ⟨schema.package, []⟩

/-- A name without the package and the dot after it, if it starts with them. -/
def withoutPackage? (s : Symbols) (name : List Char) : Option (List Char) :=
  if s.package = "" then none else Text.afterStart? (s.package.toList ++ ['.']) name

/-- The full name meant by a name that starts with a dot or with the package; other names depend on
where they stand. -/
def anchored? (s : Symbols) (name : String) : Option TypeName :=
  match name.toList with
  | '.' :: rest => some ⟨String.ofList ((s.withoutPackage? rest).getD rest)⟩
  | cs => (s.withoutPackage? cs).map fun rest => ⟨String.ofList rest⟩

/-- The full names that a name may mean within a scope, the innermost first. -/
def candidates (name : String) (scope : Option TypeName) : List TypeName :=
  (match scope with
    | none => []
    | some t => t.selfAndParents.map fun enclosing => enclosing.child name) ++ [⟨name⟩]

def find? (s : Symbols) (name : TypeName) : Option (TypeName × Category) :=
  (s.category? name).map fun category => (name, category)

def lookup? (s : Symbols) (name : String) (scope : Option TypeName) :
    Option (TypeName × Category) :=
  match s.anchored? name with
  | some full => s.find? full
  | none => (candidates name scope).findSome? s.find?

/-- The kind of value that a type name stands for within a scope; keywords come first. -/
def kindOf (s : Symbols) (name : String) (scope : Option TypeName) : Kind :=
  if name = "" then .missing
  else match Scalar.ofKeyword? name with
    | some scalar => .scalar scalar
    | none =>
      match s.lookup? name scope with
      | some (full, .message) => .message full
      | some (full, .enumeration) => .enumeration full
      | none => .unresolved name

def shapeOf (s : Symbols) (type : FieldType) (scope : Option TypeName) (field : String) :
    Except SchemaError Shape :=
  if type.optional ∧ type.repeated then
    .error (.conflictingModifiers field .optionalRepeated)
  else match type.expr with
    | .named name =>
      let kind := s.kindOf name scope
      if type.optional then .ok (.optional kind)
      else if type.repeated then .ok (.repeated kind)
      else .ok (.single kind)
    | .map key value =>
      if type.optional ∨ type.repeated then .error (.conflictingModifiers field .onMap)
      else match (Scalar.ofKeyword? key).filter Scalar.isMapKey with
        | some scalar => .ok (.map scalar (s.kindOf value scope))
        | none => .error (.invalidMapKey field key)

def rpcShape (s : Symbols) (name : String) (stream : Bool) (scope : Option TypeName) : Shape :=
  if stream then .stream (.single (s.kindOf name scope)) else .single (s.kindOf name scope)

/-- The shape of the property that holds a oneof. -/
def unionShape (message : TypeName) (oneOf : String) : Shape :=
  .single (.union (message.child oneOf))

end Symbols

end WireModel
