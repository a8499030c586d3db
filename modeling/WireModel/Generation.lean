import WireModel.ObjectModel.SourceFile
import WireModel.Path
import WireModel.Symbols
import WireModel.Validation
import WireModel.WireSchema

namespace WireModel

/-- What a property of a message class is made from. -/
inductive Property where
  | field (f : Field)
  | oneOf (o : OneOf)
deriving DecidableEq, Repr

/-- The fields and oneofs of a message in the order of declaration. -/
def Message.properties (m : Message) : List Property :=
  m.members.filterMap fun
    | .field f => some (.field f)
    | .oneOf o => some (.oneOf o)
    | _ => none

/-- A schema whose names are resolved, with the settings of the run. -/
structure Generator where
  schema : Schema
  settings : Settings
  symbols : Symbols

/-- A file to write, with its path in the output directory. -/
structure GeneratedFile where
  path : Path
  contents : String
deriving DecidableEq, Repr

structure GeneratedFiles where
  wire : GeneratedFile
  model : GeneratedFile
deriving DecidableEq, Repr

namespace Generator

/-- Names are checked always, field numbers and constants only if the settings ask for it. -/
def ofSchema (schema : Schema) (settings : Settings) : Except GenerationError Generator := do
  let symbols ← (Symbols.ofSchema schema).mapError .schema
  if settings.validateTags then
    schema.validate.mapError .schema
  return ⟨schema, settings, symbols⟩

def wirePackage (g : Generator) : String :=
  g.settings.wirePackage.getD g.schema.package

def javaPackage (g : Generator) : String :=
  g.settings.javaPackage.getD g.wirePackage

def target (g : Generator) : Target :=
  g.settings.target

/-- The expression for the initial size of a container. -/
def sizeHint (g : Generator) (message : TypeName) (spec : FieldSpec) : Option String :=
  if !spec.shape.isCollection then none
  else match g.settings.sizeHints.get? message.text spec.name with
    | some hint => some hint
    | none =>
      if g.settings.countHints then
        some ("proto." ++ g.settings.naming.accessor spec.name ++ "Count")
      else none

def specOf (g : Generator) (message : TypeName) : Property → Except GenerationError FieldSpec
  | .field f => do
    let shape ← (g.symbols.shapeOf f.type (some message) f.name).mapError .schema
    return ⟨f.name, shape, some f.tag⟩
  | .oneOf o => .ok ⟨o.name, Symbols.unionShape message o.name, none⟩

def describeProperty (g : Generator) (message : TypeName) (p : Property) :
    Except GenerationError FieldModel := do
  let spec ← g.specOf message p
  let description ← spec.describe g.target (g.sizeHint message spec)
  return ⟨spec, .ofName g.settings.naming spec.name, description⟩

def describeScoped (g : Generator) (name : TypeName) (m : Message) :
    Except GenerationError MessageModel := do
  let fields ← m.properties.mapM (g.describeProperty name)
  return ⟨name, g.settings.naming.classSymbol name, g.target.wireClass name, fields⟩

def describeMessage (g : Generator) (name : TypeName) : Except GenerationError MessageModel :=
  match g.schema.messages.find? fun m => m.1 == name with
  | some (name, m) => g.describeScoped name m
  | none => .error (.unknownMessage name)

/-- An alternative of a oneof, which has to be a single value. -/
def describeAlternative (g : Generator) (message : TypeName) (f : Field) :
    Except GenerationError AlternativeModel := do
  let shape ← (g.symbols.shapeOf f.type (some message) f.name).mapError .schema
  match shape with
  | .single kind =>
    let rule ← Rule.ofKind g.target f.name kind
    let selection ← Selection.ofShape g.target f.name shape
    return ⟨f.name, g.settings.naming.capitalized f.name, g.settings.naming.caseConstant f.name,
      .ofName g.settings.naming f.name, selection.representation.nativeType, rule⟩
  | _ => .error (.misplaced f.name shape)

def describeUnion (g : Generator) (o : ScopedOneOf) : Except GenerationError UnionModel := do
  let alternatives ← o.oneOf.fields.mapM (g.describeAlternative o.message)
  return ⟨o.name, g.settings.naming.classSymbol o.name, g.target.wireClass o.message,
    .ofName g.settings.naming o.oneOf.name, alternatives⟩

/-- The class for an enumeration, which has to have a constant. -/
def describeEnum (g : Generator) (name : TypeName) (e : Enumeration) :
    Except GenerationError EnumModel :=
  match e.zeroValue? with
  | none => .error (.schema (.emptyEnumeration name))
  | some zero =>
    .ok ⟨name, g.settings.naming.enumSymbol name, g.target.wireClass name,
      e.values.map EnumValue.name, zero.name⟩

/-- All procedures, labelled with the names of service and procedure. -/
def rpcs (g : Generator) : List (String × Rpc) :=
  g.schema.services.flatMap fun s => s.rpcs.map fun r => (s.name ++ "." ++ r.name, r)

/-- The message that one side of a procedure carries. -/
def rpcPayload (label : String) (shape : Shape) : Except GenerationError TypeName :=
  match shape with
  | .single _ | .stream _ =>
    match shape.element with
    | .message name => .ok name
    | kind =>
      if kind.isSentinel then .error (.unsupported label kind)
      else .error (.rpcWithoutMessage label kind)
  | _ => .error (.misplaced label shape)

def checkRpc (g : Generator) (label : String) (r : Rpc) : Except GenerationError Unit := do
  let _ ← rpcPayload label (g.symbols.rpcShape r.inType r.inStream none)
  let _ ← rpcPayload label (g.symbols.rpcShape r.outType r.outStream none)

def checkServices (g : Generator) : Except GenerationError Unit :=
  g.rpcs.forM fun (label, r) => g.checkRpc label r

def enums (g : Generator) : Except GenerationError (List EnumModel) :=
  g.schema.enumerations.mapM fun (name, e) => g.describeEnum name e

def unions (g : Generator) : Except GenerationError (List UnionModel) :=
  g.schema.oneOfs.mapM g.describeUnion

def messages (g : Generator) : Except GenerationError (List MessageModel) :=
  g.schema.messages.mapM fun (name, m) => g.describeScoped name m

/-- All classes, once the procedures are checked. -/
def model (g : Generator) : Except GenerationError ObjectModel := do
  g.checkServices
  let enums ← g.enums
  let unions ← g.unions
  let messages ← g.messages
  return ⟨enums, unions, messages⟩

/-- The imports beyond those of the properties: the chosen ones and that of the wire classes. -/
def moreImports (g : Generator) : List String :=
  g.settings.imports ++
    (if g.javaPackage = "" ∨ g.settings.outerClass = "" then []
      else [g.javaPackage ++ "." ++ g.settings.outerClass])

def wireFile (g : Generator) : GeneratedFile :=
  ⟨⟨g.settings.wireFile⟩,
    WireSchema.render g.schema g.wirePackage g.settings.javaPackage g.settings.outerClass⟩

def modelFile (g : Generator) (model : ObjectModel) : GeneratedFile :=
  ⟨(Path.ofPackage g.settings.modelPackage).join ⟨g.settings.modelFile⟩,
    model.render g.settings.modelPackage g.moreImports⟩

/-- Both files; nothing is written unless everything can be described. -/
def generate (g : Generator) : Except GenerationError GeneratedFiles := do
  let model ← g.model
  return ⟨g.wireFile, g.modelFile model⟩

end Generator

def Schema.generate (schema : Schema) (settings : Settings) :
    Except GenerationError GeneratedFiles := do
  let g ← Generator.ofSchema schema settings
  g.generate

end WireModel
