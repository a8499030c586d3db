import WireModel.Layout
import WireModel.Schema.Basic

namespace WireModel

namespace WireSchema

/-- A declared type; a field with both modifiers counts as repeated. -/
def typeText (t : FieldType) : String :=
  let base := match t.expr with
    | .named name => name
    | .map key value => "map<" ++ key ++ ", " ++ value ++ ">"
  if t.repeated then "repeated " ++ base
  else if t.optional then "optional " ++ base
  else base

def optionLine (o : OptionSetting) : String :=
  "option " ++ o.name ++ " = " ++ o.value ++ ";"

/-- The settings in brackets that follow a number. -/
def optionSuffix : List OptionSetting → String
  | [] => ""
  | options =>
    " [" ++ Text.joinWith ", " (options.map fun o => o.name ++ " = " ++ o.value) ++ "]"

def fieldLine (f : Field) : String :=
  typeText f.type ++ " " ++ f.name ++ " = " ++ f.tag.toNat.repr ++ optionSuffix f.options ++ ";"

def valueLine (v : EnumValue) : String :=
  v.name ++ " = " ++ v.number.repr ++ optionSuffix v.options ++ ";"

def oneOfBlock (o : OneOf) : Stmt :=
  .braces ("oneof " ++ o.name) (o.members.map fun
    | .field f => .line (fieldLine f)
    | .option s => .line (optionLine s))

def enumBlock (e : Enumeration) : Stmt :=
  .braces ("enum " ++ e.name) (e.members.map fun
    | .option o => .line (optionLine o)
    | .value v => .line (valueLine v))

/-- The reserved numbers of a statement, as written. -/
def reservedNumbers (items : List ReservedItem) : List String :=
  items.filterMap fun
    | .tag n => some n.toNat.repr
    | .range first last => some (first.toNat.repr ++ " to " ++ last.toNat.repr)
    | .name _ => none

/-- The reserved names of a statement, in quotes. -/
def reservedNames (items : List ReservedItem) : List String :=
  items.filterMap fun
    | .name s => some ("\"" ++ s ++ "\"")
    | _ => none

/-- A reserved statement, none for an empty group. -/
def reservedLine : List String → List Stmt
  | [] => []
  | group => [.line ("reserved " ++ Text.joinWith ", " group ++ ";")]

/-- Reserved items: numbers and names cannot share a statement. -/
def reservedLines (items : List ReservedItem) : List Stmt :=
  reservedLine (reservedNumbers items) ++ reservedLine (reservedNames items)

mutual

def memberStmts : Member → List Stmt
  | .field f => [.line (fieldLine f)]
  | .oneOf o => [oneOfBlock o]
  | .enumeration e => [enumBlock e]
  | .message name members => [.braces ("message " ++ name) (membersStmts members)]
  | .option o => [.line (optionLine o)]
  | .reserved items => reservedLines items

def membersStmts : List Member → List Stmt
  | [] => []
  | m :: ms => memberStmts m ++ membersStmts ms

end

def messageBlock (m : Message) : Stmt :=
  .braces ("message " ++ m.name) (membersStmts m.members)

def rpcSide (stream : Bool) (type : String) : String :=
  if stream then "stream " ++ type else type

/-- A procedure without its settings. -/
def rpcSignature (r : Rpc) : String :=
  "rpc " ++ r.name ++ "(" ++ rpcSide r.inStream r.inType ++ ") returns (" ++
    rpcSide r.outStream r.outType ++ ")"

/-- A procedure, as a block if it has settings. -/
def rpcStmt (r : Rpc) : Stmt :=
  match r.options with
  | [] => .line (rpcSignature r ++ ";")
  | options => .braces (rpcSignature r) (options.map fun o => .line (optionLine o))

def serviceBlock (s : Service) : Stmt :=
  .braces ("service " ++ s.name) (s.members.map fun
    | .option o => .line (optionLine o)
    | .rpc r => rpcStmt r)

def definitionBlock : Definition → Stmt
  | .message m => messageBlock m
  | .enumeration e => enumBlock e
  | .service s => serviceBlock s

def fileOptions (javaPackage : Option String) (outerClass : String) : List String :=
  (match javaPackage with
    | some package => ["option java_package = \"" ++ package ++ "\";"]
    | none => []) ++
  (if outerClass = "" then [] else ["option java_outer_classname = \"" ++ outerClass ++ "\";"])

/-- What stands before the definitions. -/
def header (package : String) (javaPackage : Option String) (outerClass : String) : List String :=
  paragraph [generatedNotice] ++ paragraph ["syntax = \"proto3\";"] ++
    paragraph (if package = "" then [] else ["package " ++ package ++ ";"]) ++
    paragraph (fileOptions javaPackage outerClass)

def body (definitions : List Definition) : List Stmt :=
  Stmt.spaced (definitions.map fun d => [definitionBlock d])

/-- The wire schema file of a schema. -/
def render (schema : Schema) (package : String) (javaPackage : Option String)
    (outerClass : String) : String :=
  Text.unlines (header package javaPackage outerClass) ++ Stmt.render (body schema.definitions)

end WireSchema

end WireModel
