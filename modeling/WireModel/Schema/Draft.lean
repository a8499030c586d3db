import WireModel.Schema.Basic

namespace WireModel

inductive OpenDefinition where
  | message (m : Message)
  | oneOf (o : OneOf)
  | enumeration (e : Enumeration)
  | service (s : Service)
deriving Repr

/-- A schema that is being written: what is finished, and the open definitions, innermost first. -/
structure Draft where
  schema : Schema
  stack : List OpenDefinition := []
deriving Repr

def Message.add (m : Message) (member : Member) : Message :=
  { m with members := m.members ++ [member] }

def Schema.add (s : Schema) (d : Definition) : Schema :=
  { s with definitions := s.definitions ++ [d] }

namespace Draft

def begin (d : Draft) (definition : OpenDefinition) : Draft :=
  { d with stack := definition :: d.stack }

/-- What a finished definition becomes within a message. -/
def asMember : OpenDefinition → Option Member
  | .message m => some (.message m.name m.members)
  | .oneOf o => some (.oneOf o)
  | .enumeration e => some (.enumeration e)
  | .service _ => none

/-- What a finished definition becomes at the top level. -/
def asDefinition : OpenDefinition → Option Definition
  | .message m => some (.message m)
  | .oneOf _ => none
  | .enumeration e => some (.enumeration e)
  | .service s => some (.service s)

/-- Closes the innermost definition and adds it to what encloses it, where it may stand there. -/
def finish? (d : Draft) : Option Draft :=
  match d.stack with
  | [] => none
  | [done] => (asDefinition done).map fun definition => ⟨d.schema.add definition, []⟩
  | done :: .message m :: rest =>
    (asMember done).map fun member => { d with stack := .message (m.add member) :: rest }
  | _ => none

def change? (d : Draft) (f : OpenDefinition → Option OpenDefinition) : Option Draft :=
  match d.stack with
  | [] => none
  | top :: rest => (f top).map fun top => { d with stack := top :: rest }

/-- Adds a field to a message or oneof. -/
def addField? (d : Draft) (field : Field) : Option Draft :=
  d.change? fun
    | .message m => some (.message (m.add (.field field)))
    | .oneOf o => some (.oneOf { o with members := o.members ++ [.field field] })
    | _ => none

def addValue? (d : Draft) (value : EnumValue) : Option Draft :=
  d.change? fun
    | .enumeration e => some (.enumeration { e with members := e.members ++ [.value value] })
    | _ => none

def addRpc? (d : Draft) (rpc : Rpc) : Option Draft :=
  d.change? fun
    | .service s => some (.service { s with members := s.members ++ [.rpc rpc] })
    | _ => none

def addReserved? (d : Draft) (items : List ReservedItem) : Option Draft :=
  d.change? fun
    | .message m => some (.message (m.add (.reserved items)))
    | _ => none

/-- Adds a setting to any definition. -/
def addOption? (d : Draft) (option : OptionSetting) : Option Draft :=
  d.change? fun
    | .message m => some (.message (m.add (.option option)))
    | .oneOf o => some (.oneOf { o with members := o.members ++ [.option option] })
    | .enumeration e => some (.enumeration { e with members := e.members ++ [.option option] })
    | .service s => some (.service { s with members := s.members ++ [.option option] })

end Draft

end WireModel
