import WireModel.Schema.Basic
import WireModel.TypeName

namespace WireModel

namespace Member

mutual

/-- The message that a member declares and those nested in it, each before what it contains. -/
def messages (scope : TypeName) : Member → List (TypeName × Message)
  | .message name members =>
    (scope.child name, ⟨name, members⟩) :: messagesOf (scope.child name) members
  | _ => []

def messagesOf (scope : TypeName) : List Member → List (TypeName × Message)
  | [] => []
  | m :: ms => m.messages scope ++ messagesOf scope ms

end

def ownEnumerations (scope : TypeName) (members : List Member) : List (TypeName × Enumeration) :=
  members.filterMap fun
    | .enumeration e => some (scope.child e.name, e)
    | _ => none

mutual

/-- The enumerations of the message that a member declares: its own, then those nested deeper. -/
def enumerations (scope : TypeName) : Member → List (TypeName × Enumeration)
  | .message name members =>
    ownEnumerations (scope.child name) members ++ nestedEnumerations (scope.child name) members
  | _ => []

/-- The enumerations of the messages declared by a list of members. -/
def nestedEnumerations (scope : TypeName) : List Member → List (TypeName × Enumeration)
  | [] => []
  | m :: ms => m.enumerations scope ++ nestedEnumerations scope ms

end

end Member

namespace Definition

/-- The messages of a definition under their full names, each before what it contains. -/
def messages : Definition → List (TypeName × Message)
  | .message m => (⟨m.name⟩, m) :: Member.messagesOf ⟨m.name⟩ m.members
  | _ => []

/-- The enumerations of a definition under their full names; those of a message come before those of
the messages nested in it. -/
def enumerations : Definition → List (TypeName × Enumeration)
  | .message m =>
    Member.ownEnumerations ⟨m.name⟩ m.members ++ Member.nestedEnumerations ⟨m.name⟩ m.members
  | .enumeration e => [(⟨e.name⟩, e)]
  | .service _ => []

end Definition

/-- A oneof together with the message that it stands in. -/
structure ScopedOneOf where
  message : TypeName
  oneOf : OneOf
deriving DecidableEq, Repr

def ScopedOneOf.name (o : ScopedOneOf) : TypeName :=
  o.message.child o.oneOf.name

namespace Schema

/-- All messages under their full names, each before what it contains. -/
def messages (s : Schema) : List (TypeName × Message) :=
  s.definitions.flatMap Definition.messages

def enumerations (s : Schema) : List (TypeName × Enumeration) :=
  s.definitions.flatMap Definition.enumerations

/-- All oneofs, in the order of their messages. -/
def oneOfs (s : Schema) : List ScopedOneOf :=
  s.messages.flatMap fun (name, m) => m.oneOfs.map fun o => ⟨name, o⟩

end Schema

end WireModel
