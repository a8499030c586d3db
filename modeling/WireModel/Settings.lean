import WireModel.Naming

namespace WireModel

/-- Expressions for the initial capacity of containers, by message and field. -/
structure SizeHints where
  entries : List ((String × String) × String) := []
deriving Repr

namespace SizeHints

/-- Sets the hint of a field, in place of any earlier one. -/
def insert (h : SizeHints) (message field expr : String) : SizeHints :=
  ⟨((message, field), expr) :: h.entries.filter fun e => e.1 ≠ (message, field)⟩

def get? (h : SizeHints) (message field : String) : Option String :=
  h.entries.lookup (message, field)

/-- The hints in the order of messages and, within one, of fields. -/
def toList (h : SizeHints) : List (String × String × String) :=
  (h.entries.map fun e => (e.1.1, e.1.2, e.2)).mergeSort fun a b =>
    a.1 < b.1 || (a.1 == b.1 && a.2.1 ≤ b.2.1)

end SizeHints

/-- What can be chosen about a generation run. -/
structure Settings where
  /-- Use containers that hold numbers unboxed. -/
  compact : Bool := false
  /-- The package of the object model. -/
  modelPackage : String := ""
  /-- The package of the wire schema, if not that of the schema. -/
  wirePackage : Option String := none
  /-- The package of the wire classes, if not that of the wire schema. -/
  javaPackage : Option String := none
  /-- The class that holds the wire classes, empty for none. -/
  outerClass : String := "SchemaProto"
  wireFile : String := "schema.proto"
  modelFile : String := "Schema.kt"
  /-- Imports to add to the object model. -/
  imports : List String := []
  /-- Check field numbers and constants first. -/
  validateTags : Bool := false
  /-- Size containers by the number of elements on the wire. -/
  countHints : Bool := true
  sizeHints : SizeHints := {}
  naming : Naming := .camelCase

/-- What the spelling of a field depends on. -/
structure Target where
  naming : Naming
  compact : Bool
  outerClass : String

def Target.wireClass (t : Target) (name : TypeName) : String :=
  if t.outerClass = "" then name.text else t.outerClass ++ "." ++ name.text

def Settings.target (s : Settings) : Target :=
  ⟨s.naming, s.compact, s.outerClass⟩

end WireModel
