namespace WireModel

/-- The scalar types of the wire format. -/
inductive Scalar where
  | bool
  | int32
  | int64
  | sint32
  | sint64
  | uint32
  | uint64
  | fixed32
  | fixed64
  | sfixed32
  | sfixed64
  | float
  | double
  | string
  | bytes
deriving DecidableEq, Repr

namespace Scalar

def all : List Scalar :=
  [.bool, .int32, .int64, .sint32, .sint64, .uint32, .uint64, .fixed32, .fixed64, .sfixed32,
   .sfixed64, .float, .double, .string, .bytes]

def keyword : Scalar → String
  | bool => "bool"
  | int32 => "int32"
  | int64 => "int64"
  | sint32 => "sint32"
  | sint64 => "sint64"
  | uint32 => "uint32"
  | uint64 => "uint64"
  | fixed32 => "fixed32"
  | fixed64 => "fixed64"
  | sfixed32 => "sfixed32"
  | sfixed64 => "sfixed64"
  | float => "float"
  | double => "double"
  | string => "string"
  | bytes => "bytes"

def ofKeyword? (s : String) : Option Scalar :=
  all.find? fun k => k.keyword == s

/-- Whether values are 32-bit integers of variable length on the wire. -/
def isInt : Scalar → Bool
  | int32 | sint32 | uint32 => true
  | _ => false

/-- Whether values are 64-bit integers of variable length on the wire. -/
def isLong : Scalar → Bool
  | int64 | sint64 | uint64 => true
  | _ => false

def isFloat : Scalar → Bool
  | float => true
  | _ => false

def isDouble : Scalar → Bool
  | double => true
  | _ => false

def isMapKey : Scalar → Bool
  | float | double | bytes => false
  | _ => true

end Scalar

end WireModel
