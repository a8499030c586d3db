import WireModel.Scalar
import WireModel.TypeName

namespace WireModel

/-- What one value of a field is. -/
inductive Kind where
  | scalar (s : Scalar)
  | enumeration (name : TypeName)
  | message (name : TypeName)
  | union (name : TypeName)
  /-- A name that no definition has. -/
  | unresolved (name : String)
  /-- No type was given. -/
  | missing
deriving DecidableEq, Repr

namespace Kind

def describe : Kind → String
  | .scalar s => s.keyword
  | .enumeration name => name.text
  | .message name => name.text
  | .union name => name.text
  | .unresolved name => "unresolved '" ++ name ++ "'"
  | .missing => "<empty>"

/-- Whether the kind stands for the lack of a type. -/
def isSentinel : Kind → Bool
  | .unresolved _ => true
  | .missing => true
  | _ => false

def scalar? : Kind → Option Scalar
  | .scalar s => some s
  | _ => none

def isInt (k : Kind) : Bool :=
  k.scalar?.any Scalar.isInt

def isLong (k : Kind) : Bool :=
  k.scalar?.any Scalar.isLong

def isFloat (k : Kind) : Bool :=
  k.scalar?.any Scalar.isFloat

end Kind

/-- How many values a field holds, and of what kind. -/
inductive Shape where
  | single (k : Kind)
  | optional (k : Kind)
  | repeated (k : Kind)
  | map (key : Scalar) (value : Kind)
  | stream (inner : Shape)
deriving DecidableEq, Repr

namespace Shape

def describe : Shape → String
  | .single k => k.describe
  | .optional k => "optional " ++ k.describe
  | .repeated k => "repeated " ++ k.describe
  | .map key value => "map<" ++ key.keyword ++ ", " ++ value.describe ++ ">"
  | .stream inner => "stream " ++ inner.describe

/-- The kind of one value; of a map, that of its values. -/
def element : Shape → Kind
  | .single k => k
  | .optional k => k
  | .repeated k => k
  | .map _ value => value
  | .stream inner => inner.element

def isCollection : Shape → Bool
  | .repeated _ => true
  | .map _ _ => true
  | _ => false

end Shape

end WireModel
