import WireModel.Json.Numeral

namespace WireModel.Json

/-- What a string literal denotes: nothing if an escape in it is half of a surrogate pair. -/
abbrev Text := Option String

/-- A JSON value; the members of an object keep their order and may repeat a key. -/
inductive Value where
  | null
  | bool (b : Bool)
  | number (n : Numeral)
  | string (t : Text)
  | array (items : List Value)
  | object (members : List (Text × Value))
deriving Repr, BEq, Inhabited

namespace Value

def text (s : String) : Value :=
  .string (some s)

def nat (n : Nat) : Value :=
  .number (.ofNat n)

/-- An object whose keys are text. -/
def record (members : List (String × Value)) : Value :=
  .object (members.map fun (key, value) => (some key, value))

def variant (tag : String) (payload : Value) : Value :=
  .record [(tag, payload)]

/-- The values of an object under the given keys, or of an array by position. Other keys are passed
over; none of the given ones may repeat, every key has to be text, and an array must not be longer
than the keys. -/
def fields? (keys : List String) : Value → Option (List (Option Value))
  | .object members =>
    if members.all (fun m => m.1.isSome) ∧
        keys.all (fun key => (members.filter fun m => m.1 == some key).length ≤ 1) then
      some (keys.map fun key => members.lookup (some key))
    else none
  | .array items =>
    if items.length ≤ keys.length then some (keys.mapIdx fun i _ => items[i]?) else none
  | _ => none

/-- The key and value of an object with a single member. -/
def variant? : Value → Option (String × Value)
  | .object [(some tag, payload)] => some (tag, payload)
  | _ => none

def text? : Value → Option String
  | .string t => t
  | _ => none

def bool? : Value → Option Bool
  | .bool b => some b
  | _ => none

/-- The natural number of at most 32 bits, written as an integer. -/
def word? : Value → Option UInt32
  | .number n => n.natural?.bind fun k => if k < UInt32.size then some (.ofNat k) else none
  | _ => none

mutual

/-- Whether a value nests at most `room` containers and holds only text and numbers within the range
of double precision. -/
def isReadable (room : Nat) : Value → Bool
  | .null => true
  | .bool _ => true
  | .number n => n.isFinite
  | .string t => t.isSome
  | .array items => room ≠ 0 && areReadable (room - 1) items
  | .object members => room ≠ 0 && areMembersReadable (room - 1) members

def areReadable (room : Nat) : List Value → Bool
  | [] => true
  | v :: vs => v.isReadable room && areReadable room vs

/-- `isReadable` for every member, whose keys have to be text. -/
def areMembersReadable (room : Nat) : List (Text × Value) → Bool
  | [] => true
  | (key, v) :: ms => key.isSome && v.isReadable room && areMembersReadable room ms

end

end Value

end WireModel.Json
