import WireModel.Json.Token

namespace WireModel.Json

/-- A container that is still open: the parts before the one being read, back to front. -/
inductive Frame where
  | array (done : List Value)
  | object (done : List (Text × Value)) (key : Text)
deriving Repr

/-- What has been read so far, by what may come next. -/
inductive Progress where
  /-- A value has to come. -/
  | expectValue (stack : List Frame)
  /-- An array has just been opened. -/
  | openedArray (stack : List Frame)
  /-- An object has just been opened. -/
  | openedObject (stack : List Frame)
  /-- A key has to come. -/
  | expectKey (done : List (Text × Value)) (stack : List Frame)
  /-- A colon has to come. -/
  | expectColon (done : List (Text × Value)) (key : Text) (stack : List Frame)
  /-- A value is complete. -/
  | complete (v : Value) (stack : List Frame)
deriving Repr

namespace Progress

/-- The first token of a value. -/
def start (stack : List Frame) : Token → Option Progress
  | .null => some (.complete .null stack)
  | .bool b => some (.complete (.bool b) stack)
  | .number n => some (.complete (.number n) stack)
  | .string t => some (.complete (.string t) stack)
  | .openArray => some (.openedArray stack)
  | .openObject => some (.openedObject stack)
  | _ => none

def step : Progress → Token → Option Progress
  | .expectValue stack, t => start stack t
  | .openedArray stack, .closeArray => some (.complete (.array []) stack)
  | .openedArray stack, t => start (.array [] :: stack) t
  | .openedObject stack, .closeObject => some (.complete (.object []) stack)
  | .openedObject stack, .string key => some (.expectColon [] key stack)
  | .expectKey done stack, .string key => some (.expectColon done key stack)
  | .expectColon done key stack, .colon => some (.expectValue (.object done key :: stack))
  | .complete v (.array vs :: stack), .comma => some (.expectValue (.array (v :: vs) :: stack))
  | .complete v (.array vs :: stack), .closeArray =>
    some (.complete (.array (v :: vs).reverse) stack)
  | .complete v (.object ms key :: stack), .comma => some (.expectKey ((key, v) :: ms) stack)
  | .complete v (.object ms key :: stack), .closeObject =>
    some (.complete (.object ((key, v) :: ms).reverse) stack)
  | _, _ => none

def read (p : Progress) (cs : List Char) : Option Progress :=
  match cs with
  | [] => some p
  | c :: rest =>
    if Token.isBlank c then p.read rest
    else match _h : Token.scan (c :: rest) with
      | none => none
      | some (t, rest') =>
        match p.step t with
        | none => none
        | some q => q.read rest'
termination_by cs.length
decreasing_by
  · simp
  · exact Token.length_lt_of_scan _h

end Progress

def Value.parse? (s : String) : Option Value :=
  match (Progress.expectValue []).read s.toList with
  | some (.complete v []) => some v
  | _ => none

end WireModel.Json
