import WireModel.Generation

namespace WireModel

inductive Level where
  | error
  | warn
  | info
  | debug
  | trace
deriving DecidableEq, Repr

namespace Level

/-- The least level is the most severe. -/
def rank : Level → Nat
  | error => 1
  | warn => 2
  | info => 3
  | debug => 4
  | trace => 5

def label : Level → String
  | error => "ERROR"
  | warn => "WARN"
  | info => "INFO"
  | debug => "DEBUG"
  | trace => "TRACE"

end Level

/-- Something worth telling about a run, with the part of the program that tells it. -/
structure Event where
  level : Level
  origin : String
  message : String
deriving DecidableEq, Repr

/-- Whether a character can steer a terminal by itself; tabs and the ends of lines may. -/
def steersTerminal (c : Char) : Bool :=
  c == '\x07' || c == '\x08' || c == '\x0c' || c == '\x1b' || c == '\x7f'

/-- A character of a message as it is logged, spelled out if it could steer a terminal. -/
def loggedChar (c : Char) : List Char :=
  if steersTerminal c then
    (if c.toNat < 16 then ['\\', 'x', '0'] else ['\\', 'x']) ++ Nat.toDigits 16 c.toNat
  else if 0x80 ≤ c.toNat ∧ c.toNat ≤ 0x9F then
    ['\\', 'u', '\x7b'] ++ Nat.toDigits 16 c.toNat ++ ['\x7d']
  else [c]

namespace Event

def fieldNames (_ : Event) : List String :=
  ["message"]

def line (e : Event) : String :=
  e.level.label ++ " " ++ e.origin ++ ": " ++ String.ofList (e.message.toList.flatMap loggedChar)

end Event

/-- The elements up to and with the first that fails. -/
def upToFailure (ok : α → Bool) : List α → List α
  | [] => []
  | a :: as => if ok a then a :: upToFailure ok as else [a]

namespace Generator

def origin : String := "mutproto_codegen::generator"

def event (level : Level) (message : String) : Event :=
  ⟨level, origin, message⟩

def rpcEvents (g : Generator) : List Event :=
  (upToFailure (fun (label, r) => (g.checkRpc label r).isOk) g.rpcs).map fun (label, _) =>
    event .debug ("Checking rpc " ++ label)

/-- Each enumeration that has to do without a constant for zero. -/
def enumEvents (g : Generator) : List Event :=
  (upToFailure (fun (name, e) => (g.describeEnum name e).isOk) g.schema.enumerations).filterMap
    fun (name, e) =>
      match e.zeroValue? with
      | some zero =>
        if zero.number = 0 then none
        else some (event .warn
          ("Enum " ++ name.text ++ " has no zero value, defaulting to " ++ zero.name))
      | none => none

/-- A message, and each of its properties that can be described. -/
def messageEvents (g : Generator) (name : TypeName) (m : Message) : List Event :=
  event .debug ("Describing message " ++ name.text) ::
    (upToFailure (fun p => (g.describeProperty name p).isOk) m.properties).filterMap fun p =>
      match g.describeProperty name p with
      | .ok f => some (event .debug ("  field " ++ f.spec.name ++ ": " ++ f.spec.shape.describe))
      | .error _ => none

/-- What generation tells, in the order of its steps and up to the first failure. -/
def events (g : Generator) : List Event :=
  g.rpcEvents ++
    if g.checkServices.isOk then
      g.enumEvents ++
        if g.enums.isOk && g.unions.isOk then
          (upToFailure (fun (name, m) => (g.describeScoped name m).isOk) g.schema.messages).flatMap
            fun (name, m) => g.messageEvents name m
        else []
    else []

end Generator

end WireModel
