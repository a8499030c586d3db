import WireModel.Report
import WireModel.Text.Bytes
import WireModel.Text.Pattern

namespace WireModel

inductive FilterFault where
  /-- It does not have the form of a filter. -/
  | malformed
  /-- One of its parts would start or end inside a character. -/
  | torn
deriving DecidableEq, Repr

/-- A value that an event has to carry, perhaps one that looks like a pattern. -/
structure FieldTest where
  name : String
  value : Option String := none
deriving DecidableEq, Repr

/-- How much is logged of some events; a limit of zero is nothing. Without a limit it is all. -/
structure LogRule where
  /-- How the origin of the events starts. -/
  origin : Option String := none
  /-- The span in which the events happen. -/
  span : Option String := none
  /-- What the events carry. -/
  field : Option FieldTest := none
  limit : Nat := Level.trace.rank
deriving DecidableEq, Repr

namespace FieldTest

/-- What follows digits, and whether there are any. -/
def afterDigits (cs : List Char) : Bool × List Char :=
  ((cs.takeWhile Char.isDigit) ≠ [], cs.dropWhile Char.isDigit)

def isExponent : List Char → Bool
  | [] => true
  | c :: cs =>
    (c == 'e' || c == 'E') &&
      match afterDigits (match cs with
        | '+' :: cs | '-' :: cs => cs
        | cs => cs) with
      | (digits, rest) => digits && rest.isEmpty

def isDecimal (cs : List Char) : Bool :=
  match afterDigits cs with
  | (whole, '.' :: cs) =>
    match afterDigits cs with
    | (fraction, cs) => (whole || fraction) && isExponent cs
  | (whole, cs) => whole && isExponent cs

/-- Whether a text is a number without sign, or stands for one that is not finite. -/
def isNumber (cs : List Char) : Bool :=
  isDecimal cs || ["inf", "infinity", "nan"].contains (String.ofList (cs.map Char.toLower))

/-- Whether a value can be looked for: a pattern, or a number with its sign. Other numbers are
patterns. -/
def isValue (s : String) : Bool :=
  Text.isPattern s ||
    match s.toList with
    | '+' :: cs => isNumber cs
    | _ => false

/-- A name, perhaps with a value after an equals sign; what follows a second one is left out. -/
def parse (s : String) : Except FilterFault FieldTest :=
  match Text.splitAt '=' s with
  | name :: value :: _ => if isValue value then .ok ⟨name, some value⟩ else .error .malformed
  | _ => if s = "" then .error .malformed else .ok ⟨s, none⟩

end FieldTest

namespace LogRule

def limit? (s : String) : Option Nat :=
  match String.ofList (s.toList.map Char.toLower) with
  | "off" => some 0
  | "error" => some 1
  | "warn" => some 2
  | "info" => some 3
  | "debug" => some 4
  | "trace" => some 5
  | _ =>
    let digits := match s.toList with
      | '+' :: cs => cs
      | cs => cs
    if digits ≠ [] ∧ digits.all Char.isDigit then
      let n := digits.foldl (fun n c => 10 * n + (c.toNat - '0'.toNat)) 0
      if n ≤ Level.trace.rank then some n else none
    else none

def startsRule (c : Char) : Bool :=
  c == '-' || c == ':' || c == '_' || Text.isAlphanumeric c

def part (whole : List Char) (first last : Nat) : Except FilterFault String :=
  match Text.cut? first last whole with
  | some cs => .ok (String.ofList cs)
  | none => .error .torn

def readLimit (whole : List Char) (r : LogRule) (first : Nat) : Except FilterFault LogRule := do
  match ← part whole first (Text.byteSize whole) with
  | "" => return r
  | s =>
    match limit? s with
    | some limit => return { r with limit := limit }
    | none => .error .malformed

/-- A rule that ends at a place, or goes on with a limit. -/
def readEnd (whole : List Char) (r : LogRule) (first : Nat) :
    List Char → Except FilterFault LogRule
  | [] => .ok r
  | '=' :: _ => readLimit whole r (first + 1)
  | _ => .error .malformed

def readField (whole : List Char) (r : LogRule) (first : Nat) (cs : List Char) :
    Except FilterFault LogRule :=
  let last := first + Text.byteSize (cs.takeWhile (· != '\x7d'))
  match cs.dropWhile (· != '\x7d') with
  | [] => .error .malformed
  | _ :: rest => do
    let field ← FieldTest.parse (← part whole first last)
    match rest with
    | ']' :: rest => readEnd whole { r with field := some field } (last + 2) rest
    | _ => .error .malformed

def continuesSpan (c : Char) : Bool :=
  c != ']' && c != '\x7b'

def readSpan (whole : List Char) (r : LogRule) (first : Nat) (cs : List Char) :
    Except FilterFault LogRule :=
  let last := first + Text.byteSize (cs.takeWhile continuesSpan)
  match cs.dropWhile continuesSpan with
  | [] => .error .malformed
  | ']' :: rest => do
    let span ← part whole first last
    readEnd whole { r with span := some span } (last + 1) rest
  | _ :: rest => do
    let span ← part whole first last
    readField whole { r with span := if span = "" then none else some span } (last + 1) rest

def continuesWord (c : Char) : Bool :=
  c != '=' && c != '['

/-- A rule of a single word: a limit for everything, or an origin that is logged in full. -/
def ofWord (s : String) : LogRule :=
  match limit? s with
  | some limit => { limit := limit }
  | none => { origin := some s }

/-- A rule: a limit for everything, or an origin, a span and a field, with their limit if it is not
all. The places of the parts are found with the blanks at the start left out, and counted in bytes
from the start of the whole text. -/
def parse (s : String) : Except FilterFault LogRule :=
  let whole := s.toList
  match Text.trim whole with
  | [] => .error .malformed
  | '[' :: cs => readSpan whole {} 1 cs
  | c :: cs =>
    if startsRule c then
      let last := Text.byteSize ((c :: cs).takeWhile continuesWord)
      match (c :: cs).dropWhile continuesWord with
      | [] => .ok (ofWord s)
      | '=' :: _ => do
        let origin ← part whole 0 last
        readLimit whole { origin := some origin } (last + 1)
      | _ :: rest => do
        let origin ← part whole 0 last
        readSpan whole { origin := some origin } (last + 1) rest
    else .error .malformed

/-- Whether a rule speaks of an event. No event happens in a span, and values are looked for in
spans only. -/
def appliesTo (r : LogRule) (e : Event) : Bool :=
  r.span.isNone &&
    (match r.origin with
      | some origin => origin.toList.isPrefixOf e.origin.toList
      | none => true) &&
    match r.field with
    | some field => field.value.isNone && e.fieldNames.contains field.name
    | none => true

/-- Whether a rule says less about its events than another: first the longer origin counts, then a
field. -/
def isLessSpecific (r other : LogRule) : Bool :=
  let size (r : LogRule) : Nat := match r.origin with
    | some origin => origin.utf8ByteSize + 1
    | none => 0
  size r < size other || (size r = size other && r.field.isNone && other.field.isSome)

end LogRule

end WireModel
