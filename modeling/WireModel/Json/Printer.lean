import WireModel.Json.Value
import WireModel.Text.Hex

namespace WireModel.Json

/-- A character within a string literal; quotes, backslashes and control characters are escaped. -/
def quotedChar (c : Char) : List Char :=
  if c = '"' then ['\\', '"']
  else if c = '\\' then ['\\', '\\']
  else if c = '\x08' then ['\\', 'b']
  else if c = '\t' then ['\\', 't']
  else if c = '\n' then ['\\', 'n']
  else if c = '\x0c' then ['\\', 'f']
  else if c = '\r' then ['\\', 'r']
  else if c.toNat < 0x20 then
    ['\\', 'u', '0', '0', Text.hexDigit (c.toNat / 16), Text.hexDigit (c.toNat % 16)]
  else [c]

/-- A string literal; what is no text is written as half a surrogate pair. -/
def quoted : Text → String
  | some s => "\"" ++ String.ofList (s.toList.flatMap quotedChar) ++ "\""
  | none => "\"\\ud800\""

namespace Value

mutual

/-- The value without any blanks. -/
def render : Value → String
  | .null => "null"
  | .bool true => "true"
  | .bool false => "false"
  | .number n => n.render
  | .string t => quoted t
  | .array items => "[" ++ renderItems items ++ "]"
  | .object members => "\x7b" ++ renderMembers members ++ "\x7d"

def renderItems : List Value → String
  | [] => ""
  | [v] => v.render
  | v :: vs => v.render ++ "," ++ renderItems vs

def renderMembers : List (Text × Value) → String
  | [] => ""
  | [(key, v)] => quoted key ++ ":" ++ v.render
  | (key, v) :: ms => quoted key ++ ":" ++ v.render ++ "," ++ renderMembers ms

end

end Value

end WireModel.Json
