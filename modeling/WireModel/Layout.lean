import WireModel.Text.Pieces

namespace WireModel

/-- Source text as a tree: lines, and groups that stand one level deeper. -/
inductive Stmt where
  | line (text : String)
  | blank
  | block (opening : String) (body : List Stmt) (closing : String)
  | indent (body : List Stmt)
deriving Repr, BEq, Inhabited

namespace Stmt

/-- A line at a level of indentation, two spaces for each. -/
def indented (level : Nat) (text : String) : String :=
  String.ofList (List.replicate (2 * level) ' ') ++ text

mutual

def lines (level : Nat) : Stmt → List String
  | .line text => [indented level text]
  | .blank => [""]
  | .block opening body closing =>
    indented level opening :: (linesOf (level + 1) body ++ [indented level closing])
  | .indent body => linesOf (level + 1) body

def linesOf (level : Nat) : List Stmt → List String
  | [] => []
  | s :: ss => s.lines level ++ linesOf level ss

end

/-- Texts have fewer bytes, so that a signed word counts them. -/
def byteLimit : Nat :=
  0x8000000000000000

/-- The spaces before a line whose level is a word, unless there are too many of them for a text. -/
def margin? (level : UInt64) : Option String :=
  if 2 * level.toNat < byteLimit then some (String.ofList (List.replicate (2 * level.toNat) ' '))
  else none

mutual

/-- The lines of a statement whose level is a word: the level after the greatest is the first. -/
def lines? (level : UInt64) : Stmt → Option (List String)
  | .line text => do
    let margin ← margin? level
    return [margin ++ text]
  | .blank => some [""]
  | .block opening body closing => do
    let margin ← margin? level
    let inner ← linesOf? (level + 1) body
    return (margin ++ opening) :: (inner ++ [margin ++ closing])
  | .indent body => linesOf? (level + 1) body

def linesOf? (level : UInt64) : List Stmt → Option (List String)
  | [] => some []
  | s :: ss => do
    let first ← s.lines? level
    let rest ← linesOf? level ss
    return first ++ rest

end

def render (stmts : List Stmt) : String :=
  Text.unlines (linesOf 0 stmts)

def braces (opening : String) (body : List Stmt) : Stmt :=
  .block (opening ++ " \x7b") body "\x7d"

/-- Groups of statements one after another with a blank line between neighbours. -/
def spaced : List (List Stmt) → List Stmt
  | [] => []
  | [g] => g
  | g :: gs => g ++ .blank :: spaced gs

end Stmt

def generatedNotice : String :=
  "// Generated by mutproto. Do not edit."

/-- Lines followed by a blank line, nothing if there are none. -/
def paragraph (lines : List String) : List String :=
  if lines = [] then [] else lines ++ [""]

end WireModel
